import VocabPhp.Json.Basic
import VocabPhp.Text.Breaks
import VocabPhp.Text.Reference
import VocabPhp.Vocabulary.Namespace

/-!
# Resources of a vocabulary graph

A node of the graph describes one resource: its identifier, its type tags, and attributes that are
texts or references to other resources.

* `Resource.ofJson`: reads a node, or tells what it lacks.
* `references`: the identifiers that an attribute refers to.
* `displayText`: the text of a label or comment.
-/

namespace VocabPhp

/-! ## Texts and references -/

mutual

/-- The text that a label or comment holds: that of a plain string, of the `@value` of a localized
string, or of the first item of a list. -/
def rawText : Json → String
  | .string s => s
  | .object members => rawValue members
  | .array items => rawFirst items
  | .number n => n.text
  | .bool b => if b then "true" else "false"
  | .null => ""

/-- The text of the first `@value` among members. -/
def rawValue : List (String × Json) → String
  | [] => ""
  | (name, v) :: rest => if name = "@value" then rawText v else rawValue rest

/-- The text of the first item. -/
def rawFirst : List Json → String
  | [] => ""
  | v :: _ => rawText v

end

/-- The text of a label or comment with its character references decoded and, if asked for, its
breaks collapsed. A missing one has the empty text. -/
def displayText (v : Option Json) (collapseBreaks : Bool) : String :=
  let text := Text.Reference.decode ((v.map rawText).getD "")
  if collapseBreaks then Text.Breaks.collapse text else text

/-- The identifier that a reference gives: a bare string, or an object with an `@id`. -/
def reference? : Json → Option String
  | .string s => some s
  | .object members => (members.lookup "@id").bind Json.string?
  | _ => none

/-- The identifiers that an attribute refers to, one or a list of them. What is no reference
contributes nothing. -/
def references : Option Json → List String
  | none => []
  | some (.array items) => items.filterMap reference?
  | some v => (reference? v).toList

/-! ## Nodes -/

/-- What a node lacks to describe a resource. -/
inductive NodeFault
  | notObject
  | noIdentifier
  | noTag (id : String)
  deriving DecidableEq, Repr

/-- The text for a fault. -/
def NodeFault.reason : NodeFault → String
  | notObject => "not an object"
  | noIdentifier => "missing `@id`"
  | noTag id => "entity `" ++ id ++ "` has no `@type`"

/-- A resource: identifier, type tags, and the other members of its node. -/
structure Resource where
  id : String
  tags : List String
  /-- The type tag, if it was written as one string and not as a list. -/
  soleTag : Option String
  attributes : List (String × Json)
  deriving Repr

namespace Resource

/-- The type tags of a node: a string, or the strings of a list. -/
def tagsOf : Option Json → List String
  | some (.string t) => [t]
  | some (.array items) => items.filterMap Json.string?
  | _ => []

/-- Reads the node of a resource. -/
def ofJson (node : Json) : Except NodeFault Resource :=
  match node.object? with
  | none => .error .notObject
  | some members =>
    match (members.lookup "@id").bind Json.string? with
    | none => .error .noIdentifier
    | some id =>
      let type := members.lookup "@type"
      if tagsOf type = [] then .error (.noTag id)
      else .ok {
        id
        tags := tagsOf type
        soleTag := type.bind Json.string?
        attributes := members.filter fun m => m.1 ≠ "@id" ∧ m.1 ≠ "@type" }

/-- The value of an attribute. -/
def attribute? (r : Resource) (name : String) : Option Json := r.attributes.lookup name

/-- The identifiers that an attribute refers to. -/
def referencesOf (r : Resource) (name : String) : List String := references (r.attribute? name)

/-- Tells whether a resource is superseded by another one: whether its marker says anything. -/
def isSuperseded (r : Resource) (ns : Namespace) : Bool :=
  (r.attribute? (ns.term "supersededBy")).any fun v => !v.isEmpty

end Resource

end VocabPhp
