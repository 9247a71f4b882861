import VocabPhp.Table
import VocabPhp.Vocabulary.Declaration

/-!
# The vocabulary of a graph

Every type tag of a resource gives it a role: a property, a class, or a member of an enumeration,
which is a class in its own right. A `Vocabulary` records the roles of all resources of a graph.

* `rolesOf`: the roles of a resource, or its first tag that gives none.
* `Vocabulary.ofNodes`: the vocabulary of a list of nodes, or what is wrong with the first node
  that cannot be used. Nodes are read before anything is recorded; recording cannot fail.
* `Vocabulary.withoutSuperseded`: the vocabulary without what is superseded.
-/

namespace VocabPhp

/-- What a type tag makes of a resource. -/
inductive Role
  | propertyRole
  | classRole
  | memberRole (tag : String)
  deriving DecidableEq, Repr

/-- Why a node cannot be used. -/
inductive NodeError
  | malformed (index : Nat) (fault : NodeFault)
  | unclassified (tag id : String)
  deriving DecidableEq, Repr

/-- The text for an error. -/
def NodeError.message : NodeError → String
  | malformed index fault => s!"malformed graph node at index {index}: " ++ fault.reason
  | unclassified tag id => "cannot handle type `" ++ tag ++ "` on entity `" ++ id ++ "`"

/-- The role that a type tag gives. Besides the two markers, every tag inside the namespace is the
class that the resource is a member of. -/
def roleOf? (ns : Namespace) (tag : String) : Option Role :=
  if tag = "rdf:Property" then some .propertyRole
  else if tag = "rdfs:Class" then some .classRole
  else if ns.contains tag then some (.memberRole tag)
  else none

/-- The roles that type tags give to the resource `id`. -/
def rolesOfTags (ns : Namespace) (id : String) : List String → Except NodeError (List Role)
  | [] => .ok []
  | tag :: tags =>
    match roleOf? ns tag with
    | none => .error (.unclassified tag id)
    | some role =>
      match rolesOfTags ns id tags with
      | .error e => .error e
      | .ok roles => .ok (role :: roles)

/-- A resource with its roles. -/
structure Classified where
  resource : Resource
  roles : List Role
  deriving Repr

/-- Reads the node of a resource at a place of the graph. -/
def readNode (index : Nat) (node : Json) : Except NodeError Resource :=
  match Resource.ofJson node with
  | .error fault => .error (.malformed index fault)
  | .ok r => .ok r

/-- Reads a node and classifies its resource. -/
def classify (ns : Namespace) (index : Nat) (node : Json) : Except NodeError Classified :=
  match readNode index node with
  | .error e => .error e
  | .ok r =>
    match rolesOfTags ns r.id r.tags with
    | .error e => .error e
    | .ok roles => .ok ⟨r, roles⟩

/-- Reads and classifies the nodes of a graph, the first of which is at place `index`. -/
def classifyFrom (ns : Namespace) (index : Nat) : List Json → Except NodeError (List Classified)
  | [] => .ok []
  | node :: nodes =>
    match classify ns index node with
    | .error e => .error e
    | .ok c =>
      match classifyFrom ns (index + 1) nodes with
      | .error e => .error e
      | .ok cs => .ok (c :: cs)

/-- What a graph says about classes and properties. -/
structure Vocabulary where
  /-- The classes, by identifier. -/
  classes : Table ClassDecl
  /-- The properties of each class, by their identifiers, by the identifier of the class. -/
  attached : Table (Table PropertyDecl)
  /-- The members of each enumeration, in the order of the graph. -/
  members : Table (List String)
  /-- The identifiers of all superseded resources. -/
  superseded : NameSet
  deriving DecidableEq, Repr

namespace Vocabulary

/-- The vocabulary of an empty graph. -/
def empty : Vocabulary := ⟨∅, ∅, ∅, ∅⟩

instance : EmptyCollection Vocabulary := ⟨empty⟩

instance : Inhabited Vocabulary := ⟨empty⟩

/-- The properties of a class, if it has any. -/
def propertiesOf? (v : Vocabulary) (id : String) : Option (Table PropertyDecl) :=
  v.attached.find? id

/-- Puts a property among those of a class. -/
def attach (p : PropertyDecl) (t : Table (Table PropertyDecl)) (domain : String) :
    Table (Table PropertyDecl) :=
  t.insert domain (((t.find? domain).getD ∅).insert p.id p)

/-- Puts an identifier at the end of the members of an enumeration, unless it is one already. -/
def enroll (id tag : String) (t : Table (List String)) : Table (List String) :=
  let ids := (t.find? tag).getD []
  t.insert tag (if id ∈ ids then ids else ids ++ [id])

/-- Records one role of a resource. A property goes to every class of its domain; one without a
domain is dropped. -/
def recordRole (ns : Namespace) (r : Resource) (v : Vocabulary) : Role → Vocabulary
  | .propertyRole =>
    let p := PropertyDecl.ofResource ns r
    { v with attached := p.domains.foldl (attach p) v.attached }
  | .classRole => { v with classes := v.classes.insert r.id (.ofResource ns r) }
  | .memberRole tag =>
    { v with
      classes := v.classes.insert r.id (.ofResource ns r)
      members := enroll r.id tag v.members }

/-- Records whether a resource is superseded. -/
def recordSuperseded (ns : Namespace) (r : Resource) (v : Vocabulary) : Vocabulary :=
  if r.isSuperseded ns then { v with superseded := v.superseded.add r.id } else v

/-- Records a resource in all its roles. -/
def record (ns : Namespace) (v : Vocabulary) (c : Classified) : Vocabulary :=
  c.roles.foldl (recordRole ns c.resource) (recordSuperseded ns c.resource v)

/-- The vocabulary of the nodes of a graph. -/
def ofNodes (ns : Namespace) (nodes : List Json) : Except NodeError Vocabulary :=
  match classifyFrom ns 0 nodes with
  | .error e => .error e
  | .ok cs => .ok (cs.foldl (record ns) empty)

/-- The vocabulary without superseded classes, properties and members, and without the groups that
this leaves empty. The set of what is superseded stays. -/
def withoutSuperseded (v : Vocabulary) : Vocabulary :=
  let stays (id : String) : Bool := !v.superseded.contains id
  { v with
    classes := v.classes.filter fun id _ => stays id
    attached :=
      (v.attached.mapValues fun _ ps => ps.filter fun id _ => stays id).filter fun _ ps =>
        !ps.isEmpty
    members :=
      (v.members.mapValues fun _ ids => ids.filter stays).filter fun _ ids => !ids.isEmpty }

end Vocabulary

end VocabPhp
