import VocabPhp.Vocabulary.Resource

/-!
# Class and property declarations

What the generated code needs to know about a resource that is a class or a property.
-/

namespace VocabPhp

/-- A class, or a member of an enumeration in the role of one. -/
structure ClassDecl where
  id : String
  /-- The type tag, if the class has a single one that was not written as a list. -/
  soleTag : Option String
  /-- The label, which names the class. -/
  name : String
  /-- The comment on one line. -/
  description : String
  /-- The comment with its breaks, but without newlines at its end. -/
  rawDescription : String
  /-- The identifiers of the superclasses, as declared. -/
  superclasses : List String
  superseded : Bool
  deriving DecidableEq, Repr

/-- A property that classes may have. -/
structure PropertyDecl where
  id : String
  /-- The label, which names the field. -/
  handle : String
  /-- The comment on one line. -/
  description : String
  /-- The identifiers of the types of its values, as declared. -/
  ranges : List String
  /-- The identifiers of the classes that have the property, as declared. -/
  domains : List String
  superseded : Bool
  deriving DecidableEq, Repr

/-- A text without newlines at its end. -/
def dropFinalNewlines (text : String) : String :=
  String.ofList (text.toList.reverse.dropWhile (· = '\n')).reverse

/-- The class that a resource declares. -/
def ClassDecl.ofResource (ns : Namespace) (r : Resource) : ClassDecl where
  id := r.id
  soleTag := r.soleTag
  name := displayText (r.attribute? "rdfs:label") true
  description := displayText (r.attribute? "rdfs:comment") true
  rawDescription := dropFinalNewlines (displayText (r.attribute? "rdfs:comment") false)
  superclasses := r.referencesOf "rdfs:subClassOf"
  superseded := r.isSuperseded ns

/-- The property that a resource declares. -/
def PropertyDecl.ofResource (ns : Namespace) (r : Resource) : PropertyDecl where
  id := r.id
  handle := displayText (r.attribute? "rdfs:label") true
  description := displayText (r.attribute? "rdfs:comment") true
  ranges := r.referencesOf (ns.term "rangeIncludes")
  domains := r.referencesOf (ns.term "domainIncludes")
  superseded := r.isSuperseded ns

end VocabPhp
