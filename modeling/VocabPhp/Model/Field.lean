import VocabPhp.Php.Name
import VocabPhp.Php.Types
import VocabPhp.Settings
import VocabPhp.Table
import VocabPhp.Vocabulary.Declaration

/-!
# Fields of classes

A property becomes a field of every class that it is attached to. A `FieldSet` holds the fields that
a class declares itself, sorted by handle. The fields of a class with its ancestors are merged along
the chain of their names.

* `Field.ofProperty`: ranges outside the namespace are dropped.
* `FieldSet.ofClass`: properties with the same handle stay in the order in which they come.
* `mergeFields`: for each handle the first field along the chain, sorted by handle.
-/

namespace VocabPhp

/-- A field of a class. -/
structure Field where
  handle : String
  description : String
  /-- The local names of the types of its values. -/
  ranges : List String
  /-- The PHP types of its values. -/
  phpTypes : List String
  deriving DecidableEq, Repr

namespace Field

/-- The field of a property. -/
def ofProperty (ns : Namespace) (p : PropertyDecl) : Field :=
  let ranges := p.ranges.filterMap ns.localName?
  { handle := p.handle, description := p.description, ranges, phpTypes := Php.types ranges }

/-- The PHP types of the values, as a union. -/
def typeUnion (f : Field) : String := "|".intercalate f.phpTypes

end Field

/-- The fields that a class declares itself, with what its trait and interface show. -/
structure FieldSet where
  name : String
  /-- The name of the generated class. -/
  safeName : String
  description : String
  scope : String
  fields : List Field
  deriving DecidableEq, Repr

/-- Sorts fields by handle. Fields with the same handle keep their order. -/
def sortByHandle (fields : List Field) : List Field :=
  fields.mergeSort fun a b => a.handle ≤ b.handle

/-- The fields of a class, for the properties attached to it. -/
def FieldSet.ofClass (s : Settings) (c : ClassDecl) (properties : List PropertyDecl) :
    FieldSet where
  name := c.name
  safeName := Php.safeName c.name s.safeLead
  description := c.description
  scope := s.scope c.name
  fields := sortByHandle (properties.map (Field.ofProperty s.vocabulary))

/-- Adds a field unless its handle is taken. -/
def addField (t : Table Field) (f : Field) : Table Field :=
  if t.contains f.handle then t else t.insert f.handle f

/-- The fields of the classes on a chain, in the order of the chain. Names without fields of their
own contribute nothing. -/
def fieldsAlong (chain : List String) (sets : Table FieldSet) : List Field :=
  (chain.filterMap sets.find?).flatMap FieldSet.fields

/-- The fields of the classes on a chain. For each handle the first one stays. -/
def mergeFields (chain : List String) (sets : Table FieldSet) : List Field :=
  ((fieldsAlong chain sets).foldl addField ∅).values

end VocabPhp
