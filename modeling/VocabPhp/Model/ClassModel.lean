import VocabPhp.Model.Field
import VocabPhp.Model.SearchRules

/-!
# Class models

All that the model of a class shows, with everything inherited in place.
-/

namespace VocabPhp

/-- What the model of a class shows. -/
structure ClassModel where
  name : String
  /-- The name of the generated class. -/
  safeName : String
  description : String
  rawDescription : String
  scope : String
  /-- The chain of names: the class and then its ancestors. -/
  chain : List String
  /-- The names of the generated classes along the chain. -/
  safeChain : List String
  rules : SearchRules
  /-- The own and inherited fields, sorted by handle. -/
  fields : List Field
  deriving DecidableEq, Repr

namespace ClassModel

/-- The model of a class, for its chain and the fields of all classes. -/
def resolve (s : Settings) (c : ClassDecl) (chain : List String) (sets : Table FieldSet) :
    ClassModel where
  name := c.name
  safeName := Php.safeName c.name s.safeLead
  description := c.description
  rawDescription := c.rawDescription
  scope := s.scope c.name
  chain := chain
  safeChain := chain.map fun name => Php.safeName name s.safeLead
  rules := .ofChain chain
  fields := mergeFields chain sets

/-- The name of the superclass: the nearest ancestor, and `Thing` for a class without one. -/
def superclass (m : ClassModel) : String := m.chain[1]?.getD "Thing"

/-- The handles of all fields. -/
def handles (m : ClassModel) : List String := m.fields.map Field.handle

end ClassModel

end VocabPhp
