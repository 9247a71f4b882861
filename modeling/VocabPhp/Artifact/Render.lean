import VocabPhp.Artifact.Layout
import VocabPhp.Model.ClassModel
import VocabPhp.Php.Literal
import VocabPhp.Text.Wrap

/-!
# The text of the generated files

* `renderInterface`, `renderTrait`: the files of a class's own fields.
* `renderModel`: the file of a class model. It only formats what the model holds.

What is put into a slot is never filled itself, so a text of the vocabulary that looks like a slot
comes out as it is.
-/

namespace VocabPhp

/-- The width of a description. -/
def descriptionWidth : Nat := 75

/-- The opening of every file. -/
def renderHeader (s : Settings) : String :=
  Layout.header.fill (.ofList [("namespace", s.modelNamespace)])

/-- The interface that marks a class. -/
def renderInterface (s : Settings) (f : FieldSet) : String :=
  Layout.interfaceFile.fill (.ofList [
    ("header", renderHeader s),
    ("schemaVersion", s.release),
    ("schemaName", f.name),
    ("schemaScope", f.scope),
    ("schemaInterfaceName", Php.interfaceName f.safeName)])

/-- The declaration of a field, with the blank line after it. -/
def renderField (f : Field) : String :=
  Layout.field.fill (.ofList [
    ("propertyDescription", Text.wordWrap f.description descriptionWidth "\n     * "),
    ("propertyType", f.typeUnion),
    ("propertyHandle", f.handle)])

/-- Drops the last newline of a text that ends in a blank line. -/
def dropBlankLine (text : String) : String :=
  match text.toList.reverse with
  | '\n' :: '\n' :: cs => String.ofList ('\n' :: cs).reverse
  | _ => text

/-- The declarations of fields, with a blank line between them. -/
def renderFields (fields : List Field) : String :=
  dropBlankLine (String.join (fields.map renderField))

/-- The trait that holds the fields of a class. -/
def renderTrait (s : Settings) (f : FieldSet) : String :=
  Layout.traitFile.fill (.ofList [
    ("header", renderHeader s),
    ("schemaVersion", s.release),
    ("schemaName", f.name),
    ("schemaScope", f.scope),
    ("schemaTraitName", Php.traitName f.safeName),
    ("schemaPropertiesAsFields", renderFields f.fields)])

/-- The indentation of the array literals in a model. -/
def arrayIndent : Nat := 8

/-- The line that a model takes up a trait with. -/
def useTrait (className : String) : String := "    use " ++ Php.traitName className ++ ";\n"

/-- The slots of a model. -/
def modelSlots (s : Settings) (m : ClassModel) : Slots := .ofList [
  ("header", renderHeader s),
  ("parentModel", s.parentModel),
  ("parentModelName", s.parentName),
  ("schemaVersion", s.release),
  ("schemaName", m.name),
  ("schemaDescription", Text.wordWrap m.description descriptionWidth "\n * "),
  ("schemaScope", m.scope),
  ("schemaClass", m.safeName),
  ("schemaInterfaces", ", ".intercalate (m.safeChain.map Php.interfaceName)),
  ("schemaTraits", String.join (m.safeChain.map useTrait)),
  ("staticType", s.dialect.staticType),
  ("schemaTypeName", Php.quote m.name),
  ("schemaTypeScope", Php.quote m.scope),
  ("schemaTypeExtends", Php.quote m.superclass),
  ("schemaTypeDescription", Php.quote m.rawDescription),
  ("schemaPropertyNames", Php.list m.handles),
  ("schemaPropertyExpectedTypes",
    Php.map (m.fields.map fun f => (f.handle, Php.list f.ranges)) arrayIndent),
  ("schemaPropertyDescriptions",
    Php.map (m.fields.map fun f => (f.handle, Php.quote f.description)) arrayIndent),
  ("googleRequiredSchema", Php.list m.rules.required),
  ("googleRecommendedSchema", Php.list m.rules.recommended)]

/-- The model of a class. -/
def renderModel (s : Settings) (m : ClassModel) : String := Layout.modelFile.fill (modelSlots s m)

end VocabPhp
