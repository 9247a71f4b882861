import VocabPhp.Vocabulary.Namespace
import VocabPhp.Vocabulary.Release

/-!
# Settings

What the generated code depends on besides the vocabulary.
-/

namespace VocabPhp

/-- The version of the framework that the generated code is for. Only the type of static fields
differs. -/
inductive Dialect
  | craft3
  | craft4
  deriving DecidableEq, Repr

namespace Dialect

/-- The dialect for a major version. -/
def ofVersion? : Nat → Option Dialect
  | 3 => some craft3
  | 4 => some craft4
  | _ => none

/-- The type that is written before the name of a static field, with the space after it. -/
def staticType : Dialect → String
  | craft3 => ""
  | craft4 => "string "

end Dialect

/-- The settings of a run. -/
structure Settings where
  /-- The namespace of the vocabulary. -/
  vocabulary : Namespace := .schemaOrg
  /-- The URL that the name of a class is put after to give its scope. -/
  scopeBase : String := "https://schema.org/"
  /-- What is put before a label that is no class name. -/
  safeLead : String := "Schema"
  /-- The PHP namespace of the generated code. -/
  modelNamespace : String := "nystudio107\\seomatic\\models\\jsonld"
  /-- The base class of the models, with its namespace. -/
  parentModel : String := "nystudio107\\seomatic\\models\\MetaJsonLd"
  /-- The release of the vocabulary, as headers show it. -/
  release : String := Release.unknown
  /-- Leave out what is superseded. -/
  skipSuperseded : Bool := false
  dialect : Dialect := .craft3
  deriving DecidableEq, Repr

namespace Settings

instance : Inhabited Settings := ⟨{}⟩

/-- The scope URL of a class. -/
def scope (s : Settings) (className : String) : String := s.scopeBase ++ className

/-- The characters after the last backslash. -/
def afterLastBackslash (cs : List Char) : List Char :=
  (cs.reverse.takeWhile (· ≠ '\\')).reverse

/-- The base class of the models, without its namespace. -/
def parentName (s : Settings) : String := String.ofList (afterLastBackslash s.parentModel.toList)

end Settings

end VocabPhp
