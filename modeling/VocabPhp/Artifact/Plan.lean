import VocabPhp.Artifact.Render
import VocabPhp.Vocabulary.Hierarchy

/-!
# The plan of a run

A run generates three files for each class of the namespace. Which files, with which contents and in
which order, depends on vocabulary and settings alone: first trait and interface of every class, in
the order of the class identifiers, and then the models in the same order.

* `Plan.ofVocabulary`: the plan, or the cycle that the first class with one runs into.
-/

namespace VocabPhp

/-- A generated file. -/
structure Artifact where
  name : String
  content : String
  deriving DecidableEq, Repr

/-- What a run did. -/
structure Report where
  interfaces : Nat := 0
  traits : Nat := 0
  models : Nat := 0
  /-- The number of superseded resources of the vocabulary. -/
  superseded : Nat := 0
  /-- The names of the files, in the order in which they were saved. -/
  files : List String := []
  deriving DecidableEq, Repr

/-- What a run is going to save. -/
structure Plan where
  /-- Trait and interface of every class. -/
  declarations : List Artifact
  models : List Artifact
  /-- The number of classes. -/
  classes : Nat
  /-- The number of superseded resources of the vocabulary. -/
  superseded : Nat
  deriving DecidableEq, Repr

namespace Plan

/-- All files, in the order in which they are saved. -/
def artifacts (p : Plan) : List Artifact := p.declarations ++ p.models

/-- The report of a run that saved all files. -/
def report (p : Plan) : Report :=
  { interfaces := p.classes, traits := p.classes, models := p.classes,
    superseded := p.superseded, files := p.artifacts.map Artifact.name }

end Plan

/-- A vocabulary without superseded resources, if they are to be skipped. -/
def Vocabulary.selected (s : Settings) (v : Vocabulary) : Vocabulary :=
  if s.skipSuperseded then v.withoutSuperseded else v

/-- The classes of the namespace, in the order of their identifiers. -/
def Vocabulary.namespaced (s : Settings) (v : Vocabulary) : List ClassDecl :=
  Hierarchy.namespaced s.vocabulary v.classes

/-- The hierarchy of the namespace. -/
def Vocabulary.hierarchy (s : Settings) (v : Vocabulary) : Hierarchy :=
  .ofClasses s.vocabulary v.classes

/-- The fields that a class declares itself. -/
def Vocabulary.fieldSet (s : Settings) (v : Vocabulary) (c : ClassDecl) : FieldSet :=
  .ofClass s c (((v.propertiesOf? c.id).map Table.values).getD [])

/-- The fields of all classes, by class name; of several classes with one name the last one's. -/
def Vocabulary.fieldSets (s : Settings) (v : Vocabulary) : Table FieldSet :=
  .ofList ((v.namespaced s).map fun c => (c.name, v.fieldSet s c))

namespace Plan

/-- A class with its chain of names, the class itself first. -/
structure Chained where
  decl : ClassDecl
  chain : List String
  deriving DecidableEq, Repr

/-- The chains of classes, or the cycle that the first class with one runs into. -/
def chains (h : Hierarchy) : List ClassDecl → Except Cycle (List Chained)
  | [] => .ok []
  | c :: cs =>
    match h.ancestors c.name with
    | .error e => .error e
    | .ok names =>
      match chains h cs with
      | .error e => .error e
      | .ok rest => .ok (⟨c, c.name :: names⟩ :: rest)

/-- The file of the trait that holds a class's own fields. -/
def traitFile (s : Settings) (f : FieldSet) : Artifact :=
  ⟨Php.traitName f.safeName ++ ".php", renderTrait s f⟩

/-- The file of the interface that marks a class. -/
def interfaceFile (s : Settings) (f : FieldSet) : Artifact :=
  ⟨Php.interfaceName f.safeName ++ ".php", renderInterface s f⟩

/-- The files of a class's own fields: trait and interface. -/
def declarationsOf (s : Settings) (f : FieldSet) : List Artifact :=
  [traitFile s f, interfaceFile s f]

/-- The file of a class model. -/
def modelFile (s : Settings) (m : ClassModel) : Artifact := ⟨m.safeName ++ ".php", renderModel s m⟩

/-- The plan for a vocabulary. -/
def ofVocabulary (s : Settings) (v : Vocabulary) : Except Cycle Plan :=
  let shown := v.selected s
  match chains (shown.hierarchy s) (shown.namespaced s) with
  | .error c => .error c
  | .ok chained =>
    let sets := shown.fieldSets s
    .ok {
      declarations := (shown.namespaced s).flatMap fun c => declarationsOf s (shown.fieldSet s c)
      models := chained.map fun c => modelFile s (.resolve s c.decl c.chain sets)
      classes := (shown.namespaced s).length
      superseded := v.superseded.size }

end Plan

end VocabPhp
