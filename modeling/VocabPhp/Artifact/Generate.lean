import VocabPhp.Artifact.Plan
import VocabPhp.Vocabulary.Document

/-!
# Generating files into a sink

A sink takes files one by one and may refuse one, which ends the run. A run goes through the classes
of the namespace twice. First it saves trait and interface of each class and keeps the class's own
fields in a table; then it saves the models, which merge the fields in that table. All chains are
walked before, so nothing is saved of a vocabulary whose hierarchy has a cycle.

* `Report.save`: offers a file to a sink and notes its name.
* `declare`, `present`: what is saved for a class, the first and the second time.
* `saveClasses`: both passes through the classes.
* `generate`, `generateFromDocument`: a run on a vocabulary, and on a document.
* `Shelf`: a sink that keeps the files in memory and refuses none.
-/

namespace VocabPhp

/-- A sink with states of type `σ`, whose refusals give a cause of type `ε`. -/
abbrev Sink (σ ε : Type) := Artifact → σ → Except ε Unit × σ

/-- Why a run failed. -/
inductive GenerationError (ε : Type)
  | cycle (c : Cycle)
  | save (file : String) (cause : ε)
  deriving DecidableEq, Repr

/-- The text for an error, for the text of a cause. -/
def GenerationError.message {ε : Type} (causeText : ε → String) : GenerationError ε → String
  | cycle c => c.message
  | save file cause => "Failed to save " ++ file ++ ": " ++ causeText cause

/-- A part of a run: it offers files to a sink with states of type `σ`, and fails with the first
that is refused. -/
abbrev Saving (σ ε : Type) := ExceptT (GenerationError ε) (StateM σ)

section

variable {σ ε : Type}

/-- Offers a file to a sink, and notes its name if it is taken. -/
def Report.save (sink : Sink σ ε) (r : Report) (a : Artifact) : Saving σ ε Report := fun st =>
  match sink a st with
  | (.error cause, st) => (.error (.save a.name cause), st)
  | (.ok (), st) => (.ok { r with files := r.files ++ [a.name] }, st)

/-- What a run has come to when it has gone through some classes for the first time. -/
structure Declared where
  report : Report
  /-- The fields of these classes, by class name. -/
  sets : Table FieldSet

/-- Saves trait and interface of a class, and keeps its fields. -/
def declare (s : Settings) (v : Vocabulary) (sink : Sink σ ε) (d : Declared) (c : ClassDecl) :
    Saving σ ε Declared := do
  let fields := v.fieldSet s c
  let report ← d.report.save sink (Plan.traitFile s fields)
  let report := { report with traits := report.traits + 1 }
  let report ← report.save sink (Plan.interfaceFile s fields)
  let report := { report with interfaces := report.interfaces + 1 }
  return { report, sets := d.sets.insert fields.name fields }

/-- Saves the model of a class, for its chain and the fields of all classes. -/
def present (s : Settings) (sets : Table FieldSet) (sink : Sink σ ε) (report : Report)
    (c : Plan.Chained) : Saving σ ε Report := do
  let report ← report.save sink (Plan.modelFile s (.resolve s c.decl c.chain sets))
  return { report with models := report.models + 1 }

/-- Saves the files of all classes of the namespace, given their chains. -/
def saveClasses (s : Settings) (v : Vocabulary) (sink : Sink σ ε) (chained : List Plan.Chained)
    (report : Report) : Saving σ ε Report := do
  let declared ← (v.namespaced s).foldlM (declare s v sink) { report, sets := ∅ }
  chained.foldlM (present s declared.sets sink) declared.report

/-- Generates the files of a vocabulary into a sink. -/
def generate (s : Settings) (v : Vocabulary) (sink : Sink σ ε) (st : σ) :
    Except (GenerationError ε) Report × σ :=
  let report : Report := { superseded := v.superseded.size }
  let shown := v.selected s
  match Plan.chains (shown.hierarchy s) (shown.namespaced s) with
  | .error c => (.error (.cycle c), st)
  | .ok chained => (saveClasses s shown sink chained report).run.run st

end

/-- Why a run on a document failed. -/
inductive DocumentRunError (ε : Type)
  | vocabulary (e : VocabularyError)
  | generation (e : GenerationError ε)
  deriving DecidableEq, Repr

/-- What stands before the text of an error in the nodes of a graph. -/
def ingestContext : String := "Failed to ingest vocabulary: "

/-- The text for an error, for the text of a cause. -/
def DocumentRunError.message {ε : Type} (causeText : ε → String) : DocumentRunError ε → String
  | vocabulary e => ingestContext ++ e.message
  | generation e => e.message causeText

/-- Generates the files of a document's vocabulary into a sink. -/
def generateFromDocument {σ ε : Type} (s : Settings) (document : Json) (sink : Sink σ ε) (st : σ) :
    Except (DocumentRunError ε) Report × σ :=
  match Vocabulary.ofDocument s.vocabulary document with
  | .error e => (.error (.vocabulary e), st)
  | .ok v =>
    match generate s v sink st with
    | (.error e, st) => (.error (.generation e), st)
    | (.ok report, st) => (.ok report, st)

/-- Files in memory, by name. -/
abbrev Shelf := Table String

/-- Puts a file on the shelf, in place of one with the same name. -/
def Shelf.sink {ε : Type} : Sink Shelf ε := fun a shelf => (.ok (), shelf.insert a.name a.content)

end VocabPhp
