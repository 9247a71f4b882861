import VocabPhp.Settings

/-!
# Arguments of the command line

The command takes a source and an output directory, both optional, and options. An option is written
long (`--release r`, `--release=r`) or short (`-c 4`, `-c4`, `-c=4`), and short ones without a value
can be written together (`-sc4`). After `--` every argument is a position. No option may be
repeated.

* `Arguments.parse`: the arguments, or why the command stops instead of running. Arguments are
  looked at from left to right, and the first fault or request for help counts.
-/

namespace VocabPhp

/-- What a run of the command is asked for. -/
structure Arguments where
  source : String
  outputDir : String
  skipSuperseded : Bool
  dialect : Dialect
  /-- The label of the release; without one it is looked up. -/
  release : Option String
  fetchTree : Bool
  deriving DecidableEq, Repr

/-- Why the command stops instead of running. -/
inductive Stop
  | help
  | usage
  deriving DecidableEq, Repr

namespace Arguments

/-- The vocabulary that is read if no source is given. -/
def defaultSource : String := "https://schema.org/version/latest/schemaorg-current-https.jsonld"

/-- The directory that is written to if none is given. -/
def defaultOutputDir : String := "dist/jsonld"

/-- The arguments that have been read so far. -/
structure Given where
  source : Option String := none
  outputDir : Option String := none
  skipSuperseded : Bool := false
  dialect : Option Dialect := none
  release : Option String := none
  fetchTree : Bool := false
  deriving DecidableEq, Repr

namespace Given

/-- The arguments, with a default for each that is not given. -/
def complete (g : Given) : Arguments :=
  { source := g.source.getD defaultSource, outputDir := g.outputDir.getD defaultOutputDir,
    skipSuperseded := g.skipSuperseded, dialect := g.dialect.getD .craft3, release := g.release,
    fetchTree := g.fetchTree }

/-- The number of a version: decimal digits, perhaps behind a plus sign. -/
def versionNumber? (text : String) : Option Nat :=
  let ds := match text.toList with
    | '+' :: cs => cs
    | cs => cs
  if ds = [] ∨ !ds.all Char.isDigit then none
  else some (ds.foldl (fun n d => n * 10 + (d.toNat - 48)) 0)

/-- Takes the next position. The output directory may not be empty. -/
def position (g : Given) (text : String) : Except Stop Given :=
  match g.source, g.outputDir with
  | none, _ => .ok { g with source := some text }
  | some _, none => if text = "" then .error .usage else .ok { g with outputDir := some text }
  | some _, some _ => .error .usage

/-- Takes the flag that leaves out what is superseded. -/
def flagSkip (g : Given) : Except Stop Given :=
  if g.skipSuperseded then .error .usage else .ok { g with skipSuperseded := true }

/-- Takes the flag that asks for the tree document. -/
def flagTree (g : Given) : Except Stop Given :=
  if g.fetchTree then .error .usage else .ok { g with fetchTree := true }

/-- Takes the version. -/
def version (g : Given) (text : String) : Except Stop Given :=
  match g.dialect, (versionNumber? text).bind Dialect.ofVersion? with
  | none, some d => .ok { g with dialect := some d }
  | _, _ => .error .usage

/-- Takes the release label. -/
def label (g : Given) (text : String) : Except Stop Given :=
  if g.release.isSome then .error .usage else .ok { g with release := some text }

/-- Takes options written together behind one hyphen. Tells whether the version is still to come, as
the next argument. -/
def shortOptions (g : Given) : List Char → Except Stop (Given × Bool)
  | [] => .ok (g, false)
  | 's' :: cs =>
    match g.flagSkip with
    | .error e => .error e
    | .ok g => shortOptions g cs
  | ['c'] => .ok (g, true)
  | 'c' :: '=' :: cs => (g.version (String.ofList cs)).map (·, false)
  | 'c' :: cs => (g.version (String.ofList cs)).map (·, false)
  | 'h' :: _ => .error .help
  | _ => .error .usage

/-- The value of an option in an argument of its own. What looks like an option is none. -/
def ownValue : List String → Except Stop (String × List String)
  | [] => .error .usage
  | v :: rest => if v.toList.head? = some '-' ∧ v ≠ "-" then .error .usage else .ok (v, rest)

theorem length_ownValue {v : String} {args rest : List String} (h : ownValue args = .ok (v, rest)) :
    rest.length < args.length := by
  cases args with
  | nil => simp [ownValue] at h
  | cons a as =>
    rw [ownValue] at h
    split at h
    · simp at h
    · cases h; simp

/-- An option that takes a value. -/
inductive Valued
  | version
  | label
  deriving DecidableEq, Repr

/-- Takes the value of an option. -/
def take (g : Given) : Valued → String → Except Stop Given
  | .version, text => g.version text
  | .label, text => g.label text

/-- What an option written long does: it is taken, or it waits for its value. -/
inductive LongOption
  | taken (g : Given)
  | waits (option : Valued)

/-- Takes a long option, by its name and the value written behind an equals sign. -/
def longOption (g : Given) (name : String) (value : Option String) : Except Stop LongOption :=
  let valued (option : Valued) : Except Stop LongOption :=
    match value with
    | none => .ok (.waits option)
    | some v => (g.take option v).map .taken
  match name, value with
  | "release", _ => valued .label
  | "craft-version", _ => valued .version
  | "skip-superseded", none => g.flagSkip.map .taken
  | "fetch-tree", none => g.flagTree.map .taken
  | "help", none => .error .help
  | _, _ => .error .usage

/-- The name of a long option and the value behind its first equals sign. -/
def splitOption (cs : List Char) : String × Option String :=
  let value := match cs.dropWhile (· ≠ '=') with
    | [] => none
    | _ :: v => some (String.ofList v)
  (String.ofList (cs.takeWhile (· ≠ '=')), value)

/-- Takes all arguments as positions. -/
def positions (g : Given) : List String → Except Stop Given
  | [] => .ok g
  | a :: rest =>
    match g.position a with
    | .error e => .error e
    | .ok g => positions g rest

/-- Takes an option's value from the arguments after it, and then the others with `next`. -/
def withOwnValue (g : Given) (option : Valued) (args : List String)
    (next : Given → (rest : List String) → rest.length < args.length → Except Stop Given) :
    Except Stop Given :=
  match h : ownValue args with
  | .error e => .error e
  | .ok (v, rest) =>
    match g.take option v with
    | .error e => .error e
    | .ok g => next g rest (length_ownValue h)

/-- Takes arguments from left to right. -/
def read (g : Given) (args : List String) : Except Stop Given :=
  match args with
  | [] => .ok g
  | a :: rest =>
    match a.toList with
    | ['-', '-'] => positions g rest
    | '-' :: '-' :: cs =>
      match g.longOption (splitOption cs).1 (splitOption cs).2 with
      | .error e => .error e
      | .ok (.taken g) => read g rest
      | .ok (.waits option) => g.withOwnValue option rest fun g rest' _ => read g rest'
    | '-' :: c :: cs =>
      match g.shortOptions (c :: cs) with
      | .error e => .error e
      | .ok (g, false) => read g rest
      | .ok (g, true) => g.withOwnValue .version rest fun g rest' _ => read g rest'
    | _ =>
      match g.position a with
      | .error e => .error e
      | .ok g => read g rest
termination_by args.length
decreasing_by all_goals simp_wf <;> omega

end Given

/-- The arguments of a command line. -/
def parse (args : List String) : Except Stop Arguments := (Given.read {} args).map Given.complete

/-- The settings of a run, for the label of the release. -/
def settings (a : Arguments) (release : String) : Settings :=
  { release, skipSuperseded := a.skipSuperseded, dialect := a.dialect }

end Arguments

end VocabPhp
