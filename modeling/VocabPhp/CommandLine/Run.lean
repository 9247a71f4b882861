import VocabPhp.CommandLine.Arguments
import VocabPhp.CommandLine.Source
import VocabPhp.Disk.Prepare

/-!
# A run of the command

The command reads a vocabulary, prepares the output directory, puts the tree document next to it if
that is asked for, and generates the files into the directory. The directory is not touched before
every node of the vocabulary has been read and classified.

* `vocabularyOfText`: the vocabulary of a document's text.
* `generateInto`: what a run does with a vocabulary.
* `execute`: a run with given arguments.
* `command`: a run of the command line, with its exit code and what it prints about a failure.
-/

namespace VocabPhp

/-- Why a run failed. -/
inductive Failure
  | source (e : SourceError)
  | document (e : DocumentError)
  | nodes (e : NodeError)
  | prepare (e : PrepareError)
  | tree (e : TreeError)
  | generation (e : GenerationError SaveError)
  deriving DecidableEq, Repr

/-- The text for a failure. -/
def Failure.message : Failure → String
  | source e => e.message ++ e.detail
  | document e => "Failed to parse vocabulary: " ++ e.message
  | nodes e => ingestContext ++ e.message
  | prepare e => e.message
  | tree e => e.message
  | generation e => e.message SaveError.message

/-- The vocabulary of a document's text. -/
def vocabularyOfText (s : Settings) (text : String) : Except Failure Vocabulary :=
  match Vocabulary.ofText s.vocabulary text with
  | .ok v => .ok v
  | .error (.document e) => .error (.document e)
  | .error (.node e) => .error (.nodes e)

/-- The feed of the releases of schema.org. -/
def releasesFeed : String := "https://api.github.com/repos/schemaorg/schemaorg/releases"

/-- The label of the release that headers show. -/
def Arguments.releaseLabel (a : Arguments) (net : Network) : String :=
  a.release.getD (lookupRelease releasesFeed net)

/-- Puts the tree document next to the output directory, if it is asked for. -/
def addTree (wanted : Bool) (dir : Path) (fs : FileSystem) (net : Network) :
    Except TreeError Unit × FileSystem :=
  if wanted then
    match fetchTree dir fs net with
    | (.error e, fs) => (.error e, fs)
    | (.ok _, fs) => (.ok (), fs)
  else (.ok (), fs)

/-- Generates the files of a vocabulary into a directory that is prepared first. -/
def generateInto (s : Settings) (v : Vocabulary) (dir : Path) (treeWanted : Bool) (fs : FileSystem)
    (net : Network) : Except Failure Report × FileSystem :=
  match prepareDirectory dir fs with
  | (.error e, fs) => (.error (.prepare e), fs)
  | (.ok (), fs) =>
    match addTree treeWanted dir fs net with
    | (.error e, fs) => (.error (.tree e), fs)
    | (.ok (), fs) =>
      match generate s v (directorySink dir) fs with
      | (.error e, fs) => (.error (.generation e), fs)
      | (.ok report, fs) => (.ok report, fs)

/-- Runs the command with given arguments. -/
def execute (a : Arguments) (fs : FileSystem) (net : Network) :
    Except Failure Report × FileSystem :=
  let s := a.settings (a.releaseLabel net)
  match loadSource a.source fs net with
  | .error e => (.error (.source e), fs)
  | .ok text =>
    match vocabularyOfText s text with
    | .error e => (.error e, fs)
    | .ok v => generateInto s v (Path.ofText a.outputDir) a.fetchTree fs net

/-- How the command ends. -/
inductive Outcome
  | done
  | failed (line : String)
  | misused
  deriving DecidableEq, Repr

/-- The exit code of an outcome. -/
def Outcome.code : Outcome → Nat
  | done => 0
  | failed _ => 1
  | misused => 2

/-- What the command prints about a failure. -/
def Failure.line (e : Failure) : String := "error: " ++ e.message

/-- Runs a command line. -/
def command (args : List String) (fs : FileSystem) (net : Network := Network.unreachable) :
    Outcome × FileSystem :=
  match Arguments.parse args with
  | .error .help => (.done, fs)
  | .error .usage => (.misused, fs)
  | .ok a =>
    match execute a fs net with
    | (.error e, fs) => (.failed e.line, fs)
    | (.ok _, fs) => (.done, fs)

end VocabPhp
