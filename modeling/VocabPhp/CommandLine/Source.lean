import VocabPhp.Disk.Save
import VocabPhp.Vocabulary.Release

/-!
# Sources of a vocabulary

A source is the URL of a document or the path of a file. The label of a release and the tree
document come from the network, too. What the network answers is a parameter; without one it cannot
be reached.

* `Network`, `fetchText`: the network, and the text behind a URL.
* `loadSource`: the text of a source.
* `lookupRelease`: the label of the newest release of a feed.
* `fetchTree`: puts the tree document next to the output directory.
-/

namespace VocabPhp

/-! ## The network -/

/-- What comes of a request. -/
inductive Response
  /-- No client could be set up to make the request. -/
  | noClient
  /-- The request got no answer. -/
  | noAnswer
  /-- An answer with the text of its body, unless that could not be read. -/
  | answer (status : Nat) (body : Option String)
  deriving DecidableEq, Repr

/-- A network, by what comes of a request for each URL. -/
abbrev Network := String → Response

/-- No request gets an answer. -/
def Network.unreachable : Network := fun _ => .noAnswer

/-- Why there is no text behind a URL. -/
inductive FetchError
  | client
  | request (url : String)
  | body (url : String)
  deriving DecidableEq, Repr

/-- The text for an error. For want of a client there is none but that of the system. -/
def FetchError.message : FetchError → String
  | client => ""
  | request url => "Failed to fetch " ++ url
  | body url => "Failed to read response body from " ++ url

/-- Tells whether a status is that of an error, of the client or of the server. -/
def isErrorStatus (status : Nat) : Bool := 400 ≤ status && status < 600

/-- The text behind a URL. -/
def fetchText (url : String) (net : Network) : Except FetchError String :=
  match net url with
  | .noClient => .error .client
  | .noAnswer => .error (.request url)
  | .answer status body =>
    if isErrorStatus status then .error (.request url)
    else
      match body with
      | none => .error (.body url)
      | some text => .ok text

/-! ## Vocabularies -/

/-- Tells whether a source is a URL. -/
def isRemote (source : String) : Bool :=
  "http://".toList.isPrefixOf source.toList || "https://".toList.isPrefixOf source.toList

/-- Why a source has no text. -/
inductive SourceError
  | fetch (e : FetchError)
  | unreadable (path : String)
  | notText (path : String)
  deriving DecidableEq, Repr

/-- The text for an error. -/
def SourceError.message : SourceError → String
  | fetch e => e.message
  | unreadable path => "Failed to read " ++ path
  | notText path => "Failed to read " ++ path

/-- What the command adds to the text of an error. -/
def SourceError.detail : SourceError → String
  | notText _ => ": stream did not contain valid UTF-8"
  | _ => ""

/-- The text of bytes that were read from a source. -/
def textOfBytes (path : String) (bytes : ByteArray) : Except SourceError String :=
  match String.fromUTF8? bytes with
  | some text => .ok text
  | none => .error (.notText path)

/-- The text of a source. -/
def loadSource (source : String) (fs : FileSystem) (net : Network := Network.unreachable) :
    Except SourceError String :=
  if isRemote source then
    match fetchText source net with
    | .error e => .error (.fetch e)
    | .ok text => .ok text
  else
    match fs.readBytes (Path.ofText source) with
    | .error _ => .error (.unreadable source)
    | .ok bytes => textOfBytes source bytes

/-! ## Releases -/

/-- The label of the newest release of a feed. It is not known if the feed cannot be fetched or
read, or lists no release. -/
def lookupRelease (url : String) (net : Network := Network.unreachable) : String :=
  match fetchText url net with
  | .error _ => Release.unknown
  | .ok feed =>
    match Release.newest feed with
    | .ok (some label) => label
    | .ok none => Release.unknown
    | .error _ => Release.unknown

/-! ## The tree document -/

/-- The tree document of schema.org. -/
def treeUrl : String := "https://schema.org/docs/tree.jsonld"

/-- Why the tree document is not there. -/
inductive TreeError
  | fetch (e : FetchError)
  | write (e : SaveError)
  deriving DecidableEq, Repr

/-- The text for an error. -/
def TreeError.message : TreeError → String
  | fetch e => e.message
  | write e => e.message

/-- Fetches the tree document and puts it next to the output directory. Gives its path. -/
def fetchTree (outputDir : Path) (fs : FileSystem) (net : Network) :
    Except TreeError Path × FileSystem :=
  match fetchText treeUrl net with
  | .error e => (.error (.fetch e), fs)
  | .ok text =>
    match writeFile (treePath outputDir) text fs with
    | (.error e, fs) => (.error (.write e), fs)
    | (.ok (), fs) => (.ok (treePath outputDir), fs)

end VocabPhp
