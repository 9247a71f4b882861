import VocabPhp.Json.Record

/-!
# The feed of releases

The feed lists the releases of a vocabulary, the newest first. Of each only the tag matters.
-/

namespace VocabPhp.Release

open Json

/-- Reads a release: its tag. -/
def tag : Reader String := fun cs =>
  match Reader.oneField "tag_name" Reader.stringOnly cs with
  | .error f => .error f
  | .ok (some tag, r) => .ok (tag, r)
  | .ok (none, _) => .error .mistyped

/-- The tag of the newest release of a feed, if it has any. -/
def newest (feed : String) : Except Fault (Option String) :=
  match Reader.whole (Reader.arrayOf tag) feed with
  | .error f => .error f
  | .ok tags => .ok tags.head?

/-- The text for a feed that cannot be read. -/
def unreadableFeed : String := "Failed to parse releases feed"

/-- The label of a vocabulary whose release is not known. -/
def unknown : String := "unknown"

end VocabPhp.Release
