import VocabPhp.Text.Pieces

/-!
# Paths as they are written

A written path is a lead (a slash, a dot, or nothing) and the pieces of the rest between slashes, of
which some may be empty or a dot. Messages show a path as it is written, so the parent of a path is
a cut of its text and not of the directory that it leads to.

* `Path.ofText`, `Path.text`: reading and writing a path; `Path.text_ofText` says that nothing is
  lost.
* `Path.parent?`: the path without its last name.
* `Path.join`: a path continued by a name.
-/

namespace VocabPhp

/-- How a path begins. -/
inductive PathLead
  | root
  | here
  | relative
  deriving DecidableEq, Repr

/-- A written path. -/
structure Path where
  lead : PathLead
  /-- The pieces after the lead, between slashes. -/
  body : List (List Char)
  deriving DecidableEq, Repr

namespace Path

/-- The pieces of what comes after the lead. -/
def bodyOf : List Char → List (List Char)
  | [] => []
  | c :: cs => Text.pieces '/' (c :: cs)

/-- The path with the given characters. -/
def ofChars : List Char → Path
  | '/' :: cs => ⟨.root, bodyOf cs⟩
  | ['.'] => ⟨.here, []⟩
  | '.' :: '/' :: cs => ⟨.here, bodyOf ('/' :: cs)⟩
  | cs => ⟨.relative, bodyOf cs⟩

/-- The path that a text writes. -/
def ofText (text : String) : Path := ofChars text.toList

/-- A lead as it is written. -/
def leadChars : PathLead → List Char
  | .root => ['/']
  | .here => ['.']
  | .relative => []

/-- The characters of a path. -/
def chars (p : Path) : List Char := leadChars p.lead ++ ['/'].intercalate p.body

/-- A path as it is written. -/
def text (p : Path) : String := String.ofList p.chars

theorem intercalate_bodyOf (cs : List Char) : ['/'].intercalate (bodyOf cs) = cs := by
  cases cs with
  | nil => rfl
  | cons c cs => exact Text.intercalate_pieces '/' (c :: cs)

/-- Reading a path loses nothing of its text. -/
theorem text_ofText (s : String) : (ofText s).text = s := by
  rw [text, ofText, ← String.toList_inj, String.toList_ofList]
  unfold ofChars
  split <;> simp_all [chars, leadChars, intercalate_bodyOf]

/-- Tells whether a piece leads nowhere: it is empty or a dot. -/
def isTrivial (piece : List Char) : Bool := piece = [] || piece = ['.']

/-- Pieces without trivial ones at their end. -/
def dropTrivial (pieces : List (List Char)) : List (List Char) :=
  (pieces.reverse.dropWhile isTrivial).reverse

theorem length_dropTrivial_le (pieces : List (List Char)) :
    (dropTrivial pieces).length ≤ pieces.length := by
  simpa [dropTrivial] using (List.dropWhile_sublist (l := pieces.reverse) isTrivial).length_le

/-- The path without its last name. The root and the empty path have no parent. -/
def parent? (p : Path) : Option Path :=
  match dropTrivial p.body with
  | [] => if p.lead = .here then some ⟨.relative, []⟩ else none
  | q :: qs => some ⟨p.lead, dropTrivial (q :: qs).dropLast⟩

/-- A bound on the number of parents. -/
def rank (p : Path) : Nat := p.body.length + if p.lead = .here then 1 else 0

theorem rank_parent_lt {p q : Path} (h : p.parent? = some q) : q.rank < p.rank := by
  unfold parent? at h
  have hle := length_dropTrivial_le p.body
  split at h
  · split at h
    · next hl => cases h; simp [rank, hl]
    · simp at h
  · next q' qs hd =>
    cases h
    have := length_dropTrivial_le (q' :: qs).dropLast
    rw [hd] at hle
    simp only [rank, List.length_dropLast, List.length_cons] at this hle ⊢
    omega

/-- A path continued by a name. A name that begins with a slash stands for itself. -/
def join (p : Path) (name : String) : Path :=
  match name.toList with
  | '/' :: cs => ofChars ('/' :: cs)
  | cs =>
    if p.chars = [] ∨ p.chars.getLast? = some '/' then ofChars (p.chars ++ cs)
    else ofChars (p.chars ++ '/' :: cs)

/-- The names to follow from where a path begins. -/
def names (p : Path) : List String :=
  (p.body.filter (· ≠ [])).map String.ofList

/-- Tells whether a path ends in a slash, so that it can only be that of a directory. -/
def endsInSlash (p : Path) : Bool := p.body.getLast? = some []

end Path

/-- Where the tree of a vocabulary is kept: next to the output directory. -/
def treePath (outputDir : Path) : Path :=
  (outputDir.parent?.getD (Path.ofText ".")).join "tree.jsonld"

end VocabPhp
