import VocabPhp.Table

/-!
# Templates

A template is a list of pieces: literal text, and named slots that values are put into. Written as a
text, a slot is its name between `{@` and `}`.

* `Template.fill`: the text of a template with its slots filled. A slot without a value stays as it
  is written, and a value that looks like a slot is not filled again.
* `Template.ofText`: the pieces of a written template. An opening without an end is literal text.
* `Template.fill_append`: filling goes piece by piece.
-/

namespace VocabPhp

/-- The values of slots, by name. -/
abbrev Slots := Table String

/-- A piece of a template. -/
inductive Piece
  | text (s : String)
  | slot (name : String)
  deriving DecidableEq, Repr

namespace Piece

/-- A piece as it is written. -/
def source : Piece → String
  | text s => s
  | slot name => "\x7b@" ++ name ++ "\x7d"

/-- The text of a piece, for the values of slots. -/
def fill (slots : Slots) : Piece → String
  | text s => s
  | slot name => (slots.find? name).getD (slot name).source

end Piece

/-- Text with slots. -/
abbrev Template := List Piece

namespace Template

/-- A template as it is written. -/
def source (t : Template) : String := String.join (t.map Piece.source)

/-- The text of a template, for the values of slots. -/
def fill (slots : Slots) (t : Template) : String := String.join (t.map (Piece.fill slots))

/-- The pieces of a written template. -/
def ofChars : List Char → Template
  | [] => []
  | '\x7b' :: '@' :: cs =>
    match h : cs.dropWhile (· ≠ '\x7d') with
    | [] => [.text (String.ofList ('\x7b' :: '@' :: cs))]
    | _ :: rest =>
      have : rest.length < cs.length := by
        have := (List.dropWhile_sublist (l := cs) (· ≠ '\x7d')).length_le
        rw [h] at this
        exact this
      .slot (String.ofList (cs.takeWhile (· ≠ '\x7d'))) :: ofChars rest
  | c :: cs => .text (String.singleton c) :: ofChars cs
termination_by cs => cs.length

/-- The pieces of a written template. -/
def ofText (text : String) : Template := ofChars text.toList

/-- A written template with its slots filled. -/
def substitute (slots : Slots) (text : String) : String := (ofText text).fill slots

/-- Filling goes piece by piece. -/
theorem fill_append (slots : Slots) (t u : Template) :
    fill slots (t ++ u) = fill slots t ++ fill slots u := by
  rw [← String.toList_inj]
  simp [fill]

theorem fill_cons (slots : Slots) (p : Piece) (t : Template) :
    fill slots (p :: t) = p.fill slots ++ fill slots t := by
  rw [← String.toList_inj]
  simp [fill]

end Template

end VocabPhp
