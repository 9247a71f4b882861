import VocabPhp.Text.Pieces

/-!
# Wrapping text into lines

A text is cut into words at its spaces, and the words are put on lines greedily: a word goes on the
current line if the line is empty or if line, space and word together have at most `width`
characters. A word that is longer than that stays whole on a line of its own. Blanks at the end of a
line are dropped, and the lines are joined by a given break.
-/

namespace VocabPhp.Text

/-- Tells whether a character is white space in the sense of the Unicode property of that name. -/
def isBlank (c : Char) : Bool :=
  let n := c.toNat
  (9 ≤ n && n ≤ 13) || n == 0x20 || n == 0x85 || n == 0xA0 || n == 0x1680 ||
    (0x2000 ≤ n && n ≤ 0x200A) || n == 0x2028 || n == 0x2029 || n == 0x202F || n == 0x205F ||
    n == 0x3000

/-- Drops the blanks at the end of a line. -/
def trimEnd (line : List Char) : List Char := (line.reverse.dropWhile isBlank).reverse

/-- The words of a text: its pieces between spaces, some of which may be empty. -/
def words (cs : List Char) : List (List Char) := pieces ' ' cs

/-- Puts words on lines, the first of which already holds some text. -/
def fillLines (width : Nat) (line : List Char) : List (List Char) → List (List Char)
  | [] => [line]
  | w :: ws =>
    if line = [] then fillLines width w ws
    else if line.length + 1 + w.length > width then line :: fillLines width w ws
    else fillLines width (line ++ ' ' :: w) ws

/-- The lines of a text, before the blanks at their ends are dropped. -/
def lines (width : Nat) (text : List Char) : List (List Char) := fillLines width [] (words text)

/-- Wraps a text into lines of at most `width` characters, joined by `lineBreak`. -/
def wordWrap (text : String) (width : Nat) (lineBreak : String) : String :=
  lineBreak.intercalate ((lines width text.toList).map fun l => String.ofList (trimEnd l))

end VocabPhp.Text
