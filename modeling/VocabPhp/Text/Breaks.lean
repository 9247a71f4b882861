/-!
# Line breaks in text

Text that goes into a one-line place has its line breaks collapsed: the marker `<br />`, a backslash
followed by `n`, and a newline each become one space. `collapseChars` replaces the three one after
the other.

* `replaceAll_marker`, `replaceAll_nil`: an occurrence at the front of the text is replaced, and the
  rest is treated alike.
-/

namespace VocabPhp.Text.Breaks

/-- Replaces each occurrence of a marker by one character, from left to right, and copies the other
characters. -/
def replaceAll (marker : List Char) (sub : Char) : List Char → List Char
  | [] => []
  | c :: cs =>
    if marker.isPrefixOf (c :: cs) then sub :: replaceAll marker sub (cs.drop (marker.length - 1))
    else c :: replaceAll marker sub cs
termination_by cs => cs.length
decreasing_by
  · rw [List.length_drop, List.length_cons]
    omega
  · exact Nat.lt_succ_self _

/-- The written break of HTML. -/
def breakTag : List Char := ['<', 'b', 'r', ' ', '/', '>']

/-- A newline written as an escape. -/
def writtenNewline : List Char := ['\\', 'n']

/-- Turns every break into one space. -/
def collapseChars (cs : List Char) : List Char :=
  replaceAll ['\n'] ' ' (replaceAll writtenNewline ' ' (replaceAll breakTag ' ' cs))

/-- Turns every break of a text into one space. -/
def collapse (text : String) : String := String.ofList (collapseChars text.toList)

@[simp] theorem replaceAll_nil (marker : List Char) (c : Char) : replaceAll marker c [] = [] := by
  rw [replaceAll]

/-- A marker at the front of the text is replaced as a whole. -/
theorem replaceAll_marker {marker : List Char} (h : marker ≠ []) (c : Char) (cs : List Char) :
    replaceAll marker c (marker ++ cs) = c :: replaceAll marker c cs := by
  cases marker with
  | nil => exact absurd rfl h
  | cons m ms => rw [List.cons_append, replaceAll]; simp

/-- A character that begins no marker is copied. -/
theorem replaceAll_cons {marker : List Char} {c d : Char} {cs : List Char}
    (h : marker.isPrefixOf (d :: cs) = false) :
    replaceAll marker c (d :: cs) = d :: replaceAll marker c cs := by
  rw [replaceAll]; simp [h]

end VocabPhp.Text.Breaks
