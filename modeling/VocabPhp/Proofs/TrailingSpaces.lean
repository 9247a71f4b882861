import VocabPhp.Artifact.Render
import VocabPhp.Proofs.Collapsing
import VocabPhp.Proofs.Lines

/-!
# Spaces at the end of a wrapped text

Behind each space at the end of a text there is an empty word. These words go on the last line while
it has room, and the spaces are dropped with the other blanks at its end. Once there is no room, an
empty word begins a line like any other one, and this line stays empty.

* `fillLines_append`: further words go on from the last line.
* `exists_fillLines_replicate`: what empty words do to a line.
* `wrapped_append_replicate`: spaces at the end of a text add an empty line or nothing.
* `collapse_append_newlines`: newlines at the end of a text become such spaces.
* `wordWrap_append_spaces`: which spaces at the end of a text show.
* `wordWrap_space_adds_line`: a space that does.
-/

namespace VocabPhp.Text

/-! ## Filling lines further -/

/-- Each separator at the end of a text has an empty piece behind it. -/
theorem pieces_append_replicate (sep : Char) (cs : List Char) (k : Nat) :
    pieces sep (cs ++ List.replicate k sep) = pieces sep cs ++ List.replicate k [] := by
  induction k generalizing cs with
  | zero => simp
  | succ k ih =>
    have hrest := ih []
    rw [List.nil_append] at hrest
    rw [List.replicate_succ, pieces_append, hrest, pieces, List.replicate_succ,
      List.singleton_append]

/-- Further words go on from the last line. -/
theorem fillLines_append {width : Nat} {line last : List Char} {ws : List (List Char)}
    {front : List (List Char)} (h : fillLines width line ws = front ++ [last])
    (more : List (List Char)) :
    fillLines width line (ws ++ more) = front ++ fillLines width last more := by
  induction ws generalizing line front with
  | nil =>
    have hline : [] ++ [line] = front ++ [last] := h
    obtain ⟨rfl, hlast⟩ := List.append_inj' hline rfl
    obtain rfl := List.singleton_inj.1 hlast
    rfl
  | cons w ws ih =>
    rw [fillLines] at h
    rw [List.cons_append, fillLines]
    split at h
    · next hline => rw [if_pos hline, ih h]
    · next hline =>
      rw [if_neg hline]
      split at h
      · next hlong =>
        rw [if_pos hlong]
        cases front with
        | nil => exact absurd (List.cons.inj h).2 (fillLines_ne_nil _ _ _)
        | cons l front =>
          obtain ⟨rfl, hrest⟩ := List.cons.inj h
          rw [ih hrest, List.cons_append]
      · next hlong => rw [if_neg hlong, ih h]

theorem fillLines_nil_replicate (width k : Nat) :
    fillLines width [] (List.replicate k []) = [[]] := by
  induction k with
  | zero => rfl
  | succ k ih => rw [List.replicate_succ, fillLines, if_pos rfl, ih]

/-- A line that holds something has no room for some further spaces. -/
def Overflows (width : Nat) (line : List Char) (k : Nat) : Prop :=
  line ≠ [] ∧ k ≠ 0 ∧ width < line.length + k

instance (width : Nat) (line : List Char) (k : Nat) : Decidable (Overflows width line k) :=
  inferInstanceAs (Decidable (line ≠ [] ∧ k ≠ 0 ∧ width < line.length + k))

/-- Empty words put spaces on a line, and if these do not fit, they begin an empty one. -/
theorem exists_fillLines_replicate (width : Nat) (line : List Char) (k : Nat) :
    ∃ n, fillLines width line (List.replicate k []) =
      (line ++ List.replicate n ' ') :: if Overflows width line k then [[]] else [] := by
  induction k generalizing line with
  | zero => exact ⟨0, by simp [fillLines, Overflows]⟩
  | succ k ih =>
    rw [List.replicate_succ, fillLines, List.length_nil]
    by_cases hline : line = []
    · refine ⟨0, ?_⟩
      rw [if_pos hline, fillLines_nil_replicate, if_neg fun h => h.1 hline, hline]
      rfl
    · rw [if_neg hline]
      by_cases hlong : line.length + 1 + 0 > width
      · refine ⟨0, ?_⟩
        rw [if_pos hlong, fillLines_nil_replicate, if_pos ⟨hline, by omega, by omega⟩]
        simp
      · obtain ⟨n, hn⟩ := ih (line ++ [' '])
        have hiff : Overflows width (line ++ [' ']) k ↔ Overflows width line (k + 1) := by
          rw [Overflows, Overflows, List.length_append, List.length_singleton]
          constructor
          · rintro ⟨-, hk, hlt⟩
            exact ⟨hline, by omega, by omega⟩
          · rintro ⟨-, -, hlt⟩
            exact ⟨by simp, by omega, by omega⟩
        refine ⟨n + 1, ?_⟩
        rw [if_neg hlong, hn, List.append_assoc, List.singleton_append, ← List.replicate_succ]
        simp only [hiff]

/-! ## Wrapped text -/

/-- Spaces at the end of a line are dropped. -/
theorem trimEnd_append_replicate (line : List Char) (n : Nat) :
    trimEnd (line ++ List.replicate n ' ') = trimEnd line := by
  have hblank : ∀ c ∈ List.replicate n ' ', isBlank c = true := by
    intro c hc
    rw [List.eq_of_mem_replicate hc]
    rfl
  rw [trimEnd, List.reverse_append, List.reverse_replicate, List.dropWhile_append_of_pos hblank,
    trimEnd]

/-- The last line of a text, with the blanks at its end. -/
def lastLine (width : Nat) (text : List Char) : List Char :=
  (lines width text).getLast (fillLines_ne_nil width [] (words text))

/-- Spaces at the end of a text add an empty line if they do not fit on its last line, and nothing
if they do. -/
theorem wrapped_append_replicate (width : Nat) (text : List Char) (k : Nat) :
    wrapped width (text ++ List.replicate k ' ') =
      wrapped width text ++ if Overflows width (lastLine width text) k then [[]] else [] := by
  have hlines : fillLines width [] (words text) =
      (lines width text).dropLast ++ [lastLine width text] :=
    (List.dropLast_append_getLast _).symm
  obtain ⟨n, hn⟩ := exists_fillLines_replicate width (lastLine width text) k
  have hwords : words (text ++ List.replicate k ' ') = words text ++ List.replicate k [] :=
    pieces_append_replicate ' ' text k
  have hempty : trimEnd [] = [] := rfl
  rw [wrapped, lines, hwords, fillLines_append hlines, hn, wrapped, lines, hlines, List.map_append,
    List.map_append, List.map_cons, trimEnd_append_replicate, List.append_assoc]
  split <;> simp [hempty]

/-- Spaces in a row. -/
def spaces (k : Nat) : String := String.ofList (List.replicate k ' ')

theorem wordWrap_append (text : String) (k width : Nat) (lineBreak : String) :
    wordWrap (text ++ spaces k) width lineBreak = wordWrap text width lineBreak ++
      if Overflows width (lastLine width text.toList) k then lineBreak else "" := by
  rw [← String.toList_inj, toList_wordWrap, String.toList_append, String.toList_append, spaces,
    String.toList_ofList, wrapped_append_replicate, toList_wordWrap]
  split
  · rw [intercalate_concat _ (wrapped_ne_nil width _), List.append_nil]
  · simp

/-! ## Newlines at the end of a text -/

/-- Newlines in a row. -/
def newlines (k : Nat) : String := String.ofList (List.replicate k '\n')

theorem collapsed_newlines (k : Nat) :
    Breaks.Collapsed (List.replicate k '\n') (List.replicate k ' ') := by
  induction k with
  | zero => exact .nil
  | succ k ih =>
    have hnewline : ['\n'] ∈ Breaks.breaks := by decide
    exact .space hnewline ih

/-- Newlines at the end of a text become spaces, whatever they stand behind. -/
theorem collapse_append_newlines (text : String) (k : Nat) :
    Breaks.collapse (text ++ newlines k) = Breaks.collapse text ++ spaces k := by
  have htext : Breaks.Collapsed text.toList (Breaks.collapseChars text.toList) :=
    Breaks.collapsed_iff.2 rfl
  rw [← String.toList_inj, Breaks.collapse, Breaks.collapse, String.toList_ofList,
    String.toList_append, String.toList_append, String.toList_ofList, newlines, spaces,
    String.toList_ofList, String.toList_ofList]
  cases k with
  | zero => simp
  | succ k =>
    exact (htext.append (by decide) (collapsed_newlines (k + 1))).collapseChars_eq

/-! ## Spaces that show -/

/-- Spaces at the end of a text show in the wrapped text exactly if its last line holds something
and has no room for them. Then they add one break, however many they are, and an empty line behind
it; and so do newlines at the end of a text that is collapsed. -/
theorem wordWrap_append_spaces (text : String) (k width : Nat) (lineBreak : String) :
    wordWrap (text ++ spaces k) width lineBreak = wordWrap text width lineBreak ++
      (if Overflows width (lastLine width text.toList) k then lineBreak else "") ∧
    (wordWrap (text ++ spaces k) width lineBreak = wordWrap text width lineBreak ↔
      lineBreak = "" ∨ ¬ Overflows width (lastLine width text.toList) k) ∧
    wordWrap (Breaks.collapse (text ++ newlines k)) width lineBreak =
      wordWrap (Breaks.collapse text) width lineBreak ++
        if Overflows width (lastLine width (Breaks.collapse text).toList) k then lineBreak
        else "" := by
  refine ⟨wordWrap_append text k width lineBreak, ?_, ?_⟩
  · rw [wordWrap_append]
    split
    · next h => simp [h]
    · next h => simp [h]
  · rw [collapse_append_newlines, wordWrap_append]

/-- A comment that fills a line. -/
def fullLine : String :=
  "A creative work that comes out in parts, such as a serial or a newspaper..."

/-- A space behind a full line makes another line, which is empty. So a comment that fills a line
and has a newline at its end is shown with an empty line. -/
theorem wordWrap_space_adds_line :
    wordWrap "abc" 3 "|" = "abc" ∧ wordWrap ("abc" ++ spaces 1) 3 "|" = "abc|" ∧
      displayText (some (.string (fullLine ++ "\n"))) true = fullLine ++ spaces 1 ∧
      wordWrap fullLine descriptionWidth "\n * " = fullLine ∧
      wordWrap (fullLine ++ spaces 1) descriptionWidth "\n * " = fullLine ++ "\n * " := by
  refine ⟨by decide +kernel, by decide +kernel, by cbv, by decide +kernel, by decide +kernel⟩

end VocabPhp.Text
