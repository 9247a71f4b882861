import Mathlib.Data.List.Infix
import Mathlib.Data.List.TakeWhile
import VocabPhp.Text.Wrap

/-!
# What wrapping keeps of a text

Wrapping a text changes its spaces and the blanks at the ends of its lines, and nothing else. So a
text without blanks lies in the wrapped text, on one of its lines, exactly if it lies in the text.

* `infix_append_cons_iff`, `infix_intercalate_iff`: what does not hold a character lies on one side
  of it.
* `infix_lines_iff`: what lies on the lines of a wrapped text.
* `pieces_flatMap_append`, `infix_flatMap_append_iff`: the lines of a text that is made of lines.
-/

namespace VocabPhp.Text

/-! ## Texts within texts -/

theorem eq_nil_of_prefix_cons {t cs : List Char} {c : Char} (hc : c ∉ t) (h : t <+: c :: cs) :
    t = [] := by
  rcases List.prefix_cons_iff.1 h with rfl | ⟨t', rfl, -⟩
  · rfl
  · exact absurd List.mem_cons_self hc

/-- A text that does not hold a character lies on one side of it. -/
theorem infix_append_cons_iff {t cs ds : List Char} {c : Char} (hc : c ∉ t) :
    t <:+: cs ++ c :: ds ↔ t <:+: cs ∨ t <:+: ds := by
  constructor
  · intro h
    rcases List.infix_append_iff.1 h with h | h | ⟨t₁, t₂, rfl, h₁, h₂⟩
    · exact .inl h
    · rcases List.infix_cons_iff.1 h with h | h
      · exact .inl (eq_nil_of_prefix_cons hc h ▸ List.nil_infix)
      · exact .inr h
    · obtain rfl := eq_nil_of_prefix_cons (fun h => hc (List.mem_append_right _ h)) h₂
      exact .inl (by simpa using h₁.isInfix)
  · rintro (h | h)
    · exact h.trans (List.prefix_append _ _).isInfix
    · exact h.trans ((List.suffix_cons _ _).trans (List.suffix_append _ _)).isInfix

/-- What does not hold the separator lies in one of the texts that are joined by it. -/
theorem infix_intercalate_iff {t : List Char} {c : Char} (hc : c ∉ t) (ht : t ≠ [])
    (texts : List (List Char)) : t <:+: [c].intercalate texts ↔ ∃ l ∈ texts, t <:+: l := by
  induction texts with
  | nil => simpa [List.intercalate_nil] using ht
  | cons l texts ih =>
    cases texts with
    | nil => simp [List.intercalate_singleton]
    | cons l' texts =>
      rw [List.intercalate_cons_cons, List.append_assoc, List.singleton_append,
        infix_append_cons_iff hc, ih]
      simp

/-! ## Lines -/

theorem fillLines_ne_nil (width : Nat) (line : List Char) (ws : List (List Char)) :
    fillLines width line ws ≠ [] := by
  induction ws generalizing line with
  | nil => simp [fillLines]
  | cons w ws ih =>
    rw [fillLines]
    split
    · exact ih w
    · split
      · simp
      · exact ih _

/-- What has no spaces lies on a line exactly if it lies in the text that the lines began with or in
a word. -/
theorem infix_fillLines_iff {t : List Char} (hspace : ' ' ∉ t) (ht : t ≠ []) (width : Nat)
    (line : List Char) (ws : List (List Char)) :
    (∃ l ∈ fillLines width line ws, t <:+: l) ↔ t <:+: line ∨ ∃ w ∈ ws, t <:+: w := by
  induction ws generalizing line with
  | nil => simp [fillLines]
  | cons w ws ih =>
    rw [fillLines, List.exists_mem_cons_iff]
    split
    · next hline => simp [ih, hline, ht]
    · split
      · rw [List.exists_mem_cons_iff, ih]
      · rw [ih, infix_append_cons_iff hspace, or_assoc]

/-- What has no spaces lies on a line, with its blanks, exactly if it lies in the text. -/
theorem infix_lines_iff {t : List Char} (hspace : ' ' ∉ t) (ht : t ≠ []) (width : Nat)
    (text : List Char) : (∃ l ∈ lines width text, t <:+: l) ↔ t <:+: text := by
  rw [lines, infix_fillLines_iff hspace ht, words, ← infix_intercalate_iff hspace ht,
    intercalate_pieces]
  simpa using fun h => absurd h ht

/-- A line is what is left of it without the blanks at its end, and these blanks. -/
theorem exists_trimEnd_append (line : List Char) :
    ∃ blanks, (∀ c ∈ blanks, isBlank c = true) ∧ line = trimEnd line ++ blanks := by
  refine ⟨(line.reverse.takeWhile isBlank).reverse, fun c hc => ?_, ?_⟩
  · exact List.mem_takeWhile_imp (List.mem_reverse.1 hc)
  · rw [trimEnd, ← List.reverse_append, List.takeWhile_append_dropWhile, List.reverse_reverse]

theorem infix_trimEnd_iff {t : List Char} (hblank : ∀ c ∈ t, isBlank c = false) (ht : t ≠ [])
    (line : List Char) : t <:+: trimEnd line ↔ t <:+: line := by
  obtain ⟨blanks, hblanks, hline⟩ := exists_trimEnd_append line
  cases blanks with
  | nil =>
    rw [List.append_nil] at hline
    rw [← hline]
  | cons c blanks =>
    have hc : c ∉ t := fun hc => by simpa [hblanks c] using hblank c hc
    have hrest : ¬ t <:+: blanks := fun h => by
      obtain ⟨d, hd⟩ := List.exists_mem_of_ne_nil t ht
      simpa [hblanks d (List.mem_cons_of_mem _ (h.subset hd))] using hblank d hd
    conv_rhs => rw [hline, infix_append_cons_iff hc, or_iff_left hrest]

/-- The lines of a wrapped text. -/
def wrapped (width : Nat) (text : List Char) : List (List Char) := (lines width text).map trimEnd

theorem wrapped_ne_nil (width : Nat) (text : List Char) : wrapped width text ≠ [] := by
  rw [wrapped, lines]
  simpa using fillLines_ne_nil width [] (words text)

theorem toList_wordWrap (text : String) (width : Nat) (lineBreak : String) :
    (wordWrap text width lineBreak).toList =
      lineBreak.toList.intercalate (wrapped width text.toList) := by
  simp [wordWrap, wrapped, String.toList_intercalate, Function.comp_def]

/-- What has no blanks lies on a line exactly if it lies in the text. -/
theorem infix_wrapped_iff {t : List Char} (hblank : ∀ c ∈ t, isBlank c = false) (ht : t ≠ [])
    (width : Nat) (text : List Char) : (∃ l ∈ wrapped width text, t <:+: l) ↔ t <:+: text := by
  have hspace : ' ' ∉ t := fun h => absurd (hblank ' ' h) (by decide)
  rw [← infix_lines_iff hspace ht width]
  simp [wrapped, infix_trimEnd_iff hblank ht]

/-- A line has no newline if the text has none. -/
theorem newline_not_mem_wrapped {text : List Char} (h : '\n' ∉ text) {width : Nat} {l : List Char}
    (hl : l ∈ wrapped width text) : '\n' ∉ l := by
  obtain ⟨line, hline, rfl⟩ := List.mem_map.1 hl
  intro hmem
  obtain ⟨blanks, -, heq⟩ := exists_trimEnd_append line
  have hmemline : '\n' ∈ line := heq ▸ List.mem_append_left _ hmem
  refine h ?_
  rw [← List.singleton_infix_iff] at hmemline ⊢
  exact (infix_lines_iff (by decide) (by decide) width text).1 ⟨line, hline, hmemline⟩

/-! ## Joined lines -/

theorem pieces_append_cons {sep : Char} {l : List Char} (hl : sep ∉ l) (cs : List Char) :
    pieces sep (l ++ sep :: cs) = l :: pieces sep cs := by
  rw [pieces_append, pieces_of_not_mem hl, List.singleton_append]

/-- Lines that end in a separator, and a last one, are the pieces of the text that they make. -/
theorem pieces_flatMap_append {sep : Char} {ls : List (List Char)} {last : List Char}
    (h : ∀ l ∈ ls, sep ∉ l) (hlast : sep ∉ last) :
    pieces sep (ls.flatMap (· ++ [sep]) ++ last) = ls ++ [last] := by
  induction ls with
  | nil => exact pieces_of_not_mem hlast
  | cons l ls ih =>
    rw [List.flatMap_cons, List.append_assoc, List.append_assoc, List.singleton_append,
      pieces_append_cons (h l List.mem_cons_self), ih fun m hm => h m (List.mem_cons_of_mem _ hm),
      List.cons_append]

/-- What does not hold the separator lies on one of these lines. -/
theorem infix_flatMap_append_iff {t : List Char} {sep : Char} (hsep : sep ∉ t)
    (ls : List (List Char)) (last : List Char) :
    t <:+: ls.flatMap (· ++ [sep]) ++ last ↔ (∃ l ∈ ls, t <:+: l) ∨ t <:+: last := by
  induction ls with
  | nil => simp
  | cons l ls ih =>
    rw [List.flatMap_cons, List.append_assoc, List.append_assoc, List.singleton_append,
      infix_append_cons_iff hsep, ih, List.exists_mem_cons_iff, or_assoc]

end VocabPhp.Text
