import Mathlib.Data.List.Infix
import VocabPhp.Vocabulary.Resource

/-!
# What is left of the breaks of a text

The three replacements that collapse a text are a single pass over it: each break of the text
becomes a space, and every other character is copied. So no newline and no written newline is left.
But a space can complete a marker that the text did not have: of `<br`, a newline and `/>` there
remains a `<br />`. This is the only way to it, and where it does not happen, collapsing once more
changes nothing.

* `Collapsed`: the single pass, as rules. `collapsed_iff`: it is what collapsing does.
* `replaceAny`: the pass as a function, for any markers.
* `breakTag_infix_iff`: when a `<br />` is left.
* `collapseChars_eq_self_iff`: when collapsing once more changes nothing.
* `displayText_breaks_iff`: what this means for the text of labels and comments.
-/

namespace VocabPhp.Text.Breaks

/-- The breaks that collapsing replaces. -/
def breaks : List (List Char) := [breakTag, writtenNewline, ['\n']]

/-- A single pass over a text, from left to right. -/
inductive Collapsed : List Char → List Char → Prop
  | nil : Collapsed [] []
  /-- A break becomes a space. -/
  | space {b rest out} : b ∈ breaks → Collapsed rest out → Collapsed (b ++ rest) (' ' :: out)
  /-- Where no break begins, a character is copied. -/
  | other {c rest out} : (∀ b ∈ breaks, ¬ b <+: c :: rest) → Collapsed rest out →
      Collapsed (c :: rest) (c :: out)

/-! ## One pass for three -/

theorem ne_nil_of_mem_breaks : ∀ b ∈ breaks, b ≠ [] := by decide

/-- Replaces each occurrence of one of some markers by a character, in a single pass from left to
right, and copies the other characters. -/
def replaceAny (markers : List (List Char)) (sub : Char) : List Char → List Char
  | [] => []
  | c :: cs =>
    match markers.find? fun m => m.isPrefixOf (c :: cs) with
    | some m => sub :: replaceAny markers sub (cs.drop (m.length - 1))
    | none => c :: replaceAny markers sub cs
termination_by cs => cs.length
decreasing_by
  · rw [List.length_drop, List.length_cons]
    omega
  · exact Nat.lt_succ_self _

/-- For the breaks this is the single pass. -/
theorem collapsed_replaceAny (cs : List Char) : Collapsed cs (replaceAny breaks ' ' cs) := by
  fun_induction replaceAny breaks ' ' cs with
  | case1 => exact .nil
  | case2 c cs b hfound ih =>
    have hb : b ∈ breaks := List.mem_of_find?_eq_some hfound
    have hbegins : b <+: c :: cs := by simpa using List.find?_some hfound
    obtain ⟨d, ds, rfl⟩ := List.exists_cons_of_ne_nil (ne_nil_of_mem_breaks b hb)
    rw [List.prefix_append_drop hbegins]
    exact .space hb ih
  | case3 c cs hnone ih =>
    refine .other (fun b hb hbegins => ?_) ih
    exact List.find?_eq_none.1 hnone b hb (List.isPrefixOf_iff_prefix.2 hbegins)

/-- Every text is collapsed by the single pass. -/
theorem exists_collapsed (cs : List Char) : ∃ out, Collapsed cs out := ⟨_, collapsed_replaceAny cs⟩

/-- A character that a marker does not begin with is copied. -/
theorem replaceAll_cons_of_ne {m c d : Char} (hc : c ≠ m) (ms cs : List Char) :
    replaceAll (m :: ms) d (c :: cs) = c :: replaceAll (m :: ms) d cs := by
  refine replaceAll_cons ?_
  rw [List.isPrefixOf, beq_false_of_ne (Ne.symm hc), Bool.false_and]

/-- A character at the front that was not put there was there before. -/
theorem head?_of_head?_replaceAll {marker cs : List Char} {c d : Char} (hc : c ≠ d)
    (h : (replaceAll marker d cs).head? = some c) : cs.head? = some c := by
  rcases cs with _ | ⟨e, cs⟩
  · rwa [replaceAll_nil] at h
  · rw [replaceAll] at h
    split at h
    · exact absurd (Option.some.inj h).symm hc
    · exact h

theorem isPrefixOf_eq_false {m cs : List Char} (h : ¬ m <+: cs) : m.isPrefixOf cs = false := by
  rwa [← List.isPrefixOf_iff_prefix, Bool.not_eq_true] at h

/-- The single pass is what the three replacements do. -/
theorem Collapsed.collapseChars_eq {cs out : List Char} (h : Collapsed cs out) :
    collapseChars cs = out := by
  induction h with
  | nil => simp [collapseChars]
  | @space b rest out hb _ ih =>
    rw [← ih, collapseChars, collapseChars]
    simp only [breaks, List.mem_cons, List.not_mem_nil, or_false] at hb
    rcases hb with rfl | rfl | rfl
    · rw [replaceAll_marker (by decide), writtenNewline, replaceAll_cons_of_ne (by decide),
        replaceAll_cons_of_ne (by decide)]
    · have hcopied : replaceAll breakTag ' ' (writtenNewline ++ rest) =
          writtenNewline ++ replaceAll breakTag ' ' rest := by
        rw [writtenNewline, breakTag, List.cons_append, List.singleton_append,
          replaceAll_cons_of_ne (by decide), replaceAll_cons_of_ne (by decide)]
        rfl
      rw [hcopied, replaceAll_marker (by decide), replaceAll_cons_of_ne (by decide)]
    · rw [List.singleton_append, breakTag, replaceAll_cons_of_ne (by decide), writtenNewline,
        replaceAll_cons_of_ne (by decide)]
      exact replaceAll_marker (by decide) ' ' _
  | @other c rest out hnone _ ih =>
    have htag : ¬ breakTag <+: c :: rest := hnone _ (by decide)
    have hnewline : c ≠ '\n' := by
      rintro rfl
      exact hnone ['\n'] (by decide) (List.prefix_append ['\n'] rest)
    -- A backslash before an `n` in the text with spaces stood before it in the text, too.
    have hwritten : ¬ writtenNewline <+: c :: replaceAll breakTag ' ' rest := by
      intro hbegins
      obtain ⟨hc, tail, htail⟩ := List.cons_prefix_cons.1 hbegins
      have hn : (replaceAll breakTag ' ' rest).head? = some 'n' := by
        rw [← htail]
        rfl
      obtain ⟨rest', hrest'⟩ := List.head?_eq_some_iff.1 (head?_of_head?_replaceAll (by decide) hn)
      refine hnone writtenNewline (by decide) ?_
      rw [← hc, hrest']
      exact List.prefix_append ['\\', 'n'] rest'
    rw [← ih, collapseChars, collapseChars, replaceAll_cons (isPrefixOf_eq_false htag),
      replaceAll_cons (isPrefixOf_eq_false hwritten), replaceAll_cons_of_ne hnewline]

theorem collapsed_iff {cs out : List Char} : Collapsed cs out ↔ collapseChars cs = out := by
  constructor
  · exact Collapsed.collapseChars_eq
  · rintro rfl
    obtain ⟨out, hout⟩ := exists_collapsed cs
    rwa [hout.collapseChars_eq]

/-! ## What is left -/

/-- What the pass has written from some place on it has read from some place on. -/
theorem Collapsed.exists_suffix {cs out₁ out₂ : List Char} (h : Collapsed cs (out₁ ++ out₂)) :
    ∃ cs₂, cs₂ <:+ cs ∧ Collapsed cs₂ out₂ := by
  induction out₁ generalizing cs with
  | nil => exact ⟨cs, List.suffix_refl cs, h⟩
  | cons c out₁ ih =>
    rw [List.cons_append] at h
    rcases h with _ | ⟨_, hrest⟩ | ⟨_, hrest⟩
    · obtain ⟨cs₂, hsuffix, hcs₂⟩ := ih hrest
      exact ⟨cs₂, hsuffix.trans (List.suffix_append _ _), hcs₂⟩
    · obtain ⟨cs₂, hsuffix, hcs₂⟩ := ih hrest
      exact ⟨cs₂, hsuffix.trans (List.suffix_cons _ _), hcs₂⟩

/-- A character other than a space has been copied, and no break began with it. -/
theorem Collapsed.cons_inv {cs out : List Char} {c : Char} (h : Collapsed cs (c :: out))
    (hc : c ≠ ' ') : ∃ rest, cs = c :: rest ∧ (∀ b ∈ breaks, ¬ b <+: c :: rest) ∧
      Collapsed rest out := by
  cases h with
  | space => exact absurd rfl hc
  | other hnone hrest => exact ⟨_, rfl, hnone, hrest⟩

variable {cs out : List Char}

theorem Collapsed.newline_not_mem (h : Collapsed cs out) : '\n' ∉ out := by
  induction h with
  | nil => exact List.not_mem_nil
  | space _ _ ih => simp [ih]
  | @other c rest _ hnone _ ih =>
    have hc : c ≠ '\n' := by
      rintro rfl
      exact hnone ['\n'] (by decide) (List.prefix_append ['\n'] rest)
    simp [ih, Ne.symm hc]

theorem Collapsed.not_holds_writtenNewline (h : Collapsed cs out) : ¬ writtenNewline <:+: out := by
  rintro ⟨out₁, out₂, rfl⟩
  rw [List.append_assoc] at h
  obtain ⟨cs₂, -, hcs₂⟩ := h.exists_suffix
  obtain ⟨rest, rfl, hnone, hrest⟩ := hcs₂.cons_inv (by decide)
  obtain ⟨rest, rfl, -, -⟩ := hrest.cons_inv (by decide)
  exact hnone writtenNewline (by decide) (List.prefix_append writtenNewline rest)

/-- A `<br />` with a break in place of its space. -/
def interrupted (b : List Char) : List Char := ['<', 'b', 'r'] ++ b ++ ['/', '>']

theorem Collapsed.holds_interrupted (h : Collapsed cs out) (htag : breakTag <:+: out) :
    ∃ b ∈ breaks, interrupted b <:+: cs := by
  obtain ⟨out₁, out₂, rfl⟩ := htag
  rw [List.append_assoc] at h
  obtain ⟨cs₂, hsuffix, hcs₂⟩ := h.exists_suffix
  obtain ⟨rest, rfl, hnone, hrest⟩ := hcs₂.cons_inv (by decide)
  obtain ⟨rest, rfl, -, hrest⟩ := hrest.cons_inv (by decide)
  obtain ⟨rest, rfl, -, hrest⟩ := hrest.cons_inv (by decide)
  cases hrest with
  | @space b _ _ hb hrest =>
    obtain ⟨rest, rfl, -, hrest⟩ := hrest.cons_inv (by decide)
    obtain ⟨rest, rfl, -, -⟩ := hrest.cons_inv (by decide)
    refine ⟨b, hb, List.IsInfix.trans ?_ hsuffix.isInfix⟩
    exact ⟨[], rest, by simp [interrupted]⟩
  | other _ hrest =>
    -- The space was there before, and so was the whole marker.
    obtain ⟨rest, rfl, -, hrest⟩ := hrest.cons_inv (by decide)
    obtain ⟨rest, rfl, -, -⟩ := hrest.cons_inv (by decide)
    exact absurd (List.prefix_append breakTag rest) (hnone breakTag (by decide))

/-! ## Where a marker begins -/

/-- No break begins with any other character than these. -/
theorem not_prefix_of_ne {c : Char} (hc : c ∉ ['<', '\\', '\n']) (cs : List Char) :
    ∀ b ∈ breaks, ¬ b <+: c :: cs := by
  rintro b hb ⟨tail, htail⟩
  simp only [breaks, List.mem_cons, List.not_mem_nil, or_false] at hb
  rcases hb with rfl | rfl | rfl
  all_goals
    obtain ⟨rfl, -⟩ := List.cons.inj htail
    exact hc (by simp)

/-- What begins with a character that no break goes on with is collapsed by itself. -/
theorem Collapsed.append {c : Char} {cs₁ out₁ cs₂ out₂ : List Char}
    (hwithin : ∀ b ∈ breaks, c ∉ b.tail) (h₁ : Collapsed cs₁ out₁)
    (h₂ : Collapsed (c :: cs₂) out₂) : Collapsed (cs₁ ++ c :: cs₂) (out₁ ++ out₂) := by
  induction h₁ with
  | nil => exact h₂
  | space hb _ ih => rw [List.append_assoc]; exact .space hb ih
  | @other d rest _ hnone _ ih =>
    refine .other (fun b hb hbegins => ?_) ih
    rcases List.prefix_or_prefix_of_prefix hbegins (List.prefix_append (d :: rest) (c :: cs₂)) with
      hshort | ⟨more, rfl⟩
    · exact hnone b hb hshort
    · have hmore : more <+: c :: cs₂ := (List.prefix_append_right_inj (d :: rest)).1 hbegins
      rcases List.prefix_cons_iff.1 hmore with rfl | ⟨more, rfl, -⟩
      · exact hnone _ hb (by rw [List.append_nil])
      · exact hwithin _ hb (by simp)

theorem collapsed_breakTag {rest : List Char} (h : Collapsed rest out) :
    Collapsed (breakTag ++ rest) (' ' :: out) := .space (by decide) h

/-- An interrupted marker becomes a whole one. -/
theorem collapsed_interrupted {b rest : List Char} (hb : b ∈ breaks) (h : Collapsed rest out) :
    Collapsed (interrupted b ++ rest) (breakTag ++ out) := by
  have hopening : ∀ b' ∈ breaks, ¬ b' <+: '<' :: 'b' :: 'r' :: (b ++ '/' :: '>' :: rest) := by
    intro b' hb' hbegins
    simp only [breaks, List.mem_cons, List.not_mem_nil, or_false] at hb hb'
    rcases hb' with rfl | rfl | rfl
    · -- What follows `<br` is a break, and none begins with a space.
      rcases hb with rfl | rfl | rfl <;> simp [breakTag, writtenNewline] at hbegins
    · simp [writtenNewline] at hbegins
    · simp at hbegins
  have hcut : interrupted b ++ rest = '<' :: 'b' :: 'r' :: (b ++ '/' :: '>' :: rest) := by
    simp [interrupted]
  rw [hcut]
  refine .other hopening (.other (not_prefix_of_ne (by decide) _)
    (.other (not_prefix_of_ne (by decide) _) (.space hb ?_)))
  exact .other (not_prefix_of_ne (by decide) _) (.other (not_prefix_of_ne (by decide) _) h)

/-- A `<br />` is left exactly of one with a break in place of its space. -/
theorem breakTag_infix_iff (cs : List Char) :
    breakTag <:+: collapseChars cs ↔ ∃ b ∈ breaks, interrupted b <:+: cs := by
  constructor
  · exact (collapsed_iff.2 rfl).holds_interrupted
  · rintro ⟨b, hb, before, after, rfl⟩
    obtain ⟨out₁, hout₁⟩ := exists_collapsed before
    obtain ⟨out₂, hout₂⟩ := exists_collapsed after
    have hpass : Collapsed (before ++ (interrupted b ++ after)) (out₁ ++ (breakTag ++ out₂)) :=
      hout₁.append (by decide) (collapsed_interrupted hb hout₂)
    rw [List.append_assoc, hpass.collapseChars_eq]
    exact ⟨out₁, out₂, List.append_assoc _ _ _⟩

/-! ## Collapsing once more -/

theorem Collapsed.self (h : ∀ b ∈ breaks, ¬ b <:+: cs) : Collapsed cs cs := by
  induction cs with
  | nil => exact .nil
  | cons c cs ih =>
    refine .other (fun b hb hbegins => h b hb hbegins.isInfix) (ih fun b hb hlies => ?_)
    exact h b hb (hlies.trans (List.suffix_cons c cs).isInfix)

theorem Collapsed.length_le (h : Collapsed cs out) : out.length ≤ cs.length := by
  induction h with
  | nil => exact Nat.le_refl 0
  | @space b rest out hb _ ih =>
    have := List.length_pos_iff.2 (ne_nil_of_mem_breaks b hb)
    rw [List.length_append, List.length_cons]
    omega
  | other _ _ ih => exact Nat.succ_le_succ ih

/-- Collapsing a text without newlines changes nothing exactly if it holds no `<br />`. -/
theorem Collapsed.collapseChars_eq_self_iff (h : Collapsed cs out) :
    collapseChars out = out ↔ ¬ breakTag <:+: out := by
  constructor
  · rintro hsame ⟨before, after, rfl⟩
    obtain ⟨out₁, hout₁⟩ := exists_collapsed before
    obtain ⟨out₂, hout₂⟩ := exists_collapsed after
    have hpass : Collapsed (before ++ (breakTag ++ after)) (out₁ ++ ' ' :: out₂) :=
      hout₁.append (by decide) (collapsed_breakTag hout₂)
    rw [List.append_assoc, hpass.collapseChars_eq] at hsame
    -- The marker has become shorter, and nothing has become longer.
    have hlength := congrArg List.length hsame
    have hle₁ := hout₁.length_le
    have hle₂ := hout₂.length_le
    simp only [List.length_append, List.length_cons, breakTag, List.length_nil] at hlength
    omega
  · intro htag
    refine (Collapsed.self fun b hb hlies => ?_).collapseChars_eq
    simp only [breaks, List.mem_cons, List.not_mem_nil, or_false] at hb
    rcases hb with rfl | rfl | rfl
    · exact htag hlies
    · exact h.not_holds_writtenNewline hlies
    · exact h.newline_not_mem ((List.singleton_infix_iff _ _).1 hlies)

end VocabPhp.Text.Breaks

namespace VocabPhp

open Text.Breaks

/-! ## Labels and comments -/

theorem toList_displayText_true (v : Option Json) :
    (displayText v true).toList = collapseChars (displayText v false).toList := by
  rw [displayText, if_pos rfl, collapse, String.toList_ofList]
  rfl

theorem collapsed_displayText (v : Option Json) :
    Collapsed (displayText v false).toList (displayText v true).toList :=
  collapsed_iff.2 (toList_displayText_true v).symm

/-- A collapsed text is on one line. -/
theorem newline_not_mem_displayText (v : Option Json) : '\n' ∉ (displayText v true).toList :=
  (collapsed_displayText v).newline_not_mem

/-- The collapsed text of a label or comment, of whatever JSON value, holds no newline and no
written newline. It holds a `<br />` exactly if the text with its breaks holds one in which a break
stands in place of the space. To collapse it once more changes nothing exactly if it holds none. -/
theorem displayText_breaks_iff (v : Option Json) :
    '\n' ∉ (displayText v true).toList ∧
      ¬ writtenNewline <:+: (displayText v true).toList ∧
      (breakTag <:+: (displayText v true).toList ↔
        ∃ b ∈ breaks, interrupted b <:+: (displayText v false).toList) ∧
      (collapse (displayText v true) = displayText v true ↔
        ¬ breakTag <:+: (displayText v true).toList) := by
  have hpass := collapsed_displayText v
  refine ⟨hpass.newline_not_mem, hpass.not_holds_writtenNewline, ?_, ?_⟩
  · rw [toList_displayText_true]
    exact breakTag_infix_iff _
  · rw [← hpass.collapseChars_eq_self_iff, collapse, ← String.toList_inj, String.toList_ofList]

/-- A newline within a `<br/>` makes it one that is looked for, but no longer found. -/
theorem displayText_break_left :
    displayText (some (.string "one<br\n/>two")) true = "one<br />two" ∧
      breakTag <:+: (displayText (some (.string "one<br\n/>two")) true).toList ∧
      collapse (displayText (some (.string "one<br\n/>two")) true) = "one two" := by
  have htext : displayText (some (.string "one<br\n/>two")) true = "one<br />two" := by cbv
  refine ⟨htext, ?_, ?_⟩
  · rw [htext]
    exact ⟨['o', 'n', 'e'], ['t', 'w', 'o'], by decide +kernel⟩
  · rw [htext]
    cbv

end VocabPhp
