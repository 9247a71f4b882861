import VocabPhp.Proofs.Wrapping

/-!
# The lines of a wrapped text

Wrapping divides the words of a text, in their order, among lines. A line has at most as many
characters as are allowed, or no space, and it ends only where the next word would make it too long.
These conditions leave no choice.

* `lineOf`: the line that some words make.
* `IsLayout`: how words may be divided among lines.
* `exists_isLayout`, `IsLayout.fillLines_eq`: filling lines divides the words in such a way, and
  every such way gives the same lines.
* `visible`: what is visible of a text. `visible_lineOf`: a line shows what its words show.
* `wordWrap_layout`: what wrapping does to a text.
-/

namespace VocabPhp.Text

/-! ## The line of some words -/

/-- The line that some words make. They are joined by spaces, without the empty words in front. -/
def lineOf (ws : List (List Char)) : List Char := [' '].intercalate (ws.dropWhile (· = []))

theorem lineOf_eq_nil_iff (ws : List (List Char)) :
    lineOf ws = [] ↔ ws.dropWhile (· = []) = [] := by
  rw [lineOf]
  cases h : ws.dropWhile (· = []) with
  | nil => simp
  | cons w rest =>
    have hw : w ≠ [] := by
      have := List.head?_dropWhile_not (fun w : List Char => decide (w = [])) ws
      rw [h] at this
      simpa using this
    cases rest <;> simp [hw, List.intercalate_cons_cons]

/-- A further word follows on a space, unless the line is empty. -/
theorem lineOf_concat (ws : List (List Char)) (w : List Char) :
    lineOf (ws ++ [w]) = if lineOf ws = [] then w else lineOf ws ++ ' ' :: w := by
  split
  · next h =>
    rw [lineOf, List.dropWhile_append, (lineOf_eq_nil_iff ws).1 h]
    by_cases hw : w = [] <;> simp [hw]
  · next h =>
    have hne := mt (lineOf_eq_nil_iff ws).2 h
    rw [lineOf, List.dropWhile_append, if_neg (by simpa using hne), intercalate_concat _ hne,
      ← lineOf, List.append_assoc]
    rfl

@[simp] theorem lineOf_singleton (w : List Char) : lineOf [w] = w := lineOf_concat [] w

theorem lineOf_prefix (ws more : List (List Char)) : lineOf ws <+: lineOf (ws ++ more) := by
  induction more generalizing ws with
  | nil => rw [List.append_nil]
  | cons w more ih =>
    have hstep : lineOf ws <+: lineOf (ws ++ [w]) := by
      rw [lineOf_concat]
      split
      · next h => rw [h]; exact List.nil_prefix
      · exact List.prefix_append _ _
    rw [List.append_cons]
    exact hstep.trans (ih _)

/-! ## Layouts -/

/-- A line is not empty, and a space and one more word would make it longer than allowed. -/
def IsFull (width : Nat) (line w : List Char) : Prop :=
  line ≠ [] ∧ width < line.length + 1 + w.length

instance (width : Nat) (line w : List Char) : Decidable (IsFull width line w) := by
  unfold IsFull; infer_instance

/-- A line has at most as many characters as allowed, or no space. -/
def Fits (width : Nat) (line : List Char) : Prop := line.length ≤ width ∨ ' ' ∉ line

/-- A division of words among lines. All words are on a line, in their order. Every line fits, and
it ends only where it is full for the word that begins the next line. The word between two spaces is
empty and may begin a line like any other one. -/
structure IsLayout (width : Nat) (ws : List (List Char)) (groups : List (List (List Char))) :
    Prop where
  flatten : groups.flatten = ws
  fits : ∀ g ∈ groups, Fits width (lineOf g)
  forced : groups.IsChain fun g h => ∃ w rest, h = w :: rest ∧ IsFull width (lineOf g) w

variable {width : Nat} {g more ws : List (List Char)} {groups : List (List (List Char))}

/-- A word begins a line if the line before it is full, and goes on that line if not. -/
theorem fillLines_cons (width : Nat) (g : List (List Char)) (w : List Char)
    (ws : List (List Char)) : fillLines width (lineOf g) (w :: ws) =
      if IsFull width (lineOf g) w then lineOf g :: fillLines width (lineOf [w]) ws
      else fillLines width (lineOf (g ++ [w])) ws := by
  rw [fillLines, lineOf_concat, lineOf_singleton]
  by_cases hline : lineOf g = []
  · rw [if_pos hline, if_pos hline, if_neg fun h => h.1 hline]
  · rw [if_neg hline, if_neg hline]
    by_cases hlong : width < (lineOf g).length + 1 + w.length
    · rw [if_pos hlong, if_pos ⟨hline, hlong⟩]
    · rw [if_neg hlong, if_neg fun h => hlong h.2]

theorem fits_concat {w : List Char} (hw : ' ' ∉ w) (h : ¬ IsFull width (lineOf g) w) :
    Fits width (lineOf (g ++ [w])) := by
  rw [lineOf_concat]
  split
  · exact .inr hw
  · next hline =>
    have hlength := not_lt.1 (not_and.1 h hline)
    refine .inl ?_
    rw [List.length_append, List.length_cons]
    omega

/-- Filling lines divides the words among them as a layout, in which the first line begins with the
words that were on it already. -/
theorem exists_isLayout (hws : ∀ w ∈ ws, ' ' ∉ w) (hg : Fits width (lineOf g)) :
    ∃ more groups, IsLayout width (g ++ ws) ((g ++ more) :: groups) ∧
      fillLines width (lineOf g) ws = ((g ++ more) :: groups).map lineOf := by
  induction ws generalizing g with
  | nil =>
    refine ⟨[], [], ⟨by simp, ?_, List.IsChain.singleton _⟩, by simp [fillLines]⟩
    rwa [List.append_nil, List.forall_mem_singleton]
  | cons w ws ih =>
    obtain ⟨hw, hws⟩ := List.forall_mem_cons.1 hws
    rw [fillLines_cons]
    by_cases hfull : IsFull width (lineOf g) w
    · obtain ⟨more, groups, hlayout, hfill⟩ :=
        ih (g := [w]) hws (.inr (by rwa [lineOf_singleton]))
      refine ⟨[], ([w] ++ more) :: groups, ⟨?_, ?_, ?_⟩, ?_⟩
      · rw [List.append_nil, List.flatten_cons, hlayout.flatten, List.singleton_append]
      · rw [List.append_nil]
        exact List.forall_mem_cons.2 ⟨hg, hlayout.fits⟩
      · rw [List.append_nil]
        exact List.isChain_cons_cons.2 ⟨⟨w, more, rfl, hfull⟩, hlayout.forced⟩
      · rw [if_pos hfull, hfill, List.append_nil]
        rfl
    · obtain ⟨more, groups, hlayout, hfill⟩ := ih (g := g ++ [w]) hws (fits_concat hw hfull)
      refine ⟨w :: more, groups, ?_, ?_⟩
      · rwa [List.append_cons g w ws, List.append_cons g w more]
      · rw [if_neg hfull, hfill, List.append_cons g w more]

/-- A line of a layout is not full for a word that is on it. -/
theorem not_isFull_of_fits {w : List Char} (h : Fits width (lineOf (g ++ w :: more))) :
    ¬ IsFull width (lineOf g) w := by
  rintro ⟨hline, hlength⟩
  have hbegins := lineOf_prefix (g ++ [w]) more
  rw [← List.append_cons, lineOf_concat, if_neg hline] at hbegins
  rcases h with h | h
  · have := hbegins.length_le
    rw [List.length_append, List.length_cons] at this
    omega
  · exact h (hbegins.subset (by simp))

/-- Every layout in which the first line begins with some words has the lines that are filled from
there. -/
theorem IsLayout.fillLines_eq (h : IsLayout width (g ++ ws) ((g ++ more) :: groups)) :
    fillLines width (lineOf g) ws = ((g ++ more) :: groups).map lineOf := by
  induction ws generalizing g more groups with
  | nil =>
    have hflatten := h.flatten
    rw [List.flatten_cons, List.append_assoc, List.append_right_inj, List.append_eq_nil_iff]
      at hflatten
    obtain ⟨rfl, hgroups⟩ := hflatten
    cases groups with
    | nil => simp [fillLines]
    | cons k groups =>
      obtain ⟨⟨w, rest, rfl, -⟩, -⟩ := List.isChain_cons_cons.1 h.forced
      simp at hgroups
  | cons w ws ih =>
    have hflatten := h.flatten
    rw [List.flatten_cons, List.append_assoc, List.append_right_inj] at hflatten
    rw [fillLines_cons]
    cases more with
    | nil =>
      -- The line ends here, and the word begins the next one.
      cases groups with
      | nil => simp at hflatten
      | cons k groups =>
        obtain ⟨⟨w', rest, rfl, hfull⟩, hforced⟩ := List.isChain_cons_cons.1 h.forced
        obtain ⟨rfl, hrest⟩ := List.cons.inj hflatten
        rw [List.append_nil] at hfull ⊢
        have hnext : IsLayout width ([w'] ++ ws) (([w'] ++ rest) :: groups) :=
          ⟨congrArg (w' :: ·) hrest, fun k hk => h.fits k (List.mem_cons_of_mem _ hk), hforced⟩
        rw [if_pos hfull, ih hnext]
        rfl
    | cons w' more =>
      obtain ⟨rfl, -⟩ := List.cons.inj hflatten
      rw [if_neg (not_isFull_of_fits (h.fits _ List.mem_cons_self))]
      rw [List.append_cons g w' ws, List.append_cons g w' more] at h
      rw [ih h, List.append_cons g w' more]

/-! ## What is visible -/

/-- What is visible of a text: its characters other than blanks. -/
def visible (cs : List Char) : List Char := cs.filter fun c => !isBlank c

@[simp] theorem visible_append (cs ds : List Char) :
    visible (cs ++ ds) = visible cs ++ visible ds := List.filter_append ..

/-- Spaces between texts are not visible. -/
theorem visible_intercalate (ls : List (List Char)) :
    visible ([' '].intercalate ls) = visible ls.flatten := by
  induction ls with
  | nil => rfl
  | cons l ls ih =>
    have hspace : visible [' '] = [] := rfl
    cases ls with
    | nil => simp
    | cons l' ls =>
      rw [List.intercalate_cons_cons, visible_append, visible_append, ih, hspace, List.append_nil,
        ← visible_append]
      rfl

/-- A line shows what its words show. -/
theorem visible_lineOf (ws : List (List Char)) : visible (lineOf ws) = visible ws.flatten := by
  rw [lineOf, visible_intercalate]
  congr 1
  induction ws with
  | nil => rfl
  | cons w ws ih => by_cases hw : w = [] <;> simp [hw, ih]

theorem visible_words (text : List Char) : visible (words text).flatten = visible text := by
  rw [← visible_intercalate, words, intercalate_pieces]

/-- The blanks at the end of a line are not visible. -/
theorem visible_trimEnd (line : List Char) : visible (trimEnd line) = visible line := by
  obtain ⟨blanks, hblanks, hline⟩ := exists_trimEnd_append line
  have hnone : visible blanks = [] := by simpa [visible] using hblanks
  conv_rhs => rw [hline, visible_append, hnone, List.append_nil]

theorem visible_flatten_lines (groups : List (List (List Char))) :
    visible (groups.map fun g => trimEnd (lineOf g)).flatten = visible groups.flatten.flatten := by
  induction groups with
  | nil => rfl
  | cons g groups ih =>
    rw [List.map_cons, List.flatten_cons, visible_append, ih, visible_trimEnd, visible_lineOf,
      List.flatten_cons, List.flatten_append, visible_append]

/-! ## Wrapping -/

theorem Fits.trimEnd {line : List Char} (h : Fits width line) : Fits width (trimEnd line) := by
  obtain ⟨blanks, -, hline⟩ := exists_trimEnd_append line
  have hbegins : Text.trimEnd line <+: line := ⟨blanks, hline.symm⟩
  rcases h with h | h
  · exact .inl (hbegins.length_le.trans h)
  · exact .inr fun hspace => h (hbegins.subset hspace)

/-- A wrapped text consists of lines, joined by the break. They are a layout of its words: every
line ends only where it would be too long, blanks at its end included, with a space and the word
that begins the next line. Without the blanks at their ends they show all that is visible of the
text, in its order, and each has at most as many characters as allowed or no space. There is one way
only to divide the words into such lines. -/
theorem wordWrap_layout (text : String) (width : Nat) (lineBreak : String) :
    ∃ groups, IsLayout width (words text.toList) groups ∧
      (wordWrap text width lineBreak).toList =
        lineBreak.toList.intercalate (groups.map fun g => trimEnd (lineOf g)) ∧
      visible (groups.map fun g => trimEnd (lineOf g)).flatten = visible text.toList ∧
      (∀ g ∈ groups, Fits width (trimEnd (lineOf g))) ∧
      ∀ groups', IsLayout width (words text.toList) groups' →
        groups'.map lineOf = groups.map lineOf := by
  have hwords : ∀ w ∈ words text.toList, ' ' ∉ w := fun w => not_mem_of_mem_pieces
  obtain ⟨more, groups, hlayout, hfill⟩ :=
    exists_isLayout (g := []) hwords (.inr List.not_mem_nil : Fits width [])
  refine ⟨_, hlayout, ?_, ?_, fun g hg => (hlayout.fits g hg).trimEnd, ?_⟩
  · rw [toList_wordWrap, wrapped, lines, show [] = lineOf [] from rfl, hfill, List.map_map]
    rfl
  · rw [visible_flatten_lines, hlayout.flatten, List.nil_append, visible_words]
  · intro groups' h
    cases groups' with
    | nil => exact absurd h.flatten.symm (pieces_ne_nil _ _)
    | cons g groups' => exact (IsLayout.fillLines_eq (g := []) h).symm.trans hfill

end VocabPhp.Text
