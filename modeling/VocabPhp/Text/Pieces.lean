/-!
# Cutting text at a separator

* `pieces`: the pieces of a text between the occurrences of a character.
* `intercalate_pieces`: the pieces, joined by the separator, are the text.
* `intercalate_concat`: a further piece is joined behind the others.
* `pieces_append`: a separator cuts a text into two.
-/

namespace VocabPhp.Text

/-- The pieces of a text between separators; between two separators in a row there is an empty
one. -/
def pieces (sep : Char) : List Char → List (List Char)
  | [] => [[]]
  | c :: cs =>
    if c = sep then [] :: pieces sep cs
    else match pieces sep cs with
      | [] => [[c]]
      | p :: ps => (c :: p) :: ps

/-- Every text has at least one piece, perhaps an empty one. -/
theorem pieces_ne_nil (sep : Char) (cs : List Char) : pieces sep cs ≠ [] := by
  cases cs with
  | nil => simp [pieces]
  | cons c cs =>
    rw [pieces]
    split
    · simp
    · split <;> simp

/-- The pieces of a text, joined by the separator, are the text. -/
theorem intercalate_pieces (sep : Char) (cs : List Char) :
    [sep].intercalate (pieces sep cs) = cs := by
  induction cs with
  | nil => rfl
  | cons c cs ih =>
    rw [pieces]
    have hne := pieces_ne_nil sep cs
    cases hp : pieces sep cs with
    | nil => exact absurd hp hne
    | cons p ps =>
      rw [hp] at ih
      split
      · next hc => subst hc; simpa [List.intercalate] using ih
      · cases ps <;> simp_all [List.intercalate]

/-- A further piece is joined behind the others. -/
theorem intercalate_concat (sep : List Char) {ls : List (List Char)} (h : ls ≠ []) (l : List Char) :
    sep.intercalate (ls ++ [l]) = sep.intercalate ls ++ sep ++ l := by
  induction ls with
  | nil => exact absurd rfl h
  | cons k ls ih =>
    by_cases hls : ls = []
    · simp [hls]
    · rw [List.cons_append, List.intercalate_cons_of_ne_nil (by simp), ih hls,
        List.intercalate_cons_of_ne_nil hls]
      simp

theorem pieces_of_not_mem {sep : Char} {l : List Char} (hl : sep ∉ l) : pieces sep l = [l] := by
  induction l with
  | nil => rfl
  | cons c l ih =>
    obtain ⟨hc, hl⟩ := not_or.1 (mt List.mem_cons.2 hl)
    rw [pieces, if_neg (Ne.symm hc), ih hl]

/-- A separator cuts a text into two, each with its own pieces. -/
theorem pieces_append (sep : Char) (cs ds : List Char) :
    pieces sep (cs ++ sep :: ds) = pieces sep cs ++ pieces sep ds := by
  induction cs with
  | nil => simp [pieces]
  | cons c cs ih =>
    rw [List.cons_append, pieces, pieces, ih]
    split
    · rfl
    · cases hp : pieces sep cs with
      | nil => exact absurd hp (pieces_ne_nil sep cs)
      | cons p ps => rfl

/-- No piece holds the separator. -/
theorem not_mem_of_mem_pieces {sep : Char} {cs p : List Char} (h : p ∈ pieces sep cs) :
    sep ∉ p := by
  induction cs generalizing p with
  | nil => simp_all [pieces]
  | cons c cs ih =>
    rw [pieces] at h
    split at h
    · rcases List.mem_cons.1 h with rfl | h
      · simp
      · exact ih h
    · next hc =>
      cases hp : pieces sep cs with
      | nil => exact absurd hp (pieces_ne_nil sep cs)
      | cons q qs =>
        rw [hp] at h ih
        rcases List.mem_cons.1 h with rfl | h
        · have := ih (p := q) (by simp)
          simp [this, Ne.symm hc]
        · exact ih (by simp [h])

end VocabPhp.Text
