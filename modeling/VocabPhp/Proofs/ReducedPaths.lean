import VocabPhp.Proofs.Targets

/-!
# Paths without detours

A path is reduced if it is written without detours: two dots stand only before all other names, and
no piece is empty or a dot, unless the path is a dot alone. On its way such a path leads up first,
and then down. It can be cut behind each of its pieces, and continued by the name of an entry.

* `Path.IsReduced`, `Path.IsReduced.follow_prefix`: what these paths are, and where their way leads.
* `Path.IsReduced.parent?_eq`, `Path.IsReduced.parent`: such a path without its last piece.
* `Path.IsReduced.join_eq`: such a path continued by the name of an entry.
* `Path.IsNormal.isReduced`: normal paths are reduced.
-/

namespace VocabPhp

open FileSystem

variable {fs : FileSystem} {p : Path} {l : Location} {text name : String}
  {front ups downs : List String}

namespace FileSystem

/-! ## Where names lead -/

/-- Two dots lead up. -/
theorem follow_prefix_of_ups (h : ∀ n ∈ ups, n = "..") : follow l ups <+: l := by
  induction ups generalizing l with
  | nil => exact List.prefix_rfl
  | cons name ups ih =>
    obtain rfl := h name List.mem_cons_self
    have hup : next l ".." = l.dropLast := rfl
    have hrest := ih (l := l.dropLast) fun n hn => h n (List.mem_cons_of_mem _ hn)
    rw [follow, List.foldl_cons, hup]
    exact hrest.trans (List.dropLast_prefix l)

/-- Other names lead down. -/
theorem follow_of_downs (h : ∀ n ∈ downs, n ≠ "." ∧ n ≠ "..") : follow l downs = l ++ downs := by
  induction downs generalizing l with
  | nil => exact (List.append_nil l).symm
  | cons name downs ih =>
    obtain ⟨hdot, hdots⟩ := h name List.mem_cons_self
    have hrest := ih (l := l ++ [name]) fun n hn => h n (List.mem_cons_of_mem _ hn)
    rw [follow, List.foldl_cons, next_of_ne hdot hdots]
    exact hrest.trans (List.append_assoc l [name] downs)

end FileSystem

/-! ## Reduced paths -/

theorem IsEntryName.toList_ne_nil (h : IsEntryName name) : name.toList ≠ [] := fun hnil =>
  h.ne_empty (String.toList_inj.1 hnil)

namespace Path

/-- A path is written without detours: no piece is empty or a dot, unless the path is a dot alone,
and two dots stand only before all other names. -/
structure IsReduced (p : Path) : Prop where
  here : p.lead = .here → p.body = []
  plain : ∀ piece ∈ p.body, isTrivial piece = false
  upFirst : ".." ∉ p.names.dropWhile (· = "..")

instance : Decidable p.IsReduced :=
  decidable_of_iff ((p.lead = .here → p.body = []) ∧ (∀ piece ∈ p.body, isTrivial piece = false) ∧
      ".." ∉ p.names.dropWhile (· = ".."))
    ⟨fun ⟨hhere, hplain, hup⟩ => ⟨hhere, hplain, hup⟩, fun h => ⟨h.here, h.plain, h.upFirst⟩⟩

theorem names_of_plain (h : ∀ piece ∈ p.body, isTrivial piece = false) :
    p.names = p.body.map String.ofList := by
  rw [names, List.filter_eq_self.2]
  intro piece hpiece
  have := h piece hpiece
  simp_all [isTrivial]

namespace IsReduced

theorem ne_dot (hp : p.IsReduced) (h : name ∈ p.names) : name ≠ "." := by
  rw [names_of_plain hp.plain] at h
  obtain ⟨piece, hpiece, rfl⟩ := List.mem_map.1 h
  have hplain := hp.plain piece hpiece
  intro hdot
  have : piece = ['.'] := by simpa using congrArg String.toList hdot
  simp_all [isTrivial]

/-- The names are two dots, and then names that lead down. -/
theorem exists_cut (hp : p.IsReduced) : ∃ ups downs, p.names = ups ++ downs ∧
    (∀ n ∈ ups, n = "..") ∧ ∀ n ∈ downs, n ≠ "." ∧ n ≠ ".." := by
  refine ⟨p.names.takeWhile (· = ".."), p.names.dropWhile (· = ".."),
    List.takeWhile_append_dropWhile.symm, fun n hn => ?_, fun n hn => ⟨?_, ?_⟩⟩
  · simpa using List.all_eq_true.1 List.all_takeWhile n hn
  · exact hp.ne_dot ((List.dropWhile_sublist _).subset hn)
  · rintro rfl
    exact hp.upFirst hn

/-- On its way a path leads above where it starts, and then to locations above its target. -/
theorem follow_prefix (hp : p.IsReduced) (h : front <+: p.names) :
    follow (fs.start p) front <+: fs.start p ∨ follow (fs.start p) front <+: fs.target p := by
  obtain ⟨ups, downs, hnames, hups, hdowns⟩ := hp.exists_cut
  rw [hnames] at h
  obtain hfront | ⟨rest, rfl⟩ := List.prefix_or_prefix_of_prefix h (List.prefix_append ups downs)
  · exact .inl (follow_prefix_of_ups fun n hn => hups n (hfront.subset hn))
  · have hrest := (List.prefix_append_right_inj ups).1 h
    refine .inr ?_
    rw [target, hnames, follow_append, follow_append, follow_of_downs hdowns,
      follow_of_downs fun n hn => hdowns n (hrest.subset hn)]
    exact (List.prefix_append_right_inj _).2 hrest

theorem endsInSlash_eq (hp : p.IsReduced) : p.endsInSlash = false := by
  have hlast : p.body.getLast? ≠ some [] := fun hnil =>
    absurd (hp.plain [] (List.mem_of_getLast? hnil)) (by simp [isTrivial])
  simpa [endsInSlash] using hlast

end IsReduced

/-! ### The last piece -/

section Last

variable {lead : PathLead} {pieces : List (List Char)} {piece : List Char}

theorem names_concat (h : piece ≠ []) : (⟨lead, pieces ++ [piece]⟩ : Path).names =
    (⟨lead, pieces⟩ : Path).names ++ [String.ofList piece] := by
  simp [names, List.filter_append, h]

theorem chars_concat_prefix :
    (⟨lead, pieces⟩ : Path).chars <+: (⟨lead, pieces ++ [piece]⟩ : Path).chars := by
  rw [chars, chars, List.prefix_append_right_inj]
  by_cases h : pieces = []
  · simp [h]
  · rw [Text.intercalate_concat ['/'] h, List.append_assoc]
    exact List.prefix_append _ _

theorem dropTrivial_concat (h : isTrivial piece = false) :
    dropTrivial (pieces ++ [piece]) = pieces ++ [piece] := by
  simp [dropTrivial, h]

theorem dropTrivial_of_plain (h : ∀ q ∈ pieces, isTrivial q = false) :
    dropTrivial pieces = pieces := by
  obtain rfl | ⟨init, last, rfl⟩ := List.eq_nil_or_concat pieces
  · rfl
  · exact List.concat_eq_append ▸ dropTrivial_concat (h last (by simp))

theorem parent?_concat (h : isTrivial piece = false) :
    (⟨lead, pieces ++ [piece]⟩ : Path).parent? = some ⟨lead, dropTrivial pieces⟩ := by
  rw [parent?, dropTrivial_concat h]
  split
  · next heq => simp at heq
  · next heq => rw [← heq, List.dropLast_concat]

namespace IsReduced

theorem ne_nil (hp : (⟨lead, pieces ++ [piece]⟩ : Path).IsReduced) : piece ≠ [] := by
  rintro rfl
  exact absurd (hp.plain [] (by simp)) (by simp [isTrivial])

theorem names_concat (hp : (⟨lead, pieces ++ [piece]⟩ : Path).IsReduced) :
    (⟨lead, pieces ++ [piece]⟩ : Path).names =
      (⟨lead, pieces⟩ : Path).names ++ [String.ofList piece] :=
  Path.names_concat hp.ne_nil

theorem chars_ne_nil (hp : (⟨lead, pieces ++ [piece]⟩ : Path).IsReduced) :
    (⟨lead, pieces ++ [piece]⟩ : Path).chars ≠ [] := by
  rw [chars]
  by_cases hpieces : pieces = []
  · simp [hpieces, hp.ne_nil]
  · rw [Text.intercalate_concat ['/'] hpieces]
    simp

/-- The path without its last piece. -/
theorem parent?_eq (hp : (⟨lead, pieces ++ [piece]⟩ : Path).IsReduced) :
    (⟨lead, pieces ++ [piece]⟩ : Path).parent? = some ⟨lead, pieces⟩ := by
  rw [parent?_concat (hp.plain piece (by simp)),
    dropTrivial_of_plain fun q hq => hp.plain q (List.mem_append_left _ hq)]

theorem parent (hp : (⟨lead, pieces ++ [piece]⟩ : Path).IsReduced) :
    (⟨lead, pieces⟩ : Path).IsReduced := by
  refine ⟨fun hhere => ?_, fun piece hpiece => hp.plain piece (List.mem_append_left _ hpiece), ?_⟩
  · exact absurd (hp.here hhere) (by simp)
  · have hup := hp.upFirst
    rw [hp.names_concat, List.dropWhile_append] at hup
    intro hmem
    split at hup
    · next hempty =>
      rw [List.isEmpty_iff.1 hempty] at hmem
      exact List.not_mem_nil hmem
    · exact hup (List.mem_append_left _ hmem)

end IsReduced

end Last

/-! ### Names of entries -/

section Names

variable {cs ds : List Char}

instance : Decidable (IsEntryName name) :=
  decidable_of_iff
    (name ≠ "" ∧ name ≠ "." ∧ name ≠ ".." ∧ '/' ∉ name.toList ∧ '\x00' ∉ name.toList)
    ⟨fun ⟨hempty, hdot, hdots, hslash, hnul⟩ => ⟨hempty, hdot, hdots, hslash, hnul⟩,
      fun h => ⟨h.ne_empty, h.ne_dot, h.ne_dots, h.slash_not_mem, h.nul_not_mem⟩⟩

theorem isTrivial_eq_false (h : IsEntryName name) : isTrivial name.toList = false := by
  have hdot : name.toList ≠ ['.'] := fun hdot => h.ne_dot (String.toList_inj.1 hdot)
  simp [isTrivial, h.toList_ne_nil, hdot]

theorem chars_ofText (text : String) : (ofText text).chars = text.toList := by
  rw [← String.toList_ofList (l := (ofText text).chars), ← Path.text, text_ofText]

theorem ofChars_of_relative (h : (ofChars cs).lead = .relative) :
    ofChars cs = ⟨.relative, bodyOf cs⟩ := by
  unfold ofChars at h ⊢
  split at h
  · cases h
  · cases h
  · cases h
  · rfl

theorem bodyOf_of_ne_nil (h : cs ≠ []) : bodyOf cs = Text.pieces '/' cs := by
  cases cs with
  | nil => exact absurd rfl h
  | cons c cs => rfl

theorem bodyOf_name (h : IsEntryName name) : bodyOf name.toList = [name.toList] := by
  rw [bodyOf_of_ne_nil h.toList_ne_nil, Text.pieces_of_not_mem h.slash_not_mem]

/-- The name of an entry is a path. -/
theorem ofChars_name (h : IsEntryName name) : ofChars name.toList = ⟨.relative, [name.toList]⟩ := by
  have hlead : (ofChars name.toList).lead = .relative := by
    have hslash := h.slash_not_mem
    have hdot : name.toList ≠ ['.'] := fun hdot => h.ne_dot (String.toList_inj.1 hdot)
    unfold ofChars
    split <;> simp_all
  rw [ofChars_of_relative hlead, bodyOf_name h]

theorem names_ofText_name (h : IsEntryName name) : (ofText name).names = [name] := by
  simp [ofText, ofChars_name h, names, h.toList_ne_nil]

theorem isReduced_name (h : IsEntryName name) : (ofText name).IsReduced := by
  refine ⟨?_, ?_, ?_⟩
  · simp [ofText, ofChars_name h]
  · simp [ofText, ofChars_name h, isTrivial_eq_false h]
  · simp [names_ofText_name h, h.ne_dots, h.ne_dots.symm]

/-! ### Paths continued by a name -/

/-- A relative path stays one whatever is written behind it. -/
theorem lead_ofChars_append (h : (ofChars cs).lead = .relative) (hne : cs ≠ []) :
    (ofChars (cs ++ '/' :: ds)).lead = .relative := by
  rcases cs with _ | ⟨c, _ | ⟨c', cs⟩⟩
  · exact absurd rfl hne
  all_goals
    unfold ofChars at h ⊢
    split at h <;> split <;> simp_all

/-- A name that is written behind a slash is one more piece. -/
theorem bodyOf_append_name (h : IsEntryName name) :
    bodyOf (cs ++ '/' :: name.toList) = Text.pieces '/' cs ++ [name.toList] := by
  rw [bodyOf_of_ne_nil (by simp), Text.pieces_append, Text.pieces_of_not_mem h.slash_not_mem]

theorem getLast?_ne_slash (hplain : ∀ piece ∈ bodyOf cs, isTrivial piece = false) :
    cs.getLast? ≠ some '/' := by
  intro hlast
  obtain ⟨ds, rfl⟩ := List.getLast?_eq_some_iff.1 hlast
  refine Bool.noConfusion (hplain [] ?_)
  rw [bodyOf_of_ne_nil (by simp), Text.pieces_append]
  exact List.mem_append_right _ (List.mem_singleton_self _)

/-- How the text of a path begins, and what comes after. -/
theorem ofChars_cases (cs : List Char) :
    (∃ ds, cs = '/' :: ds ∧ ofChars cs = ⟨.root, bodyOf ds⟩) ∨
    (cs = ['.'] ∧ ofChars cs = ⟨.here, []⟩) ∨
    (∃ ds, cs = '.' :: '/' :: ds ∧ ofChars cs = ⟨.here, bodyOf ('/' :: ds)⟩) ∨
    ofChars cs = ⟨.relative, bodyOf cs⟩ := by
  unfold ofChars
  split
  · exact .inl ⟨_, rfl, rfl⟩
  · exact .inr (.inl ⟨rfl, rfl⟩)
  · exact .inr (.inr (.inl ⟨_, rfl, rfl⟩))
  · exact .inr (.inr (.inr rfl))

/-- The pieces that a name comes behind: behind a dot there is a slash first. -/
def stem (p : Path) : List (List Char) := if p.lead = .here then [[]] else p.body

theorem join_of_entryName (h : IsEntryName name) : p.join name =
    if p.chars = [] ∨ p.chars.getLast? = some '/' then ofChars (p.chars ++ name.toList)
    else ofChars (p.chars ++ '/' :: name.toList) := by
  unfold join
  split
  · next heq => exact absurd (heq ▸ List.mem_cons_self) h.slash_not_mem
  · rfl

namespace IsReduced

/-- A path continued by a name has that name as one more piece. -/
theorem join_eq (hp : (ofText text).IsReduced) (h : IsEntryName name) :
    (ofText text).join name = ⟨(ofText text).lead, (ofText text).stem ++ [name.toList]⟩ := by
  have hplain := hp.plain
  have hhere := hp.here
  have hjoin := join_of_entryName (p := ofText text) h
  rw [chars_ofText] at hjoin
  rw [hjoin]
  rw [ofText] at hplain hhere ⊢
  -- The path begins with a slash, is a dot, begins with both (and is not reduced), or is relative.
  obtain ⟨ds, hcs, heq⟩ | ⟨hcs, heq⟩ | ⟨ds, -, heq⟩ | heq := ofChars_cases text.toList
  · rw [heq] at hplain ⊢
    rw [hcs]
    by_cases hds : ds = []
    · subst hds
      rw [if_pos (by simp)]
      exact congrArg (Path.mk .root) (bodyOf_name h)
    · have hlast : ('/' :: ds).getLast? ≠ some '/' := by
        rw [List.getLast?_cons_of_ne_nil hds]
        exact getLast?_ne_slash hplain
      have hbody : bodyOf (ds ++ '/' :: name.toList) = bodyOf ds ++ [name.toList] := by
        rw [bodyOf_append_name h, bodyOf_of_ne_nil hds]
      rw [if_neg (by simp [hlast])]
      exact congrArg (Path.mk .root) hbody
  · have hbody : bodyOf ([] ++ '/' :: name.toList) = [[]] ++ [name.toList] := bodyOf_append_name h
    rw [heq, hcs, if_neg (by decide)]
    exact congrArg (Path.mk .here) hbody
  · rw [heq] at hhere
    exact absurd (hhere rfl) (Text.pieces_ne_nil _ _)
  · rw [heq] at hplain ⊢
    by_cases hcs : text.toList = []
    · rw [hcs, if_pos (by simp)]
      exact ofChars_name h
    · rw [if_neg (by simp [hcs, getLast?_ne_slash hplain]), ofChars_of_relative,
        bodyOf_append_name h, ← bodyOf_of_ne_nil hcs]
      · rfl
      · exact lead_ofChars_append (congrArg Path.lead heq) hcs

theorem names_stem (hp : p.IsReduced) : (⟨p.lead, p.stem⟩ : Path).names = p.names := by
  rw [stem]
  split
  · next hhere => simp [names, hp.here hhere]
  · rfl

theorem chars_stem (hp : p.IsReduced) : (⟨p.lead, p.stem⟩ : Path).chars = p.chars := by
  rw [stem]
  split
  · next hhere => simp [chars, hp.here hhere]
  · rfl

theorem dropTrivial_stem (hp : p.IsReduced) : dropTrivial p.stem = p.body := by
  rw [stem]
  split
  · next hhere =>
    rw [hp.here hhere]
    rfl
  · exact dropTrivial_of_plain hp.plain

theorem names_join (hp : (ofText text).IsReduced) (h : IsEntryName name) :
    ((ofText text).join name).names = (ofText text).names ++ [name] := by
  rw [hp.join_eq h, Path.names_concat h.toList_ne_nil, hp.names_stem, String.ofList_toList]

theorem start_join (hp : (ofText text).IsReduced) (h : IsEntryName name) :
    fs.start ((ofText text).join name) = fs.start (ofText text) := by
  rw [hp.join_eq h, start, start]

theorem parent?_join (hp : (ofText text).IsReduced) (h : IsEntryName name) :
    ((ofText text).join name).parent? = some (ofText text) := by
  rw [hp.join_eq h, parent?_concat (isTrivial_eq_false h), hp.dropTrivial_stem]

/-- A path continued by a name leads to what has this name where the path leads. -/
theorem target_join (hp : (ofText text).IsReduced) (h : IsEntryName name) :
    fs.target ((ofText text).join name) = fs.target (ofText text) ++ [name] := by
  rw [target, hp.start_join h, hp.names_join h, follow_concat, next_of_ne h.ne_dot h.ne_dots,
    target]

theorem endsInSlash_join (hp : (ofText text).IsReduced) (h : IsEntryName name) :
    ((ofText text).join name).endsInSlash = false := by
  simp [hp.join_eq h, endsInSlash, h.toList_ne_nil]

theorem chars_prefix_join (hp : (ofText text).IsReduced) (h : IsEntryName name) :
    (ofText text).chars <+: ((ofText text).join name).chars := by
  rw [hp.join_eq h, ← hp.chars_stem]
  exact chars_concat_prefix

end IsReduced

end Names

/-! ### Normal paths -/

namespace IsNormal

theorem isReduced (hp : p.IsNormal) : p.IsReduced :=
  ⟨fun hhere => absurd (hp.relative.symm.trans hhere) (by decide), hp.plain, hp.upFirst⟩

theorem chars_ne_nil (hp : (ofText text).IsNormal) : (ofText text).chars ≠ [] := by
  intro hnil
  rw [chars_ofText] at hnil
  exact hp.nonempty (by rw [ofText, hnil]; rfl)

theorem parent?_join (hp : (ofText text).IsNormal) (h : IsEntryName name) :
    ((ofText text).join name).parent? = some (ofText text) :=
  hp.isReduced.parent?_join h

theorem target_join (hp : (ofText text).IsNormal) (h : IsEntryName name) :
    fs.target ((ofText text).join name) = fs.target (ofText text) ++ [name] :=
  hp.isReduced.target_join h

end IsNormal

end Path

end VocabPhp
