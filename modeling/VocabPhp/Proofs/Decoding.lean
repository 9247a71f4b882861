import VocabPhp.Proofs.Utf8
import VocabPhp.Text.Reference

/-!
# Decoding in one pass

Text is decoded in two passes: one escapes the ampersands of the references to what is no text
character, and one replaces references by their characters. Together they are a single pass from
left to right, in which every reference is replaced or copied as a whole and all other characters
are copied. It never reads what it has written.

* `Numeric`, `Named`: the references, as texts.
* `Decoded`: the single pass, as rules.
* `numeric?_guardControls`, `namedReference?_guardControls`: escaping ampersands does not change
  which reference a text begins with, whatever else it changes.
* `decode_eq_iff_decoded`: decoding is the single pass.
-/

namespace VocabPhp.Text.Reference

/-! ## References as texts -/

/-- Numeric references, in decimal or hexadecimal digits, with the code points that they write. -/
inductive Numeric : List Char → Nat → Prop
  | decimal {ds} : ds ≠ [] → (∀ d ∈ ds, d.isDigit = true) →
      Numeric ('&' :: '#' :: (ds ++ [';'])) (numberOf 10 ds)
  | hexadecimal {x ds} : x = 'x' ∨ x = 'X' → ds ≠ [] → (∀ d ∈ ds, isHexDigit d = true) →
      Numeric ('&' :: '#' :: x :: (ds ++ [';'])) (numberOf 16 ds)

/-- Named references, with the characters that their names stand for. -/
inductive Named : List Char → Char → Prop
  | mk {name c} : named? name = some c → Named ('&' :: (name ++ [';'])) c

/-- The text is a reference, to a text character or not. -/
def IsReference (ref : List Char) : Prop := (∃ n, Numeric ref n) ∨ ∃ c, Named ref c

/-- A character that text may hold: no control character other than tab, newline and carriage
return. -/
def IsText (c : Char) : Prop :=
  ¬ (c.toNat < 32 ∨ 127 ≤ c.toNat ∧ c.toNat < 160) ∨ c = '\t' ∨ c = '\n' ∨ c = '\r'

/-- A single pass over a text, from left to right. -/
inductive Decoded : List Char → List Char → Prop
  | nil : Decoded [] []
  /-- A numeric reference to a text character becomes the character. -/
  | character {ref c rest out} : Numeric ref c.toNat → IsText c → Decoded rest out →
      Decoded (ref ++ rest) (c :: out)
  /-- Any other numeric reference is copied. -/
  | kept {ref n rest out} : Numeric ref n → (∀ c : Char, c.toNat = n → ¬ IsText c) →
      Decoded rest out → Decoded (ref ++ rest) (ref ++ out)
  /-- A named reference becomes its character. -/
  | named {ref c rest out} : Named ref c → Decoded rest out → Decoded (ref ++ rest) (c :: out)
  /-- Where no reference begins, a character is copied. -/
  | other {c rest out} : (∀ ref, IsReference ref → ¬ ref <+: c :: rest) → Decoded rest out →
      Decoded (c :: rest) (c :: out)

/-! ## Reading references -/

theorem upToSemicolon_eq_some_iff {p : Char → Bool} (hp : p ';' = false) {cs ds rest : List Char} :
    upToSemicolon p cs = some (ds, rest) ↔
      cs = ds ++ ';' :: rest ∧ ds ≠ [] ∧ ∀ d ∈ ds, p d = true := by
  constructor
  · intro h
    refine ⟨upToSemicolon_eq h, ?_⟩
    unfold upToSemicolon at h
    split at h
    · next d ds' rest' htake hdrop =>
      cases h
      refine ⟨List.cons_ne_nil d ds', fun e he => ?_⟩
      exact List.all_eq_true.1 List.all_takeWhile e (htake ▸ he)
    · cases h
  · rintro ⟨rfl, hne, hds⟩
    obtain ⟨d, ds', rfl⟩ := List.exists_cons_of_ne_nil hne
    have htake : (d :: ds' ++ ';' :: rest).takeWhile p = d :: ds' := by
      rw [List.takeWhile_append_of_pos hds, List.takeWhile_cons_of_neg (by simp [hp]),
        List.append_nil]
    have hdrop : (d :: ds' ++ ';' :: rest).dropWhile p = ';' :: rest := by
      rw [List.dropWhile_append_of_pos hds, List.dropWhile_cons_of_neg (by simp [hp])]
    rw [upToSemicolon, htake, hdrop]
    rfl

/-- The number sign begins a hexadecimal reference if an `x` follows, else a decimal one. -/
theorem numeric?_hash (cs : List Char) : numeric? ('#' :: cs) =
    if cs.head? = some 'x' ∨ cs.head? = some 'X' then
      (upToSemicolon isHexDigit cs.tail).map fun r => (numberOf 16 r.1, r.2)
    else (upToSemicolon Char.isDigit cs).map fun r => (numberOf 10 r.1, r.2) := by
  rcases cs with _ | ⟨x, cs⟩
  · rfl
  · by_cases hx : x = 'x' ∨ x = 'X'
    · rcases hx with rfl | rfl <;> rfl
    · rw [if_neg (by simpa using hx)]
      obtain ⟨hlower, hupper⟩ := not_or.1 hx
      rw [numeric?]
      · rintro cs' ⟨⟩
        exact hlower rfl
      · rintro cs' ⟨⟩
        exact hupper rfl

theorem numeric?_of_head_ne {cs : List Char} (h : cs.head? ≠ some '#') : numeric? cs = none := by
  unfold numeric?
  split
  · exact absurd rfl h
  · exact absurd rfl h
  · exact absurd rfl h
  · rfl

/-- A text is read as a numeric reference exactly if one is at its front. -/
theorem numeric?_eq_some_iff {cs rest : List Char} {n : Nat} :
    numeric? cs = some (n, rest) ↔ ∃ ref, Numeric ref n ∧ '&' :: cs = ref ++ rest := by
  constructor
  · intro h
    have hhead : cs.head? = some '#' := by
      by_contra hne
      rw [numeric?_of_head_ne hne] at h
      cases h
    obtain ⟨cs, rfl⟩ := List.head?_eq_some_iff.1 hhead
    rw [numeric?_hash] at h
    split at h
    · next hx =>
      obtain ⟨⟨ds, r⟩, hds, heq⟩ := Option.map_eq_some_iff.1 h
      cases heq
      obtain ⟨htail, hne, hdigits⟩ := (upToSemicolon_eq_some_iff (by decide)).1 hds
      rcases cs with _ | ⟨x, cs⟩
      · simp at hx
      · rw [List.tail_cons] at htail
        refine ⟨_, .hexadecimal (by simpa using hx) hne hdigits, ?_⟩
        rw [htail]
        simp
    · obtain ⟨⟨ds, r⟩, hds, heq⟩ := Option.map_eq_some_iff.1 h
      cases heq
      obtain ⟨rfl, hne, hdigits⟩ := (upToSemicolon_eq_some_iff (by decide)).1 hds
      exact ⟨_, .decimal hne hdigits, by simp⟩
  · rintro ⟨ref, href, heq⟩
    cases href with
    | @decimal ds hne hdigits =>
      obtain rfl : cs = '#' :: (ds ++ ';' :: rest) := by simpa using heq
      -- No digit is the letter that announces hexadecimal digits.
      have hx : ¬ ((ds ++ ';' :: rest).head? = some 'x' ∨
          (ds ++ ';' :: rest).head? = some 'X') := by
        obtain ⟨d, ds, rfl⟩ := List.exists_cons_of_ne_nil hne
        have hd := hdigits d List.mem_cons_self
        rw [List.cons_append, List.head?_cons, Option.some_inj, Option.some_inj]
        rintro (rfl | rfl) <;> revert hd <;> decide
      rw [numeric?_hash, if_neg hx, (upToSemicolon_eq_some_iff (by decide)).2 ⟨rfl, hne, hdigits⟩]
      rfl
    | @hexadecimal x ds hx hne hdigits =>
      obtain rfl : cs = '#' :: x :: (ds ++ ';' :: rest) := by simpa using heq
      rw [numeric?_hash, if_pos (by simpa using hx), List.tail_cons,
        (upToSemicolon_eq_some_iff (by decide)).2 ⟨rfl, hne, hdigits⟩]
      rfl

/-- Tells whether a byte is that of a letter or digit. -/
def isAlphanumByte (b : UInt8) : Bool :=
  (48 ≤ b && b ≤ 57) || (65 ≤ b && b ≤ 90) || (97 ≤ b && b ≤ 122)

theorem isAlphanum_of_not_ascii {c : Char} (hc : 128 ≤ c.toNat) : c.isAlphanum = false := by
  have habove (d : Char) (hd : d.toNat < 128) : ¬ c.val ≤ d.val := fun hle =>
    Nat.not_le.2 (Nat.lt_of_lt_of_le hd hc) (UInt32.le_iff_toNat_le.1 hle)
  have hupper : c.isUpper = false := decide_eq_false fun h => habove 'Z' (by decide) h.2
  have hlower : c.isLower = false :=
    Bool.and_eq_false_iff.2 (.inr (decide_eq_false (habove 'z' (by decide))))
  have hdigit : c.isDigit = false :=
    Bool.and_eq_false_iff.2 (.inr (decide_eq_false (habove '9' (by decide))))
  change (c.isUpper || c.isLower || c.isDigit) = false
  rw [hupper, hlower, hdigit]
  rfl

/-- All names of references are made of letters and digits. The table is read byte by byte, which
takes less time than character by character. -/
theorem isAlphanum_of_named? {name : List Char} {c : Char} (h : named? name = some c) :
    ∀ d ∈ name, d.isAlphanum = true := by
  have htable (first : Char) :
      (startingWith first).all (fun e => (bytes e.1).all isAlphanumByte) = true := by
    unfold startingWith
    split <;> decide +kernel
  unfold named? at h
  split at h
  · cases h
  · next first name =>
    obtain ⟨code, hcode, -⟩ := Option.map_eq_some_iff.1 h
    obtain ⟨before, after, hentry, -⟩ := List.lookup_eq_some_iff.1 hcode
    have hmem : (String.ofList (first :: name), code) ∈ startingWith first := by simp [hentry]
    have hbytes := List.all_eq_true.1 (List.all_eq_true.1 (htable first) _ hmem)
    rw [bytes_eq, String.toList_ofList] at hbytes
    refine (forall_bytes_iff (r := false) (by decide +kernel) ?_
      (fun _ => isAlphanum_of_not_ascii) _).1 hbytes
    intro b hb
    simp only [isAlphanumByte, UInt8.le_iff_toNat_le] at hb ⊢
    grind

/-- A text is read as a named reference exactly if one is at its front. -/
theorem namedReference?_eq_some_iff {cs rest : List Char} {c : Char} :
    namedReference? cs = some (c, rest) ↔ ∃ ref, Named ref c ∧ '&' :: cs = ref ++ rest := by
  simp only [namedReference?, Option.bind_eq_bind, Option.bind_eq_some_iff, Prod.exists]
  constructor
  · rintro ⟨name, rest', hcut, c', hname, heq⟩
    cases heq
    obtain ⟨rfl, -, -⟩ := (upToSemicolon_eq_some_iff (by decide)).1 hcut
    exact ⟨_, .mk hname, by simp⟩
  · rintro ⟨ref, href, heq⟩
    cases href with
    | @mk name c hname =>
      obtain rfl : cs = name ++ ';' :: rest := by simpa using heq
      have hne : name ≠ [] := by
        rintro rfl
        cases hname
      exact ⟨name, rest, (upToSemicolon_eq_some_iff (by decide)).2
        ⟨rfl, hne, isAlphanum_of_named? hname⟩, c, hname, rfl⟩

/-- A named reference is no numeric one. -/
theorem numeric?_eq_none_of_named {cs rest : List Char} {c : Char}
    (h : namedReference? cs = some (c, rest)) : numeric? cs = none := by
  obtain ⟨ref, href, heq⟩ := namedReference?_eq_some_iff.1 h
  refine numeric?_of_head_ne fun hhead => ?_
  obtain ⟨cs, rfl⟩ := List.head?_eq_some_iff.1 hhead
  cases href with
  | @mk name _ hname =>
    rcases name with _ | ⟨d, name⟩
    · cases hname
    · obtain ⟨-, rfl, -⟩ : '&' = '&' ∧ '#' = d ∧ cs = name ++ ';' :: rest := by simpa using heq
      exact absurd (isAlphanum_of_named? hname '#' List.mem_cons_self) (by decide)

/-! ## What escaping ampersands changes -/

theorem guardControls_of_ne {c : Char} (hc : c ≠ '&') (cs : List Char) :
    guardControls (c :: cs) = c :: guardControls cs := by
  rw [guardControls, if_neg fun h => hc h.1]

theorem head?_guardControls (cs : List Char) : (guardControls cs).head? = cs.head? := by
  rcases cs with _ | ⟨c, cs⟩
  · rfl
  · rw [guardControls]
    split
    · next h => rw [h.1]; rfl
    · rfl

variable {p : Char → Bool}

theorem takeWhile_guardControls (hp : p '&' = false) (cs : List Char) :
    (guardControls cs).takeWhile p = cs.takeWhile p := by
  induction cs with
  | nil => rfl
  | cons c cs ih =>
    by_cases hc : c = '&'
    · subst hc
      obtain ⟨rest, hrest⟩ := List.head?_eq_some_iff.1 (head?_guardControls ('&' :: cs))
      rw [hrest, List.takeWhile_cons_of_neg (by simp [hp]),
        List.takeWhile_cons_of_neg (by simp [hp])]
    · rw [guardControls_of_ne hc, List.takeWhile_cons, List.takeWhile_cons, ih]

theorem dropWhile_guardControls (hp : p '&' = false) (cs : List Char) :
    (guardControls cs).dropWhile p = guardControls (cs.dropWhile p) := by
  induction cs with
  | nil => rfl
  | cons c cs ih =>
    by_cases hc : c = '&'
    · subst hc
      obtain ⟨rest, hrest⟩ := List.head?_eq_some_iff.1 (head?_guardControls ('&' :: cs))
      rw [hrest, List.dropWhile_cons_of_neg (by simp [hp]),
        List.dropWhile_cons_of_neg (by simp [hp]), hrest]
    · rw [guardControls_of_ne hc, List.dropWhile_cons, List.dropWhile_cons, ih]
      split
      · rfl
      · rw [guardControls_of_ne hc]

theorem upToSemicolon_guardControls (hp : p '&' = false) (cs : List Char) :
    upToSemicolon p (guardControls cs) =
      (upToSemicolon p cs).map fun r => (r.1, guardControls r.2) := by
  rw [upToSemicolon, upToSemicolon, takeWhile_guardControls hp, dropWhile_guardControls hp]
  rcases cs.takeWhile p with _ | ⟨d, ds⟩
  · rfl
  · rcases cs.dropWhile p with _ | ⟨c, rest⟩
    · rfl
    · by_cases hc : c = ';'
      · subst hc
        rw [guardControls_of_ne (by decide)]
        rfl
      · have hhead : (guardControls (c :: rest)).head? ≠ some ';' := by
          rw [head?_guardControls]
          simpa using hc
        split
        · next heq => rw [heq] at hhead; exact absurd rfl hhead
        · split
          · next heq => cases heq; exact absurd rfl hc
          · rfl

/-- A numeric reference stays what it is, before any text. -/
theorem numeric?_guardControls (cs : List Char) :
    numeric? (guardControls cs) = (numeric? cs).map fun r => (r.1, guardControls r.2) := by
  by_cases hhead : cs.head? = some '#'
  · obtain ⟨cs, rfl⟩ := List.head?_eq_some_iff.1 hhead
    rw [guardControls_of_ne (by decide), numeric?_hash, numeric?_hash, head?_guardControls]
    split
    · next hx =>
      have htail : (guardControls cs).tail = guardControls cs.tail := by
        rcases cs with _ | ⟨x, cs⟩
        · rfl
        · have hx' : x ≠ '&' := by
            rintro rfl
            simp at hx
          rw [guardControls_of_ne hx', List.tail_cons, List.tail_cons]
      rw [htail, upToSemicolon_guardControls (by decide), Option.map_map, Option.map_map]
      rfl
    · rw [upToSemicolon_guardControls (by decide), Option.map_map, Option.map_map]
      rfl
  · rw [numeric?_of_head_ne hhead, numeric?_of_head_ne (by rwa [head?_guardControls])]
    rfl

/-- A named reference stays what it is, before any text. -/
theorem namedReference?_guardControls (cs : List Char) :
    namedReference? (guardControls cs) =
      (namedReference? cs).map fun r => (r.1, guardControls r.2) := by
  rw [namedReference?, namedReference?, upToSemicolon_guardControls (by decide)]
  rcases upToSemicolon Char.isAlphanum cs with _ | ⟨name, rest⟩
  · rfl
  · rcases hname : named? name with _ | c <;> simp [hname]

/-! ## The two passes together -/

theorem expand_of_ne {c : Char} (hc : c ≠ '&') (cs : List Char) :
    expand (c :: cs) = c :: expand cs := by
  rw [expand, if_neg hc]

/-- A pass that copies what is no ampersand copies a text without one. -/
theorem append_of_copies {pass : List Char → List Char}
    (hpass : ∀ {c}, c ≠ '&' → ∀ cs, pass (c :: cs) = c :: pass cs) {cs : List Char} (hcs : '&' ∉ cs)
    (ds : List Char) : pass (cs ++ ds) = cs ++ pass ds := by
  induction cs with
  | nil => rfl
  | cons c cs ih =>
    obtain ⟨hc, hcs⟩ := not_or.1 (mt List.mem_cons.2 hcs)
    rw [List.cons_append, hpass (Ne.symm hc), ih hcs, List.cons_append]

theorem expand_reference {cs rest : List Char} {c : Char} (h : reference? cs = some (c, rest)) :
    expand ('&' :: cs) = c :: expand rest := by
  rw [expand, if_pos rfl]
  split
  · next heq => rw [h] at heq; cases heq; rfl
  · next heq => rw [h] at heq; cases heq

theorem expand_no_reference {cs : List Char} (h : reference? cs = none) :
    expand ('&' :: cs) = '&' :: expand cs := by
  rw [expand, if_pos rfl]
  split
  · next heq => rw [h] at heq; cases heq
  · rfl

variable {cs rest : List Char} {c : Char} {n : Nat}

/-- An ampersand that does not begin a numeric reference to a control character is left alone, and
what is read after it is what was there. -/
theorem expand_guardControls_amp (h : startsControl cs = false) :
    expand (guardControls ('&' :: cs)) =
      match reference? cs with
      | some (c, rest) => c :: expand (guardControls rest)
      | none => '&' :: expand (guardControls cs) := by
  have hread : reference? (guardControls cs) =
      (reference? cs).map fun r => (r.1, guardControls r.2) := by
    rw [reference?, reference?, numericReference?, numericReference?, numeric?_guardControls,
      namedReference?_guardControls]
    rcases numeric? cs with _ | ⟨n, rest⟩
    · rfl
    · by_cases hn : n.isValidChar <;> simp [hn]
  rw [guardControls, if_neg (by simp [h])]
  rcases href : reference? cs with _ | ⟨c, rest⟩
  · rw [href] at hread
    exact expand_no_reference hread
  · rw [href] at hread
    exact expand_reference hread

theorem expand_guardControls_character (hn : numeric? cs = some (c.toNat, rest))
    (hc : isTextCode c.toNat = true) :
    expand (guardControls ('&' :: cs)) = c :: expand (guardControls rest) := by
  have hvalid : c.toNat.isValidChar := c.valid
  have href : reference? cs = some (c, rest) := by
    rw [reference?, numericReference?, hn]
    simp [hvalid]
  rw [expand_guardControls_amp (by simp [startsControl, hn, hc]), href]

/-- The escaped ampersand is read as a reference to itself. -/
theorem expand_guardControls_kept (hn : numeric? cs = some (n, rest)) (hc : isTextCode n = false) :
    expand (guardControls ('&' :: cs)) = '&' :: expand (guardControls cs) := by
  have hamp : named? ['a', 'm', 'p'] = some '&' := by decide +kernel
  have hnamed : namedReference? ('a' :: 'm' :: 'p' :: ';' :: guardControls cs) =
      some ('&', guardControls cs) :=
    namedReference?_eq_some_iff.2 ⟨['&', 'a', 'm', 'p', ';'], .mk hamp, rfl⟩
  have hread : reference? ('a' :: 'm' :: 'p' :: ';' :: guardControls cs) =
      some ('&', guardControls cs) := by
    rw [reference?, numericReference?, numeric?_eq_none_of_named hnamed, hnamed]
    rfl
  rw [guardControls, if_pos ⟨rfl, by simp [startsControl, hn, hc]⟩]
  exact expand_reference hread

theorem expand_guardControls_named (h : namedReference? cs = some (c, rest)) :
    expand (guardControls ('&' :: cs)) = c :: expand (guardControls rest) := by
  have hn := numeric?_eq_none_of_named h
  have href : reference? cs = some (c, rest) := by
    rw [reference?, numericReference?, hn, h]
    rfl
  rw [expand_guardControls_amp (by simp [startsControl, hn]), href]

theorem expand_guardControls_other (hn : numeric? cs = none) (h : namedReference? cs = none) :
    expand (guardControls ('&' :: cs)) = '&' :: expand (guardControls cs) := by
  have href : reference? cs = none := by
    rw [reference?, numericReference?, hn, h]
    rfl
  rw [expand_guardControls_amp (by simp [startsControl, hn]), href]

/-! ## Decoding is the single pass -/

theorem isTextCode_iff (n : Nat) : isTextCode n = true ↔ ∃ c : Char, c.toNat = n ∧ IsText c := by
  have hspecial {c d : Char} : c = d ↔ c.toNat = d.toNat := Char.toNat_inj.symm
  have htext (c : Char) : IsText c ↔
      isControl c.toNat = false ∨ c.toNat = 9 ∨ c.toNat = 10 ∨ c.toNat = 13 := by
    rw [IsText, hspecial, hspecial, hspecial, isControl, ← Bool.not_eq_true]
    simp
  rw [isTextCode, Bool.and_eq_true, decide_eq_true_eq]
  constructor
  · rintro ⟨hvalid, hn⟩
    have hcode : (Char.ofNat n).toNat = n := by
      rw [Char.ofNat, dif_pos hvalid]
      rfl
    refine ⟨Char.ofNat n, hcode, (htext _).2 ?_⟩
    rw [hcode]
    simpa [or_assoc] using hn
  · rintro ⟨c, rfl, hc⟩
    refine ⟨c.valid, ?_⟩
    simpa [or_assoc] using (htext c).1 hc

/-- A numeric reference is an ampersand with no other one after it. -/
theorem Numeric.exists_cons {ref : List Char} (h : Numeric ref n) :
    ∃ body, ref = '&' :: body ∧ '&' ∉ body := by
  have hdigits {p : Char → Bool} (hp : p '&' = false) {ds : List Char}
      (hds : ∀ d ∈ ds, p d = true) : '&' ∉ ds := fun hmem => by
    rw [hds _ hmem] at hp
    cases hp
  cases h with
  | decimal _ hds =>
    refine ⟨_, rfl, ?_⟩
    simp [hdigits (by decide) hds]
  | hexadecimal hx _ hds =>
    refine ⟨_, rfl, ?_⟩
    rcases hx with rfl | rfl <;> simp [hdigits (by decide) hds]

theorem IsReference.exists_cons {ref : List Char} (h : IsReference ref) :
    ∃ body, ref = '&' :: body := by
  rcases h with ⟨n, h⟩ | ⟨c, ⟨-⟩⟩
  · obtain ⟨body, hbody, -⟩ := h.exists_cons
    exact ⟨body, hbody⟩
  · exact ⟨_, rfl⟩

/-- The single pass is what the two passes do. -/
theorem Decoded.expand_eq {cs out : List Char} (h : Decoded cs out) :
    expand (guardControls cs) = out := by
  induction h with
  | nil => rw [guardControls, expand]
  | @character ref c rest out href hc _ ih =>
    obtain ⟨body, rfl, -⟩ := href.exists_cons
    have hn : numeric? (body ++ rest) = some (c.toNat, rest) :=
      numeric?_eq_some_iff.2 ⟨_, href, rfl⟩
    rw [List.cons_append, expand_guardControls_character hn ((isTextCode_iff _).2 ⟨c, rfl, hc⟩), ih]
  | @kept ref n rest out href hc _ ih =>
    obtain ⟨body, rfl, hbody⟩ := href.exists_cons
    have hn : numeric? (body ++ rest) = some (n, rest) := numeric?_eq_some_iff.2 ⟨_, href, rfl⟩
    have htext : isTextCode n = false := by
      rw [Bool.eq_false_iff, ne_eq, isTextCode_iff]
      rintro ⟨c, hcode, hc'⟩
      exact hc c hcode hc'
    rw [List.cons_append, expand_guardControls_kept hn htext,
      append_of_copies guardControls_of_ne hbody, append_of_copies expand_of_ne hbody, ih,
      List.cons_append]
  | @named ref c rest out href _ ih =>
    obtain ⟨body, rfl⟩ := IsReference.exists_cons (.inr ⟨c, href⟩)
    have hread : namedReference? (body ++ rest) = some (c, rest) :=
      namedReference?_eq_some_iff.2 ⟨_, href, rfl⟩
    rw [List.cons_append, expand_guardControls_named hread, ih]
  | @other c rest out hnone _ ih =>
    by_cases hc : c = '&'
    · subst hc
      have hn : numeric? rest = none := by
        refine Option.eq_none_iff_forall_ne_some.2 fun r hr => ?_
        obtain ⟨ref, href, heq⟩ := numeric?_eq_some_iff.1 hr
        exact hnone ref (.inl ⟨_, href⟩) ⟨_, heq.symm⟩
      have hnamed : namedReference? rest = none := by
        refine Option.eq_none_iff_forall_ne_some.2 fun r hr => ?_
        obtain ⟨ref, href, heq⟩ := namedReference?_eq_some_iff.1 hr
        exact hnone ref (.inr ⟨_, href⟩) ⟨_, heq.symm⟩
      rw [expand_guardControls_other hn hnamed, ih]
    · rw [guardControls_of_ne hc, expand_of_ne hc, ih]

/-- Every text is decoded by the single pass. -/
theorem exists_decoded (cs : List Char) : ∃ out, Decoded cs out := by
  match cs with
  | [] => exact ⟨[], .nil⟩
  | c :: cs =>
    by_cases href : ∃ ref, IsReference ref ∧ ref <+: c :: cs
    · obtain ⟨ref, href, rest, hrest⟩ := href
      have hshort : rest.length < (c :: cs).length := by
        obtain ⟨body, rfl⟩ := href.exists_cons
        rw [← hrest, List.cons_append, List.length_cons, List.length_append]
        omega
      obtain ⟨out, hout⟩ := exists_decoded rest
      rw [← hrest]
      rcases href with ⟨n, href⟩ | ⟨d, href⟩
      · by_cases hn : ∃ d : Char, d.toNat = n ∧ IsText d
        · obtain ⟨d, rfl, hd⟩ := hn
          exact ⟨_, .character href hd hout⟩
        · exact ⟨_, .kept href (fun d hd hd' => hn ⟨d, hd, hd'⟩) hout⟩
      · exact ⟨_, .named href hout⟩
    · obtain ⟨out, hout⟩ := exists_decoded cs
      exact ⟨_, .other (fun ref hr hbegins => href ⟨ref, hr, hbegins⟩) hout⟩
termination_by cs.length
decreasing_by
  · exact hshort
  · exact Nat.lt_succ_self _

/-- The decoded text is what a single pass over the text gives. -/
theorem decode_eq_iff_decoded (text out : String) :
    decode text = out ↔ Decoded text.toList out.toList := by
  rw [decode, ← String.toList_inj, String.toList_ofList]
  constructor
  · intro h
    obtain ⟨out', hout⟩ := exists_decoded text.toList
    rwa [← h, hout.expand_eq]
  · exact Decoded.expand_eq

end VocabPhp.Text.Reference
