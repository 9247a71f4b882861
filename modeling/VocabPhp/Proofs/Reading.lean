import VocabPhp.Json.Record

/-!
# What is read off a JSON text

Readers differ in what they make of a text, and in their faults. What they have in common is the
part of the text that they read.

* `Reader.Reads`: what a reader gives, and the text after it.
* `Reader.Items`, `Reader.Members`: the items of an array and the members of an object, in the order
  of the text and with all repetitions.
* `Reader.reads_items_iff`, `Reader.reads_membersFrom_iff`: the loops read these.
* `Reader.Members.reads_iff`: what any other step makes of the members.
* `Reader.reads_skipValue`: a value that can be kept can be skipped, up to the same place.
-/

namespace VocabPhp.Json.Reader

variable {α β σ : Type} {use : Use} {cs r r₁ : List Char}

/-- A reader can read a text: it gives `a` and leaves `r`. -/
def Reads {p : List Char → Prop} (out : Except Fault (α × { r : List Char // p r })) (a : α)
    (r : List Char) : Prop :=
  ∃ h, out = .ok (a, ⟨r, h⟩)

@[simp] theorem reads_ok_iff {p : List Char → Prop} {x : α × { r : List Char // p r }} {a : α} :
    Reads (.ok x) a r ↔ x.1 = a ∧ x.2.1 = r := by
  unfold Reads
  constructor
  · rintro ⟨h, heq⟩
    injection heq with heq
    simp [heq]
  · rintro ⟨rfl, rfl⟩
    exact ⟨x.2.2, rfl⟩

@[simp] theorem not_reads_error {p : List Char → Prop} {f : Fault} {a : α} :
    ¬ Reads (p := p) (.error f) a r := by
  rintro ⟨h, heq⟩
  injection heq

theorem reads_of_eq_ok {p : List Char → Prop} {out : Except Fault (α × { r : List Char // p r })}
    {x : α × { r : List Char // p r }} (h : out = .ok x) : Reads out x.1 x.2.1 :=
  ⟨x.2.2, h⟩

theorem Reads.unique {p : List Char → Prop} {out : Except Fault (α × { r : List Char // p r })}
    {a b : α} {q : List Char} (h : Reads out a r) (h' : Reads out b q) : a = b ∧ r = q := by
  obtain ⟨hr, rfl⟩ := h
  exact reads_ok_iff.1 h'

theorem Reads.length_lt {read : Reader α} {a : α} (h : Reads (read cs) a r) :
    r.length < cs.length := by
  obtain ⟨hlt, -⟩ := h
  exact hlt

theorem reads_map_iff {f : α → β} {read : Reader α} {b : β} :
    Reads (map f read cs) b r ↔ ∃ a, Reads (read cs) a r ∧ f a = b := by
  unfold map
  split
  · next h => simp [h]
  · next h =>
    simp only [h, reads_ok_iff, and_assoc, exists_eq_left']
    exact and_comm

/-! ## Numbers and strings that are skipped -/

theorem digits_skip {x : List Char × Rest cs} (h : digits .keep cs = .ok x) :
    digits .skip cs = .ok x := by
  unfold digits at h ⊢
  split at h
  · simp at h
  · exact h

theorem fraction_skip {x : Option (List Char) × { r : List Char // r.length ≤ cs.length }}
    (h : fraction .keep cs = .ok x) : fraction .skip cs = .ok x := by
  unfold fraction at h ⊢
  split at h
  · next cs =>
    split at h
    · simp at h
    · next hdigits =>
      rw [digits_skip hdigits]
      exact h
  · exact h

theorem exponent_skip {x : Option Int × { r : List Char // r.length ≤ cs.length }}
    (h : exponent .keep cs = .ok x) : exponent .skip cs = .ok x := by
  unfold exponent at h ⊢
  split at h
  · exact h
  · split at h
    · next hletter =>
      rw [if_pos hletter]
      split at h
      · simp at h
      · next hdigits =>
        rw [digits_skip hdigits]
        exact h
    · next hletter =>
      rw [if_neg hletter]
      exact h

theorem numeral_skip {negative : Bool} {x : Numeral × Rest cs}
    (h : numeral .keep negative cs = .ok x) : numeral .skip negative cs = .ok x := by
  unfold numeral at h ⊢
  split at h
  · simp at h
  · simp at h
  · next hzero hdigits =>
    rw [digits_skip hdigits]
    split at h
    · simp at h
    · next hfraction =>
      split at h
      · simp at h
      · next hexponent =>
        simp only [fraction_skip hfraction, exponent_skip hexponent]
        exact h

/-- A number that can be kept can be skipped. -/
theorem number_skip {negative : Bool} {x : Number × Rest cs}
    (h : number .keep negative cs = .ok x) : number .skip negative cs = .ok x := by
  unfold number at h ⊢
  split at h
  · simp at h
  · next hnumeral =>
    rw [numeral_skip hnumeral]
    split at h
    · next hvalue => simpa [hvalue] using h
    · next huse => cases huse
    · simp at h

theorem reads_escaped_iff_codeUnits {c : Char} :
    Reads (escaped use ('u' :: cs)) c r ↔ Reads (codeUnits use cs) c r := by
  cases h : codeUnits use cs with
  | error f => simp [escaped, h]
  | ok x => simp [escaped, h]

/-- The second code unit of a pair is written like the first. -/
theorem exists_of_lowSurrogate {high : Nat} {c : Char} (h : Reads (lowSurrogate high cs) c r) :
    ∃ q, cs = '\\' :: 'u' :: q ∧ ∃ low, Reads (codeUnit q) low r := by
  unfold lowSurrogate at h
  split at h
  · simp at h
  · simp at h
  · next q =>
    split at h
    · simp at h
    · next low _ hunit =>
      split at h
      · obtain ⟨-, rfl⟩ := reads_ok_iff.1 h
        exact ⟨q, rfl, low, reads_of_eq_ok hunit⟩
      · simp at h
  · simp at h

/-- A character that is written by a pair of code units is read in two steps when it is skipped. -/
theorem codeUnits_skip {c : Char} (h : Reads (codeUnits .keep cs) c r) :
    (∃ d, Reads (codeUnits .skip cs) d r) ∨
      ∃ d e q, Reads (codeUnits .skip cs) d ('\\' :: q) ∧ Reads (escaped .skip q) e r := by
  have hskip {cs q : List Char} {n : Nat} (h : Reads (codeUnit cs) n q) :
      Reads (codeUnits .skip cs) (Char.ofNat n) q := by
    obtain ⟨hlt, h⟩ := h
    simp [codeUnits, h]
  unfold codeUnits at h
  split at h
  · simp at h
  · next n q hunit =>
    split at h
    · simp at h
    · split at h
      · split at h
        · simp at h
        · next hlow =>
          obtain ⟨-, rfl⟩ := reads_ok_iff.1 h
          obtain ⟨q', hq, low, hunit'⟩ := exists_of_lowSurrogate (reads_of_eq_ok hlow)
          have hfirst := hskip (reads_of_eq_ok hunit)
          rw [hq] at hfirst
          exact .inr ⟨_, _, _, hfirst, reads_escaped_iff_codeUnits.2 (hskip hunit')⟩
      · obtain ⟨-, rfl⟩ := reads_ok_iff.1 h
        exact .inl ⟨_, hskip (reads_of_eq_ok hunit)⟩

/-- The text after the backslash of an escaped character. A character that is written by a pair of
code units is read in two steps when it is skipped. -/
theorem escaped_skip {c : Char} (h : Reads (escaped .keep cs) c r) :
    (∃ d, Reads (escaped .skip cs) d r) ∨
      ∃ d e q, Reads (escaped .skip cs) d ('\\' :: q) ∧ Reads (escaped .skip q) e r := by
  cases cs with
  | nil => simp [escaped] at h
  | cons x cs =>
    by_cases hu : x = 'u'
    · subst hu
      simp only [reads_escaped_iff_codeUnits] at h ⊢
      exact codeUnits_skip h
    · refine .inl ⟨c, ?_⟩
      simpa only [escaped, if_neg hu] using h

/-- The characters after an escaped one. -/
theorem reads_stringChars_escaped_iff {text read : List Char} {d : Char} {q : List Char}
    {s : List Char} (h : ('\\' :: cs).length ≤ text.length) (hd : Reads (escaped use cs) d q) :
    Reads (stringChars use text read ('\\' :: cs) h) s r ↔
      ∃ hq, Reads (stringChars use text (d :: read) q hq) s r := by
  obtain ⟨hlt, hd⟩ := hd
  have hq : q.length ≤ text.length := by
    simp only [List.length_cons] at h
    omega
  rw [stringChars, hd]
  simp [hq]

/-- Characters that can be kept can be skipped. The ones read before do not matter. -/
theorem stringChars_skip {text read s : List Char} {h : cs.length ≤ text.length}
    (hs : Reads (stringChars .keep text read cs h) s r) (read' : List Char) :
    ∃ s', Reads (stringChars .skip text read' cs h) s' r := by
  induction hn : cs.length using Nat.strongRecOn generalizing cs read read' with
  | ind n ih =>
    cases cs with
    | nil => simp [stringChars] at hs
    | cons c cs =>
      simp only [List.length_cons] at h hn
      by_cases hquote : c = '"'
      · subst hquote
        rw [stringChars] at hs ⊢
        exact ⟨read'.reverse, by simpa using (reads_ok_iff.1 (if_pos rfl ▸ hs)).2⟩
      · by_cases hslash : c = '\\'
        · subst hslash
          obtain ⟨d, q, hd⟩ : ∃ d q, Reads (escaped .keep cs) d q := by
            rw [stringChars] at hs
            cases hesc : escaped .keep cs with
            | error f => simp [hesc] at hs
            | ok x => exact ⟨x.1, x.2.1, by simp⟩
          obtain ⟨hq, hs⟩ := (reads_stringChars_escaped_iff h hd).1 hs
          have hlt : q.length < cs.length := hd.length_lt
          obtain ⟨d', hd'⟩ | ⟨d', e, q', hd', he⟩ := escaped_skip hd
          · obtain ⟨s', hs'⟩ := ih q.length (by omega) hs (d' :: read') rfl
            exact ⟨s', (reads_stringChars_escaped_iff h hd').2 ⟨hq, hs'⟩⟩
          · obtain ⟨s', hs'⟩ := ih q.length (by omega) hs (e :: d' :: read') rfl
            have hlt' := hd'.length_lt
            exact ⟨s', (reads_stringChars_escaped_iff h hd').2 ⟨by omega,
              (reads_stringChars_escaped_iff _ he).2 ⟨hq, hs'⟩⟩⟩
        · rw [stringChars, if_neg hquote, if_neg hslash] at hs
          split at hs
          · simp at hs
          · next hcontrol =>
            obtain ⟨s', hs'⟩ := ih cs.length (by omega) hs (c :: read') rfl
            exact ⟨s', by rwa [stringChars, if_neg hquote, if_neg hslash, if_neg hcontrol]⟩

/-- A string that can be kept can be skipped. -/
theorem stringTail_skip {s : String} (h : Reads (stringTail .keep cs) s r) :
    ∃ s', Reads (stringTail .skip cs) s' r := by
  unfold stringTail at h ⊢
  split at h
  · simp at h
  · next hs =>
    obtain ⟨-, rfl⟩ := reads_ok_iff.1 h
    obtain ⟨s', hlt, hs'⟩ := stringChars_skip (reads_of_eq_ok hs) []
    exact ⟨.ofList s', by simp [hs']⟩

theorem reads_scalarFrom_quote_iff {v : Json} :
    Reads (scalarFrom use '"' cs) v r ↔ ∃ s, Reads (stringTail use cs) s r ∧ .string s = v := by
  cases h : stringTail use cs with
  | error f => simp [scalarFrom, h]
  | ok x => simp [scalarFrom, h, and_comm, and_assoc]

theorem reads_scalarFrom_minus_iff {v : Json} :
    Reads (scalarFrom use '-' cs) v r ↔ ∃ n, Reads (number use true cs) n r ∧ .number n = v := by
  cases h : number use true cs with
  | error f => simp [scalarFrom, h]
  | ok x => simp [scalarFrom, h, and_comm, and_assoc]

/-- A scalar that can be kept can be skipped. -/
theorem scalarFrom_skip {c : Char} {v : Json} (h : Reads (scalarFrom .keep c cs) v r) :
    ∃ v', Reads (scalarFrom .skip c cs) v' r := by
  by_cases hquote : c = '"'
  · subst hquote
    obtain ⟨s, hs, -⟩ := reads_scalarFrom_quote_iff.1 h
    obtain ⟨s', hs'⟩ := stringTail_skip hs
    exact ⟨.string s', reads_scalarFrom_quote_iff.2 ⟨s', hs', rfl⟩⟩
  · by_cases hminus : c = '-'
    · subst hminus
      obtain ⟨n, ⟨hlt, hn⟩, rfl⟩ := reads_scalarFrom_minus_iff.1 h
      exact ⟨.number n, reads_scalarFrom_minus_iff.2 ⟨n, ⟨hlt, number_skip hn⟩, rfl⟩⟩
    · refine ⟨v, ?_⟩
      unfold scalarFrom at h ⊢
      simpa only [if_neg hquote, if_neg hminus] using h

/-! ## Arrays and objects -/

/-- One or more items of an array, up to the closing bracket. -/
inductive Items (item : Reader α) : List Char → List α → List Char → Prop
  | last {cs a r r'} (head : Reads (item cs) a r) (closes : skipBlanks r = ']' :: r') :
      Items item cs [a] r'
  | more {cs a r r₁ c r₂ as r'} (head : Reads (item cs) a r) (comma : skipBlanks r = ',' :: r₁)
      (next : skipBlanks r₁ = c :: r₂) (opens : c ≠ ']') (tail : Items item (c :: r₂) as r') :
      Items item cs (a :: as) r'

/-- One round of the loop over an array. -/
theorem reads_items_step {item : Reader α} {as : List α} :
    Reads (items item cs) as r ↔ ∃ a q, Reads (item cs) a q ∧
      (skipBlanks q = ']' :: r ∧ as = [a] ∨
        ∃ q₁ c q₂ as', skipBlanks q = ',' :: q₁ ∧ skipBlanks q₁ = c :: q₂ ∧ c ≠ ']' ∧
          Reads (items item (c :: q₂)) as' r ∧ as = a :: as') := by
  rw [items]
  split
  · next hitem => simp [hitem]
  · next hitem =>
    simp only [hitem, reads_ok_iff, and_assoc, exists_and_left, exists_eq_left']
    split
    · next hnext => simp [hnext]
    · next hnext =>
      simp only [hnext, List.cons.injEq, and_assoc, exists_and_left, exists_eq_left']
      split
      · next hclose => simp [hclose, and_comm, eq_comm]
      · next hclose =>
        split
        · next hcomma =>
          simp only [hcomma]
          split
          · next hopen => simp [hopen]
          · next hopen =>
            simp only [hopen, List.cons.injEq, and_assoc, exists_and_left, exists_eq_left']
            split
            · next hne => simp [hne]
            · next hne =>
              split
              · next htail => simp [htail]
              · next htail => simp [hne, htail, and_assoc, and_comm, eq_comm]
        · next hcomma => simp [hclose, hcomma]

theorem reads_items_iff {item : Reader α} {as : List α} :
    Reads (items item cs) as r ↔ Items item cs as r := by
  constructor
  · intro h
    induction hn : cs.length using Nat.strongRecOn generalizing cs as with
    | ind n ih =>
      obtain ⟨a, q, head, ⟨closes, rfl⟩ | ⟨q₁, c, q₂, as', comma, next, opens, tail, rfl⟩⟩ :=
        reads_items_step.1 h
      · exact .last head closes
      · have hlt := length_skipBlanks_le q₁
        have hlt' := length_lt_of_skipBlanks comma
        have hlt'' := head.length_lt
        rw [next] at hlt
        exact .more head comma next opens (ih _ (by omega) tail rfl)
  · intro h
    induction h with
    | last head closes => exact reads_items_step.2 ⟨_, _, head, .inl ⟨closes, rfl⟩⟩
    | more head comma next opens tail ih =>
      exact reads_items_step.2 ⟨_, _, head, .inr ⟨_, _, _, _, comma, next, opens, ih, rfl⟩⟩

/-- One round of the loop over an object, with a name that the step takes. -/
theorem reads_membersFrom_step {step : σ → String → Except Fault (Reader σ)} {s t : σ} :
    Reads (membersFrom use step s cs) t r ↔ ∃ name q q₁ value u q₂,
      Reads (stringTail use cs) name q ∧ step s name = .ok value ∧ skipBlanks q = ':' :: q₁ ∧
      Reads (value q₁) u q₂ ∧ (skipBlanks q₂ = '\x7d' :: r ∧ t = u ∨
        ∃ q₃ q₄, skipBlanks q₂ = ',' :: q₃ ∧ skipBlanks q₃ = '"' :: q₄ ∧
          Reads (membersFrom use step u q₄) t r) := by
  rw [membersFrom]
  split
  · next hname => simp [hname]
  · next hname =>
    simp only [hname, reads_ok_iff, and_assoc, exists_and_left, exists_eq_left']
    split
    · next hstep => simp [hstep]
    · next hstep =>
      simp only [hstep, Except.ok.injEq, exists_eq_left']
      split
      · next hcolon => simp [hcolon]
      · next hcolon =>
        simp only [hcolon, List.cons.injEq, and_assoc, exists_and_left, exists_eq_left']
        split
        · next hc =>
          simp only [hc, true_and]
          split
          · next hvalue => simp [hvalue]
          · next hvalue =>
            simp only [hvalue, reads_ok_iff, and_assoc, exists_and_left, exists_eq_left']
            split
            · next hnext => simp [hnext]
            · next hnext =>
              simp only [hnext, List.cons.injEq, and_assoc, exists_and_left, exists_eq_left']
              split
              · next hclose => simp [hclose, and_comm, eq_comm]
              · next hclose =>
                split
                · next hcomma =>
                  simp only [hcomma]
                  split
                  · next hquote => simp [hquote]
                  · next hquote =>
                    simp only [hquote, List.cons.injEq, and_assoc, exists_and_left, exists_eq_left']
                    split
                    · next hopen =>
                      split
                      · next htail => simp [hopen, htail]
                      · next htail => simp [hopen, htail]
                    · next hopen => simp [hopen]
                · next hcomma => simp [hclose, hcomma]
        · next hc => simp [hc]

/-- One or more members of an object, from the name of the first up to the closing brace. -/
inductive Members (use : Use) (value : Reader α) :
    List Char → List (String × α) → List Char → Prop
  | last {cs name q q₁ a q₂ r} (named : Reads (stringTail use cs) name q)
      (colon : skipBlanks q = ':' :: q₁) (valued : Reads (value q₁) a q₂)
      (closes : skipBlanks q₂ = '\x7d' :: r) : Members use value cs [(name, a)] r
  | more {cs name q q₁ a q₂ q₃ q₄ as r} (named : Reads (stringTail use cs) name q)
      (colon : skipBlanks q = ':' :: q₁) (valued : Reads (value q₁) a q₂)
      (comma : skipBlanks q₂ = ',' :: q₃) (quote : skipBlanks q₃ = '"' :: q₄)
      (tail : Members use value q₄ as r) : Members use value cs ((name, a) :: as) r

/-- A loop that changes `s` by each member goes through all members. -/
theorem reads_membersFrom_iff {value : Reader α} {f : String → α → σ → σ} {s t : σ} :
    Reads (membersFrom use (fun s name => .ok (value.map fun a => f name a s)) s cs) t r ↔
      ∃ as, Members use value cs as r ∧ as.foldl (fun s m => f m.1 m.2 s) s = t := by
  constructor
  · intro h
    induction hn : cs.length using Nat.strongRecOn generalizing cs s with
    | ind n ih =>
      obtain ⟨name, q, q₁, _, u, q₂, named, ⟨⟩, colon, hvalue, hrest⟩ := reads_membersFrom_step.1 h
      obtain ⟨a, valued, rfl⟩ := reads_map_iff.1 hvalue
      obtain ⟨closes, rfl⟩ | ⟨q₃, q₄, comma, quote, tail⟩ := hrest
      · exact ⟨[(name, a)], .last named colon valued closes, rfl⟩
      · have hlt := named.length_lt
        have hlt₁ := length_lt_of_skipBlanks colon
        have hlt₂ := valued.length_lt
        have hlt₃ := length_lt_of_skipBlanks comma
        have hlt₄ := length_lt_of_skipBlanks quote
        obtain ⟨as, hmembers, hfold⟩ := ih q₄.length (by omega) tail rfl
        exact ⟨(name, a) :: as, .more named colon valued comma quote hmembers, hfold⟩
  · rintro ⟨as, h, rfl⟩
    induction h generalizing s with
    | last named colon valued closes =>
      exact reads_membersFrom_step.2 ⟨_, _, _, _, _, _, named, rfl, colon,
        reads_map_iff.2 ⟨_, valued, rfl⟩, .inl ⟨closes, rfl⟩⟩
    | more named colon valued comma quote tail ih =>
      exact reads_membersFrom_step.2 ⟨_, _, _, _, _, _, named, rfl, colon,
        reads_map_iff.2 ⟨_, valued, rfl⟩, .inr ⟨_, _, comma, quote, ih⟩⟩

/-- One round of the loop over an object, for a given first member. -/
theorem reads_membersFrom_of_member {step : σ → String → Except Fault (Reader σ)} {s t : σ}
    {name : String} {q q₁ q₂ : List Char} {x : Option σ}
    (named : Reads (stringTail use cs) name q) (colon : skipBlanks q = ':' :: q₁)
    (hstep : ∀ u p, (∃ value, step s name = .ok value ∧ Reads (value q₁) u p) ↔
      x = some u ∧ p = q₂) :
    Reads (membersFrom use step s cs) t r ↔ ∃ u, x = some u ∧
      (skipBlanks q₂ = '\x7d' :: r ∧ t = u ∨
        ∃ q₃ q₄, skipBlanks q₂ = ',' :: q₃ ∧ skipBlanks q₃ = '"' :: q₄ ∧
          Reads (membersFrom use step u q₄) t r) := by
  constructor
  · intro h
    obtain ⟨_, _, _, value, u, _, named', htakes, colon', hvalue, hrest⟩ :=
      reads_membersFrom_step.1 h
    obtain ⟨rfl, rfl⟩ := named.unique named'
    obtain ⟨-, rfl⟩ := List.cons.inj (colon.symm.trans colon')
    obtain ⟨hu, rfl⟩ := (hstep u _).1 ⟨value, htakes, hvalue⟩
    exact ⟨u, hu, hrest⟩
  · rintro ⟨u, hu, hrest⟩
    obtain ⟨value, htakes, hvalue⟩ := (hstep u _).2 ⟨hu, rfl⟩
    exact reads_membersFrom_step.2
      ⟨name, q, q₁, value, u, q₂, named, htakes, colon, hvalue, hrest⟩

/-- What a loop makes of given members, if a step depends on the value of a member only. -/
theorem Members.reads_iff {value : Reader α} {as : List (String × α)}
    {step : σ → String → Except Fault (Reader σ)} {f : σ → String × α → Option σ}
    (h : Members use value cs as r)
    (hstep : ∀ s name q a q', Reads (value q) a q' → ∀ t p,
      (∃ read, step s name = .ok read ∧ Reads (read q) t p) ↔ f s (name, a) = some t ∧ p = q')
    (s t : σ) (r' : List Char) :
    Reads (membersFrom use step s cs) t r' ↔ as.foldlM f s = some t ∧ r' = r := by
  induction h generalizing s with
  | last named colon valued closes =>
    rw [reads_membersFrom_of_member named colon (hstep s _ _ _ _ valued), List.foldlM_cons]
    simp [closes, and_assoc, and_comm, eq_comm]
  | more named colon valued comma quote tail ih =>
    rw [reads_membersFrom_of_member named colon (hstep s _ _ _ _ valued), List.foldlM_cons]
    simp only [comma, quote, ih, List.cons.injEq, Char.reduceEq, false_and, false_or, true_and,
      exists_and_left, exists_eq_left', Option.bind_eq_bind, Option.bind_eq_some_iff]
    simp only [← and_assoc, exists_and_right]

/-- Items that one reader can read can be read by another one. -/
theorem Items.exists_of_imp {item : Reader α} {item' : Reader β} {as : List α}
    (h : Items item cs as r)
    (himp : ∀ q a q', q.length ≤ cs.length → Reads (item q) a q' → ∃ b, Reads (item' q) b q') :
    ∃ bs, Items item' cs bs r := by
  induction h with
  | @last cs a q r head closes =>
    obtain ⟨b, head'⟩ := himp cs a q (Nat.le_refl _) head
    exact ⟨[b], .last head' closes⟩
  | @more cs a q q₁ c q₂ as r head comma next opens tail ih =>
    obtain ⟨b, head'⟩ := himp cs a q (Nat.le_refl _) head
    have hlt := length_skipBlanks_le q₁
    rw [next] at hlt
    have hlt' := length_lt_of_skipBlanks comma
    have hlt'' := head.length_lt
    obtain ⟨bs, tail'⟩ := ih fun p b p' hp => himp p b p' (by omega)
    exact ⟨b :: bs, .more head' comma next opens tail'⟩

/-- Members that can be kept can be skipped, if their values can. -/
theorem Members.exists_skip {value : Reader α} {value' : Reader β} {as : List (String × α)}
    (h : Members .keep value cs as r)
    (himp : ∀ q a q', q.length ≤ cs.length → Reads (value q) a q' → ∃ b, Reads (value' q) b q') :
    ∃ bs, Members .skip value' cs bs r := by
  induction h with
  | last named colon valued closes =>
    obtain ⟨name', named'⟩ := stringTail_skip named
    have hlt := named.length_lt
    have hlt' := length_lt_of_skipBlanks colon
    obtain ⟨b, valued'⟩ := himp _ _ _ (by omega) valued
    exact ⟨[(name', b)], .last named' colon valued' closes⟩
  | more named colon valued comma quote tail ih =>
    obtain ⟨name', named'⟩ := stringTail_skip named
    have hlt := named.length_lt
    have hlt' := length_lt_of_skipBlanks colon
    have hlt₂ := valued.length_lt
    have hlt₃ := length_lt_of_skipBlanks comma
    have hlt₄ := length_lt_of_skipBlanks quote
    obtain ⟨b, valued'⟩ := himp _ _ _ (by omega) valued
    obtain ⟨bs, tail'⟩ := ih fun p b p' hp => himp p b p' (by omega)
    exact ⟨(name', b) :: bs, .more named' colon valued' comma quote tail'⟩

/-- The members of an object, after the opening brace. -/
def Entries (use : Use) (value : Reader α) (cs : List Char) (as : List (String × α))
    (r : List Char) : Prop :=
  skipBlanks cs = '\x7d' :: r ∧ as = [] ∨ ∃ q, skipBlanks cs = '"' :: q ∧ Members use value q as r

theorem reads_elements_iff {item : Reader α} {as : List α} :
    Reads (elements item cs) as r ↔ skipBlanks cs = ']' :: r ∧ as = [] ∨
      ∃ c q, skipBlanks cs = c :: q ∧ c ≠ ']' ∧ Items item (c :: q) as r := by
  simp only [← reads_items_iff]
  unfold elements
  split
  · next h => simp [h]
  · next h =>
    simp only [h, List.cons.injEq, and_assoc, exists_and_left, exists_eq_left']
    split
    · next hclose => simp [hclose, and_comm, eq_comm]
    · next hclose =>
      split
      · next hitems => simp [hclose, hitems]
      · next hitems => simp [hclose, hitems]

theorem reads_foldMembers_step {step : σ → String → Except Fault (Reader σ)} {s t : σ} :
    Reads (foldMembers use step s cs) t r ↔ skipBlanks cs = '\x7d' :: r ∧ t = s ∨
      ∃ q, skipBlanks cs = '"' :: q ∧ Reads (membersFrom use step s q) t r := by
  unfold foldMembers
  split
  · next h => simp [h]
  · next h =>
    simp only [h, List.cons.injEq, and_assoc, exists_and_left, exists_eq_left']
    split
    · next hclose => simp [hclose, and_comm, eq_comm]
    · next hclose =>
      split
      · next hquote =>
        split
        · next hmembers => simp [hquote, hmembers]
        · next hmembers => simp [hquote, hmembers]
      · next hquote => simp [hclose, hquote]

theorem reads_foldMembers_iff {value : Reader α} {f : String → α → σ → σ} {s t : σ} :
    Reads (foldMembers use (fun s name => .ok (value.map fun a => f name a s)) s cs) t r ↔
      ∃ as, Entries use value cs as r ∧ as.foldl (fun s m => f m.1 m.2 s) s = t := by
  rw [reads_foldMembers_step]
  simp only [reads_membersFrom_iff, Entries]
  constructor
  · rintro (⟨hclose, rfl⟩ | ⟨q, hquote, as, hmembers, rfl⟩)
    · exact ⟨[], .inl ⟨hclose, rfl⟩, rfl⟩
    · exact ⟨as, .inr ⟨q, hquote, hmembers⟩, rfl⟩
  · rintro ⟨as, ⟨hclose, rfl⟩ | ⟨q, hquote, hmembers⟩, rfl⟩
    · exact .inl ⟨hclose, rfl⟩
    · exact .inr ⟨q, hquote, as, hmembers, rfl⟩

theorem Entries.reads_iff {value : Reader α} {as : List (String × α)}
    {step : σ → String → Except Fault (Reader σ)} {f : σ → String × α → Option σ}
    (h : Entries use value cs as r)
    (hstep : ∀ s name q a q', Reads (value q) a q' → ∀ t p,
      (∃ read, step s name = .ok read ∧ Reads (read q) t p) ↔ f s (name, a) = some t ∧ p = q')
    (s t : σ) (r' : List Char) :
    Reads (foldMembers use step s cs) t r' ↔ as.foldlM f s = some t ∧ r' = r := by
  rw [reads_foldMembers_step]
  obtain ⟨hclose, rfl⟩ | ⟨q, hquote, hmembers⟩ := h
  · simp [hclose, and_comm, eq_comm]
  · simp [hquote, hmembers.reads_iff hstep]

theorem elements_of_imp {item : Reader α} {item' : Reader β} {as : List α}
    (h : Reads (elements item cs) as r)
    (himp : ∀ q a q', q.length ≤ cs.length → Reads (item q) a q' → ∃ b, Reads (item' q) b q') :
    ∃ bs, Reads (elements item' cs) bs r := by
  obtain ⟨hclose, rfl⟩ | ⟨c, q, hopen, hne, hitems⟩ := reads_elements_iff.1 h
  · exact ⟨[], reads_elements_iff.2 (.inl ⟨hclose, rfl⟩)⟩
  · have hlt := length_skipBlanks_le cs
    rw [hopen] at hlt
    obtain ⟨bs, hitems'⟩ := hitems.exists_of_imp fun p a p' hp => himp p a p' (by omega)
    exact ⟨bs, reads_elements_iff.2 (.inr ⟨c, q, hopen, hne, hitems'⟩)⟩

theorem Entries.exists_skip {value : Reader α} {value' : Reader β} {as : List (String × α)}
    (h : Entries .keep value cs as r)
    (himp : ∀ q a q', q.length ≤ cs.length → Reads (value q) a q' → ∃ b, Reads (value' q) b q') :
    ∃ bs, Entries .skip value' cs bs r := by
  obtain ⟨hclose, rfl⟩ | ⟨q, hquote, hmembers⟩ := h
  · exact ⟨[], .inl ⟨hclose, rfl⟩⟩
  · have hlt := length_lt_of_skipBlanks hquote
    obtain ⟨bs, hmembers'⟩ := hmembers.exists_skip fun p a p' hp => himp p a p' (by omega)
    exact ⟨bs, .inr ⟨q, hquote, hmembers'⟩⟩

/-! ## Values -/

section Values

variable {depth : Nat} {v : Json}

theorem not_reads_value_of_blank (h : skipBlanks cs = []) : ¬ Reads (value use depth cs) v r := by
  unfold value
  split
  · simp
  · next h' => simp [h] at h'

theorem reads_value_array_iff (h : skipBlanks cs = '[' :: r₁) :
    Reads (value use depth cs) v r ↔
      ∃ d vs, depth = d + 1 ∧ Reads (elements (value use d) r₁) vs r ∧ v = .array vs := by
  unfold value
  split
  · next h' => simp [h'] at h
  · next h' =>
    obtain ⟨rfl, rfl⟩ := List.cons.inj (h'.symm.trans h)
    rw [if_pos rfl]
    split
    · simp
    · split
      · next hitems => simp [hitems]
      · next hitems => simp [hitems, and_assoc, and_comm, eq_comm]

theorem reads_value_object_iff (h : skipBlanks cs = '\x7b' :: r₁) :
    Reads (value use depth cs) v r ↔ ∃ d as, depth = d + 1 ∧
      Entries use (value use d) r₁ as r ∧
      v = .object (as.foldl (fun members m => Table.insertIn m.1 m.2 members) []) := by
  have hfold : Reads (value use depth cs) v r ↔ ∃ d members, depth = d + 1 ∧
      Reads (foldMembers use
        (fun members name => .ok ((value use d).map fun v => Table.insertIn name v members)) [] r₁)
        members r ∧ v = .object members := by
    unfold value
    split
    · next h' => simp [h'] at h
    · next h' =>
      obtain ⟨rfl, rfl⟩ := List.cons.inj (h'.symm.trans h)
      rw [if_neg (by decide), if_pos rfl]
      split
      · simp
      · simp only []
        split
        · next hmembers => simp [hmembers]
        · next hmembers => simp [hmembers, and_assoc, and_comm, eq_comm]
  rw [hfold]
  simp only [reads_foldMembers_iff]
  constructor
  · rintro ⟨d, _, hd, ⟨as, has, rfl⟩, hv⟩
    exact ⟨d, as, hd, has, hv⟩
  · rintro ⟨d, as, hd, has, hv⟩
    exact ⟨d, _, hd, ⟨as, has, rfl⟩, hv⟩

theorem reads_value_digit_iff {c : Char} (h : skipBlanks cs = c :: r₁) (hdigit : c.isDigit) :
    Reads (value use depth cs) v r ↔
      ∃ n, Reads (number use false (c :: r₁)) n r ∧ v = .number n := by
  have harray : c ≠ '[' := by rintro rfl; simp at hdigit
  have hobject : c ≠ '\x7b' := by rintro rfl; simp at hdigit
  unfold value
  split
  · next h' => simp [h'] at h
  · next h' =>
    obtain ⟨rfl, rfl⟩ := List.cons.inj (h'.symm.trans h)
    rw [if_neg harray, if_neg hobject, if_pos hdigit]
    split
    · next hnumber => simp [hnumber]
    · next hnumber => simp [hnumber, and_assoc, and_comm, eq_comm]

theorem reads_value_scalar_iff {c : Char} (h : skipBlanks cs = c :: r₁) (harray : c ≠ '[')
    (hobject : c ≠ '\x7b') (hdigit : ¬ c.isDigit) :
    Reads (value use depth cs) v r ↔ Reads (scalarFrom use c r₁) v r := by
  unfold value
  split
  · next h' => simp [h'] at h
  · next h' =>
    obtain ⟨rfl, rfl⟩ := List.cons.inj (h'.symm.trans h)
    rw [if_neg harray, if_neg hobject, if_neg hdigit]
    split
    · next hscalar => simp [hscalar]
    · next hscalar => simp [hscalar]

/-- A value that can be kept can be skipped, up to the same place. -/
theorem value_skip (h : Reads (value .keep depth cs) v r) {n : Nat} (hn : cs.length ≤ n) :
    ∃ v', Reads (value .skip n cs) v' r := by
  -- Whatever is open takes a character of the text, so the text is long enough for its own depth.
  induction n generalizing depth cs v r with
  | zero =>
    obtain rfl : cs = [] := List.eq_nil_of_length_eq_zero (Nat.le_zero.1 hn)
    exact absurd h (not_reads_value_of_blank rfl)
  | succ n ih =>
    cases hcs : skipBlanks cs with
    | nil => exact absurd h (not_reads_value_of_blank hcs)
    | cons c q =>
      have hlt := length_lt_of_skipBlanks hcs
      have hinner {d : Nat} : ∀ p u p', p.length ≤ q.length → Reads (value .keep d p) u p' →
          ∃ u', Reads (value .skip n p) u' p' := fun p u p' hp hu => ih hu (by omega)
      by_cases harray : c = '['
      · subst harray
        obtain ⟨d, vs, -, hitems, -⟩ := (reads_value_array_iff hcs).1 h
        obtain ⟨vs', hitems'⟩ := elements_of_imp hitems hinner
        exact ⟨.array vs', (reads_value_array_iff hcs).2 ⟨n, vs', rfl, hitems', rfl⟩⟩
      by_cases hobject : c = '\x7b'
      · subst hobject
        obtain ⟨d, as, -, hentries, -⟩ := (reads_value_object_iff hcs).1 h
        obtain ⟨as', hentries'⟩ := hentries.exists_skip hinner
        exact ⟨_, (reads_value_object_iff hcs).2 ⟨n, as', rfl, hentries', rfl⟩⟩
      by_cases hdigit : c.isDigit
      · obtain ⟨m, ⟨hlt, hnumber⟩, -⟩ := (reads_value_digit_iff hcs hdigit).1 h
        exact ⟨.number m, (reads_value_digit_iff hcs hdigit).2 ⟨m, ⟨hlt, number_skip hnumber⟩, rfl⟩⟩
      · have hscalar := (reads_value_scalar_iff hcs harray hobject hdigit).1 h
        obtain ⟨v', hscalar'⟩ := scalarFrom_skip hscalar
        exact ⟨v', (reads_value_scalar_iff hcs harray hobject hdigit).2 hscalar'⟩

/-- What can be kept can be skipped. -/
theorem reads_skipValue (h : Reads (value .keep depth cs) v r) : Reads (skipValue cs) () r := by
  obtain ⟨v', hv'⟩ := value_skip h (Nat.le_refl _)
  exact reads_map_iff.2 ⟨v', hv', rfl⟩

end Values

end VocabPhp.Json.Reader
