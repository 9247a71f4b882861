import VocabPhp.Php.Name
import VocabPhp.Proofs.Utf8

/-!
# Class names for labels

Every label gets a class name: an identifier that is reserved in no letter case. A label that is one
already is kept, so the name of a name is the name itself. All that is asked of the lead is that it
is an identifier and does not begin a reserved word.

A character outside ASCII passes for a letter, so identifiers can be told by their bytes as well as
by their characters. Lower-casing keeps such a character outside ASCII, but for the Kelvin sign, so
the reserved words need no more of Unicode than `lowerAscii` knows.

* `isIdentifier_iff_bytes`: identifiers as patterns of bytes.
* `LowerCase`: what lower-casing by Unicode can give. `LowerCase.isReserved_iff`: whether a word is
  reserved shows in its lower case.
* `isClassName_safeName`: the class name for a label is one.
* `safeName_retracts`: what class names there are, and for which labels.
-/

namespace VocabPhp

namespace Php

/-! ## Characters of names -/

theorem isNameChar_of_isNameStart {c : Char} (h : isNameStart c = true) : isNameChar c = true := by
  unfold isNameStart at h
  unfold isNameChar Char.isAlphanum
  rcases hc : c.isAlpha with _ | _
  · simp only [hc, Bool.false_or] at h ⊢
    rw [Bool.or_assoc, h, Bool.or_true]
  · rfl

theorem isNameChar_nameChar (c : Char) : isNameChar (nameChar c) = true := by
  unfold nameChar
  split
  · assumption
  · decide

/-- An identifier is not empty and can be lengthened by what it may hold. -/
theorem isIdentifierChars_append {cs ds : List Char} (hcs : isIdentifierChars cs = true)
    (hds : ∀ d ∈ ds, isNameChar d = true) : isIdentifierChars (cs ++ ds) = true := by
  rcases cs with _ | ⟨c, cs⟩
  · cases hcs
  · rw [isIdentifierChars, Bool.and_eq_true, List.all_eq_true] at hcs
    rw [List.cons_append, isIdentifierChars, Bool.and_eq_true, List.all_eq_true]
    refine ⟨hcs.1, fun d hd => ?_⟩
    rcases List.mem_append.1 hd with hd | hd
    · exact hcs.2 d hd
    · exact hds d hd

end Php

/-- A label that is a class name is used as it stands. -/
theorem safeName_of_isClassName {label : String} (h : Php.isClassName label = true)
    (lead : String) : Php.safeName label lead = label := by
  rw [Php.safeName, if_pos h]

namespace Php

/-- A class name holds only characters that an identifier may hold, whatever the label is. -/
theorem isNameChar_of_mem_safeName {label lead : String}
    (hlead : lead.toList.all isNameChar = true) {c : Char}
    (hc : c ∈ (safeName label lead).toList) : isNameChar c = true := by
  unfold safeName at hc
  split at hc
  · next hclass =>
    have hidentifier : isIdentifierChars label.toList = true := (Bool.and_eq_true_iff.1 hclass).1
    rcases hlabel : label.toList with _ | ⟨c', cs⟩
    · simp [hlabel] at hc
    · rw [hlabel, isIdentifierChars, Bool.and_eq_true, List.all_eq_true] at hidentifier
      rw [hlabel] at hc
      rcases List.mem_cons.1 hc with rfl | hc
      · exact isNameChar_of_isNameStart hidentifier.1
      · exact hidentifier.2 c hc
  · rw [String.toList_append, String.toList_ofList] at hc
    rcases List.mem_append.1 hc with hc | hc
    · exact List.all_eq_true.1 hlead c hc
    · obtain ⟨c, -, rfl⟩ := List.mem_map.1 hc
      exact isNameChar_nameChar c

/-! ## Identifiers by their bytes -/

/-- Tells whether an identifier may begin with a byte. -/
def isStartByte (b : UInt8) : Bool :=
  (65 ≤ b && b ≤ 90) || (97 ≤ b && b ≤ 122) || b == 95 || 128 ≤ b

/-- Tells whether an identifier may hold a byte. -/
def isNameByte (b : UInt8) : Bool := isStartByte b || (48 ≤ b && b ≤ 57)

/-- Bytes that are an identifier: one that it may begin with, and others that it may hold. -/
def IdentifierBytes (bytes : List UInt8) : Prop :=
  ∃ b bs, bytes = b :: bs ∧ isStartByte b = true ∧ ∀ x ∈ bs, isNameByte x = true

theorem isStartByte_of_mem {c : Char} {b : UInt8} (hb : b ∈ String.utf8EncodeChar c) :
    isStartByte b = isNameStart c := by
  refine Text.eq_of_mem_utf8EncodeChar (r := true) (by decide +kernel) ?_ ?_ hb
  · intro b hb
    simp [isStartByte, hb]
  · intro c hc
    simp [isNameStart, hc]

theorem isNameByte_flatMap_iff (cs : List Char) :
    (∀ x ∈ cs.flatMap String.utf8EncodeChar, isNameByte x = true) ↔
      ∀ c ∈ cs, isNameChar c = true := by
  refine Text.forall_bytes_iff (r := true) (by decide +kernel) ?_ ?_ cs
  · intro b hb
    simp [isNameByte, isStartByte, hb]
  · intro c hc
    simp [isNameChar, hc]

/-- A name is an identifier exactly if its bytes are. -/
theorem isIdentifier_iff_bytes (name : String) :
    isIdentifier name = true ↔ IdentifierBytes (Text.bytes name) := by
  rw [isIdentifier, Text.bytes_eq]
  rcases name.toList with _ | ⟨c, cs⟩
  · simp [isIdentifierChars, IdentifierBytes]
  · -- The first byte stands for the first character, and the others pass with it or with the rest.
    obtain ⟨b, bs, hb⟩ := List.exists_cons_of_ne_nil (Text.utf8EncodeChar_ne_nil c)
    have hstart : isStartByte b = isNameStart c := isStartByte_of_mem (hb ▸ List.mem_cons_self)
    have hall := isNameByte_flatMap_iff (c :: cs)
    rw [List.flatMap_cons, hb, List.cons_append, List.forall_mem_cons, List.forall_mem_cons] at hall
    rw [isIdentifierChars, Bool.and_eq_true, List.all_eq_true, List.flatMap_cons, hb,
      List.cons_append, ← hstart]
    constructor
    · rintro ⟨hfirst, hcs⟩
      have hc : isNameChar c = true := isNameChar_of_isNameStart (hstart ▸ hfirst)
      exact ⟨b, _, rfl, hfirst, (hall.2 ⟨hc, hcs⟩).2⟩
    · rintro ⟨_, _, heq, hfirst, hbytes⟩
      obtain ⟨rfl, rfl⟩ := List.cons.inj heq
      have hb' : isNameByte b = true := by rw [isNameByte, hfirst, Bool.true_or]
      exact ⟨hfirst, (hall.1 ⟨hb', hbytes⟩).2⟩

/-! ## Reserved words by their lower case -/

/-- What lower-casing by Unicode can make of a word, as far as it matters to words in ASCII. The
Kelvin sign becomes a `k`; what becomes of any other character outside ASCII has such a character in
it. That may be more than one character, and it may depend on what stands beside it. -/
inductive LowerCase : List Char → List Char → Prop
  | nil : LowerCase [] []
  | ascii {c cs lower} :
    c.toNat < 128 → LowerCase cs lower → LowerCase (c :: cs) (c.toLower :: lower)
  | kelvin {cs lower} : LowerCase cs lower → LowerCase ('\u212A' :: cs) ('k' :: lower)
  | other {c cs part lower} : 128 ≤ c.toNat → c ≠ '\u212A' → (∃ d ∈ part, 128 ≤ d.toNat) →
      LowerCase cs lower → LowerCase (c :: cs) (part ++ lower)

/-- Characters that are all in ASCII. -/
def IsAscii (cs : List Char) : Prop := ∀ c ∈ cs, c.toNat < 128

theorem isAscii_of_mem_reservedWords {w : String} (hw : w ∈ reservedWords) : IsAscii w.toList := by
  have hwords : reservedWords.all (fun w => w.toList.all fun c => c.toNat < 128) = true := by
    decide +kernel
  intro c hc
  exact of_decide_eq_true (List.all_eq_true.1 (List.all_eq_true.1 hwords w hw) c hc)

theorem not_isAscii_of_mem {cs : List Char} {c : Char} (hmem : c ∈ cs) (hc : 128 ≤ c.toNat) :
    ¬ IsAscii cs := fun hcs => absurd (hcs c hmem) (Nat.not_lt.2 hc)

theorem lowerAscii_of_ascii {c : Char} (hc : c.toNat < 128) : lowerAscii c = c.toLower := by
  refine if_neg ?_
  rintro rfl
  exact absurd hc (by decide)

theorem lowerAscii_of_not_ascii {c : Char} (hc : 128 ≤ c.toNat) (hkelvin : c ≠ '\u212A') :
    lowerAscii c = c := by
  have hcapital : ¬ (c.val ≥ 'A'.val ∧ c.val ≤ 'Z'.val) := fun hle =>
    absurd (UInt32.le_iff_toNat_le.1 hle.2) (Nat.not_le.2 (Nat.lt_of_lt_of_le (by decide) hc))
  rw [lowerAscii, if_neg hkelvin]
  exact dif_neg hcapital

/-- The lower case that the test for reserved words takes is the one by Unicode, unless both have
characters outside ASCII. -/
theorem LowerCase.eq_or {cs lower : List Char} (h : LowerCase cs lower) :
    lower = cs.map lowerAscii ∨ ¬ IsAscii lower ∧ ¬ IsAscii (cs.map lowerAscii) := by
  have htail {c : Char} {ds : List Char} (hds : ¬ IsAscii ds) : ¬ IsAscii (c :: ds) :=
    fun hall => hds fun d hd => hall d (List.mem_cons_of_mem _ hd)
  have hcons {c : Char} {ds es : List Char} (h : ds = es ∨ ¬ IsAscii ds ∧ ¬ IsAscii es) :
      c :: ds = c :: es ∨ ¬ IsAscii (c :: ds) ∧ ¬ IsAscii (c :: es) :=
    h.imp (congrArg (c :: ·)) fun hds => ⟨htail hds.1, htail hds.2⟩
  induction h with
  | nil => exact .inl rfl
  | ascii hc _ ih =>
    rw [List.map_cons, lowerAscii_of_ascii hc]
    exact hcons ih
  | kelvin _ ih =>
    rw [List.map_cons, lowerAscii, if_pos rfl]
    exact hcons ih
  | other hc hkelvin hpart _ _ =>
    obtain ⟨d, hd, hd'⟩ := hpart
    rw [List.map_cons, lowerAscii_of_not_ascii hc hkelvin]
    exact .inr ⟨not_isAscii_of_mem (List.mem_append_left _ hd) hd',
      not_isAscii_of_mem List.mem_cons_self hc⟩

/-- Whether the lower case of a word begins a word in ASCII does not depend on what lower-casing
makes of characters outside ASCII. -/
theorem LowerCase.prefix_iff {cs lower w : List Char} (h : LowerCase cs lower) (hw : IsAscii w) :
    lower <+: w ↔ cs.map lowerAscii <+: w := by
  have hascii {ds : List Char} (hbegins : ds <+: w) : IsAscii ds := fun d hd =>
    hw d (hbegins.subset hd)
  rcases h.eq_or with rfl | ⟨hlower, hcs⟩
  · rfl
  · exact ⟨fun hbegins => absurd (hascii hbegins) hlower,
      fun hbegins => absurd (hascii hbegins) hcs⟩

/-- A word is reserved exactly if its lower case is. -/
theorem LowerCase.isReserved_iff {word : String} {lower : List Char}
    (h : LowerCase word.toList lower) :
    isReserved word = true ↔ String.ofList lower ∈ reservedWords := by
  rw [isReserved, List.contains_iff_mem, lowerWord]
  rcases h.eq_or with rfl | ⟨hlower, hcs⟩
  · rfl
  · have hreserved {ds : List Char} (hds : String.ofList ds ∈ reservedWords) : IsAscii ds := by
      simpa using isAscii_of_mem_reservedWords hds
    exact ⟨fun hmem => absurd (hreserved hmem) hcs, fun hmem => absurd (hreserved hmem) hlower⟩

/-! ## The class name for a label -/

/-- What stands behind a lead that begins no reserved word is not reserved. -/
theorem isReserved_append {lead rest : String}
    (hclear : ∀ w ∈ reservedWords, ¬ lead.toList.map lowerAscii <+: w.toList) :
    isReserved (lead ++ rest) = false := by
  rw [isReserved, List.contains_eq_mem, decide_eq_false_iff_not]
  intro hmem
  refine hclear _ hmem ?_
  rw [lowerWord, String.toList_ofList, String.toList_append, List.map_append]
  exact List.prefix_append _ _

/-- Behind a lead that is an identifier and begins no reserved word every label becomes a class
name. -/
theorem isClassName_safeName {lead : String} (hlead : isIdentifier lead = true)
    (hclear : ∀ w ∈ reservedWords, ¬ lead.toList.map lowerAscii <+: w.toList) (label : String) :
    isClassName (safeName label lead) = true := by
  rcases hlabel : isClassName label with _ | _
  · have hname : safeName label lead = lead ++ String.ofList (label.toList.map nameChar) :=
      if_neg (by simp [hlabel])
    rw [hname, isClassName, isReserved_append hclear, Bool.not_false, Bool.and_true, isIdentifier,
      String.toList_append, String.toList_ofList]
    refine isIdentifierChars_append hlead fun d hd => ?_
    obtain ⟨c, -, rfl⟩ := List.mem_map.1 hd
    exact isNameChar_nameChar c
  · rwa [safeName_of_isClassName hlabel]

/-- With a lead that is an identifier, and whose lower case begins no reserved word, the class name
for a label is an identifier, by its characters as by its bytes, and it is reserved in no letter
case. It is the label itself exactly for an identifier that is not reserved, and so the class name
for a class name is the same again. -/
theorem safeName_retracts {lead : String} {lower : List Char} (hlead : isIdentifier lead = true)
    (hlower : LowerCase lead.toList lower)
    (hclear : ∀ w ∈ reservedWords, ¬ lower <+: w.toList) (label : String) :
    isIdentifier (safeName label lead) = true ∧
      IdentifierBytes (Text.bytes (safeName label lead)) ∧
      isReserved (safeName label lead) = false ∧
      (∀ lower, LowerCase (safeName label lead).toList lower →
        String.ofList lower ∉ reservedWords) ∧
      (safeName label lead = label ↔ isIdentifier label = true ∧ isReserved label = false) ∧
      safeName (safeName label lead) lead = safeName label lead := by
  have hclear' : ∀ w ∈ reservedWords, ¬ lead.toList.map lowerAscii <+: w.toList := by
    intro w hw hbegins
    exact hclear w hw ((hlower.prefix_iff (isAscii_of_mem_reservedWords hw)).2 hbegins)
  have hclass : ∀ label, isClassName (safeName label lead) = true :=
    isClassName_safeName hlead hclear'
  have hsplit (name : String) :
      isClassName name = true ↔ isIdentifier name = true ∧ isReserved name = false := by
    rw [isClassName, Bool.and_eq_true, Bool.not_eq_true']
  obtain ⟨hidentifier, hreserved⟩ := (hsplit _).1 (hclass label)
  refine ⟨hidentifier, (isIdentifier_iff_bytes _).1 hidentifier, hreserved, ?_, ?_,
    safeName_of_isClassName (hclass label) lead⟩
  · intro lower hlower hmem
    rw [hlower.isReserved_iff.2 hmem] at hreserved
    cases hreserved
  · rw [← hsplit]
    exact ⟨fun heq => heq ▸ hclass label, fun hlabel => safeName_of_isClassName hlabel lead⟩

/-- An identifier that the Kelvin sign makes a reserved word gets the lead. -/
theorem safeName_retracts_kelvin :
    isIdentifier "Schema" = true ∧ LowerCase "Schema".toList "schema".toList ∧
      (∀ w ∈ reservedWords, ¬ "schema".toList <+: w.toList) ∧
      isIdentifier "Brea\u212A" = true ∧ isReserved "Brea\u212A" = true ∧
      safeName "Brea\u212A" "Schema" = "SchemaBrea\u212A" ∧
      isReserved "SchemaBrea\u212A" = false ∧
      safeName "SchemaBrea\u212A" "Schema" = "SchemaBrea\u212A" := by
  have hlead : isIdentifier "Schema" = true := by decide +kernel
  have hchar (c : Char) {cs lower : List Char} (hc : c.toNat < 128) (h : LowerCase cs lower) :
      LowerCase (c :: cs) (c.toLower :: lower) := .ascii hc h
  have hlower : LowerCase "Schema".toList "schema".toList :=
    hchar 'S' (by decide) (hchar 'c' (by decide) (hchar 'h' (by decide)
      (hchar 'e' (by decide) (hchar 'm' (by decide) (hchar 'a' (by decide) .nil)))))
  have hclear : ∀ w ∈ reservedWords, ¬ "schema".toList <+: w.toList := by decide +kernel
  have hname : safeName "Brea\u212A" "Schema" = "SchemaBrea\u212A" := by decide +kernel
  obtain ⟨-, -, hreserved, -, -, hagain⟩ := safeName_retracts hlead hlower hclear "Brea\u212A"
  rw [hname] at hreserved hagain
  exact ⟨hlead, hlower, hclear, by decide +kernel, by decide +kernel, hname, hreserved, hagain⟩

end Php

end VocabPhp
