import Mathlib.Data.List.Basic

/-!
# Bytes of a text

A character of ASCII is one byte in UTF-8, and all bytes of any other character are above 127. So a
class of characters that treats all characters outside ASCII alike can be told by the bytes of a
text.

* `utf8EncodeChar_of_ascii`, `le_of_mem_utf8EncodeChar`: the bytes of a character.
* `forall_bytes_iff`: a class of characters against a class of bytes.
-/

namespace VocabPhp.Text

/-- The bytes of a text, in UTF-8. -/
def bytes (text : String) : List UInt8 := text.toUTF8.data.toList

theorem bytes_eq (text : String) : bytes text = text.toList.flatMap String.utf8EncodeChar := by
  have hbytes : bytes (String.ofList text.toList) =
      text.toList.flatMap String.utf8EncodeChar := by
    rw [bytes, String.toUTF8, String.toByteArray_ofList, List.utf8Encode,
      List.toList_data_toByteArray]
  rwa [String.ofList_toList] at hbytes

theorem utf8EncodeChar_of_ascii {c : Char} (hc : c.toNat < 128) :
    String.utf8EncodeChar c = [.ofNat c.toNat] := by
  rw [String.utf8EncodeChar]
  exact if_pos (Nat.le_of_lt_succ hc)

/-- A character outside ASCII is made of bytes above 127. -/
theorem le_of_mem_utf8EncodeChar {c : Char} (hc : 128 ≤ c.toNat) {b : UInt8}
    (hb : b ∈ String.utf8EncodeChar c) : 128 ≤ b := by
  have hlarge : ∀ n : Nat, 128 ≤ n → n < 256 → (128 : UInt8) ≤ .ofNat n := by
    intro n hn hn'
    rw [UInt8.le_iff_toNat_le, UInt8.toNat_ofNat', Nat.mod_eq_of_lt hn']
    exact hn
  have hfirst : ¬ c.val.toNat ≤ 127 := Nat.not_le.2 hc
  rw [String.utf8EncodeChar, if_neg hfirst] at hb
  split at hb
  · next htwo =>
    simp only [List.mem_cons, List.not_mem_nil, or_false] at hb
    rcases hb with rfl | rfl <;> exact hlarge _ (by omega) (by omega)
  · split at hb
    · simp only [List.mem_cons, List.not_mem_nil, or_false] at hb
      rcases hb with rfl | rfl | rfl <;> exact hlarge _ (by omega) (by omega)
    · simp only [List.mem_cons, List.not_mem_nil, or_false] at hb
      rcases hb with rfl | rfl | rfl | rfl <;> exact hlarge _ (by omega) (by omega)

theorem utf8EncodeChar_ne_nil (c : Char) : String.utf8EncodeChar c ≠ [] := by
  rw [String.utf8EncodeChar]
  split
  · simp
  · split
    · simp
    · split <;> simp

variable {p : UInt8 → Bool} {q : Char → Bool} {r : Bool}

/-- The bytes of a character are in a class exactly if the character is, when both classes treat
ASCII alike, and all that is outside alike. -/
theorem eq_of_mem_utf8EncodeChar (hascii : ∀ n < 128, p (.ofNat n) = q (.ofNat n))
    (hp : ∀ b, 128 ≤ b → p b = r) (hq : ∀ c : Char, 128 ≤ c.toNat → q c = r) {c : Char}
    {b : UInt8} (hb : b ∈ String.utf8EncodeChar c) : p b = q c := by
  rcases Nat.lt_or_ge c.toNat 128 with hc | hc
  · rw [utf8EncodeChar_of_ascii hc, List.mem_singleton] at hb
    rw [hb, hascii _ hc, Char.ofNat_toNat]
  · rw [hp b (le_of_mem_utf8EncodeChar hc hb), hq c hc]

/-- All bytes of a text are in a class exactly if all characters are. -/
theorem forall_bytes_iff (hascii : ∀ n < 128, p (.ofNat n) = q (.ofNat n))
    (hp : ∀ b, 128 ≤ b → p b = r) (hq : ∀ c : Char, 128 ≤ c.toNat → q c = r)
    (cs : List Char) :
    (∀ b ∈ cs.flatMap String.utf8EncodeChar, p b = true) ↔ ∀ c ∈ cs, q c = true := by
  constructor
  · intro hbytes c hc
    obtain ⟨b, hb⟩ := List.exists_mem_of_ne_nil _ (utf8EncodeChar_ne_nil c)
    rw [← eq_of_mem_utf8EncodeChar hascii hp hq hb]
    exact hbytes b (List.mem_flatMap.2 ⟨c, hc, hb⟩)
  · intro hchars b hb
    obtain ⟨c, hc, hb⟩ := List.mem_flatMap.1 hb
    rw [eq_of_mem_utf8EncodeChar hascii hp hq hb]
    exact hchars c hc

end VocabPhp.Text
