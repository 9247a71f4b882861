import VocabPhp.Text.Reference.Names

/-!
# Character references in text

Text of a vocabulary may hold HTML character references: `&#233;`, `&#xE9;`, `&eacute;`. Decoding
them takes two passes. `guardControls` escapes the ampersand of every numeric reference that stands
for no text character (a control character, a surrogate, a code point out of range), and `expand`
then replaces, from left to right, each reference by its character. So a guarded reference comes out
as it was written, and a character that came out of a reference never starts another one.

* `numeric?_append_rest`, `reference?_length`: a reference read is a piece cut off the front of the
  text.
-/

namespace VocabPhp.Text.Reference

/-- The value of a digit, in bases up to sixteen. -/
def digitValue (c : Char) : Nat :=
  if c.isDigit then c.toNat - 48
  else if 'a' ≤ c ∧ c ≤ 'f' then c.toNat - 87
  else c.toNat - 55

/-- Tells whether a character is a hexadecimal digit. -/
def isHexDigit (c : Char) : Bool :=
  c.isDigit || ('a' ≤ c && c ≤ 'f') || ('A' ≤ c && c ≤ 'F')

/-- The number that digits write in a base. -/
def numberOf (base : Nat) (ds : List Char) : Nat :=
  ds.foldl (fun n d => n * base + digitValue d) 0

/-- Cuts one or more characters of a class and a semicolon off the front of a text. -/
def upToSemicolon (p : Char → Bool) (cs : List Char) : Option (List Char × List Char) :=
  match cs.takeWhile p, cs.dropWhile p with
  | d :: ds, ';' :: rest => some (d :: ds, rest)
  | _, _ => none

/-- Reads a numeric reference whose ampersand has been read: its code point, of any size, and the
text after it. -/
def numeric? : List Char → Option (Nat × List Char)
  | '#' :: 'x' :: cs | '#' :: 'X' :: cs =>
    (upToSemicolon isHexDigit cs).map fun r => (numberOf 16 r.1, r.2)
  | '#' :: cs => (upToSemicolon Char.isDigit cs).map fun r => (numberOf 10 r.1, r.2)
  | _ => none

/-- Tells whether a code point is a control character. -/
def isControl (n : Nat) : Bool := n < 32 || (127 ≤ n && n < 160)

/-- Tells whether a code point is a character that text may hold: a Unicode scalar value that is no
control character other than tab, newline and carriage return. -/
def isTextCode (n : Nat) : Bool :=
  decide n.isValidChar && (!isControl n || n == 9 || n == 10 || n == 13)

/-- Tells whether the text after an ampersand makes it a numeric reference to something that is no
text character. -/
def startsControl (cs : List Char) : Bool := (numeric? cs).any fun r => !isTextCode r.1

/-- Escapes the ampersand of every numeric reference to something that is no text character. -/
def guardControls : List Char → List Char
  | [] => []
  | c :: cs =>
    if c = '&' ∧ startsControl cs then ['&', 'a', 'm', 'p', ';'] ++ guardControls cs
    else c :: guardControls cs

/-- Reads a named reference whose ampersand has been read. -/
def namedReference? (cs : List Char) : Option (Char × List Char) := do
  let (name, rest) ← upToSemicolon Char.isAlphanum cs
  return (← named? name, rest)

/-- Reads a numeric reference to a Unicode scalar value whose ampersand has been read. -/
def numericReference? (cs : List Char) : Option (Char × List Char) := do
  let (n, rest) ← numeric? cs
  if n.isValidChar then some (Char.ofNat n, rest) else none

/-- Reads a reference whose ampersand has been read: its character and the text after it. -/
def reference? (cs : List Char) : Option (Char × List Char) :=
  (numericReference? cs).or (namedReference? cs)

/-! ## A reference is a piece of the text -/

theorem upToSemicolon_eq {p : Char → Bool} {cs ds rest : List Char}
    (h : upToSemicolon p cs = some (ds, rest)) : cs = ds ++ ';' :: rest := by
  unfold upToSemicolon at h
  split at h
  · next d ds' rest' h1 h2 =>
    simp only [Option.some.injEq, Prod.mk.injEq] at h
    obtain ⟨rfl, rfl⟩ := h
    rw [← h1, ← h2, List.takeWhile_append_dropWhile]
  · simp at h

/-- A numeric reference ends in a semicolon, and the text after it is what is left. -/
theorem numeric?_append_rest {cs rest : List Char} {n : Nat} (h : numeric? cs = some (n, rest)) :
    ∃ ds, cs = '#' :: ds ++ ';' :: rest := by
  have cut : ∀ {p : Char → Bool} {base : Nat} {t : List Char},
      (upToSemicolon p t).map (fun r => (numberOf base r.1, r.2)) = some (n, rest) →
      ∃ ds, t = ds ++ ';' :: rest := by
    intro p base t ht
    obtain ⟨⟨ds, r⟩, hr, hn⟩ := Option.map_eq_some_iff.1 ht
    obtain ⟨-, rfl⟩ := Prod.mk.inj hn
    exact ⟨ds, upToSemicolon_eq hr⟩
  unfold numeric? at h
  split at h
  · obtain ⟨ds, rfl⟩ := cut h; exact ⟨'x' :: ds, rfl⟩
  · obtain ⟨ds, rfl⟩ := cut h; exact ⟨'X' :: ds, rfl⟩
  · obtain ⟨ds, rfl⟩ := cut h; exact ⟨ds, rfl⟩
  · simp at h

/-- Reading a reference shortens the text. -/
theorem reference?_length {cs rest : List Char} {c : Char} (h : reference? cs = some (c, rest)) :
    rest.length < cs.length := by
  rw [reference?, Option.or_eq_some_iff] at h
  rcases h with h | ⟨-, h⟩
  · simp only [numericReference?, Option.bind_eq_bind, Option.bind_eq_some_iff] at h
    obtain ⟨⟨n, r⟩, hn, h⟩ := h
    obtain ⟨ds, rfl⟩ := numeric?_append_rest hn
    split at h <;> simp at h
    obtain ⟨-, rfl⟩ := h
    simp
    omega
  · simp only [namedReference?, Option.bind_eq_bind, Option.bind_eq_some_iff] at h
    obtain ⟨⟨name, r⟩, hn, h⟩ := h
    obtain ⟨c', -, h⟩ := h
    simp at h
    obtain ⟨-, rfl⟩ := h
    simp [upToSemicolon_eq hn]
    omega

/-! ## Decoding -/

/-- Replaces each reference by its character, from left to right, and copies everything else. -/
def expand : List Char → List Char
  | [] => []
  | c :: cs =>
    if c = '&' then
      match h : reference? cs with
      | some (d, rest) =>
        have := reference?_length h
        d :: expand rest
      | none => '&' :: expand cs
    else c :: expand cs
termination_by cs => cs.length
decreasing_by all_goals simp_wf <;> omega

/-- Decodes the character references of a text. Unknown references, and references to what is no
text character, stay as they are written. -/
def decode (text : String) : String := String.ofList (expand (guardControls text.toList))

end VocabPhp.Text.Reference
