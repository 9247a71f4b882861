import VocabPhp.Json.Number
import VocabPhp.Table

/-!
# Reading JSON text

A `Reader α` reads something off the front of a text and returns it with the text after it, which
is shorter; so every loop over a text ends. What can go wrong is a `Fault`.

A text is read to be kept or to be skipped. What is kept must be representable: its numbers are
finite, its strings hold Unicode scalar values, and at most `maxDepth` arrays and objects are open
at once. What is skipped must only be well formed.

* `Reader.value`: reads one value. The later one of two members with the same name stays.
* `Reader.elements`, `Reader.foldMembers`: read the rest of an array or object, whatever is in it.
* `Reader.whole`: a text that holds one thing and nothing after it.
-/

namespace VocabPhp.Json

/-- Why a text cannot be read: it is no JSON (or not representable), its value has another shape
than asked for, or it ends too early. -/
inductive Fault
  | malformed
  | mistyped
  | truncated
  deriving DecidableEq, Repr

/-- What a text is read for. -/
inductive Use
  | keep
  | skip
  deriving DecidableEq, Repr

/-- The fault of a numeral that ends too early. A skipped one is just malformed. -/
def Use.unfinished : Use → Fault
  | keep => .truncated
  | skip => .malformed

/-- A text that is shorter than `cs`. -/
abbrev Rest (cs : List Char) := { r : List Char // r.length < cs.length }

/-- Reads something off the front of a text. -/
abbrev Reader (α : Type) := (cs : List Char) → Except Fault (α × Rest cs)

/-- The number of arrays and objects that may be open at once. -/
def maxDepth : Nat := 127

namespace Reader

/-! ## Blanks, words and numbers -/

/-- Tells whether a character may stand between tokens. -/
def isBlank (c : Char) : Bool := c = ' ' || c = '\n' || c = '\t' || c = '\r'

/-- The text after the blanks at its front. -/
def skipBlanks (cs : List Char) : List Char := cs.dropWhile isBlank

theorem length_skipBlanks_le (cs : List Char) : (skipBlanks cs).length ≤ cs.length :=
  (List.dropWhile_sublist _).length_le

theorem length_lt_of_skipBlanks {cs r : List Char} {c : Char} (h : skipBlanks cs = c :: r) :
    r.length < cs.length := by
  have := length_skipBlanks_le cs
  rw [h] at this
  exact this

theorem length_rest_lt_of_skipBlanks {cs r : List Char} {c : Char} (h : skipBlanks cs = c :: r)
    (r' : Rest (c :: r)) : r'.1.length < cs.length :=
  Nat.lt_of_lt_of_le r'.2 (h ▸ length_skipBlanks_le cs)

/-- Reads given characters. -/
def expect (word : List Char) (cs : List Char) :
    Except Fault { r : List Char // r.length ≤ cs.length } :=
  match word, cs with
  | [], cs => .ok ⟨cs, Nat.le_refl _⟩
  | _ :: _, [] => .error .truncated
  | w :: ws, c :: cs =>
    if w = c then
      match expect ws cs with
      | .error f => .error f
      | .ok r => .ok ⟨r.1, Nat.le_trans r.2 (Nat.le_succ _)⟩
    else .error .malformed

/-- Cuts one or more digits off the front of a text. -/
def digits (use : Use) (cs : List Char) : Except Fault (List Char × Rest cs) :=
  match h : cs.takeWhile Char.isDigit with
  | [] => .error (if cs = [] then use.unfinished else .malformed)
  | d :: ds => .ok (d :: ds, ⟨cs.dropWhile Char.isDigit, by
      have := congrArg List.length (List.takeWhile_append_dropWhile (p := Char.isDigit) (l := cs))
      rw [h] at this
      simp only [List.length_append, List.length_cons] at this
      omega⟩)

/-- Reads the fraction of a numeral, if it has one. -/
def fraction (use : Use) (cs : List Char) :
    Except Fault (Option (List Char) × { r : List Char // r.length ≤ cs.length }) :=
  match cs with
  | '.' :: cs =>
    match digits use cs with
    | .error f => .error f
    | .ok (ds, r) => .ok (some ds, ⟨r.1, Nat.le_of_lt (Nat.lt_succ_of_lt r.2)⟩)
  | cs => .ok (none, ⟨cs, Nat.le_refl _⟩)

/-- Reads the sign of an exponent: whether it is negative. -/
def exponentSign : List Char → Bool × List Char
  | '-' :: cs => (true, cs)
  | '+' :: cs => (false, cs)
  | cs => (false, cs)

theorem length_exponentSign_le (cs : List Char) : (exponentSign cs).2.length ≤ cs.length := by
  unfold exponentSign
  split <;> simp

theorem length_rest_exponentSign_le {cs : List Char} (c : Char) (r : Rest (exponentSign cs).2) :
    r.1.length ≤ (c :: cs).length :=
  Nat.le_of_lt (Nat.lt_succ_of_lt (Nat.lt_of_lt_of_le r.2 (length_exponentSign_le cs)))

/-- Reads the exponent of a numeral, if it has one. -/
def exponent (use : Use) (cs : List Char) :
    Except Fault (Option Int × { r : List Char // r.length ≤ cs.length }) :=
  match cs with
  | [] => .ok (none, ⟨[], Nat.le_refl _⟩)
  | c :: cs =>
    if c = 'e' ∨ c = 'E' then
      match digits use (exponentSign cs).2 with
      | .error f => .error f
      | .ok (ds, r) =>
        let n : Int := Numeral.digitsValue ds
        .ok (some (if (exponentSign cs).1 then -n else n), ⟨r.1, length_rest_exponentSign_le c r⟩)
    else .ok (none, ⟨c :: cs, Nat.le_refl _⟩)

/-- Reads the spelling of a number whose sign has been read. A leading zero stands alone. -/
def numeral (use : Use) (negative : Bool) : Reader Numeral := fun cs =>
  match digits use cs with
  | .error f => .error f
  | .ok ('0' :: _ :: _, _) => .error .malformed
  | .ok (whole, r₁) =>
    match fraction use r₁.1 with
    | .error f => .error f
    | .ok (fraction, r₂) =>
      match exponent use r₂.1 with
      | .error f => .error f
      | .ok (exponent, r₃) =>
        .ok (⟨negative, whole, fraction, exponent⟩,
          ⟨r₃.1, Nat.lt_of_le_of_lt (Nat.le_trans r₃.2 r₂.2) r₁.2⟩)

/-- Reads a number whose sign has been read. One that is past the largest finite number can only be
skipped. -/
def number (use : Use) (negative : Bool) : Reader Number := fun cs =>
  match numeral use negative cs with
  | .error f => .error f
  | .ok (m, r) =>
    match m.value?, use with
    | some n, _ => .ok (n, r)
    | none, .skip => .ok (.integer 0, r)
    | none, .keep => .error .malformed

/-! ## Strings -/

/-- Tells whether a character is a hexadecimal digit. -/
def isHexDigit (c : Char) : Bool :=
  c.isDigit || ('a' ≤ c && c ≤ 'f') || ('A' ≤ c && c ≤ 'F')

/-- The value of a hexadecimal digit. -/
def hexValue (c : Char) : Nat :=
  if c.isDigit then c.toNat - 48 else if 'a' ≤ c then c.toNat - 87 else c.toNat - 55

/-- Reads the four digits of a written code unit. A text with fewer than four bytes left has ended
too early. -/
def codeUnit (cs : List Char) : Except Fault (Nat × Rest cs) :=
  match cs with
  | a :: b :: c :: d :: r =>
    if [a, b, c, d].all isHexDigit then
      .ok ([a, b, c, d].foldl (fun n x => n * 16 + hexValue x) 0, ⟨r, by simp; omega⟩)
    else .error .malformed
  | cs => .error (if (String.ofList cs).utf8ByteSize < 4 then .truncated else .malformed)

/-- Tells whether a code unit is the first one of a pair. -/
def isHighSurrogate (n : Nat) : Bool := 0xD800 ≤ n && n < 0xDC00

/-- Tells whether a code unit is the second one of a pair. -/
def isLowSurrogate (n : Nat) : Bool := 0xDC00 ≤ n && n < 0xE000

/-- Reads the second code unit of a pair, of which the first has been read. -/
def lowSurrogate (high : Nat) (cs : List Char) : Except Fault (Char × Rest cs) :=
  match cs with
  | [] | ['\\'] => .error .truncated
  | '\\' :: 'u' :: cs =>
    match codeUnit cs with
    | .error f => .error f
    | .ok (low, r) =>
      if isLowSurrogate low then
        .ok (Char.ofNat (0x10000 + (high - 0xD800) * 0x400 + (low - 0xDC00)),
          ⟨r.1, Nat.lt_succ_of_lt (Nat.lt_succ_of_lt r.2)⟩)
      else .error .malformed
  | _ => .error .malformed

/-- Reads a character written by its code units, after the `u`. Surrogates come in pairs in a text
that is kept. -/
def codeUnits (use : Use) (cs : List Char) : Except Fault (Char × Rest cs) :=
  match codeUnit cs with
  | .error f => .error f
  | .ok (n, r) =>
    if use = .keep ∧ isLowSurrogate n then .error .malformed
    else if use = .keep ∧ isHighSurrogate n then
      match lowSurrogate n r.1 with
      | .error f => .error f
      | .ok (c, r') => .ok (c, ⟨r'.1, Nat.lt_trans r'.2 r.2⟩)
    else .ok (Char.ofNat n, r)

/-- The character that a letter after a backslash stands for. -/
def escapedChar? : Char → Option Char
  | '"' => some '"'
  | '\\' => some '\\'
  | '/' => some '/'
  | 'b' => some '\x08'
  | 'f' => some '\x0c'
  | 'n' => some '\n'
  | 'r' => some '\r'
  | 't' => some '\t'
  | _ => none

/-- Reads an escaped character, after the backslash. -/
def escaped (use : Use) (cs : List Char) : Except Fault (Char × Rest cs) :=
  match cs with
  | [] => .error .truncated
  | c :: cs =>
    if c = 'u' then
      match codeUnits use cs with
      | .error f => .error f
      | .ok (c, r) => .ok (c, ⟨r.1, Nat.lt_succ_of_lt r.2⟩)
    else
      match escapedChar? c with
      | some d => .ok (d, ⟨cs, Nat.lt_succ_self _⟩)
      | none => .error .malformed

/-- Reads the characters of a string up to its closing quote, after those in `read`, the last one
first. The text is part of `text`. -/
def stringChars (use : Use) (text : List Char) (read : List Char) (cs : List Char)
    (h : cs.length ≤ text.length) : Except Fault (List Char × Rest text) :=
  match cs, h with
  | [], _ => .error .truncated
  | c :: cs, h =>
    if c = '"' then .ok (read.reverse, ⟨cs, h⟩)
    else if c = '\\' then
      match escaped use cs with
      | .error f => .error f
      | .ok (d, r) =>
        stringChars use text (d :: read) r.1
          (Nat.le_of_lt (Nat.lt_of_lt_of_le r.2 (Nat.le_of_lt h)))
    else if c.toNat < 32 then .error .malformed
    else stringChars use text (c :: read) cs (Nat.le_of_lt h)
termination_by cs.length
decreasing_by
  · exact Nat.lt_succ_of_lt r.2
  · exact Nat.lt_succ_self _

/-- Reads a string whose opening quote has been read. -/
def stringTail (use : Use) : Reader String := fun cs =>
  match stringChars use cs [] cs (Nat.le_refl _) with
  | .error f => .error f
  | .ok (s, r) => .ok (String.ofList s, r)

/-! ## Arrays and objects -/

/-- Reads one or more items up to the closing bracket. -/
def items {α : Type} (item : Reader α) (cs : List Char) : Except Fault (List α × Rest cs) :=
  match item cs with
  | .error f => .error f
  | .ok (a, r) =>
    match h : skipBlanks r.1 with
    | [] => .error .truncated
    | c :: r₁ =>
      have h₁ := Nat.lt_trans (length_lt_of_skipBlanks h) r.2
      if c = ']' then .ok ([a], ⟨r₁, h₁⟩)
      else if c = ',' then
        match h' : skipBlanks r₁ with
        | [] => .error .truncated
        | d :: r₂ =>
          have h₂ : (d :: r₂).length < cs.length :=
            Nat.lt_of_le_of_lt (h' ▸ length_skipBlanks_le r₁) h₁
          if d = ']' then .error .malformed
          else
            match items item (d :: r₂) with
            | .error f => .error f
            | .ok (as, r₃) => .ok (a :: as, ⟨r₃.1, Nat.lt_trans r₃.2 h₂⟩)
      else .error .malformed
termination_by cs.length

/-- Reads the items of an array, after the opening bracket. -/
def elements {α : Type} (item : Reader α) : Reader (List α) := fun cs =>
  match h : skipBlanks cs with
  | [] => .error .truncated
  | c :: r =>
    if c = ']' then .ok ([], ⟨r, length_lt_of_skipBlanks h⟩)
    else
      match items item (c :: r) with
      | .error f => .error f
      | .ok (as, r') => .ok (as, ⟨r'.1, length_rest_lt_of_skipBlanks h r'⟩)

/-- Reads one or more members up to the closing brace, after the quote that opens a name. The names
are read for `use`; `step` looks at a name and gives the reader of its value, which changes `s`. -/
def membersFrom {σ : Type} (use : Use) (step : σ → String → Except Fault (Reader σ)) (s : σ)
    (cs : List Char) : Except Fault (σ × Rest cs) :=
  match stringTail use cs with
  | .error f => .error f
  | .ok (name, r) =>
    match step s name with
    | .error f => .error f
    | .ok value =>
      match h : skipBlanks r.1 with
      | [] => .error .truncated
      | c :: r₁ =>
        if c = ':' then
          match value r₁ with
          | .error f => .error f
          | .ok (s, r₂) =>
            have h₂ : r₂.1.length < cs.length :=
              Nat.lt_trans (Nat.lt_trans r₂.2 (length_lt_of_skipBlanks h)) r.2
            match h' : skipBlanks r₂.1 with
            | [] => .error .truncated
            | d :: r₃ =>
              have h₃ := Nat.lt_trans (length_lt_of_skipBlanks h') h₂
              if d = '\x7d' then .ok (s, ⟨r₃, h₃⟩)
              else if d = ',' then
                match h'' : skipBlanks r₃ with
                | [] => .error .truncated
                | e :: r₄ =>
                  have h₄ := Nat.lt_trans (length_lt_of_skipBlanks h'') h₃
                  if e = '"' then
                    match membersFrom use step s r₄ with
                    | .error f => .error f
                    | .ok (s, r₅) => .ok (s, ⟨r₅.1, Nat.lt_trans r₅.2 h₄⟩)
                  else .error .malformed
              else .error .malformed
        else .error .malformed
termination_by cs.length

/-- Reads the members of an object, after the opening brace. -/
def foldMembers {σ : Type} (use : Use) (step : σ → String → Except Fault (Reader σ)) (s : σ) :
    Reader σ := fun cs =>
  match h : skipBlanks cs with
  | [] => .error .truncated
  | c :: r =>
    have h' := length_lt_of_skipBlanks h
    if c = '\x7d' then .ok (s, ⟨r, h'⟩)
    else if c = '"' then
      match membersFrom use step s r with
      | .error f => .error f
      | .ok (s, r') => .ok (s, ⟨r'.1, Nat.lt_trans r'.2 h'⟩)
    else .error .malformed

/-! ## Values -/

/-- What a reader reads, changed by a function. -/
def map {α β : Type} (f : α → β) (read : Reader α) : Reader β := fun cs =>
  match read cs with
  | .error e => .error e
  | .ok (a, r) => .ok (f a, r)

/-- Reads given characters and stands for a value. -/
def word {α : Type} (chars : List Char) (a : α) (cs : List Char) :
    Except Fault (α × { r : List Char // r.length ≤ cs.length }) :=
  match expect chars cs with
  | .error f => .error f
  | .ok r => .ok (a, r)

/-- Reads a value that is no array and no object, whose first character `c` has been read. -/
def scalarFrom (use : Use) (c : Char) (cs : List Char) :
    Except Fault (Json × { r : List Char // r.length ≤ cs.length }) :=
  let weaken {α : Type} (f : α → Json) :
      Except Fault (α × Rest cs) → Except Fault (Json × { r : List Char // r.length ≤ cs.length })
    | .error e => .error e
    | .ok (a, r) => .ok (f a, ⟨r.1, Nat.le_of_lt r.2⟩)
  if c = 'n' then word ['u', 'l', 'l'] .null cs
  else if c = 't' then word ['r', 'u', 'e'] (.bool true) cs
  else if c = 'f' then word ['a', 'l', 's', 'e'] (.bool false) cs
  else if c = '"' then weaken .string (stringTail use cs)
  else if c = '-' then weaken .number (number use true cs)
  else .error .malformed

/-- Reads one value, in which at most `depth` arrays and objects may be open at once. -/
def value (use : Use) (depth : Nat) : Reader Json := fun cs =>
  match h : skipBlanks cs with
  | [] => .error .truncated
  | c :: r =>
    have h' := length_lt_of_skipBlanks h
    if c = '[' then
      match depth with
      | 0 => .error .malformed
      | depth + 1 =>
        match elements (value use depth) r with
        | .error f => .error f
        | .ok (vs, r') => .ok (.array vs, ⟨r'.1, Nat.lt_trans r'.2 h'⟩)
    else if c = '\x7b' then
      match depth with
      | 0 => .error .malformed
      | depth + 1 =>
        let step (members : List (String × Json)) (name : String) : Except Fault (Reader _) :=
          .ok ((value use depth).map fun v => Table.insertIn name v members)
        match foldMembers use step [] r with
        | .error f => .error f
        | .ok (members, r') => .ok (.object members, ⟨r'.1, Nat.lt_trans r'.2 h'⟩)
    else if c.isDigit then
      match number use false (c :: r) with
      | .error f => .error f
      | .ok (n, r') =>
        .ok (.number n, ⟨r'.1, length_rest_lt_of_skipBlanks h r'⟩)
    else
      match scalarFrom use c r with
      | .error f => .error f
      | .ok (v, r') => .ok (v, ⟨r'.1, Nat.lt_of_le_of_lt r'.2 h'⟩)

/-- Reads a value and forgets it. It may be nested as deep as the text is long. -/
def skipValue : Reader Unit := fun cs => (value .skip cs.length).map (fun _ => ()) cs

/-- What is wrong with a text whose value should have had another shape: its own fault if it is a
scalar that cannot be read, and otherwise its shape. -/
def shapeFault (cs : List Char) : Fault :=
  match skipBlanks cs with
  | '[' :: _ | '\x7b' :: _ => .mistyped
  | cs =>
    match value .keep 0 cs with
    | .error f => f
    | .ok _ => .mistyped

/-- Reads a text that holds one thing and nothing after it. -/
def whole {α : Type} (read : Reader α) (text : String) : Except Fault α :=
  match read text.toList with
  | .error f => .error f
  | .ok (a, r) => if skipBlanks r.1 = [] then .ok a else .error .malformed

end Reader

/-- The value of a JSON text. -/
def ofText (text : String) : Except Fault Json :=
  Reader.whole (Reader.value .keep maxDepth) text

end VocabPhp.Json
