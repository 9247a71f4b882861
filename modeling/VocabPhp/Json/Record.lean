import VocabPhp.Json.Reader

/-!
# Records of one field

Some documents are an object of which one member matters. Such a record is read by name, with the
other members skipped, or by position, as an array of at most one element.

* `Reader.oneField`: reads such a record. The field may be absent but not repeated.
-/

namespace VocabPhp.Json.Reader

/-- Reads a record in the form of an array, after the opening bracket. -/
def fieldByPosition {α : Type} (field : Reader α) : Reader (Option α) := fun cs =>
  match h : skipBlanks cs with
  | [] => .error .truncated
  | c :: r =>
    if c = ']' then .ok (none, ⟨r, length_lt_of_skipBlanks h⟩)
    else
      match field (c :: r) with
      | .error f => .error f
      | .ok (a, r₁) =>
        have h₁ := length_rest_lt_of_skipBlanks h r₁
        match h' : skipBlanks r₁.1 with
        | [] => .error .truncated
        | d :: r₂ =>
          if d = ']' then .ok (some a, ⟨r₂, Nat.lt_trans (length_lt_of_skipBlanks h') h₁⟩)
          else .error .malformed

/-- Reads a record in the form of an object, after the opening brace. A second member with the
field's name is refused as soon as its name is read. -/
def fieldByName {α : Type} (name : String) (field : Reader α) : Reader (Option α) :=
  let step (found : Option α) (key : String) : Except Fault (Reader (Option α)) :=
    if key = name then
      match found with
      | some _ => .error .mistyped
      | none => .ok (field.map some)
    else .ok (skipValue.map fun _ => found)
  foldMembers .keep step none

/-- Reads a record of one field. -/
def oneField {α : Type} (name : String) (field : Reader α) : Reader (Option α) := fun cs =>
  match h : skipBlanks cs with
  | [] => .error .truncated
  | c :: r =>
    let read : Option (Reader (Option α)) :=
      if c = '[' then some (fieldByPosition field)
      else if c = '\x7b' then some (fieldByName name field)
      else none
    match read with
    | none => .error (shapeFault cs)
    | some read =>
      match read r with
      | .error f => .error f
      | .ok (a, r') => .ok (a, ⟨r'.1, Nat.lt_trans r'.2 (length_lt_of_skipBlanks h)⟩)

/-- Reads an array of things, in which `item` reads each. -/
def arrayOf {α : Type} (item : Reader α) : Reader (List α) := fun cs =>
  match h : skipBlanks cs with
  | [] => .error .truncated
  | c :: r =>
    if c = '[' then
      match elements item r with
      | .error f => .error f
      | .ok (as, r') => .ok (as, ⟨r'.1, Nat.lt_trans r'.2 (length_lt_of_skipBlanks h)⟩)
    else .error (shapeFault cs)

/-- Reads `null` as nothing, and anything else by `read`. -/
def nullOr {α : Type} (read : Reader α) : Reader (Option α) := fun cs =>
  match h : skipBlanks cs with
  | 'n' :: r =>
    match word ['u', 'l', 'l'] none r with
    | .error f => .error f
    | .ok (a, r') => .ok (a, ⟨r'.1, Nat.lt_of_le_of_lt r'.2 (length_lt_of_skipBlanks h)⟩)
  | _ => read.map some cs

/-- Reads a string. -/
def stringOnly : Reader String := fun cs =>
  match h : skipBlanks cs with
  | '"' :: r =>
    match stringTail .keep r with
    | .error f => .error f
    | .ok (s, r') => .ok (s, ⟨r'.1, Nat.lt_trans r'.2 (length_lt_of_skipBlanks h)⟩)
  | [] => .error .truncated
  | _ => .error (shapeFault cs)

end VocabPhp.Json.Reader
