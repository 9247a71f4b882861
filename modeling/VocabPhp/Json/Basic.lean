import VocabPhp.Number.Shortest

/-!
# JSON values

A number is an integer of at most 64 bits or a binary64 number, and remembers which. The members of
an object are a list; a look-up takes the first member with the name, and what `Json.Reader` reads
has each name once, in increasing order.
-/

namespace VocabPhp

namespace Json

/-- A number of a JSON text. -/
inductive Number
  | integer (n : Int)
  | real (x : Binary64)
  deriving DecidableEq, Repr

/-- The text of a number: an integer in decimal digits, any other number as its shortest decimal. -/
def Number.text : Number → String
  | integer n => toString n
  | real x => x.text

end Json

/-- A JSON value. -/
inductive Json
  | null
  | bool (b : Bool)
  | number (n : Json.Number)
  | string (s : String)
  | array (items : List Json)
  | object (members : List (String × Json))
  deriving Repr

namespace Json

instance : Inhabited Json := ⟨null⟩

/-- The text of a string. -/
def string? : Json → Option String
  | string s => some s
  | _ => none

/-- The items of an array. -/
def array? : Json → Option (List Json)
  | array items => some items
  | _ => none

/-- The members of an object. -/
def object? : Json → Option (List (String × Json))
  | object members => some members
  | _ => none

/-- The member of an object under a name. -/
def field? (v : Json) (name : String) : Option Json := v.object?.bind (·.lookup name)

/-- Tells whether a value says nothing: null, false, or an empty text, array or object. -/
def isEmpty : Json → Bool
  | null => true
  | bool b => !b
  | number _ => false
  | string s => s.isEmpty
  | array items => items.isEmpty
  | object members => members.isEmpty

end Json

end VocabPhp
