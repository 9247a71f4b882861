/-!
# PHP literals

* `quote`: a string in single quotes, with a backslash before each quote and backslash.
* `list`: an array of strings on one line.
* `map`: an array with string keys, one entry a line.
-/

namespace VocabPhp.Php

/-- A character as it is written between single quotes. -/
def escape (c : Char) : List Char := if c = '\\' ∨ c = '\'' then ['\\', c] else [c]

/-- The characters of a string literal. -/
def quoteChars (cs : List Char) : List Char := '\'' :: (cs.flatMap escape ++ ['\''])

/-- The literal of a string. -/
def quote (s : String) : String := String.ofList (quoteChars s.toList)

/-- The literal of a list of strings. -/
def list (items : List String) : String := "[" ++ ", ".intercalate (items.map quote) ++ "]"

/-- Spaces. -/
def spaces (n : Nat) : String := String.ofList (List.replicate n ' ')

/-- An entry of an array, of whose value the literal is given. -/
def entry (indent : Nat) (e : String × String) : String :=
  spaces indent ++ quote e.1 ++ " => " ++ e.2

/-- The literal of an array of keys and values, of which the literals are given. The line that it
begins on is indented by `indent`, and its entries by four more. -/
def map (entries : List (String × String)) (indent : Nat) : String :=
  if entries = [] then "[]"
  else "[\n" ++ ",\n".intercalate (entries.map (entry (indent + 4))) ++ "\n" ++ spaces indent ++ "]"

end VocabPhp.Php
