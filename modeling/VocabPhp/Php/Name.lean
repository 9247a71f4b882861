/-!
# Names of PHP classes

A label is used as a class name if it is an identifier and no reserved word. Any other label gets a
given lead, and each of its characters that no identifier may hold becomes an underscore.

* `isIdentifier`, `isReserved`: the two tests. Reserved words are reserved in any letter case.
* `safeName`: the class name for a label.
-/

namespace VocabPhp.Php

/-- Tells whether an identifier may begin with a character. All characters outside ASCII count as
letters. -/
def isNameStart (c : Char) : Bool := c.isAlpha || c = '_' || 128 ≤ c.toNat

/-- Tells whether an identifier may hold a character. -/
def isNameChar (c : Char) : Bool := c.isAlphanum || c = '_' || 128 ≤ c.toNat

/-- Tells whether characters are an identifier. -/
def isIdentifierChars : List Char → Bool
  | [] => false
  | c :: cs => isNameStart c && cs.all isNameChar

/-- Tells whether a name is an identifier. -/
def isIdentifier (name : String) : Bool := isIdentifierChars name.toList

/-- The words that are no class name, in lower case. -/
def reservedWords : List String := [
  "abstract", "and", "array", "as", "bool", "break", "callable", "case", "catch", "class", "clone",
  "const", "continue", "declare", "default", "do", "echo", "else", "elseif", "empty", "enum",
  "extends", "false", "final", "finally", "float", "fn", "for", "foreach", "function", "global",
  "goto", "if", "implements", "include", "instanceof", "insteadof", "int", "interface", "isset",
  "iterable", "list", "match", "mixed", "namespace", "never", "new", "null", "object", "or",
  "parent", "print", "private", "protected", "public", "readonly", "require", "return", "self",
  "static", "string", "switch", "throw", "trait", "true", "try", "unset", "use", "var", "void",
  "while", "xor", "yield"]

/-- The lower case of a character, as far as it is an ASCII letter: besides the ASCII capitals only
the Kelvin sign has such a lower case. -/
def lowerAscii (c : Char) : Char := if c = '\u212A' then 'k' else c.toLower

/-- A word in lower case, as far as that is ASCII. No other part of a word matters to the reserved
words, which are all ASCII. -/
def lowerWord (word : String) : String := String.ofList (word.toList.map lowerAscii)

/-- Tells whether a word is reserved, in any letter case. -/
def isReserved (word : String) : Bool := reservedWords.contains (lowerWord word)

/-- Tells whether a label is a class name as it stands. -/
def isClassName (label : String) : Bool := isIdentifier label && !isReserved label

/-- A character that an identifier may hold, in place of any other. -/
def nameChar (c : Char) : Char := if isNameChar c then c else '_'

/-- The class name for a label: the label itself, or what becomes of it behind `lead`. -/
def safeName (label lead : String) : String :=
  if isClassName label then label else lead ++ String.ofList (label.toList.map nameChar)

/-- The name of the trait that holds the fields of a class. -/
def traitName (className : String) : String := className ++ "Trait"

/-- The name of the interface that marks a class. -/
def interfaceName (className : String) : String := className ++ "Interface"

end VocabPhp.Php
