/-!
# PHP types of ranges

The scalar types of a vocabulary have PHP primitives; all other types are classes of their own.

* `types`: the type union of a list of ranges, the primitives first.
-/

namespace VocabPhp.Php

/-- The primitive for a scalar type. -/
def primitive? : String → Option String
  | "Text" | "URL" => some "string"
  | "Integer" => some "int"
  | "Number" | "Float" => some "float"
  | "Boolean" => some "bool"
  | _ => none

/-- The types of the ranges so far, in their two groups. -/
structure TypeGroups where
  primitives : List String := []
  others : List String := []
  deriving DecidableEq, Repr

/-- Puts a type at the end of a group, unless the group has it already. -/
def addType (type : String) (group : List String) : List String :=
  if type ∈ group then group else group ++ [type]

/-- Takes one more range. Its type goes to the primitives if it is a scalar one, and else the range
itself goes to the others. -/
def TypeGroups.add (g : TypeGroups) (range : String) : TypeGroups :=
  match primitive? range with
  | some primitive => { g with primitives := addType primitive g.primitives }
  | none => { g with others := addType range g.others }

/-- The groups of the types of ranges. -/
def typeGroups (ranges : List String) : TypeGroups := ranges.foldl TypeGroups.add {}

/-- The types of ranges: the primitives and then the other types, each once and in the order in
which they come first. -/
def types (ranges : List String) : List String :=
  (typeGroups ranges).primitives ++ (typeGroups ranges).others

end VocabPhp.Php
