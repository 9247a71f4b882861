/-!
# Namespaces of identifiers

Identifiers are compact: a namespace qualifier such as `schema:` followed by a local name.

* `Namespace.localName?_eq_some_iff`: an identifier has local name `n` exactly if it is the term
  `n`.
-/

namespace VocabPhp

/-- A namespace, given by the qualifier of its identifiers, colon included. -/
structure Namespace where
  qualifier : String
  deriving DecidableEq, Repr

namespace Namespace

/-- The namespace of schema.org. -/
def schemaOrg : Namespace := ⟨"schema:"⟩

/-- The identifier of a local name. -/
def term (ns : Namespace) (name : String) : String := ns.qualifier ++ name

/-- Tells whether an identifier lies in the namespace. -/
def contains (ns : Namespace) (id : String) : Bool := ns.qualifier.toList.isPrefixOf id.toList

/-- An identifier without the qualifier, if it lies in the namespace. -/
def localName? (ns : Namespace) (id : String) : Option String :=
  if ns.contains id then some (String.ofList (id.toList.drop ns.qualifier.toList.length)) else none

theorem localName?_isSome (ns : Namespace) (id : String) :
    (ns.localName? id).isSome = ns.contains id := by
  unfold localName?
  split <;> simp_all

/-- An identifier has a local name exactly if it is the term of that name. -/
theorem localName?_eq_some_iff (ns : Namespace) (id name : String) :
    ns.localName? id = some name ↔ id = ns.term name := by
  unfold localName? contains term
  constructor
  · intro h
    split at h
    · next hp =>
      obtain ⟨t, ht⟩ := List.isPrefixOf_iff_prefix.1 hp
      simp only [Option.some.injEq] at h
      rw [← ht, List.drop_left] at h
      rw [← String.toList_inj, ← ht, ← h]
      simp
    · simp at h
  · rintro rfl
    have hp : ns.qualifier.toList.isPrefixOf (ns.qualifier ++ name).toList = true := by
      rw [List.isPrefixOf_iff_prefix, String.toList_append]
      exact List.prefix_append ..
    rw [if_pos hp, String.toList_append, List.drop_left, String.ofList_toList]

end Namespace

end VocabPhp
