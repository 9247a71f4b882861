import VocabPhp.Vocabulary.Hierarchy
import Mathlib.Logic.Relation

/-!
# What the walk of a hierarchy finds

The ancestors of a name are the names above it, for the relation `Hierarchy.Parent` between a name
and its direct parents.

* `Hierarchy.walk_closed`: a walk that ends keeps what was found before, finds all names that it was
  to walk, and the parents of every name that it found.
* `Hierarchy.walk_reaches`: it finds nothing that is not above these names.
* `Hierarchy.mem_ancestors_iff`: a name is an ancestor exactly if parent edges lead to it.
-/

namespace VocabPhp.Hierarchy

open Relation

/-- The second name is a direct parent of the first. -/
def Parent (h : Hierarchy) (name parent : String) : Prop := parent ∈ h.parentsOf name

/-- What a walk that ends has found. Names found before it may still be on the path, so only those
that it adds are sure to have all their parents found. -/
theorem walk_closed {h : Hierarchy} {path found ps out : List String}
    (hw : walk h path found ps = .ok out) :
    (∀ n ∈ found, n ∈ out) ∧ (∀ p ∈ ps, p ∈ out) ∧
      ∀ n ∈ out, n ∉ found → ∀ p, h.Parent n p → p ∈ out := by
  fun_induction walk h path found ps generalizing out with
  | case1 path found =>
    cases hw
    exact ⟨fun _ hn => hn, by simp, fun _ hn hnot => absurd hn hnot⟩
  | case2 => cases hw
  | case3 path found p ps _ hfound ih =>
    obtain ⟨hkeep, hps, hclosed⟩ := ih hw
    refine ⟨hkeep, fun q hq => ?_, hclosed⟩
    rcases List.mem_cons.1 hq with rfl | hq
    · exact hkeep _ hfound
    · exact hps q hq
  | case4 => cases hw
  | case5 path found p ps _ hfound mid hmid ih₁ ih₂ =>
    obtain ⟨hkeep₁, hparents, hclosed₁⟩ := ih₁ hmid
    obtain ⟨hkeep₂, hps, hclosed₂⟩ := ih₂ hw
    refine ⟨fun n hn => hkeep₂ n (hkeep₁ n (by simp [hn])), fun q hq => ?_,
      fun n hn hnot q hq => ?_⟩
    · rcases List.mem_cons.1 hq with rfl | hq
      · exact hkeep₂ _ (hkeep₁ _ (by simp))
      · exact hps q hq
    · by_cases hmem : n ∈ mid
      · -- The line of `p` has been walked to its end before the next sibling.
        by_cases hnp : n = p
        · subst hnp
          exact hkeep₂ q (hparents q hq)
        · exact hkeep₂ q (hclosed₁ n hmem (by simp [hnot, hnp]) q hq)
      · exact hclosed₂ n hn hmem q hq

/-- A walk finds nothing but names that it was to walk and names above these. -/
theorem walk_reaches {h : Hierarchy} {path found ps out : List String}
    (hw : walk h path found ps = .ok out) :
    ∀ n ∈ out, n ∈ found ∨ ∃ p ∈ ps, ReflTransGen h.Parent p n := by
  fun_induction walk h path found ps generalizing out with
  | case1 path found =>
    cases hw
    exact fun n hn => .inl hn
  | case2 => cases hw
  | case3 path found p ps _ _ ih =>
    intro n hn
    rcases ih hw n hn with hf | ⟨q, hq, hr⟩
    · exact .inl hf
    · exact .inr ⟨q, by simp [hq], hr⟩
  | case4 => cases hw
  | case5 path found p ps _ _ mid hmid ih₁ ih₂ =>
    intro n hn
    rcases ih₂ hw n hn with hf | ⟨q, hq, hr⟩
    · rcases ih₁ hmid n hf with hf | ⟨q, hq, hr⟩
      · rcases List.mem_append.1 hf with hf | hf
        · exact .inl hf
        · obtain rfl : n = p := by simpa using hf
          exact .inr ⟨n, by simp, .refl⟩
      · exact .inr ⟨p, by simp, .head hq hr⟩
    · exact .inr ⟨q, by simp [hq], hr⟩

theorem mem_ancestors_of_parent {h : Hierarchy} {name : String} {names : List String}
    (ha : h.ancestors name = .ok names) {p : String} (hp : h.Parent name p) : p ∈ names :=
  (walk_closed ha).2.1 p hp

/-- The parents of ancestors are ancestors. -/
theorem mem_ancestors_of_mem {h : Hierarchy} {name : String} {names : List String}
    (ha : h.ancestors name = .ok names) {n p : String} (hn : n ∈ names) (hp : h.Parent n p) :
    p ∈ names :=
  (walk_closed ha).2.2 n hn (by simp) p hp

/-- The ancestors of a name are the names that one or more parent edges lead to. -/
theorem mem_ancestors_iff {h : Hierarchy} {name : String} {names : List String}
    (ha : h.ancestors name = .ok names) (n : String) :
    n ∈ names ↔ TransGen h.Parent name n := by
  constructor
  · intro hn
    rcases walk_reaches ha n hn with hf | ⟨p, hp, hr⟩
    · simp at hf
    · exact TransGen.head' hp hr
  · intro hr
    induction hr with
    | single hp => exact mem_ancestors_of_parent ha hp
    | tail _ hp ih => exact mem_ancestors_of_mem ha ih hp

end VocabPhp.Hierarchy
