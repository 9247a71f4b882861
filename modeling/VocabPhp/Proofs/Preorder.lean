import VocabPhp.Proofs.Cycles
import VocabPhp.Proofs.Recording

/-!
# The order of ancestors

The ancestors of a name come in the order of a walk that does not look back: every parent in the
order of its declaration, and right after it all that is above it, however often that has been
listed before. The walk of a hierarchy leaves out names that it has found already, with all that is
above them, and lists no name twice. This changes nothing but the repetitions.

* `Hierarchy.Unpruned`: the walk that does not look back. It comes to an end exactly if it meets no
  cycle (`Hierarchy.exists_unpruned_iff`).
* `Hierarchy.walk_of_unpruned`: the walk of a hierarchy adds the names of the unpruned walk one by
  one, each unless it is there.
* `Hierarchy.ancestors_eq_eraseDups`: the ancestors are the unpruned walk without repetitions.
-/

namespace VocabPhp.Hierarchy

open Relation
open Vocabulary (joined eraseDups_concat nodup_eraseDups)

variable {h : Hierarchy} {path found ps names : List String}

/-! ## The unpruned walk -/

/-- `Unpruned h ps names`: the names `ps`, each followed at once by all that is listed in the same
way for its parents, give `names`. -/
inductive Unpruned (h : Hierarchy) : List String → List String → Prop
  | nil : Unpruned h [] []
  | cons {p ps above rest} : Unpruned h (h.parentsOf p) above → Unpruned h ps rest →
      Unpruned h (p :: ps) (p :: (above ++ rest))

namespace Unpruned

theorem unique {names' : List String} (hn : h.Unpruned ps names) (hn' : h.Unpruned ps names') :
    names = names' := by
  induction hn generalizing names' with
  | nil => cases hn'; rfl
  | cons _ _ ih₁ ih₂ =>
    cases hn' with
    | cons habove hrest => rw [ih₁ habove, ih₂ hrest]

/-- It lists the names that it starts with and all that is above them. -/
theorem mem_iff (hn : h.Unpruned ps names) (n : String) :
    n ∈ names ↔ ∃ p ∈ ps, ReflTransGen h.Parent p n := by
  induction hn with
  | nil => simp
  | @cons p ps above rest _ _ ih₁ ih₂ =>
    -- Above `p` is `p` itself and what is above its parents.
    have hp : ReflTransGen h.Parent p n ↔ n = p ∨ n ∈ above := by
      rw [ReflTransGen.cases_head_iff, ih₁, eq_comm]
      rfl
    simp only [List.mem_cons, List.mem_append, exists_eq_or_imp, ih₂, hp, or_assoc]

/-- It comes to an end only if it meets no cycle. -/
theorem acyclic (hn : h.Unpruned ps names) : ∀ p ∈ ps, ¬ h.ReachesCycle p := by
  induction hn with
  | nil => simp
  | @cons p ps above rest _ _ ih₁ ih₂ =>
    intro q hq
    rcases List.mem_cons.1 hq with rfl | hq
    · rw [reachesCycle_iff_parent]
      rintro ⟨r, hr, hcycle⟩
      exact ih₁ r hr hcycle
    · exact ih₂ q hq

/-- No name is listed above itself. -/
theorem not_mem_above {p : String} {above : List String}
    (hn : h.Unpruned (h.parentsOf p) above) : p ∉ above := by
  intro hp
  obtain ⟨q, hq, hback⟩ := (hn.mem_iff p).1 hp
  have hcycle : TransGen h.Parent q q := TransGen.tail' hback hq
  exact hn.acyclic q hq ⟨q, .refl, hcycle⟩

end Unpruned

/-- Along a path without cycles above it, the unpruned walk comes to an end. Fewer names are off a
longer path, as for the walk of a hierarchy. -/
theorem exists_unpruned (path ps : List String)
    (hpath : ∀ n ∈ path, ∀ p ∈ ps, TransGen h.Parent n p)
    (hclean : ∀ p ∈ ps, ¬ h.ReachesCycle p) : ∃ names, h.Unpruned ps names := by
  match ps with
  | [] => exact ⟨[], .nil⟩
  | p :: ps =>
    have hp : p ∉ path := fun hmem =>
      hclean p List.mem_cons_self ⟨p, .refl, hpath p hmem p List.mem_cons_self⟩
    have hpath' : ∀ n ∈ path ++ [p], ∀ q ∈ h.parentsOf p, TransGen h.Parent n q := by
      intro n hn q hq
      rcases List.mem_append.1 hn with hn | hn
      · exact (hpath n hn p List.mem_cons_self).tail hq
      · obtain rfl := List.mem_singleton.1 hn
        exact .single hq
    have hclean' : ∀ q ∈ h.parentsOf p, ¬ h.ReachesCycle q := fun q hq hcycle =>
      hclean p List.mem_cons_self ((reachesCycle_iff_parent p).2 ⟨q, hq, hcycle⟩)
    obtain ⟨above, habove⟩ := exists_unpruned (path ++ [p]) (h.parentsOf p) hpath' hclean'
    obtain ⟨rest, hrest⟩ := exists_unpruned path ps
      (fun n hn q hq => hpath n hn q (List.mem_cons_of_mem _ hq))
      (fun q hq => hclean q (List.mem_cons_of_mem _ hq))
    exact ⟨p :: (above ++ rest), .cons habove hrest⟩
termination_by ((h.offPath path).length, ps.length)
decreasing_by
  · exact walk_measure hp
  · exact .right _ (Nat.lt_succ_self _)

/-- The unpruned walk comes to an end exactly if it meets no cycle. -/
theorem exists_unpruned_iff (ps : List String) :
    (∃ names, h.Unpruned ps names) ↔ ∀ p ∈ ps, ¬ h.ReachesCycle p := by
  constructor
  · rintro ⟨names, hn⟩
    exact hn.acyclic
  · exact exists_unpruned [] ps (by simp)

/-! ## Names one by one -/

/-- Adds names at the end, each unless it is there. -/
def joinAll (names found : List String) : List String :=
  names.foldl (fun found n => joined n found) found

theorem joinAll_cons (n : String) (names found : List String) :
    joinAll (n :: names) found = joinAll names (joined n found) := rfl

theorem joinAll_append (names names' found : List String) :
    joinAll (names ++ names') found = joinAll names' (joinAll names found) :=
  List.foldl_append

theorem mem_joinAll_iff (n : String) (names found : List String) :
    n ∈ joinAll names found ↔ n ∈ found ∨ n ∈ names := by
  induction names generalizing found with
  | nil => simp [joinAll]
  | cons m names ih =>
    rw [joinAll_cons, ih, joined]
    split <;> grind

/-- What is there already is not added. -/
theorem joinAll_of_subset (hsub : ∀ n ∈ names, n ∈ found) : joinAll names found = found := by
  induction names with
  | nil => rfl
  | cons n names ih =>
    have hn : joined n found = found := if_pos (hsub n List.mem_cons_self)
    rw [joinAll_cons, hn, ih fun m hm => hsub m (List.mem_cons_of_mem _ hm)]

/-- Names added to none are the names at their first places. -/
theorem joinAll_nil (names : List String) : joinAll names [] = names.eraseDups := by
  induction names using List.reverseRecOn with
  | nil => rfl
  | append_singleton names n ih =>
    rw [joinAll_append, ih, eraseDups_concat]
    rfl

/-! ## The walk of a hierarchy -/

/-- The names found, apart from those on the path, have all that is above them found. -/
def Closed (h : Hierarchy) (path found : List String) : Prop :=
  ∀ n ∈ found, n ∉ path → ∀ m, ReflTransGen h.Parent n m → m ∈ found

/-- What the unpruned walk lists is closed, so to add it keeps what is found closed. -/
theorem Closed.joinAll (hn : h.Unpruned ps names) (hfound : h.Closed path found) :
    h.Closed path (joinAll names found) := by
  intro n hmem hpath m hreach
  rw [mem_joinAll_iff] at hmem ⊢
  rcases hmem with hmem | hmem
  · exact .inl (hfound n hmem hpath m hreach)
  · obtain ⟨p, hp, hpn⟩ := (hn.mem_iff n).1 hmem
    exact .inr ((hn.mem_iff m).2 ⟨p, hp, hpn.trans hreach⟩)

/-- A walk that cannot come back to its path finds the names of the unpruned walk, each unless it
has been found. -/
theorem walk_of_unpruned (hn : h.Unpruned ps names) (hpath : ∀ n ∈ names, n ∉ path)
    (hfound : h.Closed path found) : walk h path found ps = .ok (joinAll names found) := by
  induction hn generalizing path found with
  | nil => rw [walk]; rfl
  | @cons p ps above rest habove hrest ih₁ ih₂ =>
    have hp : p ∉ path := hpath p List.mem_cons_self
    have hpath₁ : ∀ n ∈ above, n ∉ path ++ [p] := by
      intro n hmem
      rw [List.mem_append, List.mem_singleton, not_or]
      exact ⟨hpath n (by simp [hmem]), fun heq => habove.not_mem_above (heq ▸ hmem)⟩
    have hpath₂ : ∀ n ∈ rest, n ∉ path := fun n hmem => hpath n (by simp [hmem])
    rw [joinAll_cons, joinAll_append]
    by_cases hpf : p ∈ found
    · -- All that is above `p` has been found with it.
      have habove' : ∀ n ∈ above, n ∈ found := by
        intro n hmem
        obtain ⟨q, hq, hreach⟩ := (habove.mem_iff n).1 hmem
        exact hfound p hpf hp n (.head hq hreach)
      have hjoined : joined p found = found := if_pos hpf
      rw [walk, dif_neg hp, if_pos hpf, hjoined, joinAll_of_subset habove']
      exact ih₂ hpath₂ hfound
    · have hjoined : joined p found = found ++ [p] := if_neg hpf
      -- While what is above `p` is walked, `p` is on the path; then it is closed itself.
      have hfound₁ : h.Closed (path ++ [p]) (found ++ [p]) := by
        intro n hmem hnpath m hreach
        simp only [List.mem_append, List.mem_singleton, not_or] at hmem hnpath ⊢
        exact .inl (hfound n (hmem.resolve_right hnpath.2) hnpath.1 m hreach)
      have hwhole : h.Unpruned [p] (p :: (above ++ [])) := .cons habove .nil
      have hfound₂ : h.Closed path (Hierarchy.joinAll above (found ++ [p])) := by
        have hclosed := hfound.joinAll hwhole
        rwa [List.append_nil, joinAll_cons, hjoined] at hclosed
      rw [walk, dif_neg hp, if_neg hpf, ih₁ hpath₁ hfound₁, hjoined]
      exact ih₂ hpath₂ hfound₂

/-- A name that no cycle is at or above has the ancestors that the unpruned walk from it lists, each
at its first place. There is one such walk. So the ancestors are the names that one or more parent
edges lead to, each once, and the name is not among them. -/
theorem ancestors_eq_eraseDups {name : String} (hname : ¬ h.ReachesCycle name) :
    ∃ names, h.Unpruned (h.parentsOf name) names ∧
      (∀ other, h.Unpruned (h.parentsOf name) other → other = names) ∧
      h.ancestors name = .ok names.eraseDups ∧ names.eraseDups.Nodup ∧
      (∀ n, n ∈ names.eraseDups ↔ TransGen h.Parent name n) ∧ name ∉ names.eraseDups := by
  have hparents : ∀ p ∈ h.parentsOf name, ¬ h.ReachesCycle p := fun p hp hcycle =>
    hname ((reachesCycle_iff_parent name).2 ⟨p, hp, hcycle⟩)
  obtain ⟨names, hn⟩ := (exists_unpruned_iff (h.parentsOf name)).2 hparents
  have hself : ∀ n ∈ names, n ∉ [name] := by
    rintro n hmem hn'
    obtain rfl := List.mem_singleton.1 hn'
    exact hn.not_mem_above hmem
  have hancestors : h.ancestors name = .ok names.eraseDups := by
    rw [ancestors, walk_of_unpruned hn hself (by simp [Closed]), joinAll_nil]
  refine ⟨names, hn, fun other hother => hother.unique hn, hancestors, nodup_eraseDups names,
    mem_ancestors_iff hancestors, ?_⟩
  rw [List.mem_eraseDups]
  exact hn.not_mem_above

/-! ### A diamond with a parent declared twice -/

/-- A class with two parents, of which the first is declared twice and has a parent that is no
class. -/
def repeatedDiamond : Hierarchy :=
  .ofEdges [("C", ["A", "B", "A"]), ("A", ["Thing", "Elsewhere"]), ("B", ["Thing"]), ("Thing", [])]

/-- The second way to `Thing` and the second declaration of `A` add nothing. -/
theorem ancestors_repeatedDiamond : ¬ repeatedDiamond.ReachesCycle "C" ∧
    repeatedDiamond.Unpruned (repeatedDiamond.parentsOf "C")
      ["A", "Thing", "Elsewhere", "B", "Thing", "A", "Thing", "Elsewhere"] ∧
    repeatedDiamond.ancestors "C" = .ok ["A", "Thing", "Elsewhere", "B"] := by
  have hthing : repeatedDiamond.Unpruned (repeatedDiamond.parentsOf "B") ["Thing"] := by
    have hend : repeatedDiamond.Unpruned (repeatedDiamond.parentsOf "Thing") [] := .nil
    exact (hend.cons .nil :)
  have hfirst :
      repeatedDiamond.Unpruned (repeatedDiamond.parentsOf "A") ["Thing", "Elsewhere"] := by
    have hend : repeatedDiamond.Unpruned (repeatedDiamond.parentsOf "Thing") [] := .nil
    have hunknown : repeatedDiamond.Unpruned (repeatedDiamond.parentsOf "Elsewhere") [] := .nil
    exact (hend.cons (hunknown.cons .nil) :)
  have hwalk : repeatedDiamond.Unpruned (repeatedDiamond.parentsOf "C")
      ["A", "Thing", "Elsewhere", "B", "Thing", "A", "Thing", "Elsewhere"] :=
    (hfirst.cons (hthing.cons (hfirst.cons .nil)) :)
  have hclean : ¬ repeatedDiamond.ReachesCycle "C" := by
    rw [reachesCycle_iff_parent]
    rintro ⟨p, hp, hcycle⟩
    exact hwalk.acyclic p hp hcycle
  obtain ⟨names, -, hunique, hancestors, -⟩ := ancestors_eq_eraseDups hclean
  rw [← hunique _ hwalk] at hancestors
  exact ⟨hclean, hwalk, hancestors⟩

end VocabPhp.Hierarchy
