import VocabPhp.Proofs.Cycles
import Mathlib.Data.List.Chain

/-!
# The path to a cycle

The walk from a name comes to an end on every hierarchy, on a cyclic one too. It fails exactly if a
cycle is at the name or above it, and what it reports then can be checked by hand: the path begins
with the name, each name on it is a direct parent of the one before, and only the last name has been
on the path before.

* `Hierarchy.Walks`: the walk as rules. `Hierarchy.walks_iff`: by these rules every walk comes to an
  end, with one result.
* `Hierarchy.IsPath`: what is on the path behind a walk, kept by `Hierarchy.IsPath.concat`.
* `Cycle.IsWitness`: a path that shows a cycle. `Hierarchy.isWitness_of_walk`: the path that a walk
  fails with is one.
* `Hierarchy.ancestors_cycle_iff`: when the walk from a name fails, and what it reports.
-/

namespace VocabPhp

/-- The path of a cycle leads from `name` along parent edges to the name of the cycle. That name is
on it twice, and no other name is. -/
structure Cycle.IsWitness (c : Cycle) (h : Hierarchy) (name : String) : Prop where
  head : c.path.head? = some name
  edges : c.path.IsChain h.Parent
  last : c.path.getLast? = some c.name
  twice : c.path.count c.name = 2
  once : ∀ n ∈ c.path, n ≠ c.name → c.path.count n = 1

namespace Hierarchy

variable {h : Hierarchy} {name : String}

/-! ## The walk comes to an end -/

/-- `Walks h path found ps r`: with `path` behind it and the names `found`, the walk of the parents
`ps` comes to an end with the result `r`. -/
inductive Walks (h : Hierarchy) :
    List String → List String → List String → Except Cycle (List String) → Prop
  | done {path found} : Walks h path found [] (.ok found)
  | closed {path found p ps} : p ∈ path → Walks h path found (p :: ps) (.error ⟨p, path ++ [p]⟩)
  | known {path found p ps r} : p ∉ path → p ∈ found → Walks h path found ps r →
      Walks h path found (p :: ps) r
  | failed {path found p ps c} : p ∉ path → p ∉ found →
      Walks h (path ++ [p]) (found ++ [p]) (h.parentsOf p) (.error c) →
      Walks h path found (p :: ps) (.error c)
  | next {path found p ps mid r} : p ∉ path → p ∉ found →
      Walks h (path ++ [p]) (found ++ [p]) (h.parentsOf p) (.ok mid) → Walks h path mid ps r →
      Walks h path found (p :: ps) r

variable {path found ps : List String}

/-- What the rules end with is the result of the walk. -/
theorem Walks.walk_eq {r : Except Cycle (List String)} (hw : h.Walks path found ps r) :
    walk h path found ps = r := by
  induction hw with
  | done => rw [walk]
  | closed hp => rw [walk, dif_pos hp]
  | known hp hfound _ ih => rw [walk, dif_neg hp, if_pos hfound, ih]
  | failed hp hfound _ ih => rw [walk, dif_neg hp, if_neg hfound, ih]
  | next hp hfound _ _ ih₁ ih₂ =>
    rw [walk, dif_neg hp, if_neg hfound, ih₁]
    exact ih₂

/-- The rules come to an end with the result of the walk. -/
theorem walks_walk (h : Hierarchy) (path found ps : List String) :
    h.Walks path found ps (walk h path found ps) := by
  fun_induction walk h path found ps with
  | case1 => exact .done
  | case2 path found p ps hp => exact .closed hp
  | case3 path found p ps hp hfound ih => exact .known hp hfound ih
  | case4 path found p ps hp hfound c hc ih => exact .failed hp hfound (hc ▸ ih)
  | case5 path found p ps hp hfound mid hmid ih₁ ih₂ => exact .next hp hfound (hmid ▸ ih₁) ih₂

/-- By the rules every walk comes to an end, with one result. -/
theorem walks_iff {r : Except Cycle (List String)} :
    h.Walks path found ps r ↔ walk h path found ps = r :=
  ⟨Walks.walk_eq, fun hr => hr ▸ walks_walk h path found ps⟩

/-! ## The path behind a walk -/

/-- The path behind a walk that began with `name`: parent edges lead along it, and it has no name
twice. -/
structure IsPath (h : Hierarchy) (name : String) (path : List String) : Prop where
  head : path.head? = some name
  edges : path.IsChain h.Parent
  nodup : path.Nodup

namespace IsPath

theorem single (h : Hierarchy) (name : String) : h.IsPath name [name] :=
  ⟨rfl, .singleton name, List.nodup_singleton name⟩

variable {p : String}

theorem head_concat (hpath : h.IsPath name path) : (path ++ [p]).head? = some name := by
  rw [List.head?_append, hpath.head, Option.some_or]

theorem edges_concat (hpath : h.IsPath name path) (hp : ∀ n ∈ path.getLast?, h.Parent n p) :
    (path ++ [p]).IsChain h.Parent := by
  refine hpath.edges.append (.singleton p) fun n hn q hq => ?_
  obtain rfl : p = q := by simpa using hq
  exact hp n hn

/-- A parent of the last name that is not on the path extends it. -/
theorem concat (hpath : h.IsPath name path) (hp : ∀ n ∈ path.getLast?, h.Parent n p)
    (hnew : p ∉ path) : h.IsPath name (path ++ [p]) where
  head := hpath.head_concat
  edges := hpath.edges_concat hp
  nodup := (List.perm_append_singleton p path).nodup_iff.2 (List.nodup_cons.2 ⟨hnew, hpath.nodup⟩)

/-- A parent of the last name that is on the path shows a cycle. -/
theorem isWitness (hpath : h.IsPath name path) (hp : ∀ n ∈ path.getLast?, h.Parent n p)
    (hmem : p ∈ path) : Cycle.IsWitness ⟨p, path ++ [p]⟩ h name where
  head := hpath.head_concat
  edges := hpath.edges_concat hp
  last := List.getLast?_concat
  twice := by simp [List.count_append, List.count_eq_one_of_mem hpath.nodup hmem]
  once := by
    intro n hn hne
    have hn : n ∈ path := by simpa [hne] using hn
    simp [List.count_append, List.count_eq_one_of_mem hpath.nodup hn, Ne.symm hne]

end IsPath

/-- The path that a walk fails with shows a cycle. The walk of the parents of the last name on its
path keeps this, because it goes on to the parents of a name that it has just put on the path. -/
theorem isWitness_of_walk {c : Cycle} (hw : walk h path found ps = .error c)
    (hpath : h.IsPath name path) (hps : ∀ n ∈ path.getLast?, ∀ p ∈ ps, h.Parent n p) :
    c.IsWitness h name := by
  fun_induction walk h path found ps with
  | case1 => cases hw
  | case2 path found p ps hp =>
    cases hw
    exact hpath.isWitness (fun n hn => hps n hn p List.mem_cons_self) hp
  | case3 path found p ps _ _ ih =>
    exact ih hw hpath fun n hn q hq => hps n hn q (List.mem_cons_of_mem _ hq)
  | case4 path found p ps hp _ e hmid ih =>
    cases hw
    have hp' : ∀ n ∈ path.getLast?, h.Parent n p := fun n hn => hps n hn p List.mem_cons_self
    refine ih hmid (hpath.concat hp' hp) fun n hn q hq => ?_
    obtain rfl : p = n := by simpa using hn
    exact hq
  | case5 path found p ps _ _ mid _ _ ih =>
    exact ih hw hpath fun n hn q hq => hps n hn q (List.mem_cons_of_mem _ hq)

/-- The path that there are no ancestors for begins with the name and shows a cycle. -/
theorem isWitness_of_ancestors {c : Cycle} (hc : h.ancestors name = .error c) :
    c.IsWitness h name := by
  refine isWitness_of_walk hc (.single h name) fun n hn p hp => ?_
  obtain rfl : name = n := by simpa using hn
  exact hp

/-- The walk from a name comes to an end, with one result. It fails exactly if a cycle is at the
name or above it, and then with a path that shows a cycle. -/
theorem ancestors_cycle_iff (h : Hierarchy) (name : String) :
    (∀ r, h.Walks [name] [] (h.parentsOf name) r ↔ h.ancestors name = r) ∧
      (h.ReachesCycle name ↔ ∃ c, h.ancestors name = .error c) ∧
      (∀ c, h.ancestors name = .error c → c.IsWitness h name) := by
  refine ⟨fun r => ?_, (exists_ancestors_error_iff name).symm, fun c hc => ?_⟩
  · exact walks_iff
  · exact isWitness_of_ancestors hc

/-! ### A cycle above a line that has been walked -/

/-- Two lines lead up from `Start`. The first ends, the second comes to it again and then runs into
a cycle. -/
def tangled : Hierarchy :=
  .ofEdges [("Start", ["Side", "Low"]), ("Side", ["Top"]), ("Low", ["Side", "High"]),
    ("High", ["Low"])]

/-- The line that was walked before is passed over, and the cycle behind it is found. -/
theorem ancestors_tangled :
    tangled.ancestors "Start" = .error ⟨"Low", ["Start", "Low", "High", "Low"]⟩ ∧
      tangled.ReachesCycle "Start" ∧
      Cycle.IsWitness ⟨"Low", ["Start", "Low", "High", "Low"]⟩ tangled "Start" := by
  have hstart : tangled.parentsOf "Start" = ["Side", "Low"] := by decide +kernel
  have hside : tangled.parentsOf "Side" = ["Top"] := by decide +kernel
  have htop : tangled.parentsOf "Top" = [] := by decide +kernel
  have hlow : tangled.parentsOf "Low" = ["Side", "High"] := by decide +kernel
  have hhigh : tangled.parentsOf "High" = ["Low"] := by decide +kernel
  have hwalk : tangled.ancestors "Start" = .error ⟨"Low", ["Start", "Low", "High", "Low"]⟩ := by
    simp [ancestors, walk, hstart, hside, htop, hlow, hhigh]
  obtain ⟨-, hreaches, hwitness⟩ := ancestors_cycle_iff tangled "Start"
  exact ⟨hwalk, hreaches.2 ⟨_, hwalk⟩, hwitness _ hwalk⟩

end Hierarchy

end VocabPhp
