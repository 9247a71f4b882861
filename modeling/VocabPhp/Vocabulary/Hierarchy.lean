import VocabPhp.Vocabulary.Basic

/-!
# The class hierarchy

A hierarchy gives the direct parents of class names. A name may have several parents, and names that
are parents but have none of their own end a line.

* `Hierarchy.ancestors`: the ancestors of a name, each once, in the order of a depth-first walk that
  lists a parent before that parent's own ancestors; or the cycle that the walk runs into.
* `Hierarchy.ofClasses`: the hierarchy of a namespace. A class that is a member of an enumeration
  has that as its last parent.

The walk ends because the names on its path are distinct: `length_filter_snoc_lt` says that one more
name on the path leaves fewer names of the hierarchy off it.
-/

namespace VocabPhp

/-- The direct parents of class names, in the order of their declaration. -/
structure Hierarchy where
  parents : Table (List String)
  deriving DecidableEq, Repr

/-- A cycle that the walk from a name runs into: the path to it, which ends in the name that is on
the path already. -/
structure Cycle where
  name : String
  path : List String
  deriving DecidableEq, Repr

/-- The text for a cycle. -/
def Cycle.message (c : Cycle) : String :=
  "class hierarchy cycle at `" ++ c.name ++ "`: " ++ " -> ".intercalate c.path

namespace Hierarchy

/-- The hierarchy without edges. -/
def empty : Hierarchy := ⟨∅⟩

instance : EmptyCollection Hierarchy := ⟨empty⟩

instance : Inhabited Hierarchy := ⟨empty⟩

/-- The hierarchy of names with their parents; of several lists for one name the last stays. -/
def ofEdges (edges : List (String × List String)) : Hierarchy := ⟨.ofList edges⟩

/-- The names of the direct parents of a class, as far as they lie in the namespace. -/
def parentNames (ns : Namespace) (c : ClassDecl) : List String :=
  c.superclasses.filterMap ns.localName? ++ (c.soleTag.bind ns.localName?).toList

/-- The classes of a table that lie in the namespace, in the order of their identifiers. -/
def namespaced (ns : Namespace) (classes : Table ClassDecl) : List ClassDecl :=
  classes.values.filter fun c => ns.contains c.id

/-- The hierarchy of the classes that lie in the namespace. -/
def ofClasses (ns : Namespace) (classes : Table ClassDecl) : Hierarchy :=
  ofEdges ((namespaced ns classes).map fun c => (c.name, parentNames ns c))

/-- The direct parents of a name; a name that the hierarchy does not know has none. -/
def parentsOf (h : Hierarchy) (name : String) : List String := (h.parents.find? name).getD []

/-- The names with parents of their own that are not on a path. -/
def offPath (h : Hierarchy) (path : List String) : List String :=
  h.parents.keys.filter fun k => k ∉ path

theorem parentsOf_eq_nil {h : Hierarchy} {name : String} (hk : name ∉ h.parents.keys) :
    h.parentsOf name = [] := by
  rw [Table.mem_keys_iff, Option.not_isSome_iff_eq_none] at hk
  rw [parentsOf, hk]
  rfl

/-- One more name on the path leaves fewer names off it. -/
theorem length_filter_snoc_lt {keys path : List String} {p : String} (hk : p ∈ keys)
    (hp : p ∉ path) :
    (keys.filter fun k => k ∉ path ++ [p]).length < (keys.filter fun k => k ∉ path).length := by
  induction keys with
  | nil => simp at hk
  | cons k ks ih =>
    have hle : (ks.filter fun k => k ∉ path ++ [p]).length ≤
        (ks.filter fun k => k ∉ path).length := by
      refine (List.Sublist.length_le ?_)
      have : (ks.filter fun k => k ∉ path ++ [p]) =
          (ks.filter fun k => k ∉ path).filter fun k => k ≠ p := by
        rw [List.filter_filter]
        congr 1
        funext x
        simp [Bool.and_comm]
      rw [this]
      exact List.filter_sublist
    by_cases hkp : k = p
    · subst hkp
      simpa [hp] using Nat.lt_succ_of_le (by simpa using hle)
    · have hmem : p ∈ ks := by simpa [Ne.symm hkp] using hk
      have := ih hmem
      by_cases hin : k ∈ path
      · simpa [hin, hkp] using this
      · simpa [hin, hkp] using this

/-- The step of the walk to a parent that is not on the path: fewer names are off the longer path,
or the parent has no parents and so no list left to walk. -/
theorem walk_measure {h : Hierarchy} {path : List String} {p : String} {ps : List String}
    (hp : p ∉ path) :
    Prod.Lex (· < ·) (· < ·) ((h.offPath (path ++ [p])).length, (h.parentsOf p).length)
      ((h.offPath path).length, (p :: ps).length) := by
  by_cases hk : p ∈ h.parents.keys
  · exact .left _ _ (length_filter_snoc_lt hk hp)
  · have hoff : h.offPath (path ++ [p]) = h.offPath path := by
      refine List.filter_congr fun k hmem => ?_
      have : k ≠ p := fun e => hk (e ▸ hmem)
      simp [this]
    rw [hoff, parentsOf_eq_nil hk]
    exact .right _ (Nat.succ_pos _)

/-- Walks the parents `ps` of the last name on `path`, after the ancestors in `found`. A parent that
has been found already adds nothing; one on the path closes a cycle. -/
def walk (h : Hierarchy) (path found : List String) :
    List String → Except Cycle (List String)
  | [] => .ok found
  | p :: ps =>
    if _onPath : p ∈ path then .error ⟨p, path ++ [p]⟩
    else if p ∈ found then walk h path found ps
    else
      match walk h (path ++ [p]) (found ++ [p]) (h.parentsOf p) with
      | .error c => .error c
      | .ok found => walk h path found ps
termination_by ps => ((h.offPath path).length, ps.length)
decreasing_by
  · exact .right _ (Nat.lt_succ_self _)
  · exact walk_measure _onPath
  · exact .right _ (Nat.lt_succ_self _)

/-- The ancestors of a name, each once, nearest lines first. -/
def ancestors (h : Hierarchy) (name : String) : Except Cycle (List String) :=
  walk h [name] [] (h.parentsOf name)

end Hierarchy

end VocabPhp
