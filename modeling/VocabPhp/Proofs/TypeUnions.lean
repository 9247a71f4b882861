import VocabPhp.Model.Field
import VocabPhp.Proofs.Recording

/-!
# The types of a field

A field names the types of its values twice: by the local names of its ranges, and as a union of PHP
types. The ranges are taken one by one, and each puts its type into one of two groups: the
primitives of scalar ranges, and the other ranges. Each group holds a type once, where it comes
first. As a declaration is continued, both groups only grow at their ends.

* `FirstOccurrences`: a list without its repetitions, in the order of what comes first.
* `FirstOccurrences.concat`: how it goes on.
* `Php.Grouped`, `Php.Grouped.add`: what the two groups hold, and that one more range keeps to it.
* `Php.grouped_typeGroups`, `Php.exists_types_eq`: the groups of all ranges, also with further ones.
* `Php.mem_types_iff`: every range has its type in the union, and every type has a range.
* `Field.ofProperty_types`: the ranges and types of a field.
-/

namespace VocabPhp

open Php (addType)

/-- `FirstOccurrences xs ys`: the list `ys` holds what `xs` holds, each item once and in the order
of their first places in `xs`. -/
structure FirstOccurrences (xs ys : List String) : Prop where
  mem_iff : ∀ x, x ∈ ys ↔ x ∈ xs
  nodup : ys.Nodup
  order : ys.Pairwise fun a b => xs.idxOf a < xs.idxOf b

/-- A further item comes last if it is a new one. -/
theorem FirstOccurrences.concat {xs ys : List String} (h : FirstOccurrences xs ys) (x : String) :
    FirstOccurrences (xs ++ [x]) (addType x ys) := by
  have hplace {a : String} (ha : a ∈ ys) : (xs ++ [x]).idxOf a = xs.idxOf a :=
    List.idxOf_append_of_mem ((h.mem_iff a).1 ha)
  have horder : ys.Pairwise fun a b => (xs ++ [x]).idxOf a < (xs ++ [x]).idxOf b :=
    h.order.imp_of_mem fun ha hb hlt => by rwa [hplace ha, hplace hb]
  refine ⟨fun y => ?mem, Vocabulary.nodup_joined h.nodup, ?order⟩
  case mem =>
    unfold addType
    split
    · next hx =>
      rw [h.mem_iff, List.mem_append, List.mem_singleton]
      exact ⟨.inl, Or.rec id fun heq => heq ▸ (h.mem_iff x).1 hx⟩
    · simp [h.mem_iff]
  case order =>
    unfold addType
    split
    · exact horder
    · next hx =>
      refine List.pairwise_append.2 ⟨horder, List.pairwise_singleton _ _, fun a ha b hb => ?_⟩
      obtain rfl := List.mem_singleton.1 hb
      rw [hplace ha, List.idxOf_append_of_notMem fun hxs => hx ((h.mem_iff b).2 hxs)]
      exact Nat.lt_add_right _ (List.idxOf_lt_length_of_mem ((h.mem_iff a).1 ha))

namespace Php

theorem exists_addType_eq (type : String) (group : List String) :
    ∃ new, addType type group = group ++ new := by
  unfold addType
  split
  · exact ⟨[], (List.append_nil _).symm⟩
  · exact ⟨[type], rfl⟩

/-! ## One range after the other -/

/-- The groups of the types of ranges: the primitives of scalar ranges, and the other ranges. -/
structure Grouped (ranges primitives others : List String) : Prop where
  primitives : FirstOccurrences (ranges.filterMap primitive?) primitives
  others : FirstOccurrences (ranges.filter fun r => (primitive? r).isNone) others

/-- One more range keeps both groups as they should be. Its type goes to one of them. -/
theorem Grouped.add {ranges : List String} {g : TypeGroups}
    (h : Grouped ranges g.primitives g.others) (r : String) :
    Grouped (ranges ++ [r]) (g.add r).primitives (g.add r).others := by
  unfold TypeGroups.add
  cases hr : primitive? r with
  | some primitive =>
    refine ⟨?_, ?_⟩
    · rw [List.filterMap_append, List.filterMap_cons_some hr]
      exact h.primitives.concat primitive
    · rw [List.filter_append, List.filter_singleton, hr]
      simpa using h.others
  | none =>
    refine ⟨?_, ?_⟩
    · rw [List.filterMap_append, List.filterMap_cons_none hr]
      simpa using h.primitives
    · rw [List.filter_append, List.filter_singleton, hr]
      exact h.others.concat r

/-- The loop over all ranges groups their types. -/
theorem grouped_typeGroups (ranges : List String) :
    Grouped ranges (typeGroups ranges).primitives (typeGroups ranges).others := by
  induction ranges using List.reverseRecOn with
  | nil =>
    have hnil : FirstOccurrences [] [] := ⟨fun _ => Iff.rfl, .nil, .nil⟩
    exact ⟨hnil, hnil⟩
  | append_singleton ranges r ih =>
    rw [typeGroups, List.foldl_concat]
    exact ih.add r

/-- A range adds to the ends of the groups only. -/
theorem TypeGroups.exists_add_eq (g : TypeGroups) (r : String) : ∃ primitives others,
    g.add r = ⟨g.primitives ++ primitives, g.others ++ others⟩ := by
  unfold add
  cases primitive? r with
  | some primitive =>
    obtain ⟨new, hnew⟩ := exists_addType_eq primitive g.primitives
    exact ⟨new, [], by simp only [hnew, List.append_nil]⟩
  | none =>
    obtain ⟨new, hnew⟩ := exists_addType_eq r g.others
    exact ⟨[], new, by simp only [hnew, List.append_nil]⟩

/-- So do all further ranges. -/
theorem exists_typeGroups_append (ranges more : List String) : ∃ primitives others,
    typeGroups (ranges ++ more) =
      ⟨(typeGroups ranges).primitives ++ primitives, (typeGroups ranges).others ++ others⟩ := by
  induction more using List.reverseRecOn with
  | nil => exact ⟨[], [], by simp⟩
  | append_singleton more r ih =>
    obtain ⟨primitives, others, hgroups⟩ := ih
    obtain ⟨primitives', others', hadd⟩ := (typeGroups (ranges ++ more)).exists_add_eq r
    refine ⟨primitives ++ primitives', others ++ others', ?_⟩
    have hlast : typeGroups (ranges ++ (more ++ [r])) = (typeGroups (ranges ++ more)).add r := by
      rw [typeGroups, ← List.append_assoc, List.foldl_concat]
      rfl
    rw [hlast, hadd, hgroups, List.append_assoc, List.append_assoc]

/-! ## The union -/

/-- The types of ranges are their groups, and with further ranges both groups go on. -/
theorem exists_types_eq (ranges : List String) : ∃ primitives others,
    types ranges = primitives ++ others ∧ Grouped ranges primitives others ∧
    ∀ more, ∃ primitives' others',
      types (ranges ++ more) = (primitives ++ primitives') ++ (others ++ others') ∧
        Grouped (ranges ++ more) (primitives ++ primitives') (others ++ others') := by
  refine ⟨_, _, rfl, grouped_typeGroups ranges, fun more => ?_⟩
  obtain ⟨primitives', others', hgroups⟩ := exists_typeGroups_append ranges more
  have hgrouped := grouped_typeGroups (ranges ++ more)
  rw [hgroups] at hgrouped
  exact ⟨primitives', others', by rw [types, hgroups], hgrouped⟩

/-- Every range has its type in the union, the primitive of a scalar range and else the range
itself, and there are no other types in it. -/
theorem mem_types_iff (ranges : List String) (type : String) :
    type ∈ types ranges ↔ ∃ r ∈ ranges, type = (primitive? r).getD r := by
  obtain ⟨hprimitives, hothers⟩ := grouped_typeGroups ranges
  rw [types, List.mem_append, hprimitives.mem_iff, hothers.mem_iff, List.mem_filterMap,
    List.mem_filter]
  constructor
  · rintro (⟨r, hr, hprimitive⟩ | ⟨hr, hnone⟩)
    · exact ⟨r, hr, by rw [hprimitive]; rfl⟩
    · exact ⟨type, hr, by rw [Option.isNone_iff_eq_none.1 hnone]; rfl⟩
  · rintro ⟨r, hr, rfl⟩
    cases hprimitive : primitive? r with
    | some p => exact .inl ⟨r, hr, hprimitive⟩
    | none => exact .inr ⟨hr, by simp [hprimitive]⟩

end Php

/-- Behind the qualifier of the namespace, local names are the identifiers in the namespace. -/
theorem Namespace.map_term_filterMap_localName? (ns : Namespace) (ids : List String) :
    (ids.filterMap ns.localName?).map ns.term = ids.filter ns.contains := by
  induction ids with
  | nil => rfl
  | cons id ids ih =>
    cases hname : ns.localName? id with
    | none =>
      have hforeign : ¬ ns.contains id = true := by
        rw [← ns.localName?_isSome, hname]
        exact Bool.false_ne_true
      rw [List.filterMap_cons_none hname, List.filter_cons_of_neg hforeign, ih]
    | some name =>
      have hlocal : ns.contains id = true := by
        rw [← ns.localName?_isSome, hname]
        rfl
      rw [List.filterMap_cons_some hname, List.map_cons, List.filter_cons_of_pos hlocal, ih,
        ← (ns.localName?_eq_some_iff id name).1 hname]

/-- The ranges of a field are the references in the namespace, each by its local name and in the
order of the declaration. Its types are those of its ranges, the primitives of scalar ranges before
the other ranges, and in each of these two groups each type once, in the order in which they come
first. References that are declared behind these add to the ends of the ranges and of both
groups. -/
theorem Field.ofProperty_types (ns : Namespace) (p : PropertyDecl) :
    (ofProperty ns p).ranges.map ns.term = p.ranges.filter ns.contains ∧
    (∀ type, type ∈ (ofProperty ns p).phpTypes ↔
      ∃ r ∈ (ofProperty ns p).ranges, type = (Php.primitive? r).getD r) ∧
    ∃ primitives others, (ofProperty ns p).phpTypes = primitives ++ others ∧
      Php.Grouped (ofProperty ns p).ranges primitives others ∧
      ∀ more, ∃ ranges' primitives' others',
        (ofProperty ns { p with ranges := p.ranges ++ more }).ranges =
          (ofProperty ns p).ranges ++ ranges' ∧
        (ofProperty ns { p with ranges := p.ranges ++ more }).phpTypes =
          (primitives ++ primitives') ++ (others ++ others') ∧
        Php.Grouped ((ofProperty ns p).ranges ++ ranges')
          (primitives ++ primitives') (others ++ others') := by
  obtain ⟨primitives, others, htypes, hgrouped, hmore⟩ :=
    Php.exists_types_eq (p.ranges.filterMap ns.localName?)
  refine ⟨ns.map_term_filterMap_localName? p.ranges, Php.mem_types_iff _, primitives, others,
    htypes, hgrouped, fun more => ?_⟩
  obtain ⟨primitives', others', htypes', hgrouped'⟩ := hmore (more.filterMap ns.localName?)
  refine ⟨more.filterMap ns.localName?, primitives', others', List.filterMap_append, ?_, hgrouped'⟩
  exact (congrArg Php.types List.filterMap_append).trans htypes'

end VocabPhp
