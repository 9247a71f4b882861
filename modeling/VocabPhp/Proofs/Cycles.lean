import VocabPhp.Proofs.Inheritance

/-!
# Cycles of a hierarchy

A name that parent edges lead back to is on a cycle. The walk from a name stops at a cycle exactly
if it can reach one. A run walks from every class that it shows before it saves anything, and every
name on a cycle is that of a class, so no cycle is missed.

* `Hierarchy.Cyclic`, `Hierarchy.ReachesCycle`: cycles anywhere, and above a name.
* `Hierarchy.walk_acyclic`, `Hierarchy.walk_error`: a walk that ends has met no cycle, and one that
  fails has met one.
* `Hierarchy.exists_ancestors_error_iff`, `Hierarchy.exists_ancestors_ok_iff`: names have ancestors
  exactly if no cycle is above them.
* `Plan.ofVocabulary_eq_error_iff`: the cycle that there is no plan for is that of the first class
  with one.
* `generate_cycle_atomic`: a run on a cyclic hierarchy saves nothing, and one on any other hierarchy
  does not end with a cycle.
-/

namespace VocabPhp

open Relation

namespace Hierarchy

variable {h : Hierarchy}

/-- A cycle of parent edges is at the name or above it. -/
def ReachesCycle (h : Hierarchy) (name : String) : Prop :=
  ∃ n, ReflTransGen h.Parent name n ∧ TransGen h.Parent n n

/-- Parent edges lead from some name back to it. -/
def Cyclic (h : Hierarchy) : Prop := ∃ n, TransGen h.Parent n n

/-- A cycle is reached from a name exactly if it is reached from one of the parents: the way round a
cycle begins with a parent, too. -/
theorem reachesCycle_iff_parent (name : String) :
    h.ReachesCycle name ↔ ∃ p, h.Parent name p ∧ h.ReachesCycle p := by
  constructor
  · rintro ⟨n, hreach, hcycle⟩
    rcases ReflTransGen.cases_head hreach with rfl | ⟨p, hp, hpn⟩
    · obtain ⟨p, hp, hback⟩ := TransGen.head'_iff.1 hcycle
      exact ⟨p, hp, name, hback, hcycle⟩
    · exact ⟨p, hp, n, hpn, hcycle⟩
  · rintro ⟨p, hp, n, hreach, hcycle⟩
    exact ⟨n, .head hp hreach, hcycle⟩

/-- A walk that ends has met no cycle. Of the names found before it those on the path are not walked
to their end yet, so nothing is known about them. -/
theorem walk_acyclic {path found ps out : List String} (hw : walk h path found ps = .ok out)
    (hfound : ∀ n ∈ found, n ∈ path ∨ ¬ h.ReachesCycle n) :
    (∀ p ∈ ps, ¬ h.ReachesCycle p) ∧ ∀ n ∈ out, n ∈ path ∨ ¬ h.ReachesCycle n := by
  fun_induction walk h path found ps generalizing out with
  | case1 path found =>
    cases hw
    exact ⟨by simp, hfound⟩
  | case2 => cases hw
  | case3 path found p ps hpath hp ih =>
    obtain ⟨hps, hout⟩ := ih hw hfound
    have hclean : ¬ h.ReachesCycle p := (hfound p hp).resolve_left hpath
    refine ⟨fun q hq => ?_, hout⟩
    rcases List.mem_cons.1 hq with rfl | hq
    · exact hclean
    · exact hps q hq
  | case4 => cases hw
  | case5 path found p ps hpath hp mid hmid ih₁ ih₂ =>
    have hfound' : ∀ n ∈ found ++ [p], n ∈ path ++ [p] ∨ ¬ h.ReachesCycle n := by
      intro n hn
      rcases List.mem_append.1 hn with hn | hn
      · rcases hfound n hn with hn | hn
        · exact .inl (List.mem_append_left _ hn)
        · exact .inr hn
      · exact .inl (List.mem_append_right _ hn)
    obtain ⟨hparents, hmid'⟩ := ih₁ hmid hfound'
    have hclean : ¬ h.ReachesCycle p := by
      rw [reachesCycle_iff_parent]
      rintro ⟨q, hq, hcycle⟩
      exact hparents q hq hcycle
    -- The line of `p` is walked to its end, so `p` leaves the path and is known to be clean.
    have hfound'' : ∀ n ∈ mid, n ∈ path ∨ ¬ h.ReachesCycle n := by
      intro n hn
      rcases hmid' n hn with hn | hn
      · rcases List.mem_append.1 hn with hn | hn
        · exact .inl hn
        · obtain rfl := List.mem_singleton.1 hn
          exact .inr hclean
      · exact .inr hn
    obtain ⟨hps, hout⟩ := ih₂ hw hfound''
    refine ⟨fun q hq => ?_, hout⟩
    rcases List.mem_cons.1 hq with rfl | hq
    · exact hclean
    · exact hps q hq

/-- A walk that fails has met a cycle, if parent edges lead along its path to what it walks. -/
theorem walk_error {path found ps : List String} {c : Cycle}
    (hw : walk h path found ps = .error c)
    (hpath : ∀ n ∈ path, ∀ p ∈ ps, TransGen h.Parent n p) : ∃ p ∈ ps, h.ReachesCycle p := by
  fun_induction walk h path found ps generalizing c with
  | case1 => cases hw
  | case2 path found p ps hp =>
    exact ⟨p, List.mem_cons_self, p, .refl, hpath p hp p List.mem_cons_self⟩
  | case3 path found p ps _ _ ih =>
    obtain ⟨q, hq, hcycle⟩ := ih hw fun n hn q hq => hpath n hn q (List.mem_cons_of_mem _ hq)
    exact ⟨q, List.mem_cons_of_mem _ hq, hcycle⟩
  | case4 path found p ps _ _ e hmid ih =>
    -- Along the path that `p` extends, parent edges lead on to the parents of `p`.
    have hpath' : ∀ n ∈ path ++ [p], ∀ q ∈ h.parentsOf p, TransGen h.Parent n q := by
      intro n hn q hq
      rcases List.mem_append.1 hn with hn | hn
      · exact (hpath n hn p List.mem_cons_self).tail hq
      · obtain rfl := List.mem_singleton.1 hn
        exact .single hq
    obtain ⟨q, hq, hcycle⟩ := ih hmid hpath'
    exact ⟨p, List.mem_cons_self, (reachesCycle_iff_parent p).2 ⟨q, hq, hcycle⟩⟩
  | case5 path found p ps _ _ mid _ _ ih =>
    obtain ⟨q, hq, hcycle⟩ := ih hw fun n hn q hq => hpath n hn q (List.mem_cons_of_mem _ hq)
    exact ⟨q, List.mem_cons_of_mem _ hq, hcycle⟩

/-- The walk from a name fails exactly if a cycle is at the name or above it. -/
theorem exists_ancestors_error_iff (name : String) :
    (∃ c, h.ancestors name = .error c) ↔ h.ReachesCycle name := by
  rw [reachesCycle_iff_parent]
  constructor
  · rintro ⟨c, hc⟩
    refine walk_error hc fun n hn p hp => ?_
    obtain rfl := List.mem_singleton.1 hn
    exact .single hp
  · rintro ⟨p, hp, hcycle⟩
    rcases ha : h.ancestors name with c | names
    · exact ⟨c, rfl⟩
    · exact absurd hcycle ((walk_acyclic ha (by simp)).1 p hp)

/-- A name has ancestors exactly if no cycle is at it or above it. -/
theorem exists_ancestors_ok_iff (name : String) :
    (∃ names, h.ancestors name = .ok names) ↔ ¬ h.ReachesCycle name := by
  rw [← exists_ancestors_error_iff]
  rcases h.ancestors name with c | names <;> simp

end Hierarchy

variable {σ ε : Type} {s : Settings} {v : Vocabulary} {sink : Sink σ ε} {st : σ}

/-- A name on a cycle is that of a class, because only classes have parents. -/
theorem Vocabulary.exists_reachesCycle_of_cyclic (hcycle : (v.hierarchy s).Cyclic) :
    ∃ c ∈ v.namespaced s, (v.hierarchy s).ReachesCycle c.name := by
  obtain ⟨n, hn⟩ := hcycle
  obtain ⟨p, hp, -⟩ := TransGen.head'_iff.1 hn
  obtain ⟨c, howns, -⟩ := (mem_parentsOf_hierarchy_iff n p).1 hp
  obtain rfl := howns.name_eq
  exact ⟨c, howns.mem, c.name, .refl, hn⟩

/-- There is no plan exactly for the cycle of the first class whose name reaches one. -/
theorem Plan.ofVocabulary_eq_error_iff (s : Settings) (v : Vocabulary) (cycle : Cycle) :
    ofVocabulary s v = .error cycle ↔ ∃ before c after,
      (v.selected s).namespaced s = before ++ c :: after ∧
      (∀ b ∈ before, ¬ ((v.selected s).hierarchy s).ReachesCycle b.name) ∧
      ((v.selected s).hierarchy s).ancestors c.name = .error cycle := by
  have hplan : ofVocabulary s v = .error cycle ↔
      chains ((v.selected s).hierarchy s) ((v.selected s).namespaced s) = .error cycle := by
    rw [ofVocabulary]
    rcases chains ((v.selected s).hierarchy s) ((v.selected s).namespaced s) with c | chained <;>
      simp
  have hbefore (b : ClassDecl) :
      (∃ chained : Chained, ∃ names, ((v.selected s).hierarchy s).ancestors b.name = .ok names ∧
        chained = ⟨b, b.name :: names⟩) ↔ ¬ ((v.selected s).hierarchy s).ReachesCycle b.name := by
    rw [← Hierarchy.exists_ancestors_ok_iff]
    constructor
    · rintro ⟨-, names, hnames, -⟩
      exact ⟨names, hnames⟩
    · rintro ⟨names, hnames⟩
      exact ⟨_, names, hnames, rfl⟩
  have hchained (c : ClassDecl) :
      (((v.selected s).hierarchy s).ancestors c.name).map
          (fun names => Chained.mk c (c.name :: names)) = .error cycle ↔
        ((v.selected s).hierarchy s).ancestors c.name = .error cycle := by
    rcases ((v.selected s).hierarchy s).ancestors c.name with e | names <;> simp [Except.map]
  rw [hplan, (traversal_chains _).eq_error_iff (fun _ => chained_eq_ok_iff _) 0]
  simp only [hbefore, hchained]

/-- Without a plan a run saves nothing. -/
theorem generate_of_plan_error {cycle : Cycle} (h : Plan.ofVocabulary s v = .error cycle)
    (sink : Sink σ ε) (st : σ) :
    generate s v sink st = (.error (.cycle cycle), st) ∧ offers s v sink st = [] := by
  refine ⟨by rw [generate_eq, h], ?_⟩
  rw [offers, generate_eq, h]

/-- What a sink refuses is one of the files that it is offered. -/
theorem exists_save_of_saveAll_error {files : List Artifact} {e : GenerationError ε}
    (h : (saveAll sink files st).1 = .error e) : ∃ a ∈ files, ∃ cause, e = .save a.name cause := by
  induction files generalizing st with
  | nil => cases h
  | cons a files ih =>
    rw [saveAll] at h
    rcases hs : sink a st with ⟨cause | _, next⟩
    · rw [hs] at h
      cases h
      exact ⟨a, List.mem_cons_self, cause, rfl⟩
    · rw [hs] at h
      obtain ⟨b, hb, cause, he⟩ := ih h
      exact ⟨b, List.mem_cons_of_mem _ hb, cause, he⟩

/-- With a plan a run does not end with a cycle. -/
theorem generate_ne_cycle {plan : Plan} (h : Plan.ofVocabulary s v = .ok plan) (sink : Sink σ ε)
    (st : σ) (cycle : Cycle) : (generate s v sink st).1 ≠ .error (.cycle cycle) := by
  rw [generate_eq, h]
  rcases hs : saveAll sink plan.artifacts st with ⟨e | _, next⟩
  · obtain ⟨a, -, cause, rfl⟩ := exists_save_of_saveAll_error (congrArg Prod.fst hs)
    simp [hs]
  · simp [hs]

/-- A hierarchy with a cycle anywhere makes a run fail with the cycle that the first class whose
name reaches one runs into. Nothing has been offered to the sink then, and its state is the one
before. A hierarchy without a cycle never makes a run fail so, and with a sink that refuses nothing
the run succeeds. -/
theorem generate_cycle_atomic (s : Settings) (v : Vocabulary) (sink : Sink σ ε) (st : σ) :
    (((v.selected s).hierarchy s).Cyclic → ∃ before c after cycle,
      (v.selected s).namespaced s = before ++ c :: after ∧
      (∀ b ∈ before, ¬ ((v.selected s).hierarchy s).ReachesCycle b.name) ∧
      ((v.selected s).hierarchy s).ReachesCycle c.name ∧
      ((v.selected s).hierarchy s).ancestors c.name = .error cycle ∧
      generate s v sink st = (.error (.cycle cycle), st) ∧ offers s v sink st = []) ∧
    (¬ ((v.selected s).hierarchy s).Cyclic →
      (∀ cycle, (generate s v sink st).1 ≠ .error (.cycle cycle)) ∧
      ((∀ a st, (sink a st).1 = .ok ()) →
        ∃ report st', generate s v sink st = (.ok report, st'))) := by
  constructor
  · intro hcyclic
    obtain ⟨c, hc, hreach⟩ := Vocabulary.exists_reachesCycle_of_cyclic hcyclic
    rcases hplan : Plan.ofVocabulary s v with cycle | plan
    · obtain ⟨before, c, after, hcut, hbefore, hcycle⟩ :=
        (Plan.ofVocabulary_eq_error_iff s v cycle).1 hplan
      have hreach := (Hierarchy.exists_ancestors_error_iff c.name).1 ⟨cycle, hcycle⟩
      obtain ⟨hrun, hoffers⟩ := generate_of_plan_error hplan sink st
      exact ⟨before, c, after, cycle, hcut, hbefore, hreach, hcycle, hrun, hoffers⟩
    · -- A plan would have walked from all classes, this one included.
      have hnames := (Plan.exists_ofVocabulary_iff s v).1 ⟨plan, hplan⟩ c hc
      exact absurd hreach ((Hierarchy.exists_ancestors_ok_iff c.name).1 hnames)
  · intro hacyclic
    have hnames : ∀ c ∈ (v.selected s).namespaced s,
        ∃ names, ((v.selected s).hierarchy s).ancestors c.name = .ok names := by
      intro c _
      rw [Hierarchy.exists_ancestors_ok_iff]
      rintro ⟨n, -, hcycle⟩
      exact hacyclic ⟨n, hcycle⟩
    obtain ⟨plan, hplan⟩ := (Plan.exists_ofVocabulary_iff s v).2 hnames
    exact ⟨generate_ne_cycle hplan sink st, fun hsink => exists_generate_eq_ok hsink hnames st⟩

/-! ### A cycle above the second class -/

/-- A class without parents, one below a cycle, and the two classes on it. -/
def circling : Vocabulary where
  classes := .ofList [
    ("schema:Alone", plainClass "schema:Alone" "Alone" []),
    ("schema:Below", plainClass "schema:Below" "Below" ["schema:Round"]),
    ("schema:Round", plainClass "schema:Round" "Round" ["schema:Square"]),
    ("schema:Square", plainClass "schema:Square" "Square" ["schema:Round"])]
  attached := ∅
  members := ∅
  superseded := ∅

/-- The class below the cycle is the first to run into it. -/
theorem generate_cycle_atomic_circling :
    generate (ε := Empty) {} circling Shelf.sink ∅ =
        (.error (.cycle ⟨"Round", ["Below", "Round", "Square", "Round"]⟩), ∅) ∧
      offers (ε := Empty) {} circling Shelf.sink ∅ = [] := by
  have hclasses : (circling.namespaced {}).map ClassDecl.name =
      ["Alone", "Below", "Round", "Square"] := by decide +kernel
  have halone : (circling.hierarchy {}).parentsOf "Alone" = [] := by decide +kernel
  have hbelow : (circling.hierarchy {}).parentsOf "Below" = ["Round"] := by decide +kernel
  have hround : (circling.hierarchy {}).parentsOf "Round" = ["Square"] := by decide +kernel
  have hsquare : (circling.hierarchy {}).parentsOf "Square" = ["Round"] := by decide +kernel
  have hcycle : TransGen (circling.hierarchy {}).Parent "Round" "Round" :=
    .head (b := "Square") (by simp [Hierarchy.Parent, hround])
      (.single (by simp [Hierarchy.Parent, hsquare]))
  have hreach : (circling.hierarchy {}).ReachesCycle "Below" :=
    ⟨"Round", .single (by simp [Hierarchy.Parent, hbelow]), hcycle⟩
  have hfree : ¬ (circling.hierarchy {}).ReachesCycle "Alone" := by
    rw [Hierarchy.reachesCycle_iff_parent]
    simp [Hierarchy.Parent, halone]
  obtain ⟨before, c, after, cycle, hcut, hbefore, hc, hancestors, hrun, hoffers⟩ :=
    (generate_cycle_atomic (ε := Empty) {} circling Shelf.sink ∅).1 ⟨"Round", hcycle⟩
  have hnames := hclasses
  rw [show circling.namespaced {} = before ++ c :: after from hcut] at hnames
  have hname : c.name = "Below" := by
    rcases before with _ | ⟨b, _ | ⟨b', before⟩⟩
    · obtain ⟨hname, -⟩ := List.cons.inj hnames
      exact absurd (hname ▸ hc) hfree
    · simp only [List.cons_append, List.nil_append, List.map_cons, List.cons.injEq] at hnames
      exact hnames.2.1
    · simp only [List.cons_append, List.map_cons, List.cons.injEq] at hnames
      exact absurd (hnames.2.1 ▸ hreach) (hbefore b' (by simp))
  have hwalk : (circling.hierarchy {}).ancestors "Below" =
      .error ⟨"Round", ["Below", "Round", "Square", "Round"]⟩ := by
    simp [Hierarchy.ancestors, Hierarchy.walk, hbelow, hround, hsquare]
  have hselected : (circling.selected {}).hierarchy {} = circling.hierarchy {} := rfl
  rw [hname, hselected, hwalk] at hancestors
  cases hancestors
  exact ⟨hrun, hoffers⟩

end VocabPhp
