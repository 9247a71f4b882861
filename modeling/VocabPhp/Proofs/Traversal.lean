import Mathlib.Data.List.Forall2

/-!
# Traversals that stop at the first refusal

A traversal treats the items of a list one after the other and stops with the first error.

* `Traversal.eq_ok_iff`: it succeeds exactly with the results of all items.
* `Traversal.eq_error_iff`: it fails exactly with the error of the first item that is refused.
* `Traversal.exists_eq_ok_iff`: it succeeds exactly if every item has a result.
-/

namespace VocabPhp

variable {α β ε : Type}

/-- `go` treats every item of a list by `f`, which is told the place of the item, counted from the
one where the list begins. -/
structure Traversal (f : Nat → α → Except ε β) (go : Nat → List α → Except ε (List β)) : Prop where
  nil (i : Nat) : go i [] = .ok []
  cons (i : Nat) (a : α) (as : List α) : go i (a :: as) =
    match f i a with
    | .error e => .error e
    | .ok b =>
      match go (i + 1) as with
      | .error e => .error e
      | .ok bs => .ok (b :: bs)

/-- A list is cut at its head or at an item of its tail. -/
theorem exists_cons_eq_append_iff {a : α} {as : List α} {P : List α → α → Prop} :
    (∃ before x after, a :: as = before ++ x :: after ∧ P before x) ↔
      P [] a ∨ ∃ before x after, as = before ++ x :: after ∧ P (a :: before) x := by
  constructor
  · rintro ⟨before, x, after, has, hP⟩
    cases before with
    | nil =>
      obtain ⟨rfl, -⟩ := List.cons.inj has
      exact .inl hP
    | cons y before =>
      obtain ⟨rfl, rfl⟩ := List.cons.inj has
      exact .inr ⟨before, x, after, rfl, hP⟩
  · rintro (hP | ⟨before, x, after, rfl, hP⟩)
    · exact ⟨[], a, as, rfl, hP⟩
    · exact ⟨a :: before, x, after, rfl, hP⟩

/-- Items that are related to images are related to what these are images of. -/
theorem forall₂_exists_iff {γ : Type} {R : α → β → Prop} {g : β → γ} {as : List α} {cs : List γ} :
    List.Forall₂ (fun a c => ∃ b, R a b ∧ c = g b) as cs ↔
      ∃ bs, List.Forall₂ R as bs ∧ cs = bs.map g := by
  induction as generalizing cs with
  | nil => simp
  | cons a as ih =>
    simp only [List.forall₂_cons_left_iff, ih]
    constructor
    · rintro ⟨-, -, ⟨b, hb, rfl⟩, ⟨bs, hbs, rfl⟩, rfl⟩
      exact ⟨b :: bs, ⟨b, bs, hb, hbs, rfl⟩, rfl⟩
    · rintro ⟨-, ⟨b, bs, hb, hbs, rfl⟩, rfl⟩
      exact ⟨g b, bs.map g, ⟨b, hb, rfl⟩, ⟨bs, hbs, rfl⟩, rfl⟩

namespace Traversal

variable {f : Nat → α → Except ε β} {go : Nat → List α → Except ε (List β)} {R : α → β → Prop}

theorem cons_of_error (ht : Traversal f go) {i : Nat} {a : α} {e : ε} (h : f i a = .error e)
    (as : List α) : go i (a :: as) = .error e := by
  rw [ht.cons, h]

theorem cons_eq_ok_iff (ht : Traversal f go) (i : Nat) (a : α) (as : List α) (bs : List β) :
    go i (a :: as) = .ok bs ↔ ∃ b rest, f i a = .ok b ∧ go (i + 1) as = .ok rest ∧
      bs = b :: rest := by
  rw [ht.cons]
  rcases f i a with e | b
  · simp
  · rcases go (i + 1) as with e | rest <;> simp [eq_comm]

theorem cons_eq_error_iff (ht : Traversal f go) {i : Nat} {a : α} {b : β} (h : f i a = .ok b)
    (as : List α) (e : ε) : go i (a :: as) = .error e ↔ go (i + 1) as = .error e := by
  rw [ht.cons, h]
  rcases go (i + 1) as with e' | rest <;> simp

/-- A traversal succeeds exactly with the results of all items. -/
theorem eq_ok_iff (ht : Traversal f go) (hf : ∀ i a b, f i a = .ok b ↔ R a b) (i : Nat)
    (as : List α) (bs : List β) : go i as = .ok bs ↔ List.Forall₂ R as bs := by
  induction as generalizing i bs with
  | nil => simp [ht.nil, eq_comm]
  | cons a as ih =>
    simp only [ht.cons_eq_ok_iff, List.forall₂_cons_left_iff, ih, hf]

/-- It fails exactly with the error of the first item that is refused. -/
theorem eq_error_iff (ht : Traversal f go) (hf : ∀ i a b, f i a = .ok b ↔ R a b) (i : Nat)
    (as : List α) (e : ε) :
    go i as = .error e ↔ ∃ before a after, as = before ++ a :: after ∧
      (∀ x ∈ before, ∃ b, R x b) ∧ f (i + before.length) a = .error e := by
  induction as generalizing i with
  | nil => simp [ht.nil]
  | cons a as ih =>
    rw [exists_cons_eq_append_iff]
    rcases ha : f i a with e' | b
    · -- The first item is refused, so the one refused first cannot be in the tail.
      have hnone : ¬ ∃ b, R a b := by
        rintro ⟨b, hb⟩
        rw [(hf i a b).2 hb] at ha
        cases ha
      rw [ht.cons_of_error ha]
      simp [hnone]
    · have hsome : ∃ b, R a b := ⟨b, (hf i a b).1 ha⟩
      rw [ht.cons_eq_error_iff ha, ih]
      simp [hsome, Nat.add_assoc, Nat.add_comm 1]

/-- It succeeds exactly if every item has a result. -/
theorem exists_eq_ok_iff (ht : Traversal f go) (hf : ∀ i a b, f i a = .ok b ↔ R a b) (i : Nat)
    (as : List α) : (∃ bs, go i as = .ok bs) ↔ ∀ a ∈ as, ∃ b, R a b := by
  simp only [ht.eq_ok_iff hf]
  induction as with
  | nil => simp
  | cons a as ih =>
    rw [List.forall_mem_cons, ← ih]
    simp only [List.forall₂_cons_left_iff]
    constructor
    · rintro ⟨-, b, bs, hb, hbs, rfl⟩
      exact ⟨⟨b, hb⟩, bs, hbs⟩
    · rintro ⟨⟨b, hb⟩, bs, hbs⟩
      exact ⟨b :: bs, b, bs, hb, hbs, rfl⟩

end Traversal

end VocabPhp
