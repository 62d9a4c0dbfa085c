import Mathlib.Data.Finset.Dedup
import Replica.Proofs.Filter.Acceptance

/-! # The normal form of a selector

A selector in normal form has its requirements, and the values of each, in order and without
repetitions.  Two selectors have the same normal form exactly if they want the same labels and make
the same demands (`Selector.demands`), where a demand is a key, an operator and a set of values.

* `sortedOnce_eq_iff`: what is sorted and freed of repetitions depends on the members only.  Dropping
  what equals its neighbour is enough after sorting, because what is sorted and has no two equal
  neighbours strictly increases (`pairwise_dropRepeats`), and a strictly increasing list is
  determined by its members (`eq_of_pairwise_lt`).
* `Requirement.normalized_eq_iff`: so a requirement with its values sorted once is its demand.  The
  values have to be sorted before the requirements are, for only then are requirements with one
  demand equal and next to each other.
* `Selector.normalized_eq_normalized_iff`, `Selector.normalized_canonical`: the same for selectors,
  with idempotence, and with what a selector in normal form matches. -/

namespace Replica

/-! ### Sorting without repetitions -/

section SortedOnce

variable {α : Type} [Ord α] [Std.TransOrd α] [Std.LawfulEqOrd α]

/-- A strictly increasing list is determined by its members. -/
theorem eq_of_pairwise_lt {xs ys : List α} (hx : xs.Pairwise (compare · · = .lt))
    (hy : ys.Pairwise (compare · · = .lt)) (h : ∀ a, a ∈ xs ↔ a ∈ ys) : xs = ys := by
  have hne : ∀ {a b : α}, compare a b = .lt → a ≠ b := by
    rintro a b hlt rfl
    rw [Std.ReflOrd.compare_self] at hlt
    cases hlt
  have hperm : xs.Perm ys := (List.perm_ext_iff_of_nodup (hx.imp hne) (hy.imp hne)).2 h
  refine hperm.eq_of_pairwise (fun a b _ _ hab hba => ?_) hx hy
  exact absurd hba (Std.OrientedCmp.not_lt_of_lt hab)

variable [DecidableEq α]

/-- What is in order and loses what equals its neighbour strictly increases. -/
theorem pairwise_dropRepeats :
    ∀ {xs : List α}, xs.Pairwise (fun a b => (compare a b).isLE = true) →
      (dropRepeats xs).Pairwise (compare · · = .lt)
  | [], _ => .nil
  | [x], _ => List.pairwise_singleton _ x
  | x :: y :: rest, h => by
    obtain ⟨hx, hrest⟩ := List.pairwise_cons.1 h
    have ih := pairwise_dropRepeats hrest
    rw [dropRepeats]
    split
    next => exact ih
    next hne =>
      -- The first element is below its neighbour, which is not above any other.
      have hxy : compare x y = .lt := by
        have hle := hx y List.mem_cons_self
        cases hc : compare x y with
        | lt => rfl
        | eq => exact absurd (Std.LawfulEqCmp.eq_of_compare hc) hne
        | gt =>
            rw [hc] at hle
            cases hle
      refine List.pairwise_cons.2 ⟨fun z hz => ?_, ih⟩
      rcases List.mem_cons.1 (mem_dropRepeats.1 hz) with rfl | hin
      · exact hxy
      · exact Std.TransCmp.lt_of_lt_of_isLE hxy ((List.pairwise_cons.1 hrest).1 z hin)

theorem pairwise_sortedOnce (xs : List α) : (sortedOnce xs).Pairwise (compare · · = .lt) := by
  refine pairwise_dropRepeats (List.pairwise_mergeSort (fun a b c hab hbc => ?_) (fun a b => ?_) xs)
  · exact Std.TransCmp.isLE_trans hab hbc
  · rw [Std.OrientedOrd.eq_swap (a := b)]
    cases compare a b <;> rfl

/-- **Sorted without repetitions, lists are the same exactly if they have the same members.** -/
theorem sortedOnce_eq_iff {xs ys : List α} :
    sortedOnce xs = sortedOnce ys ↔ ∀ a, a ∈ xs ↔ a ∈ ys := by
  constructor
  · intro h a
    rw [← mem_sortedOnce, h, mem_sortedOnce]
  · intro h
    refine eq_of_pairwise_lt (pairwise_sortedOnce xs) (pairwise_sortedOnce ys) fun a => ?_
    rw [mem_sortedOnce, mem_sortedOnce, h]

end SortedOnce

/-- The images of two lists have the same members exactly if every element of each has one of the
other with the same image. -/
theorem forall_mem_map_iff {α β : Type} {f : α → β} {xs ys : List α} :
    (∀ b, b ∈ xs.map f ↔ b ∈ ys.map f) ↔
      (∀ x ∈ xs, ∃ y ∈ ys, f y = f x) ∧ ∀ y ∈ ys, ∃ x ∈ xs, f x = f y := by
  simp only [iff_iff_implies_and_implies, forall_and, List.mem_map, forall_exists_index, and_imp,
    forall_apply_eq_imp_iff₂]

/-! ### Requirements -/

namespace Requirement

theorem compare_def (a b : Requirement) :
    compare a b = (compare a.key b.key).then
      ((compare a.operator.rank b.operator.rank).then (compare a.values b.values)) := rfl

instance : Std.TransOrd Requirement :=
  inferInstanceAs (Std.TransCmp (compareLex (compareOn key)
    (compareLex (compareOn fun r => r.operator.rank) (compareOn values))))

instance : Std.LawfulEqOrd Requirement where
  eq_of_compare {a b} h := by
    rw [compare_def, Ordering.then_eq_eq, Ordering.then_eq_eq] at h
    obtain ⟨hkey, hrank, hvalues⟩ := h
    obtain ⟨k, op, vs⟩ := a
    obtain ⟨k', op', vs'⟩ := b
    rw [mk.injEq]
    exact ⟨Std.LawfulEqCmp.eq_of_compare hkey,
      Operator.rank_injective (Std.LawfulEqCmp.eq_of_compare hrank),
      Std.LawfulEqCmp.eq_of_compare hvalues⟩

/-- The requirement with its values in order, each once. -/
def normalized (r : Requirement) : Requirement := { r with values := sortedOnce r.values }

/-- What a requirement comes to: its key, its operator and the set of its values. -/
def demand (r : Requirement) : String × Operator × Finset String :=
  (r.key, r.operator, r.values.toFinset)

/-- **Requirements have one normal form exactly if they make one demand.** -/
theorem normalized_eq_iff {r r' : Requirement} :
    r.normalized = r'.normalized ↔ r.demand = r'.demand := by
  simp only [normalized, demand, mk.injEq, Prod.mk.injEq, sortedOnce_eq_iff, Finset.ext_iff,
    List.mem_toFinset]

theorem demand_normalized (r : Requirement) : r.normalized.demand = r.demand := by
  simp only [normalized, demand, Prod.mk.injEq, Finset.ext_iff, List.mem_toFinset, mem_sortedOnce,
    true_and, implies_true]

end Requirement

/-! ### Selectors -/

namespace Selector

/-- What the requirements of a selector come to. -/
def demands (s : Selector) : Finset (String × Operator × Finset String) :=
  (s.requirements.map Requirement.demand).toFinset

theorem normalized_def (s : Selector) :
    s.normalized = ⟨s.matchLabels, sortedOnce (s.requirements.map Requirement.normalized)⟩ := rfl

/-- **Selectors have one normal form exactly if they want the same labels and make the same
demands.** -/
theorem normalized_eq_normalized_iff {s t : Selector} :
    s.normalized = t.normalized ↔ s.matchLabels = t.matchLabels ∧ s.demands = t.demands := by
  simp only [normalized_def, demands, mk.injEq, sortedOnce_eq_iff, Finset.ext_iff,
    List.mem_toFinset, forall_mem_map_iff, Requirement.normalized_eq_iff]

theorem demands_normalized (s : Selector) : s.normalized.demands = s.demands := by
  rw [demands, demands, Finset.ext_iff]
  intro d
  simp only [normalized_def, List.mem_toFinset, List.mem_map, mem_sortedOnce,
    exists_exists_and_eq_and, Requirement.demand_normalized]

/-- **The normal form is canonical.**  A selector in normal form matches the labels that the selector
matches, and it is its own normal form.  Selectors have the same normal form exactly if they want the
same labels and make the same demands, whatever the order and the repetition of their requirements
and of the values of these. -/
theorem normalized_canonical (s : Selector) :
    (∀ labels, s.normalized.accepts labels = s.accepts labels) ∧
    s.normalized.normalized = s.normalized ∧
    ∀ t : Selector, s.normalized = t.normalized ↔
      s.matchLabels = t.matchLabels ∧ s.demands = t.demands := by
  refine ⟨s.accepts_normalized, ?_, fun t => normalized_eq_normalized_iff⟩
  exact normalized_eq_normalized_iff.2 ⟨rfl, s.demands_normalized⟩

end Selector

end Replica
