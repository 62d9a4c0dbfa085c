import Mathlib.Data.Fintype.Card
import Mathlib.Data.Fintype.EquivFin
import Mathlib.Data.List.OfFn
import Mathlib.Data.Multiset.Filter
import Mathlib.Logic.Relation
import Replica.Proofs.Filter.Equality

/-! # The parts of a filter as a multiset

Two conjunctions, or two disjunctions, count as equal if their parts agree as multisets, where a part
stands for all filters that count as equal to it.  The comparison finds this out by a greedy
matching, which never has to go back.

* `multiplicity f fs` says how many of the filters `fs` count as equal to `f`.
* `sameMembers_iff_multiplicity`: the matching succeeds exactly if every filter has the same
  multiplicity on both sides.  By induction on the matching: what a part takes on the other side
  counts as equal to it, so both are taken off the multiplicities of the same filters.
* `paired_iff_multiplicity`: this is so exactly if the positions of the two sides can be paired off,
  for then the positions of each class of equal filters can.
* `Within R f g`: the filters `f` and `g` differ in one place, however deep, where they are related
  by `R`.  Whether they count as equal is decided at this place (`same_of_within`), since equal parts
  beside it cancel.
* `parts_as_multisets` states what this means for conjunctions and disjunctions, for parts that are
  put in another order anywhere in a filter, and for parts whose multiplicity is changed anywhere. -/

namespace Replica

namespace Filter

/-! ### Multiplicities -/

/-- How many of the filters count as equal to a filter. -/
def multiplicity (f : Filter) (fs : List Filter) : Nat := fs.countP (f.same ·)

@[simp] theorem multiplicity_nil (f : Filter) : multiplicity f [] = 0 := rfl

@[simp] theorem multiplicity_cons (f g : Filter) (fs : List Filter) :
    multiplicity f (g :: fs) = multiplicity f fs + if f.same g then 1 else 0 :=
  List.countP_cons

@[simp] theorem multiplicity_append (f : Filter) (fs gs : List Filter) :
    multiplicity f (fs ++ gs) = multiplicity f fs + multiplicity f gs :=
  List.countP_append

theorem multiplicity_of_perm {fs gs : List Filter} (h : fs.Perm gs) (f : Filter) :
    multiplicity f fs = multiplicity f gs :=
  h.countP_eq _

/-- Filters that count as equal are equal to the same filters. -/
theorem same_congr_right {f g : Filter} (h : f.same g = true) (x : Filter) : x.same f = x.same g := by
  rw [Bool.eq_iff_iff]
  exact ⟨fun hx => (lawful x).trans hx h, fun hx => (lawful x).trans hx ((lawful f).symm h)⟩

theorem dropFirst?_eq_none {α : Type} {p : α → Bool} {xs : List α} (h : dropFirst? p xs = none)
    (x : α) (hx : x ∈ xs) : p x = false := by
  cases hp : p x with
  | false => rfl
  | true =>
      obtain ⟨rest, hrest⟩ := exists_dropFirst? hx hp
      rw [h] at hrest
      cases hrest

/-- **The greedy matching compares multiplicities.** -/
theorem sameMembers_iff_multiplicity {fs gs : List Filter} :
    sameMembers fs gs = true ↔ ∀ f, multiplicity f fs = multiplicity f gs := by
  induction fs generalizing gs with
  | nil =>
      rw [sameMembers, List.isEmpty_iff]
      constructor
      · rintro rfl f
        rfl
      · intro h
        cases gs with
        | nil => rfl
        | cons g gs =>
            have hg := h g
            rw [multiplicity_nil, multiplicity_cons, if_pos (lawful g).refl] at hg
            omega
  | cons f fs ih =>
      rw [sameMembers]
      cases hd : dropFirst? (fun g => f.same g) gs with
      | none =>
          -- Nothing counts as equal to the first part, which counts as equal to itself.
          have hzero : multiplicity f gs = 0 := by
            rw [multiplicity, List.countP_eq_zero]
            intro g hg
            simp [dropFirst?_eq_none hd g hg]
          refine ⟨fun h => (Bool.false_ne_true h).elim, fun h => ?_⟩
          have hf := h f
          rw [hzero, multiplicity_cons, if_pos (lawful f).refl] at hf
          omega
      | some rest =>
          obtain ⟨g, hfg, hperm⟩ := perm_of_dropFirst? hd
          rw [ih]
          refine forall_congr' fun x => ?_
          rw [multiplicity_of_perm hperm, multiplicity_cons, multiplicity_cons,
            same_congr_right hfg x, Nat.add_right_cancel_iff]

/-! ### Pairings of positions -/

/-- The positions of two lists can be paired off, each with filters that count as equal. -/
def Paired (fs gs : List Filter) : Prop :=
  ∃ pairing : Fin fs.length ≃ Fin gs.length, ∀ i, (fs.get i).same (gs.get (pairing i)) = true

/-- A multiplicity counts positions. -/
theorem multiplicity_eq_card (f : Filter) (fs : List Filter) :
    multiplicity f fs = Fintype.card {i : Fin fs.length // f.same (fs.get i) = true} := by
  have hfs : (fs : Multiset Filter) = (Finset.univ : Finset (Fin fs.length)).val.map fs.get := by
    rw [Fin.univ_val_map, List.ofFn_get]
  have hcount : multiplicity f fs = (fs : Multiset Filter).countP fun g => f.same g = true := by
    simp [multiplicity]
  rw [Fintype.card_subtype, hcount, hfs, Multiset.countP_map]
  rfl

/-- Filters, each with those that count as equal to it. -/
def classes : Setoid Filter where
  r f g := f.same g = true
  iseqv :=
    { refl := fun f => (lawful f).refl
      symm := fun {f _} h => (lawful f).symm h
      trans := fun {f _ _} h h' => (lawful f).trans h h' }

/-- The class of the filter at each position. -/
def classAt (fs : List Filter) (i : Fin fs.length) : Quotient classes := .mk _ (fs.get i)

theorem classAt_eq_iff {fs : List Filter} {i : Fin fs.length} {f : Filter} :
    classAt fs i = .mk _ f ↔ f.same (fs.get i) = true := by
  rw [same_comm]
  exact Quotient.eq

/-- **Positions can be paired off exactly if the multiplicities agree.** -/
theorem paired_iff_multiplicity {fs gs : List Filter} :
    Paired fs gs ↔ ∀ f, multiplicity f fs = multiplicity f gs := by
  constructor
  · rintro ⟨pairing, hpairing⟩ f
    rw [multiplicity_eq_card, multiplicity_eq_card]
    refine Fintype.card_congr (pairing.subtypeEquiv fun i => ?_)
    rw [same_congr_right (hpairing i) f]
  · intro h
    have hclass : ∀ c, Nonempty ({i // classAt fs i = c} ≃ {j // classAt gs j = c}) := by
      refine Quotient.ind fun f => ?_
      have hcard := h f
      rw [multiplicity_eq_card, multiplicity_eq_card, Fintype.card_eq] at hcard
      obtain ⟨pairing⟩ := hcard
      exact ⟨(Equiv.subtypeEquivRight fun i => classAt_eq_iff).trans
        (pairing.trans (Equiv.subtypeEquivRight fun j => classAt_eq_iff).symm)⟩
    refine ⟨Equiv.ofFiberEquiv fun c => (hclass c).some, fun i => ?_⟩
    exact classAt_eq_iff.1 (Equiv.ofFiberEquiv_map _ i)

/-! ### One place in a filter -/

/-- The filters differ in one place, where they are related by `R`. -/
inductive Within (R : Filter → Filter → Prop) : Filter → Filter → Prop
  | here {f g : Filter} (h : R f g) : Within R f g
  | not {f g : Filter} (h : Within R f g) : Within R (.not f) (.not g)
  | and {f g : Filter} (before after : List Filter) (h : Within R f g) :
      Within R (.and (before ++ f :: after)) (.and (before ++ g :: after))
  | or {f g : Filter} (before after : List Filter) (h : Within R f g) :
      Within R (.or (before ++ f :: after)) (.or (before ++ g :: after))

/-- Parts that are the same on both sides cancel. -/
theorem sameMembers_around (before after : List Filter) (f g : Filter) :
    sameMembers (before ++ f :: after) (before ++ g :: after) = f.same g := by
  rw [Bool.eq_iff_iff, sameMembers_iff_multiplicity]
  simp only [multiplicity_append, multiplicity_cons, Nat.add_left_cancel_iff]
  constructor
  · intro h
    by_contra hne
    have hf := h f
    rw [if_pos (lawful f).refl, if_neg hne] at hf
    omega
  · intro h x
    rw [same_congr_right h x]

/-- Whether filters that differ in one place count as equal is decided at this place. -/
theorem same_of_within {R : Filter → Filter → Prop} {f g : Filter} {b : Bool}
    (hR : ∀ {f g}, R f g → f.same g = b) (h : Within R f g) : f.same g = b := by
  induction h with
  | here h => exact hR h
  | not _ ih => exact ih
  | and before after _ ih => exact (sameMembers_around before after _ _).trans ih
  | or before after _ ih => exact (sameMembers_around before after _ _).trans ih

/-- The filters are conjunctions, or disjunctions, of the same parts in another order. -/
inductive Reorders : Filter → Filter → Prop
  | and {fs gs : List Filter} (h : fs.Perm gs) : Reorders (.and fs) (.and gs)
  | or {fs gs : List Filter} (h : fs.Perm gs) : Reorders (.or fs) (.or gs)

/-- The filters are conjunctions, or disjunctions, where some part has another multiplicity. -/
inductive Recounts : Filter → Filter → Prop
  | and {fs gs : List Filter} (part : Filter) (h : multiplicity part fs ≠ multiplicity part gs) :
      Recounts (.and fs) (.and gs)
  | or {fs gs : List Filter} (part : Filter) (h : multiplicity part fs ≠ multiplicity part gs) :
      Recounts (.or fs) (.or gs)

theorem Reorders.same {f g : Filter} (h : Reorders f g) : f.same g = true := by
  cases h with
  | and h => exact sameMembers_iff_multiplicity.2 (multiplicity_of_perm h)
  | or h => exact sameMembers_iff_multiplicity.2 (multiplicity_of_perm h)

theorem sameMembers_of_recount {fs gs : List Filter} {part : Filter}
    (h : multiplicity part fs ≠ multiplicity part gs) : sameMembers fs gs = false := by
  rw [Bool.eq_false_iff]
  intro hs
  exact h (sameMembers_iff_multiplicity.1 hs part)

theorem Recounts.not_same {f g : Filter} (h : Recounts f g) : f.same g = false := by
  cases h with
  | and part h => exact sameMembers_of_recount h
  | or part h => exact sameMembers_of_recount h

/-- **Parts count as a multiset.**  Two conjunctions, and likewise two disjunctions, count as equal
exactly if the positions of their parts can be paired off, each with parts that count as equal.  So
filters whose parts are put in another order, in any places at any depth, count as equal, and
filters where a part of some conjunction or disjunction has another multiplicity do not. -/
theorem parts_as_multisets :
    (∀ fs gs, ((Filter.and fs).same (.and gs) = true ↔ Paired fs gs) ∧
      ((Filter.or fs).same (.or gs) = true ↔ Paired fs gs)) ∧
    (∀ f g, Relation.ReflTransGen (Within Reorders) f g → f.same g = true) ∧
    ∀ f g, Within Recounts f g → f.same g = false := by
  have hpaired : ∀ fs gs, sameMembers fs gs = true ↔ Paired fs gs := fun fs gs =>
    sameMembers_iff_multiplicity.trans paired_iff_multiplicity.symm
  refine ⟨fun fs gs => ⟨hpaired fs gs, hpaired fs gs⟩, fun f g h => ?_, fun f g h => ?_⟩
  · induction h with
    | refl => exact (lawful f).refl
    | tail _ hstep ih => exact (lawful f).trans ih (same_of_within Reorders.same hstep)
  · exact same_of_within Recounts.not_same h

/-- A conjunction inside a disjunction inside a negation: both are put in another order, and a part
of the inner one is repeated. -/
theorem parts_as_multisets_of_nested :
    let a := Filter.labels (.ofList [("app", "db")])
    let b := Filter.keys (.ofElements [⟨"x", "y"⟩])
    let f := Filter.not (.or [.acceptAll, .and [a, b, a]])
    let g := Filter.not (.or [.and [a, a, b], .acceptAll])
    let h := Filter.not (.or [.acceptAll, .and [a, b, b, a]])
    Relation.ReflTransGen (Within Reorders) f g ∧ f.same g = true ∧
      Within Recounts f h ∧ f.same h = false ∧ Paired [a, b, a] [a, a, b] := by
  intro a b f g h
  obtain ⟨hpaired, hreordered, hrecounted⟩ := parts_as_multisets
  have hfg : Relation.ReflTransGen (Within Reorders) f g := by
    have hinner : Within Reorders f (.not (.or [.acceptAll, .and [a, a, b]])) :=
      .not (.or [.acceptAll] [] (.here (.and ((List.Perm.swap a b []).cons a))))
    have houter : Within Reorders (.not (.or [.acceptAll, .and [a, a, b]])) g :=
      .not (.here (.or (List.Perm.swap _ _ [])))
    exact (Relation.ReflTransGen.single hinner).tail houter
  have hfh : Within Recounts f h :=
    .not (.or [.acceptAll] [] (.here (.and b (by decide +kernel))))
  exact ⟨hfg, hreordered f g hfg, hfh, hrecounted f h hfh, (hpaired _ _).1.1 (by decide +kernel)⟩

end Filter

end Replica
