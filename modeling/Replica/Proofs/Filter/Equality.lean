import Mathlib.Data.Multiset.ZeroCons
import Replica.Filter

/-! # Equality of filters

`Filter.same` compares the parts of a conjunction or disjunction by a greedy matching: each part of
one side takes the first free part of the other side that counts as equal.  The matching finds a
pairing of the parts whenever there is one, and `same` is an equivalence.

* `induction_on_parts`: what holds of filters without parts, and of the others if it holds of their
  parts, holds of all filters.
* `rel_of_sameMembers`: what the matching finds is a pairing, in the sense of `Multiset.Rel`.
* `sameMembers_of_rel`: a pairing is found.  A part that is taken away from its partner can be made
  up for by that partner (`hswap`), because equality goes round the three steps between them.
* `lawful`: equality is an equivalence, by induction on the filter.  Symmetry and transitivity need
  each other: to turn a matching round, partners are swapped by a chain of equalities. -/

namespace Replica

namespace Filter

/-! ### Filters and their parts -/

/-- What a filter without parts is compared by. -/
def leaf? : Filter → Option (Unit ⊕ Unit ⊕ Labels ⊕ Selector ⊕ SortedSet Key ⊕ Int)
  | .acceptAll => some (.inl ())
  | .rejectAll => some (.inr (.inl ()))
  | .labels wanted => some (.inr (.inr (.inl wanted)))
  | .selector s => some (.inr (.inr (.inr (.inl s.normalized))))
  | .keys patterns => some (.inr (.inr (.inr (.inr (.inl patterns)))))
  | .func token _ => some (.inr (.inr (.inr (.inr (.inr token)))))
  | _ => none

/-- Induction on the parts of a filter. -/
theorem induction_on_parts {P : Filter → Prop} (hleaf : ∀ {f}, f.leaf?.isSome = true → P f)
    (hnot : ∀ {f}, P f → P (.not f)) (hand : ∀ {fs}, (∀ f ∈ fs, P f) → P (.and fs))
    (hor : ∀ {fs}, (∀ f ∈ fs, P f) → P (.or fs)) (f : Filter) : P f :=
  match f with
  | .acceptAll | .rejectAll => hleaf rfl
  | .labels _ | .selector _ | .keys _ | .func _ _ => hleaf rfl
  | .not f => hnot (induction_on_parts hleaf hnot hand hor f)
  | .and fs => hand fun f _ => induction_on_parts hleaf hnot hand hor f
  | .or fs => hor fun f _ => induction_on_parts hleaf hnot hand hor f

/-! ### The greedy matching -/

theorem perm_of_dropFirst? {α : Type} {p : α → Bool} {xs rest : List α}
    (h : dropFirst? p xs = some rest) : ∃ x, p x = true ∧ xs.Perm (x :: rest) := by
  induction xs generalizing rest with
  | nil => cases h
  | cons y ys ih =>
      rw [dropFirst?] at h
      split at h
      · rename_i hp
        rw [Option.some.injEq] at h
        subst h
        exact ⟨y, hp, .refl _⟩
      · obtain ⟨rest', hrest, rfl⟩ := Option.map_eq_some_iff.1 h
        obtain ⟨x, hp, hperm⟩ := ih hrest
        exact ⟨x, hp, (hperm.cons y).trans (.swap x y rest')⟩

theorem exists_dropFirst? {α : Type} {p : α → Bool} {xs : List α} {x : α} (hx : x ∈ xs)
    (hp : p x = true) : ∃ rest, dropFirst? p xs = some rest := by
  induction xs with
  | nil => cases hx
  | cons y ys ih =>
      by_cases hy : p y = true
      · exact ⟨ys, by rw [dropFirst?, if_pos hy]⟩
      · rcases List.mem_cons.1 hx with rfl | hin
        · exact absurd hp hy
        · obtain ⟨rest, hrest⟩ := ih hin
          exact ⟨y :: rest, by rw [dropFirst?, if_neg hy, hrest]; rfl⟩

/-- The matching pairs the parts off. -/
theorem rel_of_sameMembers {fs gs : List Filter} (h : sameMembers fs gs = true) :
    Multiset.Rel (fun f g => f.same g = true) (fs : Multiset Filter) gs := by
  induction fs generalizing gs with
  | nil =>
      rw [sameMembers, List.isEmpty_iff] at h
      subst h
      exact .zero
  | cons f fs ih =>
      rw [sameMembers] at h
      cases hd : dropFirst? (fun g => f.same g) gs with
      | none =>
          rw [hd] at h
          cases h
      | some rest =>
          rw [hd] at h
          obtain ⟨g, hfg, hperm⟩ := perm_of_dropFirst? hd
          rw [Multiset.coe_eq_coe.2 hperm, ← Multiset.cons_coe, ← Multiset.cons_coe]
          exact .cons hfg (ih h)

/-- The matching finds a pairing if there is one, as long as partners can be swapped: if `f` takes
the partner `g'` of `f'`, then `f'` can take the partner `g` of `f`. -/
theorem sameMembers_of_rel {R : Filter → Filter → Prop} {fs gs : List Filter}
    (hsame : ∀ f ∈ fs, ∀ g ∈ gs, R f g → f.same g = true)
    (hswap : ∀ f ∈ fs, ∀ f' ∈ fs, ∀ g ∈ gs, ∀ g' ∈ gs,
      R f g → f.same g' = true → R f' g' → R f' g)
    (h : Multiset.Rel R (fs : Multiset Filter) gs) : sameMembers fs gs = true := by
  induction fs generalizing gs with
  | nil =>
      rw [Multiset.coe_nil, Multiset.rel_zero_left, Multiset.coe_eq_zero] at h
      subst h
      rfl
  | cons f fs ih =>
      rw [← Multiset.cons_coe, Multiset.rel_cons_left] at h
      obtain ⟨g, others, hfg, hrel, hgs⟩ := h
      have hg : g ∈ gs := by
        have : g ∈ (gs : Multiset Filter) := hgs ▸ Multiset.mem_cons_self g others
        exact Multiset.mem_coe.1 this
      obtain ⟨rest, hd⟩ := exists_dropFirst? (p := fun g => f.same g) hg
        (hsame f List.mem_cons_self g hg hfg)
      obtain ⟨g', hfg', hperm⟩ := perm_of_dropFirst? hd
      have hg' : g' ∈ gs := hperm.mem_iff.2 List.mem_cons_self
      have hrest : ∀ x ∈ rest, x ∈ gs := fun x hx => hperm.mem_iff.2 (List.mem_cons_of_mem g' hx)
      rw [sameMembers, hd]
      refine ih (fun f₁ hf₁ x hx => hsame f₁ (List.mem_cons_of_mem f hf₁) x (hrest x hx))
        (fun f₁ hf₁ f₂ hf₂ x hx y hy => hswap f₁ (List.mem_cons_of_mem f hf₁) f₂
          (List.mem_cons_of_mem f hf₂) x (hrest x hx) y (hrest y hy)) ?_
      rw [Multiset.coe_eq_coe.2 hperm, ← Multiset.cons_coe, Multiset.cons_eq_cons] at hgs
      rcases hgs with ⟨-, heq⟩ | ⟨-, left, hrest', hothers⟩
      · rwa [heq]
      · -- The part taken was the partner of another one, which gets `g` instead.
        rw [hothers, Multiset.rel_cons_right] at hrel
        obtain ⟨f', fs', hf'g', hrel', hfs⟩ := hrel
        have hf' : f' ∈ fs := by
          have : f' ∈ (fs : Multiset Filter) := hfs ▸ Multiset.mem_cons_self f' fs'
          exact Multiset.mem_coe.1 this
        have hf'g : R f' g :=
          hswap f List.mem_cons_self f' (List.mem_cons_of_mem f hf') g hg g' hg' hfg hfg' hf'g'
        rw [hfs, hrest']
        exact .cons hf'g hrel'

/-! ### An equivalence -/

/-- Equality with `f` holds of `f` itself, can be turned round and can be continued. -/
structure Lawful (f : Filter) : Prop where
  refl : f.same f = true
  symm : ∀ {g}, f.same g = true → g.same f = true
  trans : ∀ {g h}, f.same g = true → g.same h = true → f.same h = true

theorem sameMembers_refl {fs : List Filter} (hf : ∀ f ∈ fs, f.Lawful) :
    sameMembers fs fs = true := by
  induction fs with
  | nil => rfl
  | cons f fs ih =>
      obtain ⟨hhead, htail⟩ := List.forall_mem_cons.1 hf
      rw [sameMembers, dropFirst?, if_pos hhead.refl]
      exact ih htail

/-- Matching parts can be turned round, if the parts of one side are lawful. -/
theorem sameMembers_symm {fs gs : List Filter} (hf : ∀ f ∈ fs, f.Lawful)
    (h : sameMembers fs gs = true) : sameMembers gs fs = true := by
  refine sameMembers_of_rel (R := fun g f => f.same g = true) (fun g _ f hin => (hf f hin).symm) ?_
    (Multiset.rel_flip.2 (rel_of_sameMembers h))
  intro g _ g' _ f hin f' _ hfg hgf' hf'g'
  have hff' : f.same f' = true := (hf f hin).trans hfg hgf'
  exact (hf f hin).trans hff' hf'g'

theorem rel_trans {fs gs hs : Multiset Filter} (hf : ∀ f ∈ fs, f.Lawful)
    (h : Multiset.Rel (fun f g => f.same g = true) fs gs)
    (h' : Multiset.Rel (fun f g => f.same g = true) gs hs) :
    Multiset.Rel (fun f g => f.same g = true) fs hs := by
  induction h generalizing hs with
  | zero => exact h'
  | @cons f g fs gs hfg hrel ih =>
      obtain ⟨x, hs', hgx, hrel', rfl⟩ := Multiset.rel_cons_left.1 h'
      have hlawful := hf f (Multiset.mem_cons_self f fs)
      exact .cons (hlawful.trans hfg hgx) (ih (fun y hy => hf y (Multiset.mem_cons_of_mem hy)) hrel')

/-- Matching parts can be continued, if the parts of the first side are lawful. -/
theorem sameMembers_trans {fs gs hs : List Filter} (hf : ∀ f ∈ fs, f.Lawful)
    (h : sameMembers fs gs = true) (h' : sameMembers gs hs = true) : sameMembers fs hs = true := by
  have hrel := rel_trans (fun f hin => hf f (Multiset.mem_coe.1 hin)) (rel_of_sameMembers h)
    (rel_of_sameMembers h')
  refine sameMembers_of_rel (fun _ _ _ _ hfg => hfg) ?_ hrel
  intro f hin f' hin' g _ g' _ hfg hfg' hf'g'
  have hf'f : f'.same f = true := (hf f' hin').trans hf'g' ((hf f hin).symm hfg')
  exact (hf f' hin').trans hf'f hfg

/-- What equals a negation is a negation of an equal filter; and so for the other compounds. -/
theorem exists_of_same_not {f g : Filter} (h : (Filter.not f).same g = true) :
    ∃ g', g = .not g' ∧ f.same g' = true := by
  cases g with
  | not g' => exact ⟨g', rfl, h⟩
  | _ => simp [same] at h

theorem exists_of_same_and {fs : List Filter} {g : Filter} (h : (Filter.and fs).same g = true) :
    ∃ gs, g = .and gs ∧ sameMembers fs gs = true := by
  cases g with
  | and gs => exact ⟨gs, rfl, h⟩
  | _ => simp [same] at h

theorem exists_of_same_or {fs : List Filter} {g : Filter} (h : (Filter.or fs).same g = true) :
    ∃ gs, g = .or gs ∧ sameMembers fs gs = true := by
  cases g with
  | or gs => exact ⟨gs, rfl, h⟩
  | _ => simp [same] at h

theorem Lawful.not {f : Filter} (hf : f.Lawful) : (Filter.not f).Lawful where
  refl := hf.refl
  symm := by
    intro g h
    obtain ⟨g', rfl, h⟩ := exists_of_same_not h
    exact hf.symm h
  trans := by
    intro g h hg hh
    obtain ⟨g', rfl, hg⟩ := exists_of_same_not hg
    obtain ⟨h', rfl, hh⟩ := exists_of_same_not hh
    exact hf.trans hg hh

theorem Lawful.and {fs : List Filter} (hf : ∀ f ∈ fs, f.Lawful) : (Filter.and fs).Lawful where
  refl := sameMembers_refl hf
  symm := by
    intro g h
    obtain ⟨gs, rfl, h⟩ := exists_of_same_and h
    exact sameMembers_symm hf h
  trans := by
    intro g h hg hh
    obtain ⟨gs, rfl, hg⟩ := exists_of_same_and hg
    obtain ⟨hs, rfl, hh⟩ := exists_of_same_and hh
    exact sameMembers_trans hf hg hh

theorem Lawful.or {fs : List Filter} (hf : ∀ f ∈ fs, f.Lawful) : (Filter.or fs).Lawful where
  refl := sameMembers_refl hf
  symm := by
    intro g h
    obtain ⟨gs, rfl, h⟩ := exists_of_same_or h
    exact sameMembers_symm hf h
  trans := by
    intro g h hg hh
    obtain ⟨gs, rfl, hg⟩ := exists_of_same_or hg
    obtain ⟨hs, rfl, hh⟩ := exists_of_same_or hh
    exact sameMembers_trans hf hg hh

theorem same_iff_leaf?_eq {f g : Filter} (hf : f.leaf?.isSome = true) :
    f.same g = true ↔ f.leaf? = g.leaf? := by
  cases f <;> cases g <;> simp_all [same, leaf?]

theorem lawful_of_leaf {f : Filter} (hf : f.leaf?.isSome = true) : f.Lawful where
  refl := (same_iff_leaf?_eq hf).2 rfl
  symm := by
    intro g h
    have heq := (same_iff_leaf?_eq hf).1 h
    rw [heq] at hf
    exact (same_iff_leaf?_eq hf).2 heq.symm
  trans := by
    intro g h hg hh
    have heq := (same_iff_leaf?_eq hf).1 hg
    have heq' := (same_iff_leaf?_eq (heq ▸ hf)).1 hh
    exact (same_iff_leaf?_eq hf).2 (heq.trans heq')

/-- **Equality of filters is lawful**, whatever the filters are built from. -/
theorem lawful (f : Filter) : f.Lawful :=
  f.induction_on_parts lawful_of_leaf Lawful.not Lawful.and Lawful.or

/-- **Equality of filters is an equivalence.** -/
theorem same_equivalence : Equivalence fun f g : Filter => f.same g = true where
  refl f := (lawful f).refl
  symm {f _} h := (lawful f).symm h
  trans {f _ _} h h' := (lawful f).trans h h'

theorem same_comm (f g : Filter) : f.same g = g.same f := by
  rw [Bool.eq_iff_iff]
  exact ⟨(lawful f).symm, (lawful g).symm⟩

end Filter

end Replica
