import Replica.Scope

/-! # Which scopes fire

Each scope is below the one that was given when it was made (`Scopes.parent?`), and nothing that happens
later changes that.  Firing a scope fires it and nothing but what is below it (`isFired_fire_self`,
`below_of_isFired_fire`). -/

namespace Replica

namespace Scopes

/-- The scope right above another one. -/
def parent? (s : Scopes) (i : ScopeId) : Option ScopeId := s.list[i]?.bind Scope.parent

/-- The scope `j` is `i`, or below it. -/
inductive Below (s : Scopes) (i : ScopeId) : ScopeId → Prop
  | refl : s.Below i i
  | child {j k : ScopeId} (hj : s.Below i j) (hk : s.parent? k = some j) : s.Below i k

variable {s : Scopes} {i j parent : ScopeId}

theorem lt_of_parent? (h : s.parent? i = some parent) : i < s.list.length := by
  obtain ⟨c, hc, -⟩ := Option.bind_eq_some_iff.1 h
  exact (List.getElem?_eq_some_iff.1 hc).1

theorem parent?_of_length_le (h : s.list.length ≤ i) : s.parent? i = none :=
  Option.eq_none_iff_forall_ne_some.2 fun _ hp => Nat.not_lt.2 h (lt_of_parent? hp)

/-! ### New scopes -/

theorem parent?_addChild (s : Scopes) (parent i : ScopeId) : (s.addChild parent).1.parent? i =
    if i = s.list.length then some parent else s.parent? i := by
  unfold parent? addChild
  rcases Nat.lt_trichotomy i s.list.length with h | h | h
  · rw [List.getElem?_append_left h, if_neg (Nat.ne_of_lt h)]
  · simp [h]
  · rw [if_neg (Nat.ne_of_gt h), List.getElem?_eq_none (Nat.le_of_lt h), List.getElem?_eq_none]
    simpa [Nat.succ_le_iff] using h

theorem length_addChild : (s.addChild parent).1.list.length = s.list.length + 1 := by
  simp [addChild]

/-! ### Firing -/

theorem length_fire : (s.fire i).1.list.length = s.list.length := by
  unfold fire
  split <;> simp

/-- Firing leaves everything below what it was below. -/
theorem parent?_fire (s : Scopes) (i j : ScopeId) : (s.fire i).1.parent? j = s.parent? j := by
  unfold fire
  split
  · rfl
  · simp only [parent?, List.getElem?_mapIdx]
    cases s.list[j]? with
    | none => rfl
    | some c =>
        simp only [Option.map_some, Option.bind_some]
        split <;> rfl

theorem parent?_of_mem_children (h : j ∈ s.children i) : s.parent? j = some i := by
  simp only [children, List.mem_reverse, List.mem_map, List.mem_filter, Bool.and_eq_true,
    beq_iff_eq] at h
  obtain ⟨⟨c, k⟩, ⟨hmem, hparent, -⟩, rfl⟩ := h
  rw [parent?, List.mk_mem_zipIdx_iff_getElem?.1 hmem]
  exact hparent

/-- What fires on the way is below what is on the stack. -/
theorem below_of_mem_unwind {fuel : Nat} {stack : List ScopeId} (hstack : ∀ k ∈ stack, s.Below i k)
    (h : j ∈ s.unwind fuel stack) : s.Below i j := by
  induction fuel generalizing stack with
  | zero => exact hstack j h
  | succ fuel ih =>
      cases stack with
      | nil => cases h
      | cons k stack =>
          have hk : s.Below i k := hstack k List.mem_cons_self
          have hchild : ∀ c ∈ s.children k, s.Below i c := fun c hc =>
            hk.child (parent?_of_mem_children hc)
          simp only [unwind, List.partition_eq_filter_filter, List.mem_append, List.mem_cons] at h
          rcases h with hleaf | rfl | hrest
          · exact hchild j (List.mem_filter.1 hleaf).1
          · exact hk
          · refine ih (fun c hc => ?_) hrest
            rcases List.mem_append.1 hc with hinner | hold
            · exact hchild c (List.mem_filter.1 (List.mem_reverse.1 hinner)).1
            · exact hstack c (List.mem_cons_of_mem k hold)

/-- **Nothing fires but what is below.** -/
theorem below_of_isFired_fire (h : (s.fire i).1.isFired j = true) :
    s.isFired j = true ∨ s.Below i j := by
  unfold fire at h
  split at h
  · exact .inl h
  · simp only [isFired, List.getElem?_mapIdx] at h
    by_cases hj : j ∈ s.unwind s.list.length (s.children i) ++ [i]
    · rcases List.mem_append.1 hj with hj | hj
      · refine .inr (below_of_mem_unwind (fun c hc => ?_) hj)
        exact Below.refl.child (parent?_of_mem_children hc)
      · exact .inr (List.mem_singleton.1 hj ▸ .refl)
    · left
      cases hc : s.list[j]? with
      | none => simp [hc] at h
      | some c => simpa [isFired, hc, List.contains_iff_mem, hj] using h

/-- A scope that is fired has fired. -/
theorem isFired_fire_self (h : i < s.list.length) : (s.fire i).1.isFired i = true := by
  unfold fire
  split
  · assumption
  · simp [isFired, List.getElem?_mapIdx, List.getElem?_eq_getElem h]

/-- What is not below a scope that is fired stays as it is. -/
theorem isFired_fire_of_not_below (h : ¬ s.Below i j) : (s.fire i).1.isFired j = s.isFired j := by
  cases hj : s.isFired j with
  | true => exact isFired_fire_of_isFired s i hj
  | false =>
      rw [Bool.eq_false_iff]
      intro hfired
      rcases below_of_isFired_fire hfired with hold | hbelow
      · exact Bool.false_ne_true (hj.symm.trans hold)
      · exact h hbelow

end Scopes

end Replica
