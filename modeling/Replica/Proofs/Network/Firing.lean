import Replica.Proofs.Network.Scopes
import Mathlib.Data.List.Nodup
import Mathlib.Data.List.Perm.Subperm

/-! # Everything below fires

Each scope is made after the one that it is below (`Scopes.Ordered`), and what is right below a scope that has
fired has fired (`Scopes.Down`).  Firing a scope keeps that (`Down.fire`): on the way every scope is met once at
most, so the walk does not end before all of them were met (`closed_unwind`). -/

namespace Replica

namespace Scopes

/-- Each scope was made after the one that it is below. -/
def Ordered (s : Scopes) : Prop := ∀ j p, s.parent? j = some p → p < j

/-- What is right below a scope that has fired has fired. -/
def Down (s : Scopes) : Prop := ∀ j p, s.parent? j = some p → s.isFired p = true → s.isFired j = true

variable {s : Scopes} {i j k : ScopeId}

theorem mem_children : j ∈ s.children i ↔ s.parent? j = some i ∧ s.isFired j = false := by
  simp only [children, List.mem_reverse, List.mem_map, List.mem_filter, Bool.and_eq_true, beq_iff_eq,
    Bool.not_eq_true']
  constructor
  · rintro ⟨⟨c, k⟩, ⟨hmem, hparent, hfired⟩, rfl⟩
    have hc := List.mk_mem_zipIdx_iff_getElem?.1 hmem
    exact ⟨by rw [parent?, hc]; exact hparent, by rw [isFired, hc]; exact hfired⟩
  · rintro ⟨hparent, hfired⟩
    obtain ⟨c, hc, hparent⟩ := Option.bind_eq_some_iff.1 hparent
    refine ⟨(c, j), ⟨List.mk_mem_zipIdx_iff_getElem?.2 hc, hparent, ?_⟩, rfl⟩
    simpa [isFired, hc] using hfired

theorem nodup_children : (s.children i).Nodup := by
  rw [children, List.nodup_reverse]
  refine List.Nodup.sublist (List.Sublist.map Prod.snd List.filter_sublist) ?_
  rw [List.zipIdx_map_snd]
  exact List.nodup_range'

/-- The state of a walk below `i`: the scopes that were met and those that are still to be met are different
ones, each below one that was met. -/
structure Walk (s : Scopes) (i : ScopeId) (met stack : List ScopeId) : Prop where
  nodup : (met ++ stack).Nodup
  bound : ∀ k ∈ met ++ stack, i < k ∧ k < s.list.length
  parent : ∀ k ∈ met ++ stack, ∃ p, s.parent? k = some p ∧ (p = i ∨ p ∈ met)

theorem walk_children (ordered : s.Ordered) : s.Walk i [] (s.children i) where
  nodup := nodup_children
  bound := fun k hk => ⟨ordered k i (mem_children.1 hk).1, lt_of_parent? (mem_children.1 hk).1⟩
  parent := fun _ hk => ⟨i, (mem_children.1 hk).1, .inl rfl⟩

/-- A walk goes on with what is right below the scope that is met. -/
theorem Walk.step {met stack inner : List ScopeId} (h : s.Walk i met (k :: stack))
    (hinner : inner.Sublist (s.children k)) (ordered : s.Ordered) :
    s.Walk i (met ++ [k]) (inner.reverse ++ stack) := by
  have hchild : ∀ c ∈ inner, s.parent? c = some k := fun c hc => parent?_of_mem_children (hinner.subset hc)
  have hk : i < k ∧ k < s.list.length := h.bound k (by simp)
  have hunmet : k ∉ met := fun hmem => (List.nodup_append.1 h.nodup).2.2 k hmem k (by simp) rfl
  have hperm : (met ++ [k] ++ (inner.reverse ++ stack)).Perm (inner ++ (met ++ k :: stack)) := by
    have hmiddle : (met ++ [k] ++ (inner.reverse ++ stack)).Perm (inner.reverse ++ (met ++ [k] ++ stack)) :=
      List.perm_append_comm_assoc _ _ _
    refine hmiddle.trans ?_
    rw [List.append_assoc met]
    exact List.Perm.append_right _ (List.reverse_perm inner)
  refine ⟨hperm.nodup_iff.2 (List.nodup_append.2 ⟨nodup_children.sublist hinner, h.nodup, ?_⟩), ?_, ?_⟩
  · -- what is right below the scope that is met now was not met before
    rintro c hc _ hmem rfl
    obtain ⟨p, hp, hmet⟩ := h.parent c hmem
    obtain rfl : p = k := Option.some.inj (hp.symm.trans (hchild c hc))
    rcases hmet with rfl | hmet
    · exact Nat.lt_irrefl _ hk.1
    · exact hunmet hmet
  · intro c hc
    rcases List.mem_append.1 (hperm.mem_iff.1 hc) with hnew | hold
    · exact ⟨Nat.lt_trans hk.1 (ordered c k (hchild c hnew)), lt_of_parent? (hchild c hnew)⟩
    · exact h.bound c hold
  · intro c hc
    rcases List.mem_append.1 (hperm.mem_iff.1 hc) with hnew | hold
    · exact ⟨k, hchild c hnew, .inr (by simp)⟩
    · obtain ⟨p, hp, hmet⟩ := h.parent c hold
      exact ⟨p, hp, hmet.imp_right (List.mem_append_left _)⟩

/-- A walk does not meet more scopes than there are. -/
theorem Walk.length_lt {met stack : List ScopeId} (h : s.Walk i met stack) (hi : i < s.list.length) :
    met.length < s.list.length := by
  have hnodup : (i :: met).Nodup := by
    refine List.nodup_cons.2 ⟨fun hmem => ?_, (List.nodup_append.1 h.nodup).1⟩
    exact Nat.lt_irrefl i (h.bound i (List.mem_append_left _ hmem)).1
  have hsubset : (i :: met) ⊆ List.range s.list.length := by
    intro c hc
    rw [List.mem_range]
    rcases List.mem_cons.1 hc with rfl | hmem
    · exact hi
    · exact (h.bound c (List.mem_append_left _ hmem)).2
  have hlength := (List.subperm_of_subset hnodup hsubset).length_le
  rwa [List.length_cons, List.length_range] at hlength

/-- **A walk meets everything below.** -/
theorem closed_unwind (ordered : s.Ordered) (hi : i < s.list.length) {fuel : Nat} {met stack : List ScopeId}
    (h : s.Walk i met stack) (hfuel : met.length + fuel = s.list.length) :
    (∀ k ∈ stack, k ∈ s.unwind fuel stack) ∧
      ∀ k ∈ s.unwind fuel stack, ∀ c ∈ s.children k, c ∈ s.unwind fuel stack := by
  induction fuel generalizing met stack with
  | zero =>
      have := h.length_lt hi
      omega
  | succ fuel ih =>
      cases stack with
      | nil => exact ⟨fun _ hk => hk, fun _ hk => nomatch hk⟩
      | cons k stack =>
          simp only [unwind, List.partition_eq_filter_filter]
          generalize hinner : (s.children k).filter (not ∘ fun c => (s.children c).isEmpty) = inner
          have hsublist : inner.Sublist (s.children k) := hinner ▸ List.filter_sublist
          have hwalk := h.step hsublist ordered
          obtain ⟨hstack, hclosed⟩ := ih hwalk (by simp; omega)
          have hbelow : ∀ c ∈ s.children k, c ∈ (s.children k).filter (fun c => (s.children c).isEmpty) ∨
              c ∈ s.unwind fuel (inner.reverse ++ stack) := by
            intro c hc
            cases hempty : (s.children c).isEmpty with
            | true => exact .inl (List.mem_filter.2 ⟨hc, hempty⟩)
            | false =>
                refine .inr (hstack c (List.mem_append_left _ (List.mem_reverse.2 ?_)))
                rw [← hinner]
                exact List.mem_filter.2 ⟨hc, by simp [hempty]⟩
          constructor
          · intro c hc
            rcases List.mem_cons.1 hc with rfl | hrest
            · simp
            · simp [hstack c (List.mem_append_right _ hrest)]
          · intro c hc d hd
            rcases List.mem_append.1 hc with hleaf | hc
            · -- nothing is below a leaf
              have hempty := (List.mem_filter.1 hleaf).2
              rw [List.isEmpty_iff] at hempty
              rw [hempty] at hd
              cases hd
            · rcases List.mem_cons.1 hc with rfl | hrest
              · exact (hbelow d hd).elim (List.mem_append_left _) fun hmem => by simp [hmem]
              · simp [hclosed c hrest d hd]

theorem mem_fire_order (ordered : s.Ordered) (hi : i < s.list.length) :
    (∀ c ∈ s.children i, c ∈ s.unwind s.list.length (s.children i)) ∧
      ∀ k ∈ s.unwind s.list.length (s.children i), ∀ c ∈ s.children k,
        c ∈ s.unwind s.list.length (s.children i) :=
  closed_unwind ordered hi (walk_children ordered) (Nat.zero_add _)

theorem isFired_fire_iff (hj : j < s.list.length) (open_ : s.isFired i = false) :
    (s.fire i).1.isFired j = true ↔
      s.isFired j = true ∨ j ∈ s.unwind s.list.length (s.children i) ++ [i] := by
  rw [fire, if_neg (by simp [open_])]
  simp only [isFired, List.getElem?_mapIdx, List.getElem?_eq_getElem hj, Option.map_some, Option.getD_some,
    List.contains_iff_mem]
  split
  · rename_i hmem
    exact iff_of_true rfl (.inr hmem)
  · rename_i hmem
    exact ⟨.inl, fun h => h.resolve_right hmem⟩

/-- A scope that is not there has nothing below it, and nothing fires. -/
theorem fire_of_length_le (ordered : s.Ordered) (hi : s.list.length ≤ i) : (s.fire i).1 = s := by
  have hchildren : s.children i = [] := by
    refine List.eq_nil_iff_forall_not_mem.2 fun c hc => ?_
    have hc := (mem_children.1 hc).1
    exact Nat.not_lt.2 hi (Nat.lt_trans (ordered c i hc) (lt_of_parent? hc))
  have hunwind : s.unwind s.list.length [] = [] := by cases s.list.length <;> rfl
  rw [fire, if_neg (by simp [isFired_of_length_le s hi]), hchildren, hunwind]
  refine congrArg Scopes.mk (List.ext_getElem (by simp) fun j hj hj' => ?_)
  have : j ≠ i := Nat.ne_of_lt (Nat.lt_of_lt_of_le hj' hi)
  simp [this]

/-- **Firing keeps what is right below a fired scope fired.** -/
theorem Down.fire (h : s.Down) (ordered : s.Ordered) (i : ScopeId) : (s.fire i).1.Down := by
  rcases Nat.lt_or_ge i s.list.length with hi | hi
  · cases open_ : s.isFired i with
    | true =>
        rw [Scopes.fire, if_pos open_]
        exact h
    | false =>
        intro j p hparent hfired
        rw [parent?_fire] at hparent
        have hj := lt_of_parent? hparent
        rw [isFired_fire_iff (Nat.lt_trans (ordered j p hparent) hj) open_] at hfired
        rw [isFired_fire_iff hj open_]
        obtain ⟨hchildren, hclosed⟩ := mem_fire_order ordered hi
        cases hold : s.isFired j with
        | true => exact .inl rfl
        | false =>
            have hmem : j ∈ s.children p := mem_children.2 ⟨hparent, hold⟩
            refine .inr (List.mem_append_left _ ?_)
            rcases hfired with hfired | hfired
            · cases hold.symm.trans (h j p hparent hfired)
            · rcases List.mem_append.1 hfired with hp | hp
              · exact hclosed p hp j hmem
              · exact hchildren j (List.mem_singleton.1 hp ▸ hmem)
  · rw [fire_of_length_le ordered hi]
    exact h

theorem Ordered.fire (h : s.Ordered) (i : ScopeId) : (s.fire i).1.Ordered := by
  intro j p hparent
  rw [parent?_fire] at hparent
  exact h j p hparent

/-! ### New scopes -/

theorem parent?_addRoot (s : Scopes) (i : ScopeId) : s.addRoot.1.parent? i = s.parent? i := by
  unfold parent? addRoot
  rcases Nat.lt_trichotomy i s.list.length with h | h | h
  · rw [List.getElem?_append_left h]
  · simp [h]
  · rw [List.getElem?_eq_none (Nat.le_of_lt h), List.getElem?_eq_none]
    simpa [Nat.succ_le_iff] using h

theorem Ordered.addRoot (h : s.Ordered) : s.addRoot.1.Ordered := by
  intro j p hparent
  rw [parent?_addRoot] at hparent
  exact h j p hparent

theorem Down.addRoot (h : s.Down) : s.addRoot.1.Down := by
  intro j p hparent hfired
  rw [parent?_addRoot] at hparent
  rw [isFired_addRoot] at hfired ⊢
  exact h j p hparent hfired

theorem Ordered.addChild {parent : ScopeId} (h : s.Ordered) (hp : parent < s.list.length) :
    (s.addChild parent).1.Ordered := by
  intro j p hparent
  rw [parent?_addChild] at hparent
  split at hparent
  · rename_i hj
    cases hparent
    exact hj ▸ hp
  · exact h j p hparent

theorem Down.addChild {parent : ScopeId} (h : s.Down) (ordered : s.Ordered) (hp : parent < s.list.length) :
    (s.addChild parent).1.Down := by
  intro j p hparent hfired
  rw [parent?_addChild] at hparent
  rw [isFired_addChild] at hfired ⊢
  split at hparent
  · rename_i hj
    cases hparent
    rw [if_neg (Nat.ne_of_lt hp)] at hfired
    rwa [if_pos hj]
  · rename_i hj
    rw [if_neg hj]
    have hlt : p < s.list.length := Nat.lt_trans (ordered j p hparent) (lt_of_parent? hparent)
    rw [if_neg (Nat.ne_of_lt hlt)] at hfired
    exact h j p hparent hfired

/-- There are more scopes, and none of the new ones has fired. -/
structure Widens (s s' : Scopes) : Prop where
  list : s.list <+: s'.list
  ordered : s'.Ordered
  down : s'.Down
  unfired : ∀ i, s.list.length ≤ i → s'.isFired i = false

namespace Widens

variable {s' : Scopes}

theorem refl (ordered : s.Ordered) (down : s.Down) : s.Widens s :=
  ⟨List.prefix_refl _, ordered, down, fun _ => s.isFired_of_length_le⟩

theorem addRoot (h : s.Widens s') : s.Widens s'.addRoot.1 where
  list := h.list.trans (List.prefix_append _ _)
  ordered := h.ordered.addRoot
  down := h.down.addRoot
  unfired i hi := (s'.isFired_addRoot i).trans (h.unfired i hi)

theorem addChild {parent : ScopeId} (h : s.Widens s') (hge : s.list.length ≤ parent) (hlt : parent < s'.list.length) :
    s.Widens (s'.addChild parent).1 where
  list := h.list.trans (List.prefix_append _ _)
  ordered := h.ordered.addChild hlt
  down := h.down.addChild h.ordered hlt
  unfired i hi := by
    rw [isFired_addChild]
    split
    · exact h.unfired parent hge
    · exact h.unfired i hi

end Widens

end Scopes

end Replica
