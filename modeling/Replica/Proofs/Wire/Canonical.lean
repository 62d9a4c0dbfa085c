import Replica.Json.Record

/-! # Values among the JSON texts

A JSON text may name a field twice, and in any order, and may hold parts that stand for nothing.  A
*value* does not: it is its own canonical form.

* `canonical_arr` and `InOrder.canonical_obj` build values from values; fields in the order of their
  names, each name once, are `InOrder`.
* `canonical_of_canonical?`: the canonical form of anything is a value.
* `get?_ofList_canonicalFields?`: each field of a canonical form is the canonical form of the field,
  so that `Canonical.field?` holds: the fields of a value are values.
* `InOrder.record?`: a record is read from fields in order by looking its own up. -/

namespace Replica.Json

/-! ### Values from values -/

theorem canonicalElements?_eq_self {xs : List Json} (h : ∀ x ∈ xs, x.Canonical) :
    canonicalElements? xs = some xs := by
  induction xs with
  | nil => simp [canonicalElements?]
  | cons x xs ih =>
      obtain ⟨hx, hxs⟩ := List.forall_mem_cons.1 h
      rw [Canonical] at hx
      simp [canonicalElements?, hx, ih hxs]

theorem canonicalFields?_eq_self {fields : List (String × Json)}
    (h : ∀ f ∈ fields, f.2.Canonical) : canonicalFields? fields = some fields := by
  induction fields with
  | nil => simp [canonicalFields?]
  | cons f fields ih =>
      obtain ⟨hf, hfields⟩ := List.forall_mem_cons.1 h
      rw [Canonical] at hf
      simp [canonicalFields?, hf, ih hfields]

theorem canonical_str (s : String) : (Json.str s).Canonical := by simp [Canonical, canonical?]

theorem canonical_int (n : Int) : (Json.int n).Canonical := by simp [Canonical, canonical?]

/-- An array of values is a value. -/
theorem canonical_arr {xs : List Json} (h : ∀ x ∈ xs, x.Canonical) : (Json.arr xs).Canonical := by
  simp [Canonical, canonical?, canonicalElements?_eq_self h]

/-- Fields in the order of their names, each name once. -/
def InOrder (fields : List (String × Json)) : Prop :=
  fields.Pairwise fun f g => compare f.1 g.1 = .lt

theorem inOrder_toList (m : SortedMap String Json) : InOrder m.toList := m.sorted

/-- An object of values in order is a value. -/
theorem InOrder.canonical_obj {fields : List (String × Json)} (h : InOrder fields)
    (hv : ∀ f ∈ fields, f.2.Canonical) : (Json.obj fields).Canonical := by
  have hsame : (SortedMap.ofList fields).toList = fields :=
    congrArg SortedMap.toList (SortedMap.ofList_toList ⟨fields, h⟩)
  simp [Canonical, canonical?, canonicalFields?_eq_self hv, hsame]

/-! ### Canonical forms -/

mutual

/-- **A canonical form is a value.** -/
theorem canonical_of_canonical? {j v : Json} (h : canonical? j = some v) : v.Canonical := by
  cases j with
  | arr xs =>
      rw [canonical?, Option.map_eq_some_iff] at h
      obtain ⟨ys, hys, rfl⟩ := h
      exact canonical_arr (canonical_of_canonicalElements? hys)
  | obj fields =>
      rw [canonical?, Option.map_eq_some_iff] at h
      obtain ⟨gs, hgs, rfl⟩ := h
      exact (inOrder_toList _).canonical_obj fun g hg =>
        canonical_of_canonicalFields? hgs g (SortedMap.mem_of_mem_ofList hg)
  | unfit => simp [canonical?] at h
  | _ =>
      simp only [canonical?, Option.some.injEq] at h
      subst h
      simp [Canonical, canonical?]

theorem canonical_of_canonicalElements? {xs ys : List Json} (h : canonicalElements? xs = some ys) :
    ∀ y ∈ ys, y.Canonical := by
  cases xs with
  | nil =>
      simp only [canonicalElements?, Option.some.injEq] at h
      simp [← h]
  | cons x xs =>
      simp only [canonicalElements?, Option.bind_eq_bind, Option.bind_eq_some_iff, Option.pure_def,
        Option.some.injEq] at h
      obtain ⟨y, hy, ys, hys, rfl⟩ := h
      exact List.forall_mem_cons.2 ⟨canonical_of_canonical? hy, canonical_of_canonicalElements? hys⟩

theorem canonical_of_canonicalFields? {fields gs : List (String × Json)}
    (h : canonicalFields? fields = some gs) : ∀ g ∈ gs, g.2.Canonical := by
  cases fields with
  | nil =>
      simp only [canonicalFields?, Option.some.injEq] at h
      simp [← h]
  | cons f fields =>
      obtain ⟨name, x⟩ := f
      simp only [canonicalFields?, Option.bind_eq_bind, Option.bind_eq_some_iff, Option.pure_def,
        Option.some.injEq] at h
      obtain ⟨y, hy, gs, hgs, rfl⟩ := h
      exact List.forall_mem_cons.2 ⟨canonical_of_canonical? hy, canonical_of_canonicalFields? hgs⟩

end

/-! ### Fields -/

/-- The fields of a value are values. -/
theorem Canonical.field? {j x : Json} {name : String} (h : j.Canonical)
    (hx : j.field? name = some x) : x.Canonical := by
  cases j with
  | obj fields =>
      rw [Canonical, canonical?, Option.map_eq_some_iff] at h
      obtain ⟨gs, hgs, hfields⟩ := h
      rw [obj.injEq] at hfields
      have hmem : (name, x) ∈ fields := SortedMap.mem_of_mem_ofList (SortedMap.mem_toList.2 hx)
      rw [← hfields] at hmem
      exact canonical_of_canonicalFields? hgs _ (SortedMap.mem_of_mem_ofList hmem)
  | _ => cases hx

/-- Each field of a canonical form is the canonical form of the field. -/
theorem get?_ofList_canonicalFields? {fields gs : List (String × Json)}
    (h : canonicalFields? fields = some gs) (name : String) :
    (SortedMap.ofList gs).get? name = ((SortedMap.ofList fields).get? name).bind canonical? := by
  -- By induction on the fields, for whatever the two maps held before.
  suffices ∀ m m' : SortedMap String Json, (∀ k, m'.get? k = (m.get? k).bind canonical?) →
      (gs.foldl (fun m g => m.insert g.1 g.2) m').get? name =
        ((fields.foldl (fun m f => m.insert f.1 f.2) m).get? name).bind canonical? from
    this .empty .empty fun _ => rfl
  induction fields generalizing gs with
  | nil =>
      simp only [canonicalFields?, Option.some.injEq] at h
      subst h
      exact fun m m' hm => hm name
  | cons f fields ih =>
      obtain ⟨k, x⟩ := f
      simp only [canonicalFields?, Option.bind_eq_bind, Option.bind_eq_some_iff, Option.pure_def,
        Option.some.injEq] at h
      obtain ⟨y, hy, gs, hgs, rfl⟩ := h
      intro m m' hm
      refine ih hgs _ _ fun l => ?_
      rw [SortedMap.get?_insert, SortedMap.get?_insert]
      split
      · exact hy.symm
      · exact hm l

/-- Dropping the fields of one name leaves the others. -/
theorem get?_ofList_drop (fields : List (String × Json)) (name other : String) :
    (SortedMap.ofList (fields.filter (·.1 != name))).get? other =
      if other = name then none else (SortedMap.ofList fields).get? other := by
  rw [SortedMap.get?_ofList, SortedMap.get?_ofList, List.filter_filter]
  split
  · rename_i h
    subst h
    rw [List.filter_eq_nil_iff.2 (by simp)]
    rfl
  · rename_i h
    congr 3
    funext f
    by_cases hf : f.1 = other <;> simp [hf, h]

/-! ### Records -/

theorem lookup_toList (m : SortedMap String Json) (name : String) :
    m.toList.lookup name = m.get? name := by
  obtain ⟨es, hes⟩ := m
  show es.lookup name = SortedMap.lookup name es
  clear hes
  induction es with
  | nil => rfl
  | cons e es ih =>
      rw [List.lookup_cons, SortedMap.lookup, ih]
      by_cases h : name = e.1
      · subst h
        simp [Std.ReflCmp.compare_self]
      · have hne : ¬ compare name e.1 = .eq := fun hc => h (Std.LawfulEqCmp.compare_eq_iff_eq.1 hc)
        simp [beq_false_of_ne h, hne]

/-- A record is read from fields in order by looking its own up. -/
theorem InOrder.record? {fields : List (String × Json)} (h : InOrder fields) (names : List String) :
    (Json.obj fields).record? names = some fun n => fields.lookup n := by
  have honce : ∀ n : String, fields.countP (·.1 == n) ≤ 1 := by
    intro n
    have hfound := congrArg List.length (SortedMap.filter_toList_key ⟨fields, h⟩ n)
    rw [List.length_map] at hfound
    have hle : ((⟨fields, h⟩ : SortedMap String Json).get? n).toList.length ≤ 1 := by
      cases (⟨fields, h⟩ : SortedMap String Json).get? n <;> simp
    rw [← hfound] at hle
    rw [List.countP_eq_length_filter]
    exact hle
  rw [Json.record?, if_neg]
  simpa using fun n _ => honce n

theorem Record.withDefault_of_some {α : Type} {r : Record} {name : String} {j : Json}
    (h : r name = some j) (read : Json → Option α) (default : α) :
    r.withDefault name read default = read j := by
  rw [withDefault, h]

/-- What is read of a field with a default is the default or was given. -/
theorem Record.withDefault_cases {α : Type} {r : Record} {name : String} {read : Json → Option α}
    {default x : α} (h : r.withDefault name read default = some x) :
    x = default ∨ ∃ j, read j = some x := by
  unfold withDefault at h
  split at h
  · exact .inl (Option.some.inj h).symm
  · exact .inr ⟨_, h⟩

/-! ### Numbers, lists and maps -/

theorem natBelow?_int {limit n : Nat} (h : n < limit) : natBelow? limit (.int n) = some n := by
  rw [natBelow?, if_pos ⟨by omega, by omega⟩, Int.toNat_natCast]

theorem lt_of_natBelow? {limit n : Nat} {j : Json} (h : natBelow? limit j = some n) : n < limit := by
  cases j with
  | int i =>
      rw [natBelow?] at h
      split at h
      · obtain rfl := Option.some.inj h
        omega
      · cases h
  | _ => cases h

/-- Elements that are read back one by one are read back together. -/
theorem mapM_map_eq_some {α β : Type} {read : β → Option α} {write : α → β} {l : List α}
    (h : ∀ a ∈ l, read (write a) = some a) : (l.map write).mapM read = some l := by
  induction l with
  | nil => rfl
  | cons a l ih =>
      obtain ⟨ha, hl⟩ := List.forall_mem_cons.1 h
      simp [List.mapM_cons, ha, ih hl]

/-- What is read as a list is read element by element. -/
theorem exists_of_mem_mapM {α β : Type} {read : β → Option α} {js : List β} {l : List α}
    (h : js.mapM read = some l) : ∀ a ∈ l, ∃ j, read j = some a := by
  induction js generalizing l with
  | nil =>
      obtain rfl : [] = l := Option.some.inj h
      simp
  | cons j js ih =>
      simp only [List.mapM_cons, Option.bind_eq_bind, Option.bind_eq_some_iff, Option.pure_def,
        Option.some.injEq] at h
      obtain ⟨a, ha, as, has, rfl⟩ := h
      exact List.forall_mem_cons.2 ⟨⟨j, ha⟩, ih has⟩

theorem stringMap?_ofStringMap (m : SortedMap String String) :
    stringMap? (ofStringMap m) = some m := by
  have hread : (m.toList.map fun e => (e.1, Json.str e.2)).mapM
      (fun f => (string? f.2).map (f.1, ·)) = some m.toList :=
    mapM_map_eq_some fun _ _ => rfl
  rw [ofStringMap, stringMap?, hread, Option.map_some, SortedMap.ofList_toList]

theorem canonical_ofStringMap (m : SortedMap String String) : (ofStringMap m).Canonical := by
  refine InOrder.canonical_obj (List.pairwise_map.2 m.sorted) fun f hf => ?_
  obtain ⟨e, -, rfl⟩ := List.mem_map.1 hf
  exact canonical_str e.2

end Replica.Json
