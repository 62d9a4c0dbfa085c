import Replica.Proofs.Store.Reconciliation

/-! # How a store keeps its objects

An object is stored three times over: under its key, with its version as a number, and as it came.
The three agree in every store that requests lead to (`Store.Filed`), so reading one key and listing
everything tell the same, and no key is listed twice.

While a key is there, what is stored under it only gets newer.  `Entry.YieldsTo` says so of two
entries that stand under a key one after the other: the second is the first one, or its version is
higher.  A deletion ends this, and what is created after it can be older.

* `get?_eq_some_iff`, `nodup_keys_list`: what is read under a key is what is listed with it, and
  there is one listed object for each key.
* `Slot.yieldsTo_advance`, `Slot.yieldsTo_settle`: an event and a listing respect the order of
  versions, each by its own comparison.
* `yieldsTo_run`, `yieldsTo_after`: so does every request, and a row of them as long as the key does
  not go in between.
* `filed_and_yielding` puts this together for every store that requests lead to. -/

namespace Replica

namespace Entry

/-- The second entry can follow the first one under its key: it is the same, or it is newer. -/
def YieldsTo (e e' : Entry) : Prop := e' = e ∨ e.version < e'.version

theorem YieldsTo.refl (e : Entry) : e.YieldsTo e := .inl rfl

theorem YieldsTo.trans {e e' e'' : Entry} (h : e.YieldsTo e') (h' : e'.YieldsTo e'') :
    e.YieldsTo e'' := by
  rcases h with rfl | hlt
  · exact h'
  · rcases h' with rfl | hlt'
    · exact .inr hlt
    · exact .inr (Nat.lt_trans hlt hlt')

end Entry

namespace Slot

theorem yieldsTo_advance {filter : Filter} {old new : Entry} {e : Event}
    (h : advance filter (some old) e = some new) : old.YieldsTo new := by
  by_cases hd : e.kind = .delete
  · rw [advance_delete filter _ hd] at h
    cases h
  · cases hv : e.object.version? with
    | none =>
        rw [advance_unread filter _ hd hv] at h
        exact .inl (Option.some.inj h).symm
    | some v =>
        rw [advance_write filter _ hd hv, Option.any_some] at h
        split at h
        · exact .inl (Option.some.inj h).symm
        · rename_i hnewer
          split at h
          · cases h
            exact .inr (by simpa using hnewer)
          · cases h

theorem yieldsTo_settle {old new : Entry} {es : List Entry} (h : settle (some old) es = some new) :
    old.YieldsTo new := by
  unfold settle at h
  split at h
  · cases h
  · rcases stored_or_first_of_meetAll h with ⟨hkept, -⟩ | ⟨hnewer, -⟩
    · exact .inl (Option.some.inj hkept).symm
    · exact .inr (hnewer old rfl)

end Slot

namespace Store

open Slot

/-! ### Reading a key and listing all -/

theorem mem_list {s : Store} {o : Object} : o ∈ s.list ↔ ∃ k e, s.slot k = some e ∧ e.object = o := by
  cases hi : s.items with
  | none => simp [list, slot, hi]
  | some items =>
      simp only [list, slot, hi, SortedMap.values, Option.getD_some, List.mem_map, Prod.exists,
        SortedMap.mem_toList]
      constructor
      · rintro ⟨e, ⟨k, e, hk, rfl⟩, rfl⟩
        exact ⟨k, e, hk, rfl⟩
      · rintro ⟨k, e, hk, rfl⟩
        exact ⟨e, ⟨k, e, hk, rfl⟩, rfl⟩

/-- **What is read under a key is what is listed with it.** -/
theorem get?_eq_some_iff {s : Store} (hs : s.Filed) {k : Key} {o : Object} :
    s.get? k = some o ↔ o ∈ s.list ∧ o.key = k := by
  rw [get?_eq_slot, Option.map_eq_some_iff, mem_list]
  constructor
  · rintro ⟨e, hk, rfl⟩
    exact ⟨⟨k, e, hk, rfl⟩, (hs hk).key⟩
  · rintro ⟨⟨k', e, hk', rfl⟩, rfl⟩
    refine ⟨e, ?_, rfl⟩
    rwa [(hs hk').key]

theorem map_key_list {s : Store} (hs : s.Filed) : s.list.map Object.key = (s.items.getD .empty).keys := by
  cases hi : s.items with
  | none => simp [list, hi, SortedMap.keys, SortedMap.toList, SortedMap.empty]
  | some items =>
      have hkey : ∀ e ∈ items.toList, e.2.object.key = e.1 := by
        intro e he
        have hslot : s.slot e.1 = some e.2 := by
          rw [slot, hi]
          exact SortedMap.mem_toList.1 he
        exact (hs hslot).key
      simp only [list, hi, SortedMap.values, SortedMap.keys, Option.getD_some, List.map_map]
      exact List.map_congr_left hkey

/-- **No two listed objects have the same key.** -/
theorem nodup_keys_list {s : Store} (hs : s.Filed) : (s.list.map Object.key).Nodup := by
  rw [map_key_list hs]
  exact SortedMap.nodup_keys _

/-! ### One request after the other -/

theorem yieldsTo_relist {s : Store} {filter : Filter} {list : List Object} {k : Key} {old new : Entry}
    (hold : s.slot k = some old) (hnew : s.relist filter list k = some new) : old.YieldsTo new := by
  cases hi : s.items with
  | none => simp [slot, hi] at hold
  | some items =>
      rw [relist, hi, Option.isSome_some, if_pos rfl, hold] at hnew
      exact yieldsTo_settle hnew

/-- **One request.**  A key that is stored before and after it has the same entry, or a newer one. -/
theorem yieldsTo_run {s : Store} {r : Request} {k : Key} {old new : Entry}
    (hold : s.slot k = some old) (hnew : (r.run s).1.slot k = some new) : old.YieldsTo new := by
  have hsame : s.slot k = some new → old.YieldsTo new := by
    intro h
    rw [hold] at h
    exact .inl (Option.some.inj h).symm
  cases r with
  | sync list =>
      change (s.sync list).1.slot k = some new at hnew
      rw [slot_sync] at hnew
      exact yieldsTo_relist hold hnew
  | update e =>
      change (s.update e).1.slot k = some new at hnew
      rw [slot_update] at hnew
      split at hnew
      · rw [hold] at hnew
        exact yieldsTo_advance hnew
      · exact hsame hnew
  | refilter list filter =>
      change (s.refilter list filter).1.slot k = some new at hnew
      cases hfilter : s.filter.same filter with
      | true =>
          rw [slot_refilter_of_same hfilter] at hnew
          exact hsame hnew
      | false =>
          rw [slot_refilter hfilter] at hnew
          cases list with
          | none => exact hsame (Option.filter_eq_some_iff.1 hnew).1
          | some list => exact yieldsTo_relist hold hnew
  | get key => exact hsame hnew
  | contents => exact hsame hnew

/-- **Several requests.**  As long as a key does not go, what is stored under it only gets newer. -/
theorem yieldsTo_after {s : Store} {rs : List Request} {k : Key} {old new : Entry}
    (hold : s.slot k = some old)
    (hstays : ∀ pre post, rs = pre ++ post → (s.after pre).slot k ≠ none)
    (hnew : (s.after rs).slot k = some new) : old.YieldsTo new := by
  induction rs generalizing s old with
  | nil =>
      rw [after_nil, hold] at hnew
      exact .inl (Option.some.inj hnew).symm
  | cons r rs ih =>
      obtain ⟨next, hnext⟩ := Option.ne_none_iff_exists'.1 (hstays [r] rs rfl)
      refine (yieldsTo_run hold hnext).trans (ih hnext (fun pre post hrs => ?_) hnew)
      exact hstays (r :: pre) post (by rw [hrs, List.cons_append])

/-- **How a store keeps its objects.**  In a store that requests have led to, every entry stands
under the key of its object, which has a name, with the number that the object's version stands for.
So a key reads as an object exactly if this object is listed and has the key, and no two listed
objects have the same key.  And whatever request comes next, a key that is there before and after it
has the same entry, or one with a higher version. -/
theorem filed_and_yielding (filter : Filter) (before : List Request) :
    let s := (Store.new filter).after before
    (∀ k e, s.slot k = some e →
      e.object.key = k ∧ e.object.isNamed = true ∧ e.object.version? = some e.version) ∧
    (∀ k o, s.get? k = some o ↔ o ∈ s.list ∧ o.key = k) ∧
    (s.list.map Object.key).Nodup ∧
    ∀ (r : Request) k old new, s.slot k = some old → (r.run s).1.slot k = some new →
      old.YieldsTo new := by
  intro s
  have hs : s.Filed := filed_after (filed_new filter) before
  refine ⟨fun k e he => ?_, fun k o => get?_eq_some_iff hs, nodup_keys_list hs, ?_⟩
  · have hfiled := hs he
    exact ⟨hfiled.key, hfiled.named, hfiled.version⟩
  · intro r k old new hold hnew
    exact yieldsTo_run hold hnew

/-- Two objects are stored, and a listing has an older version of one and two newer ones of the
other. -/
theorem filed_and_yielding_of_mixed_listing :
    let s := (Store.new .acceptAll).after [.sync [.bare "a" "x" "5", .bare "a" "y" "1"]]
    let r := Request.sync [.bare "a" "x" "3", .bare "a" "y" "2", .bare "a" "y" "4"]
    let x : Entry := ⟨5, .bare "a" "x" "5"⟩
    let y : Entry := ⟨1, .bare "a" "y" "1"⟩
    let y' : Entry := ⟨4, .bare "a" "y" "4"⟩
    (s.slot ⟨"a", "x"⟩ = some x ∧ (r.run s).1.slot ⟨"a", "x"⟩ = some x ∧ x.YieldsTo x) ∧
      (s.slot ⟨"a", "y"⟩ = some y ∧ (r.run s).1.slot ⟨"a", "y"⟩ = some y' ∧ y.YieldsTo y') ∧
      x.object.key = ⟨"a", "x"⟩ ∧ s.get? ⟨"a", "y"⟩ = some y.object ∧ y.object ∈ s.list := by
  intro s r x y y'
  obtain ⟨hfiled, hread, -, hyields⟩ := filed_and_yielding .acceptAll
    [.sync [.bare "a" "x" "5", .bare "a" "y" "1"]]
  have hx : s.slot ⟨"a", "x"⟩ = some x := by decide +kernel
  have hx' : (r.run s).1.slot ⟨"a", "x"⟩ = some x := by decide +kernel
  have hy : s.slot ⟨"a", "y"⟩ = some y := by decide +kernel
  have hy' : (r.run s).1.slot ⟨"a", "y"⟩ = some y' := by decide +kernel
  have hget : s.get? ⟨"a", "y"⟩ = some y.object := by decide +kernel
  exact ⟨⟨hx, hx', hyields r _ x x hx hx'⟩, ⟨hy, hy', hyields r _ y y' hy hy'⟩,
    (hfiled _ x hx).1, hget, ((hread _ _).1 hget).1⟩

end Store

end Replica
