import Replica.Proofs.Store.Slot

/-! # Stores under requests

A store changes by the requests that are made of it, one after the other: `Store.after` is the
store after some requests, and `Store.emitted` are the events that they give, in order.

* `Store.slot` is what is stored under a key; `slot_sync`, `slot_update` and `slot_refilter` say
  what becomes of it.
* `slot_run_cases`: what is stored after a request was stored before, or the request has brought
  it, and then it is filed in its place and the filter accepts it.
* `Store.Filed` says that every entry stands under the key of its object, with the number of that
  object's version.  Requests keep it (`filed_run`), so a store that is reached from a new one has
  it (`filed_after`). -/

namespace Replica

/-- What an event leaves under its key. -/
def Event.leaves (e : Event) : Option Object :=
  match e.kind with
  | .delete => none
  | _ => some e.object

theorem Event.leaves_delete {e : Event} (h : e.kind = .delete) : e.leaves = none := by
  simp [leaves, h]

theorem Event.leaves_write {e : Event} (h : e.kind ≠ .delete) : e.leaves = some e.object := by
  obtain ⟨kind, o⟩ := e
  cases kind <;> simp_all [leaves]

/-- An object with an identity and a version, and nothing else. -/
def Object.bare (ns name version : String) : Object := ⟨⟨ns, name, version, .empty⟩, .empty⟩

/-- One label. -/
def Labels.app : Labels := .ofList [("app", "db")]

/-- An object with an identity, a version and this label. -/
def Object.tagged (ns name version : String) : Object := ⟨⟨ns, name, version, .app⟩, .empty⟩

/-- The objects that a request can bring into a store. -/
def Request.brings : Request → List Object
  | .sync list => list
  | .update e => e.leaves.toList
  | .refilter (some list) _ => list
  | _ => []

namespace Store

open Slot

/-! ### The slots of a store -/

/-- The entry that a store holds under a key; without contents there is none. -/
def slot (s : Store) (k : Key) : Option Entry := (s.items.getD .empty).get? k

theorem get?_eq_slot (s : Store) (k : Key) : s.get? k = (s.slot k).map Entry.object := by
  cases h : s.items with
  | none => simp [get?, slot, h]
  | some items => cases hk : items.get? k <;> simp [get?, slot, h, hk]

theorem get?_eq_none_iff (s : Store) (k : Key) : s.get? k = none ↔ s.slot k = none := by
  rw [get?_eq_slot, Option.map_eq_none_iff]

theorem entryOf?_eq (filter : Filter) (o : Object) :
    entryOf? filter o =
      if filter.accepts o && o.isNamed then o.version?.map fun v => (o.key, ⟨v, o⟩) else none := by
  unfold entryOf?
  cases filter.accepts o && o.isNamed with
  | false => rfl
  | true => cases o.version? <;> rfl

/-- A listed object has an entry exactly if the filter accepts it, it has a name and its version can
be read. -/
theorem mem_entries {filter : Filter} {list : List Object} {k : Key} {e : Entry} :
    (k, e) ∈ entries filter list ↔
      e.object ∈ list ∧ e.FiledAt k ∧ filter.accepts e.object = true := by
  simp only [entries, List.mem_filterMap, entryOf?_eq]
  constructor
  · rintro ⟨o, ho, h⟩
    split at h
    · rename_i hc
      rw [Bool.and_eq_true] at hc
      obtain ⟨v, hv, hentry⟩ := Option.map_eq_some_iff.1 h
      rw [Prod.mk.injEq] at hentry
      obtain ⟨rfl, rfl⟩ := hentry
      exact ⟨ho, ⟨rfl, hc.2, hv⟩, hc.1⟩
    · cases h
  · rintro ⟨ho, hf, ha⟩
    refine ⟨e.object, ho, ?_⟩
    simp [ha, hf.named, hf.version, hf.key]

/-- What a listing does to a slot: the first one is adopted, a later one settles the slot. -/
def relist (s : Store) (filter : Filter) (list : List Object) (k : Key) : Option Entry :=
  if s.items.isSome then settle (s.slot k) (offers k (entries filter list))
  else (offers k (entries filter list)).getLast?

theorem slot_sync (s : Store) (list : List Object) (k : Key) :
    (s.sync list).1.slot k = s.relist s.filter list k := by
  cases h : s.items with
  | none => simp [sync, slot, relist, h, get?_ofList]
  | some current => simp [sync, slot, relist, h, get?_reconcile]

theorem slot_update (s : Store) (e : Event) (k : Key) :
    (s.update e).1.slot k =
      if e.object.isNamed ∧ e.object.key = k then advance s.filter (s.slot k) e else s.slot k := by
  unfold update
  by_cases hn : e.object.isNamed = true
  · simp [hn, slot, get?_applyEvent]
  · simp [hn]

theorem slot_refilter_of_same {s : Store} {filter : Filter} (h : s.filter.same filter = true)
    (list : Option (List Object)) : s.refilter list filter = (s, []) := by
  simp [refilter, h]

theorem slot_refilter {s : Store} {filter : Filter} (h : s.filter.same filter = false)
    (list : Option (List Object)) (k : Key) :
    (s.refilter list filter).1.slot k =
      match list with
      | none => (s.slot k).filter (filter.accepts ·.object)
      | some list => s.relist filter list k := by
  cases hi : s.items <;> cases list <;>
    simp [refilter, h, hi, slot, relist, get?_ofList, get?_reconcile, SortedMap.get?_filter]

theorem filter_refilter {s : Store} {filter : Filter} (h : s.filter.same filter = false)
    (list : Option (List Object)) : (s.refilter list filter).1.filter = filter := by
  cases hi : s.items <;> cases list <;> simp [refilter, h, hi]

theorem filter_sync (s : Store) (list : List Object) : (s.sync list).1.filter = s.filter := by
  cases hi : s.items <;> simp [sync, hi]

theorem filter_update (s : Store) (e : Event) : (s.update e).1.filter = s.filter := by
  unfold update
  split <;> rfl

/-! ### Requests -/

theorem relist_cases {s : Store} {filter : Filter} {list : List Object} {k : Key} {e : Entry}
    (h : s.relist filter list k = some e) :
    s.slot k = some e ∨ e ∈ offers k (entries filter list) := by
  unfold relist at h
  split at h
  · exact (mem_or_of_settle h).symm
  · exact .inr (List.mem_of_getLast? h)

/-- **What a request brings in.**  An entry that is stored after a request was stored before, or
the request has brought its object: then it is filed under its key, and the filter that the store
is bound to now accepts it. -/
theorem slot_run_cases {s : Store} {r : Request} {k : Key} {e : Entry}
    (h : (r.run s).1.slot k = some e) :
    s.slot k = some e ∨
      e.object ∈ r.brings ∧ e.FiledAt k ∧ (r.run s).1.filter.accepts e.object = true := by
  cases r with
  | sync list =>
      change (s.sync list).1.slot k = some e at h
      rw [slot_sync] at h
      show _ ∨ e.object ∈ list ∧ _ ∧ (s.sync list).1.filter.accepts _ = true
      rw [filter_sync]
      exact (relist_cases h).imp_right fun hm => mem_entries.1 (mem_offers.1 hm)
  | update ev =>
      change (s.update ev).1.slot k = some e at h
      rw [slot_update] at h
      show _ ∨ e.object ∈ ev.leaves.toList ∧ _ ∧ (s.update ev).1.filter.accepts _ = true
      rw [filter_update]
      split at h
      · rename_i hc
        rcases advance_cases h with hs | ⟨hd, ho, hv, ha⟩
        · exact .inl hs
        · refine .inr ⟨?_, ⟨by rw [ho, hc.2], by rw [ho, hc.1], by rw [ho, hv]⟩, by rw [ho, ha]⟩
          rw [Event.leaves_write hd, ho]
          exact List.mem_singleton_self _
      · exact .inl h
  | refilter list filter =>
      change (s.refilter list filter).1.slot k = some e at h
      cases hs : s.filter.same filter with
      | true =>
          rw [slot_refilter_of_same hs] at h
          exact .inl h
      | false =>
          rw [slot_refilter hs] at h
          cases list with
          | none => exact .inl (Option.filter_eq_some_iff.1 h).1
          | some list =>
              show _ ∨ e.object ∈ list ∧ _ ∧
                (s.refilter (some list) filter).1.filter.accepts _ = true
              rw [filter_refilter hs]
              exact (relist_cases h).imp_right fun hm => mem_entries.1 (mem_offers.1 hm)
  | get key => exact .inl h
  | contents => exact .inl h

theorem isSome_items_run {s : Store} (h : s.items.isSome = true) (r : Request) :
    (r.run s).1.items.isSome = true := by
  obtain ⟨items, filter⟩ := s
  obtain ⟨current, rfl⟩ := Option.isSome_iff_exists.1 h
  cases r with
  | sync list => rfl
  | update e =>
      change ((update _ e).1.items).isSome = true
      unfold update
      split <;> rfl
  | refilter list filter' =>
      change ((refilter _ list filter').1.items).isSome = true
      unfold refilter
      split
      · rfl
      · cases list <;> rfl
  | get key => rfl
  | contents => rfl

/-- Every entry stands under the key of its object, with the number of that object's version. -/
def Filed (s : Store) : Prop := ∀ ⦃k e⦄, s.slot k = some e → e.FiledAt k

theorem filed_new (filter : Filter) : (Store.new filter).Filed := by
  intro k e h
  simp [Store.new, slot] at h

theorem filed_run {s : Store} (hs : s.Filed) (r : Request) : (r.run s).1.Filed := by
  intro k e h
  rcases slot_run_cases h with h | h
  · exact hs h
  · exact h.2.1

/-! ### Several requests -/

/-- The store after some requests. -/
def after (s : Store) (rs : List Request) : Store := rs.foldl (fun s r => (r.run s).1) s

/-- The events that some requests give, in order. -/
def emitted (s : Store) : List Request → List Event
  | [] => []
  | r :: rs => (r.run s).2.eventList ++ emitted (r.run s).1 rs

@[simp] theorem after_nil (s : Store) : s.after [] = s := rfl

@[simp] theorem after_cons (s : Store) (r : Request) (rs : List Request) :
    s.after (r :: rs) = (r.run s).1.after rs := rfl

theorem after_append (s : Store) (rs rs' : List Request) :
    s.after (rs ++ rs') = (s.after rs).after rs' := by
  simp [after]

theorem isSome_items_after {s : Store} (h : s.items.isSome = true) (rs : List Request) :
    (s.after rs).items.isSome = true := by
  induction rs generalizing s with
  | nil => exact h
  | cons r rs ih => exact ih (isSome_items_run h r)

theorem filed_after {s : Store} (hs : s.Filed) (rs : List Request) : (s.after rs).Filed := by
  induction rs generalizing s with
  | nil => exact hs
  | cons r rs ih => exact ih (filed_run hs r)

end Store

end Replica
