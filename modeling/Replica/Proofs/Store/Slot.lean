import Replica.Keeper

/-! # Stores key by key

What a store does to one key never depends on another key.  The *slot* of a key is the entry stored
under it, if there is one, and every operation is described by what it does to each slot:

* an event moves the slot of its own key as `Slot.advance` says (`get?_applyEvent`);
* a listing moves each slot as `Slot.settle` says, given the entries that it offers for the key
  (`get?_reconcile`): without an offer the slot is emptied, otherwise the offers are met one after
  the other, and a higher version wins.

`SortedMap.put` sets one slot of a map; `applyEvent_eq` and `Merge.take_eq` say of an event and of
one listed entry which slot they set, and which events they give (`Slot.echo`, `Slot.news`). -/

namespace Replica

namespace SortedMap

variable {κ υ : Type} [Ord κ] [Std.TransOrd κ] [Std.LawfulEqOrd κ]

/-- The map with the slot of `k` set: to a value, or to nothing. -/
def put (m : SortedMap κ υ) (k : κ) : Option υ → SortedMap κ υ
  | some v => m.insert k v
  | none => m.erase k

variable [DecidableEq κ]

theorem get?_put (m : SortedMap κ υ) (k k' : κ) (slot : Option υ) :
    (m.put k slot).get? k' = if k' = k then slot else m.get? k' := by
  by_cases h : k' = k
  · subst h
    cases slot <;> simp [put]
  · cases slot with
    | none => rw [if_neg h, put, get?_erase_of_ne m h]
    | some v => rw [if_neg h, put, get?_insert_of_ne m v h]

omit [DecidableEq κ] in
theorem put_get? (m : SortedMap κ υ) (k : κ) : m.put k (m.get? k) = m := by
  classical
  apply ext_get?
  intro k'
  rw [get?_put]
  split
  · rename_i h
    rw [h]
  · rfl

end SortedMap

/-- The object is stored under the key `k`, with its version as a number beside it. -/
structure Entry.FiledAt (e : Entry) (k : Key) : Prop where
  key : e.object.key = k
  named : e.object.isNamed = true
  version : e.object.version? = some e.version

theorem Entry.FiledAt.ext {e e' : Entry} {k k' : Key} (h : e.FiledAt k) (h' : e'.FiledAt k')
    (ho : e.object = e'.object) : e = e' := by
  have hv := h.version
  rw [ho, h'.version, Option.some.injEq] at hv
  cases e
  cases e'
  simp_all

namespace Slot

/-! ### Events -/

/-- The slot of the key of an event after the event: a deletion empties it; a version that is not
above the stored one, or that cannot be read, leaves it; any other object is stored or, if the
filter rejects it, removed. -/
def advance (filter : Filter) (slot : Option Entry) (e : Event) : Option Entry :=
  match e.kind, e.object.version? with
  | .delete, _ => none
  | _, none => slot
  | _, some v =>
    if slot.any (v ≤ ·.version) then slot
    else if filter.accepts e.object then some ⟨v, e.object⟩ else none

/-- The events that a store gives in answer to an event on a key, given the slot of that key. -/
def echo (filter : Filter) (slot : Option Entry) (e : Event) : List Event :=
  match e.kind, e.object.version? with
  | .delete, _ => if slot.isSome then [⟨.delete, e.object⟩] else []
  | _, none => []
  | _, some v =>
    if slot.any (v ≤ ·.version) then []
    else if filter.accepts e.object then
      [⟨if slot.isSome then .update else .create, e.object⟩]
    else if slot.isSome then [⟨.delete, e.object⟩] else []

theorem advance_delete (filter : Filter) (slot : Option Entry) {e : Event} (hk : e.kind = .delete) :
    advance filter slot e = none := by
  simp [advance, hk]

theorem advance_unread (filter : Filter) (slot : Option Entry) {e : Event} (hk : e.kind ≠ .delete)
    (hv : e.object.version? = none) : advance filter slot e = slot := by
  obtain ⟨kind, o⟩ := e
  cases kind <;> simp_all [advance]

theorem advance_write (filter : Filter) (slot : Option Entry) {e : Event} (hk : e.kind ≠ .delete)
    {v : Nat} (hv : e.object.version? = some v) :
    advance filter slot e =
      if slot.any (v ≤ ·.version) then slot
      else if filter.accepts e.object then some ⟨v, e.object⟩ else none := by
  obtain ⟨kind, o⟩ := e
  cases kind <;> simp_all [advance]

theorem echo_delete (filter : Filter) (slot : Option Entry) {e : Event} (hk : e.kind = .delete) :
    echo filter slot e = if slot.isSome then [⟨.delete, e.object⟩] else [] := by
  simp [echo, hk]

theorem echo_unread (filter : Filter) (slot : Option Entry) {e : Event} (hk : e.kind ≠ .delete)
    (hv : e.object.version? = none) : echo filter slot e = [] := by
  obtain ⟨kind, o⟩ := e
  cases kind <;> simp_all [echo]

theorem echo_write (filter : Filter) (slot : Option Entry) {e : Event} (hk : e.kind ≠ .delete)
    {v : Nat} (hv : e.object.version? = some v) :
    echo filter slot e =
      if slot.any (v ≤ ·.version) then []
      else if filter.accepts e.object then
        [⟨if slot.isSome then .update else .create, e.object⟩]
      else if slot.isSome then [⟨.delete, e.object⟩] else [] := by
  obtain ⟨kind, o⟩ := e
  cases kind <;> simp_all [echo]

/-- What a slot holds after an event was there before or is the object of the event, which the
filter accepts. -/
theorem advance_cases {filter : Filter} {slot : Option Entry} {e : Event} {entry : Entry}
    (h : advance filter slot e = some entry) :
    slot = some entry ∨
      e.kind ≠ .delete ∧ entry.object = e.object ∧ e.object.version? = some entry.version ∧
        filter.accepts e.object = true := by
  by_cases hd : e.kind = .delete
  · rw [advance_delete filter slot hd] at h
    cases h
  · cases hv : e.object.version? with
    | none =>
        rw [advance_unread filter slot hd hv] at h
        exact .inl h
    | some v =>
        rw [advance_write filter slot hd hv] at h
        split at h
        · exact .inl h
        · split at h
          · rename_i ha
            rw [Option.some.injEq] at h
            subst h
            exact .inr ⟨hd, rfl, rfl, ha⟩
          · cases h

/-- The slot after several events on its key. -/
def replay (filter : Filter) (slot : Option Entry) (es : List Event) : Option Entry :=
  es.foldl (advance filter) slot

/-- The events on one key. -/
def eventsOf (k : Key) (es : List Event) : List Event := es.filter (·.object.key = k)

@[simp] theorem replay_nil (filter : Filter) (slot : Option Entry) :
    replay filter slot [] = slot := rfl

@[simp] theorem replay_cons (filter : Filter) (slot : Option Entry) (e : Event) (es : List Event) :
    replay filter slot (e :: es) = replay filter (advance filter slot e) es := rfl

theorem replay_append (filter : Filter) (slot : Option Entry) (es fs : List Event) :
    replay filter slot (es ++ fs) = replay filter (replay filter slot es) fs := by
  simp [replay]

@[simp] theorem eventsOf_nil (k : Key) : eventsOf k [] = [] := rfl

theorem eventsOf_cons (k : Key) (e : Event) (es : List Event) :
    eventsOf k (e :: es) = if e.object.key = k then e :: eventsOf k es else eventsOf k es := by
  simp [eventsOf, List.filter_cons]

theorem eventsOf_append (k : Key) (es fs : List Event) :
    eventsOf k (es ++ fs) = eventsOf k es ++ eventsOf k fs := by
  simp [eventsOf]

/-! ### Listings -/

/-- The entry that is kept when an entry is listed for a slot: the listed one, unless the stored
version is as high. -/
def meet (slot : Option Entry) (e : Entry) : Entry :=
  match slot with
  | none => e
  | some old => if old.version < e.version then e else old

/-- The events of meeting a listed entry. -/
def news (slot : Option Entry) (e : Entry) : List Event :=
  match slot with
  | none => [⟨.create, e.object⟩]
  | some old => if old.version < e.version then [⟨.update, e.object⟩] else []

/-- The slot after meeting several listed entries. -/
def meetAll (slot : Option Entry) (es : List Entry) : Option Entry :=
  es.foldl (fun s e => some (meet s e)) slot

/-- The slot after a listing that offers the entries `es` for its key. -/
def settle (slot : Option Entry) (es : List Entry) : Option Entry :=
  if es = [] then none else meetAll slot es

/-- The entries that a listing offers for the key `k`. -/
def offers (k : Key) (incoming : List (Key × Entry)) : List Entry :=
  (incoming.filter (·.1 = k)).map Prod.snd

@[simp] theorem offers_nil (k : Key) : offers k [] = [] := rfl

theorem offers_cons (k : Key) (e : Key × Entry) (incoming : List (Key × Entry)) :
    offers k (e :: incoming) =
      if e.1 = k then e.2 :: offers k incoming else offers k incoming := by
  by_cases h : e.1 = k <;> simp [offers, h]

theorem mem_offers {k : Key} {e : Entry} {incoming : List (Key × Entry)} :
    e ∈ offers k incoming ↔ (k, e) ∈ incoming := by
  simp only [offers, List.mem_map, List.mem_filter, decide_eq_true_eq, Prod.exists]
  constructor
  · rintro ⟨k', e', ⟨hm, rfl⟩, rfl⟩
    exact hm
  · intro hm
    exact ⟨k, e, ⟨hm, rfl⟩, rfl⟩

theorem meet_eq_or (slot : Option Entry) (e : Entry) :
    meet slot e = e ∨ slot = some (meet slot e) := by
  cases slot with
  | none => exact .inl rfl
  | some old =>
      by_cases h : old.version < e.version
      · exact .inl (by simp [meet, h])
      · exact .inr (by simp [meet, h])

theorem mem_or_of_meetAll {slot : Option Entry} {es : List Entry} {e : Entry}
    (h : meetAll slot es = some e) : e ∈ es ∨ slot = some e := by
  induction es generalizing slot with
  | nil => exact .inr h
  | cons o es ih =>
      rcases ih h with hm | hs
      · exact .inl (List.mem_cons_of_mem o hm)
      · rw [Option.some.injEq] at hs
        rcases meet_eq_or slot o with ho | hold
        · exact .inl (by rw [← hs, ho]; exact List.mem_cons_self)
        · exact .inr (by rw [hold, hs])

theorem mem_or_of_settle {slot : Option Entry} {es : List Entry} {e : Entry}
    (h : settle slot es = some e) : e ∈ es ∨ slot = some e := by
  unfold settle at h
  split at h
  · cases h
  · exact mem_or_of_meetAll h

theorem meetAll_of_le {old : Entry} {es : List Entry} (h : ∀ e ∈ es, e.version ≤ old.version) :
    meetAll (some old) es = some old := by
  induction es with
  | nil => rfl
  | cons e es ih =>
      rw [List.forall_mem_cons] at h
      have hmeet : meet (some old) e = old := by
        have : ¬ old.version < e.version := by omega
        simp [meet, this]
      change meetAll (some (meet (some old) e)) es = some old
      rw [hmeet]
      exact ih h.2

theorem le_of_meetAll {old x : Entry} {es : List Entry} (h : meetAll (some old) es = some x) :
    old.version ≤ x.version ∧ ∀ e ∈ es, e.version ≤ x.version := by
  induction es generalizing old with
  | nil =>
      cases h
      exact ⟨Nat.le_refl _, by simp⟩
  | cons e es ih =>
      obtain ⟨hle, hall⟩ := @ih (meet (some old) e) h
      rw [List.forall_mem_cons]
      by_cases hlt : old.version < e.version
      · have hmeet : meet (some old) e = e := by simp [meet, hlt]
        rw [hmeet] at hle
        exact ⟨by omega, hle, hall⟩
      · have hmeet : meet (some old) e = old := by simp [meet, hlt]
        rw [hmeet] at hle
        exact ⟨hle, by omega, hall⟩

/-- A listing keeps the stored entry exactly if it offers something for its key, and nothing newer.
-/
theorem settle_eq_self_iff {old : Entry} {es : List Entry} :
    settle (some old) es = some old ↔ es ≠ [] ∧ ∀ e ∈ es, e.version ≤ old.version := by
  unfold settle
  constructor
  · intro hs
    split at hs
    · cases hs
    · rename_i hne
      exact ⟨hne, (le_of_meetAll hs).2⟩
  · rintro ⟨hne, hle⟩
    rw [if_neg hne]
    exact meetAll_of_le hle

theorem le_of_settle {slot : Option Entry} {es : List Entry} {x : Entry}
    (h : settle slot es = some x) : ∀ e ∈ es, e.version ≤ x.version := by
  unfold settle at h
  split at h
  · cases h
  · cases slot with
    | some old => exact (le_of_meetAll h).2
    | none =>
        cases es with
        | nil => cases h
        | cons e es =>
            have hfirst : e.version ≤ x.version ∧ ∀ e' ∈ es, e'.version ≤ x.version :=
              le_of_meetAll h
            exact List.forall_mem_cons.2 hfirst

theorem isSome_meetAll (old : Entry) (es : List Entry) : (meetAll (some old) es).isSome = true := by
  induction es generalizing old with
  | nil => rfl
  | cons e es ih => exact ih (meet (some old) e)

/-- A listing leaves nothing under a key exactly if it offers nothing there. -/
theorem settle_eq_none_iff {slot : Option Entry} {es : List Entry} :
    settle slot es = none ↔ es = [] := by
  cases es with
  | nil => simp [settle]
  | cons e es =>
      have hsome : (meetAll slot (e :: es)).isSome = true := isSome_meetAll (meet slot e) es
      have hsettle : settle slot (e :: es) = meetAll slot (e :: es) := by simp [settle]
      rw [hsettle, ← Option.not_isSome_iff_eq_none, hsome]
      simp

end Slot

namespace Store

open Slot

/-! ### What an event does to the slots -/

/-- An event acts on contents as it acts on the slot of its key. -/
theorem applyEvent_eq (filter : Filter) (items : Contents) (e : Event) :
    applyEvent filter items e =
      (items.put e.object.key (advance filter (items.get? e.object.key) e),
        echo filter (items.get? e.object.key) e) := by
  have hsame := items.put_get? e.object.key
  obtain ⟨kind, o⟩ := e
  simp only at hsame
  cases hg : items.get? o.key with
  | none =>
      rw [hg] at hsame
      cases hv : o.version? <;> cases ha : filter.accepts o <;> cases kind <;>
        simp [applyEvent, advance, echo, SortedMap.contains, hg, hv, ha, hsame]
      all_goals simp [SortedMap.put]
  | some old =>
      rw [hg] at hsame
      cases kind with
      | delete => simp [applyEvent, advance, echo, SortedMap.contains, hg, SortedMap.put]
      | _ =>
          cases hv : o.version? with
          | none => simp [applyEvent, advance, echo, hv, hsame]
          | some v =>
              by_cases hle : v ≤ old.version <;> cases ha : filter.accepts o <;>
                simp [applyEvent, advance, echo, hg, hv, hle, ha, hsame]
              all_goals simp [SortedMap.put]

theorem get?_applyEvent (filter : Filter) (items : Contents) (e : Event) (k : Key) :
    (applyEvent filter items e).1.get? k =
      if e.object.key = k then advance filter (items.get? k) e else items.get? k := by
  rw [applyEvent_eq, SortedMap.get?_put]
  by_cases h : e.object.key = k
  · subst h
    simp
  · rw [if_neg h, if_neg (Ne.symm h)]

/-! ### What a listing does to the slots -/

/-- The slot of a key while a listing is being merged. -/
def Merge.slot (m : Merge) (k : Key) : Option Entry := (m.listed.get? k).or (m.unlisted.get? k)

theorem Merge.take_eq (m : Merge) (e : Key × Entry) :
    m.take e =
      ⟨m.unlisted.erase e.1, m.listed.insert e.1 (meet (m.slot e.1) e.2),
        m.events ++ news (m.slot e.1) e.2⟩ := by
  unfold Merge.take Merge.slot
  cases (m.listed.get? e.1).or (m.unlisted.get? e.1) with
  | none => rfl
  | some old =>
      by_cases h : old.version < e.2.version <;> simp [meet, news, h]

theorem Merge.slot_take (m : Merge) (e : Key × Entry) (k : Key) :
    (m.take e).slot k = if e.1 = k then some (meet (m.slot k) e.2) else m.slot k := by
  rw [Merge.take_eq]
  by_cases h : e.1 = k
  · subst h
    simp [Merge.slot]
  · rw [if_neg h]
    simp only [Merge.slot]
    rw [SortedMap.get?_insert_of_ne _ _ (Ne.symm h), SortedMap.get?_erase_of_ne _ (Ne.symm h)]

theorem slot_foldl_take (incoming : List (Key × Entry)) (m : Merge) (k : Key) :
    (incoming.foldl Merge.take m).slot k = meetAll (m.slot k) (offers k incoming) := by
  induction incoming generalizing m with
  | nil => rfl
  | cons e incoming ih =>
      rw [List.foldl_cons, ih, Merge.slot_take, offers_cons]
      split <;> rfl

theorem unlisted_foldl_take (incoming : List (Key × Entry)) (m : Merge) (k : Key) :
    (incoming.foldl Merge.take m).unlisted.get? k =
      if offers k incoming = [] then m.unlisted.get? k else none := by
  induction incoming generalizing m with
  | nil => rfl
  | cons e incoming ih =>
      rw [List.foldl_cons, ih, offers_cons, Merge.take_eq]
      by_cases h : e.1 = k
      · subst h
        simp
      · rw [if_neg h, SortedMap.get?_erase_of_ne _ (Ne.symm h)]

theorem listed_foldl_take (incoming : List (Key × Entry)) (m : Merge) (k : Key)
    (h : offers k incoming = []) :
    (incoming.foldl Merge.take m).listed.get? k = m.listed.get? k := by
  induction incoming generalizing m with
  | nil => rfl
  | cons e incoming ih =>
      rw [offers_cons] at h
      split at h
      · cases h
      · rename_i hk
        rw [List.foldl_cons, ih _ h, Merge.take_eq, SortedMap.get?_insert_of_ne _ _ (Ne.symm hk)]

/-- **The contents after a listing**, key by key. -/
theorem get?_reconcile (current : Contents) (incoming : List (Key × Entry)) (k : Key) :
    (reconcile current incoming).1.get? k = settle (current.get? k) (offers k incoming) := by
  show (incoming.foldl Merge.take ⟨current, .empty, []⟩).listed.get? k = _
  unfold settle
  split
  · rename_i h
    rw [listed_foldl_take incoming _ k h]
    rfl
  · rename_i h
    have hslot := slot_foldl_take incoming ⟨current, .empty, []⟩ k
    have hun := unlisted_foldl_take incoming ⟨current, .empty, []⟩ k
    rw [if_neg h] at hun
    rw [Merge.slot, hun, Option.or_none] at hslot
    rw [hslot]
    rfl

/-- The first listing is adopted: the last of several entries of one key stays. -/
theorem get?_ofList (incoming : List (Key × Entry)) (k : Key) :
    (SortedMap.ofList incoming).get? k = (offers k incoming).getLast? :=
  SortedMap.get?_ofList incoming k

end Store

end Replica
