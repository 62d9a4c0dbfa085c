import Replica.Proofs.Store.Log
import Replica.Proofs.Store.Membership

/-! # A store converges to the log that it is fed from

A store may have been fed from a log in any way, by snapshots of any age and by single revisions in
any order, with gaps and with repetitions.  `after_relisting` says that a snapshot at a version,
followed by all later revisions in order, still leads to exactly what is alive at the end of the
log and accepted by the filter.

For one key the argument is this.  After the snapshot its slot is either *settled*, that is, it
holds what was alive at the version of the snapshot, or it is *ahead*: it holds a revision that is
still to come.

* `replay_of_settled`: from a settled slot, each further revision leaves a settled slot.
* `replay_of_ahead`: a slot that is ahead ignores the creations and updates before its own
  revision; a deletion among them settles it, and so does that revision.
* `settled_or_ahead`: after the snapshot there is no third case, because whatever was stored before
  is a revision of the log (`Known`), and the snapshot replaces it unless it is as new. -/

namespace Replica

namespace Slot

/-- The slot holds the object, as far as the filter accepts it, at a version before all of the
revisions to come. -/
structure Settled (filter : Filter) (slot : Option Entry) (x : Option Object) (rs : List Revision) :
    Prop where
  holds : slot.map Entry.object = x.filter filter.accepts
  earlier : ∀ e, slot = some e → ∀ r ∈ rs, e.version < r.version

/-- The slot holds an accepted object of one of the revisions to come. -/
def Ahead (filter : Filter) (slot : Option Entry) (rs : List Revision) : Prop :=
  ∃ r ∈ rs, r.event.kind ≠ .delete ∧ slot = some ⟨r.version, r.event.object⟩ ∧
    filter.accepts r.event.object = true

theorem Settled.advance {filter : Filter} {slot : Option Entry} {x : Option Object} {r : Revision}
    {rs : List Revision} (hs : (r :: rs).Pairwise (·.version < ·.version))
    (h : Settled filter slot x (r :: rs)) :
    Settled filter (advance filter slot r.event) r.event.leaves rs := by
  by_cases hd : r.event.kind = .delete
  · rw [advance_delete filter slot hd, Event.leaves_delete hd]
    exact ⟨rfl, by simp⟩
  · have hnew : ¬ slot.any (r.version ≤ ·.version) = true := by
      cases hslot : slot with
      | none => simp
      | some old =>
          have := h.earlier old hslot r List.mem_cons_self
          simpa using this
    rw [advance_write filter slot hd r.numbered, if_neg hnew, Event.leaves_write hd]
    have hlater := (List.pairwise_cons.1 hs).1
    cases ha : filter.accepts r.event.object with
    | true =>
        refine ⟨by simp [Option.filter_some, ha], fun e he => ?_⟩
        rw [if_pos rfl, Option.some.injEq] at he
        subst he
        exact hlater
    | false => exact ⟨by simp [Option.filter_some, ha], by simp⟩

/-- **A settled slot stays settled.**  After all revisions it holds what they leave. -/
theorem replay_of_settled {filter : Filter} {rs : List Revision}
    (hs : rs.Pairwise (·.version < ·.version)) {slot : Option Entry} {x : Option Object}
    (h : Settled filter slot x rs) :
    (replay filter slot (rs.map Revision.event)).map Entry.object =
      (outcome x (rs.map Revision.event)).filter filter.accepts := by
  induction rs generalizing slot x with
  | nil => exact h.holds
  | cons r rs ih => exact ih (List.pairwise_cons.1 hs).2 (h.advance hs)

/-- **A slot that is ahead is overtaken.**  Its own revision is still to come, so after all
revisions it holds what they leave. -/
theorem replay_of_ahead {filter : Filter} {rs : List Revision}
    (hs : rs.Pairwise (·.version < ·.version)) {slot : Option Entry} (x : Option Object)
    (h : Ahead filter slot rs) :
    (replay filter slot (rs.map Revision.event)).map Entry.object =
      (outcome x (rs.map Revision.event)).filter filter.accepts := by
  induction rs generalizing slot x with
  | nil =>
      obtain ⟨r, hr, -⟩ := h
      cases hr
  | cons r rs ih =>
      obtain ⟨hlater, hrest⟩ := List.pairwise_cons.1 hs
      obtain ⟨own, hown, hkind, rfl, ha⟩ := h
      rw [List.map_cons, replay_cons, outcome_cons]
      by_cases hd : r.event.kind = .delete
      · rw [advance_delete filter _ hd, Event.leaves_delete hd]
        exact replay_of_settled hrest ⟨rfl, by simp⟩
      · have hle : r.version ≤ own.version := by
          rcases List.mem_cons.1 hown with rfl | hin
          · exact Nat.le_refl _
          · exact Nat.le_of_lt (hlater own hin)
        rw [advance_write filter _ hd r.numbered, if_pos (by simpa using hle)]
        rcases List.mem_cons.1 hown with rfl | hin
        · rw [Event.leaves_write hd]
          refine replay_of_settled hrest ⟨by simp [Option.filter_some, ha], fun e he => ?_⟩
          cases he
          exact hlater
        · exact ih hrest _ ⟨own, hin, hkind, rfl, ha⟩

end Slot

namespace Store

open Slot

/-! ### Stores that are fed from a log -/

/-- Every stored entry is a creation or an update of the log. -/
def Known (s : Store) (log : Log) : Prop :=
  ∀ ⦃k e⦄, s.slot k = some e →
    ∃ r ∈ revisionsOf k log.revisions, r.event.kind ≠ .delete ∧ e = ⟨r.version, r.event.object⟩

theorem eq_of_leaves {e : Entry} {k : Key} {r : Revision} (he : e.FiledAt k)
    (hr : r.event.leaves = some e.object) :
    r.event.kind ≠ .delete ∧ e = ⟨r.version, r.event.object⟩ := by
  obtain ⟨hkind, ho⟩ := leaves_eq_some hr
  have hrev : Entry.FiledAt ⟨r.version, r.event.object⟩ k :=
    ⟨by rw [ho, he.key], r.named, r.numbered⟩
  exact ⟨hkind, he.ext hrev ho.symm⟩

theorem filter_run_of_feeds {log : Log} {r : Request} (h : log.Feeds r) (s : Store) :
    (r.run s).1.filter = s.filter := by
  cases r with
  | sync list => exact filter_sync s list
  | update e => exact filter_update s e
  | refilter list filter => exact h.elim
  | get key => rfl
  | contents => rfl

theorem Known.run {s : Store} {log : Log} (hs : s.Known log) {r : Request} (h : log.Feeds r) :
    (r.run s).1.Known log := by
  intro k e he
  rcases slot_run_cases he with hold | ⟨hbrings, hfiled, -⟩
  · exact hs hold
  · cases r with
    | sync list =>
        obtain ⟨v, hsnap⟩ := h
        have halive := (hsnap _).1 hbrings
        rw [hfiled.key] at halive
        obtain ⟨r, hr, hleaves, -⟩ := Log.revision_of_aliveAt halive
        exact ⟨r, hr, eq_of_leaves hfiled hleaves⟩
    | update ev =>
        obtain ⟨r, hr, rfl⟩ := List.mem_map.1 h
        have hleaves : r.event.leaves = some e.object := Option.mem_toList.1 hbrings
        have hkey : r.event.object.key = k := by rw [(leaves_eq_some hleaves).2, hfiled.key]
        exact ⟨r, mem_revisionsOf.2 ⟨hr, hkey⟩, eq_of_leaves hfiled hleaves⟩
    | refilter list filter => exact h.elim
    | get key => cases hbrings
    | contents => cases hbrings

theorem fed_after {log : Log} {s : Store} (hadm : s.Admitted) (hknown : s.Known log)
    {rs : List Request} (h : ∀ r ∈ rs, log.Feeds r) :
    (s.after rs).filter = s.filter ∧ (s.after rs).Admitted ∧ (s.after rs).Known log := by
  induction rs generalizing s with
  | nil => exact ⟨rfl, hadm, hknown⟩
  | cons r rs ih =>
      obtain ⟨hr, hrs⟩ := List.forall_mem_cons.1 h
      have hnone : ∀ k e, ¬ s.Strands r k e := by
        rintro k e ⟨list, filter, rfl, -⟩
        exact hr
      rw [after_cons, ← filter_run_of_feeds hr s]
      exact ih (hadm.run hnone) (hknown.run hr) hrs

theorem offers_eq_nil_of_relist {s : Store} {filter : Filter} {list : List Object} {k : Key}
    (h : s.relist filter list k = none) : offers k (entries filter list) = [] := by
  unfold relist at h
  split at h
  · exact settle_eq_none_iff.1 h
  · exact List.getLast?_eq_none_iff.1 h

theorem mem_or_le_of_relist {s : Store} {filter : Filter} {list : List Object} {k : Key} {e : Entry}
    (h : s.relist filter list k = some e) :
    e ∈ offers k (entries filter list) ∨
      offers k (entries filter list) ≠ [] ∧
        ∀ o ∈ offers k (entries filter list), o.version ≤ e.version := by
  unfold relist at h
  split at h
  · refine .inr ⟨fun hnil => ?_, le_of_settle h⟩
    rw [hnil] at h
    cases h
  · exact .inl (List.mem_of_getLast? h)

theorem alive_of_mem_offers {log : Log} {v : Nat} {list : List Object} (hsnap : log.Snapshot v list)
    {filter : Filter} {k : Key} {e : Entry} (h : e ∈ offers k (entries filter list)) :
    log.aliveAt v k = some e.object ∧ filter.accepts e.object = true := by
  obtain ⟨hlist, hfiled, ha⟩ := mem_entries.1 (mem_offers.1 h)
  have halive := (hsnap _).1 hlist
  rw [hfiled.key] at halive
  exact ⟨halive, ha⟩

theorem filter_aliveAt_of_relist {s : Store} {log : Log} {v : Nat} {list : List Object}
    (hsnap : log.Snapshot v list) {filter : Filter} {k : Key}
    (h : s.relist filter list k = none) : (log.aliveAt v k).filter filter.accepts = none := by
  have hnil := offers_eq_nil_of_relist h
  cases halive : log.aliveAt v k with
  | none => rfl
  | some o =>
      cases ha : filter.accepts o with
      | false => simp [Option.filter_some, ha]
      | true =>
          obtain ⟨r, hr, hleaves, -⟩ := Log.revision_of_aliveAt halive
          obtain ⟨-, rfl⟩ := leaves_eq_some hleaves
          have hkey := (mem_revisionsOf.1 hr).2
          have hlist : r.event.object ∈ list := (hsnap _).2 (by rw [hkey, halive])
          have hmem : (⟨r.version, r.event.object⟩ : Entry) ∈ offers k (entries filter list) :=
            mem_offers.2 (mem_entries.2 ⟨hlist, ⟨hkey, r.named, r.numbered⟩, ha⟩)
          rw [hnil] at hmem
          cases hmem

theorem aliveAt_of_relist {s : Store} {log : Log} {v : Nat} {list : List Object}
    (hsnap : log.Snapshot v list) {filter : Filter} {k : Key} {q : Revision}
    (hq : q ∈ revisionsOf k log.revisions) (hv : q.version ≤ v)
    (h : s.relist filter list k = some ⟨q.version, q.event.object⟩) :
    log.aliveAt v k = some q.event.object := by
  rcases mem_or_le_of_relist h with hmem | ⟨hne, hle⟩
  · exact (alive_of_mem_offers hsnap hmem).1
  · -- The entry was stored before.  It is as new as what is listed, so it is the last revision.
    obtain ⟨o, ho⟩ := List.exists_mem_of_ne_nil _ hne
    have hlisted := (alive_of_mem_offers hsnap ho).1
    obtain ⟨r, hr, hleaves, -, hlast⟩ := Log.revision_of_aliveAt hlisted
    obtain ⟨-, rfl⟩ := eq_of_leaves (mem_entries.1 (mem_offers.1 ho)).2.1 hleaves
    have hrq : r.version ≤ q.version := hle _ ho
    have hqr : q.version ≤ r.version := hlast q hq hv
    have hsame : q = r :=
      Log.eq_of_version_eq (mem_revisionsOf.1 hq).1 (mem_revisionsOf.1 hr).1 (by omega)
    rw [hlisted, hsame]

/-- **After a snapshot there is no third case.**  Its slots are settled at its version, or they are
ahead of it. -/
theorem settled_or_ahead {s : Store} {log : Log} (hadm : s.Admitted) (hknown : s.Known log) {v : Nat}
    {list : List Object} (hsnap : log.Snapshot v list) (k : Key) :
    Settled s.filter ((s.sync list).1.slot k) (log.aliveAt v k)
        (revisionsOf k (log.revisions.filter (v < ·.version))) ∨
      Ahead s.filter ((s.sync list).1.slot k)
        (revisionsOf k (log.revisions.filter (v < ·.version))) := by
  have hknown' : (s.sync list).1.Known log := hknown.run (r := .sync list) ⟨v, hsnap⟩
  have hadm' : (s.sync list).1.Admitted :=
    hadm.run (r := .sync list) (by rintro k e ⟨list, filter, hr, -⟩; cases hr)
  cases hslot : (s.sync list).1.slot k with
  | none =>
      rw [slot_sync] at hslot
      exact .inl ⟨(filter_aliveAt_of_relist hsnap hslot).symm, by simp⟩
  | some e =>
      obtain ⟨q, hq, hkind, rfl⟩ := hknown' hslot
      have ha : s.filter.accepts q.event.object = true := by
        have := hadm' hslot
        rwa [filter_sync] at this
      by_cases hv : v < q.version
      · have hlater : q ∈ log.revisions.filter (v < ·.version) :=
          List.mem_filter.2 ⟨(mem_revisionsOf.1 hq).1, by simpa using hv⟩
        exact .inr ⟨q, mem_revisionsOf.2 ⟨hlater, (mem_revisionsOf.1 hq).2⟩, hkind, rfl, ha⟩
      · rw [slot_sync] at hslot
        have halive := aliveAt_of_relist hsnap hq (by omega) hslot
        refine .inl ⟨by simp [halive, Option.filter_some, ha], fun e he r hr => ?_⟩
        cases he
        have hr' := (mem_revisionsOf.1 hr).1
        rw [List.mem_filter, decide_eq_true_eq] at hr'
        show q.version < r.version
        omega

theorem slot_after_updates {es : List Event} (hn : ∀ e ∈ es, e.object.isNamed = true) (s : Store)
    (k : Key) :
    (s.after (es.map .update)).slot k = replay s.filter (s.slot k) (eventsOf k es) := by
  induction es generalizing s with
  | nil => rfl
  | cons e es ih =>
      obtain ⟨he, hes⟩ := List.forall_mem_cons.1 hn
      rw [List.map_cons, after_cons, ih hes]
      change replay (s.update e).1.filter ((s.update e).1.slot k) _ = _
      rw [filter_update, slot_update, eventsOf_cons]
      by_cases hk : e.object.key = k <;> simp [he, hk]

/-- **A store converges to its upstream.**  However it was fed from the log before, a snapshot at a
version followed by all later events in order leaves it with the objects that are alive at the end
of the log and accepted by the filter. -/
theorem after_relisting (log : Log) (filter : Filter) (history : List Request) (v : Nat)
    (list : List Object) (hfeeds : ∀ r ∈ history, log.Feeds r) (hsnap : log.Snapshot v list) :
    let s := (Store.new filter).after (history ++ .sync list :: (log.since v).map .update)
    s.items.isSome = true ∧ s.get? = fun k => (log.alive k).filter filter.accepts := by
  have hnew : (Store.new filter).Known log := by
    intro k e h
    simp [Store.new, slot] at h
  obtain ⟨hfilter, hadm, hknown⟩ := fed_after (admitted_new filter) hnew hfeeds
  intro s
  have hs : s =
      (((Store.new filter).after history).sync list).1.after ((log.since v).map .update) := by
    simp only [s, after_append]
    rfl
  rw [hs]
  generalize (Store.new filter).after history = s₀ at hfilter hadm hknown
  change s₀.filter = filter at hfilter
  subst hfilter
  have hnamed : ∀ e ∈ log.since v, e.object.isNamed = true := by
    intro e he
    obtain ⟨r, -, rfl⟩ := List.mem_map.1 he
    exact r.named
  refine ⟨isSome_items_after (by cases hi : s₀.items <;> simp [sync, hi]) _, funext fun k => ?_⟩
  have hrow := pairwise_revisionsOf (k := k)
    (log.increasing.sublist (List.filter_sublist (p := (v < ·.version))))
  have hevents : eventsOf k (log.since v) =
      (revisionsOf k (log.revisions.filter (v < ·.version))).map Revision.event :=
    eventsOf_map_event k _
  rw [get?_eq_slot, slot_after_updates hnamed, filter_sync, log.alive_eq v k, hevents]
  rcases settled_or_ahead hadm hknown hsnap k with hsettled | hahead
  · exact replay_of_settled hrow hsettled
  · exact replay_of_ahead hrow _ hahead

/-- One object is created, changed, deleted and created again, another one loses its label, and a
third one has none. -/
def lifetimes : Log where
  revisions :=
    [⟨⟨.create, .tagged "a" "x" "1"⟩, 1, by decide +kernel, by decide +kernel⟩,
      ⟨⟨.create, .tagged "a" "y" "2"⟩, 2, by decide +kernel, by decide +kernel⟩,
      ⟨⟨.create, .bare "a" "z" "3"⟩, 3, by decide +kernel, by decide +kernel⟩,
      ⟨⟨.update, .tagged "a" "x" "4"⟩, 4, by decide +kernel, by decide +kernel⟩,
      ⟨⟨.delete, .tagged "a" "x" "5"⟩, 5, by decide +kernel, by decide +kernel⟩,
      ⟨⟨.update, .bare "a" "y" "6"⟩, 6, by decide +kernel, by decide +kernel⟩,
      ⟨⟨.create, .tagged "a" "x" "7"⟩, 7, by decide +kernel, by decide +kernel⟩]
  increasing := by decide

/-- The store knows the new life of the first object before it reads a snapshot from the old one,
and then sees the deletion between the two. -/
theorem after_relisting_of_lifetimes :
    let history := [Request.sync (lifetimes.listAt 2), .update ⟨.create, .tagged "a" "x" "7"⟩,
      .update ⟨.update, .tagged "a" "x" "4"⟩]
    let s := (Store.new (.labels .app)).after
      (history ++ .sync (lifetimes.listAt 4) :: (lifetimes.since 4).map .update)
    s.items.isSome = true ∧
      s.get? = fun k => (lifetimes.alive k).filter (Filter.labels .app).accepts := by
  refine after_relisting lifetimes _ _ 4 _ ?_ (lifetimes.snapshot_listAt 4)
  intro r hr
  simp only [List.mem_cons, List.not_mem_nil, or_false] at hr
  rcases hr with rfl | rfl | rfl
  · exact ⟨2, lifetimes.snapshot_listAt 2⟩
  · simp [Log.Feeds, Log.events, lifetimes]
  · simp [Log.Feeds, Log.events, lifetimes]

end Store

end Replica
