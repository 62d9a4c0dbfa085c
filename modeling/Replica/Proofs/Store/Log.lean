import Replica.Proofs.Store.Diff

/-! # Logs of revisions

A `Log` is the history of a collection: revisions of objects, at strictly increasing versions.
What is alive at a version is what a mirror holds that takes the events up to it, and a `Snapshot`
lists just that.

* `revision_of_aliveAt`: what is alive is the object of the last revision of its key.
* `alive_eq`: what is alive at the end follows from what is alive at a version and the events after
  it.
* `snapshot_listAt`: every version has a snapshot. -/

namespace Replica

/-- An entry of a log: an event on a named object, with the version of that object as a number. -/
structure Revision where
  event : Event
  version : Nat
  named : event.object.isNamed = true
  numbered : event.object.version? = some version

/-- The revisions of a collection, at strictly increasing versions. -/
structure Log where
  revisions : List Revision
  increasing : revisions.Pairwise (·.version < ·.version)

namespace Log

/-- All events of a log. -/
def events (log : Log) : List Event := log.revisions.map Revision.event

/-- The events up to a version. -/
def upTo (log : Log) (v : Nat) : List Event :=
  (log.revisions.filter (·.version ≤ v)).map Revision.event

/-- The events after a version. -/
def since (log : Log) (v : Nat) : List Event :=
  (log.revisions.filter (v < ·.version)).map Revision.event

/-- The objects that are alive after the events up to a version. -/
def aliveAt (log : Log) (v : Nat) : Mirror := Mirror.replay (fun _ => none) (log.upTo v)

/-- The objects that are alive at the end. -/
def alive (log : Log) : Mirror := Mirror.replay (fun _ => none) log.events

/-- The listing has the objects that are alive at the version, in any order. -/
def Snapshot (log : Log) (v : Nat) (list : List Object) : Prop :=
  ∀ o, o ∈ list ↔ log.aliveAt v o.key = some o

/-- The request feeds a store from the log: with a snapshot at some version, or with one of its
events.  A request that only reads is free. -/
def Feeds (log : Log) : Request → Prop
  | .sync list => ∃ v, log.Snapshot v list
  | .update e => e ∈ log.events
  | .refilter .. => False
  | _ => True

/-- The objects that are alive at a version, in the order of their last revision. -/
def listAt (log : Log) (v : Nat) : List Object :=
  ((log.upTo v).map Event.object).filter fun o => log.aliveAt v o.key = some o

end Log

namespace Slot

/-- What a row of events on one key leaves under it. -/
def outcome (x : Option Object) (es : List Event) : Option Object := es.foldl (fun _ e => e.leaves) x

@[simp] theorem outcome_nil (x : Option Object) : outcome x [] = x := rfl

@[simp] theorem outcome_cons (x : Option Object) (e : Event) (es : List Event) :
    outcome x (e :: es) = outcome e.leaves es := rfl

theorem outcome_append (x : Option Object) (es fs : List Event) :
    outcome x (es ++ fs) = outcome (outcome x es) fs := by
  simp [outcome]

theorem mirror_replay (m : Mirror) (es : List Event) (k : Key) :
    m.replay es k = outcome (m k) (eventsOf k es) := by
  induction es generalizing m with
  | nil => rfl
  | cons e es ih =>
      change (m.apply e).replay es k = _
      rw [ih, eventsOf_cons]
      by_cases h : e.object.key = k <;> simp [Mirror.apply, h]

/-! ### Rows of revisions -/

/-- The revisions of one key. -/
def revisionsOf (k : Key) (rs : List Revision) : List Revision := rs.filter (·.event.object.key = k)

theorem mem_revisionsOf {k : Key} {rs : List Revision} {r : Revision} :
    r ∈ revisionsOf k rs ↔ r ∈ rs ∧ r.event.object.key = k := by
  simp [revisionsOf]

theorem eventsOf_map_event (k : Key) (rs : List Revision) :
    eventsOf k (rs.map Revision.event) = (revisionsOf k rs).map Revision.event := by
  rw [eventsOf, List.filter_map]
  rfl

theorem pairwise_revisionsOf {k : Key} {rs : List Revision}
    (h : rs.Pairwise (·.version < ·.version)) :
    (revisionsOf k rs).Pairwise (·.version < ·.version) :=
  h.sublist List.filter_sublist

theorem last_of_outcome {rs : List Revision} (hs : rs.Pairwise (·.version < ·.version)) {o : Object}
    (h : outcome none (rs.map Revision.event) = some o) :
    ∃ r ∈ rs, r.event.leaves = some o ∧ ∀ r' ∈ rs, r'.version ≤ r.version := by
  rcases List.eq_nil_or_concat rs with rfl | ⟨init, r, rfl⟩
  · cases h
  · rw [List.concat_eq_append] at *
    rw [List.map_append, outcome_append] at h
    refine ⟨r, by simp, h, fun r' hr' => ?_⟩
    rcases List.mem_append.1 hr' with hin | hlast
    · exact Nat.le_of_lt ((List.pairwise_append.1 hs).2.2 r' hin r (by simp))
    · have hr : r' = r := List.mem_singleton.1 hlast
      subst hr
      exact Nat.le_refl _

theorem leaves_eq_some {e : Event} {o : Object} (h : e.leaves = some o) :
    e.kind ≠ .delete ∧ e.object = o := by
  by_cases hd : e.kind = .delete
  · rw [Event.leaves_delete hd] at h
    cases h
  · rw [Event.leaves_write hd, Option.some.injEq] at h
    exact ⟨hd, h⟩

end Slot

namespace Log

open Slot

/-! ### What is alive -/

theorem aliveAt_eq (log : Log) (v : Nat) (k : Key) :
    log.aliveAt v k =
      outcome none ((revisionsOf k (log.revisions.filter (·.version ≤ v))).map Revision.event) := by
  rw [aliveAt, mirror_replay, upTo, eventsOf_map_event]

theorem filter_append_filter {rs : List Revision} (hs : rs.Pairwise (·.version < ·.version))
    (v : Nat) : rs.filter (·.version ≤ v) ++ rs.filter (v < ·.version) = rs := by
  induction rs with
  | nil => rfl
  | cons r rs ih =>
      obtain ⟨hlater, hrest⟩ := List.pairwise_cons.1 hs
      by_cases hv : r.version ≤ v
      · have hv' : ¬ v < r.version := by omega
        rw [List.filter_cons_of_pos (by simpa using hv),
          List.filter_cons_of_neg (by simpa using hv'), List.cons_append, ih hrest]
      · have hnone : (r :: rs).filter (·.version ≤ v) = [] := by
          rw [List.filter_eq_nil_iff]
          intro x hx
          rcases List.mem_cons.1 hx with rfl | hin
          · simpa using hv
          · have := hlater x hin
            simp only [decide_eq_true_eq]
            omega
        have hall : (r :: rs).filter (v < ·.version) = r :: rs := by
          rw [List.filter_eq_self]
          intro x hx
          rcases List.mem_cons.1 hx with rfl | hin
          · simpa using hv
          · have := hlater x hin
            simp only [decide_eq_true_eq]
            omega
        rw [hnone, hall, List.nil_append]

/-- The end of the log is reached from every version by the events after it. -/
theorem alive_eq (log : Log) (v : Nat) (k : Key) :
    log.alive k = outcome (log.aliveAt v k) (eventsOf k (log.since v)) := by
  rw [alive, mirror_replay, aliveAt, mirror_replay, ← outcome_append, ← eventsOf_append]
  rw [upTo, since, ← List.map_append, filter_append_filter log.increasing, events]

theorem revision_of_aliveAt {log : Log} {v : Nat} {k : Key} {o : Object}
    (h : log.aliveAt v k = some o) :
    ∃ r ∈ revisionsOf k log.revisions, r.event.leaves = some o ∧ r.version ≤ v ∧
      ∀ r' ∈ revisionsOf k log.revisions, r'.version ≤ v → r'.version ≤ r.version := by
  rw [aliveAt_eq] at h
  have hs := pairwise_revisionsOf (k := k)
    (log.increasing.sublist (List.filter_sublist (p := (·.version ≤ v))))
  obtain ⟨r, hr, hleaves, hlast⟩ := last_of_outcome hs h
  rw [mem_revisionsOf, List.mem_filter, decide_eq_true_eq] at hr
  refine ⟨r, mem_revisionsOf.2 ⟨hr.1.1, hr.2⟩, hleaves, hr.1.2, fun r' hr' hle => hlast r' ?_⟩
  rw [mem_revisionsOf] at hr'
  exact mem_revisionsOf.2 ⟨List.mem_filter.2 ⟨hr'.1, by simpa using hle⟩, hr'.2⟩

theorem eq_of_version_eq {log : Log} {r r' : Revision} (h : r ∈ log.revisions)
    (h' : r' ∈ log.revisions) (hv : r.version = r'.version) : r = r' := by
  have hdiffer : log.revisions.Pairwise fun a b => a.version = b.version → a = b :=
    log.increasing.imp fun hlt heq => by omega
  have hdiffer' : log.revisions.Pairwise fun a b => b.version = a.version → b = a :=
    log.increasing.imp fun hlt heq => by omega
  exact hdiffer.forall_of_forall_of_flip (fun _ _ _ => rfl) hdiffer' h h' hv

/-- Every version has a snapshot. -/
theorem snapshot_listAt (log : Log) (v : Nat) : log.Snapshot v (log.listAt v) := by
  intro o
  simp only [listAt, List.mem_filter, decide_eq_true_eq, and_iff_right_iff_imp]
  intro h
  obtain ⟨r, hr, hleaves, hle, -⟩ := revision_of_aliveAt h
  rw [mem_revisionsOf] at hr
  refine List.mem_map.2 ⟨r.event, List.mem_map.2 ⟨r, ?_, rfl⟩, (leaves_eq_some hleaves).2⟩
  exact List.mem_filter.2 ⟨hr.1, by simpa using hle⟩

end Log

end Replica
