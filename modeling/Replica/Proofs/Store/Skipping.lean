import Replica.Proofs.Store.Diff

/-! # What a skipped event leaves behind

Many events give no events: the object has no name, its version cannot be read or is not above the
stored one, the filter rejects a new key, the key of a deletion is not there.  None of them changes
what is stored.  All the same, one of them can be seen later: an event on a named object gives a
store without contents empty contents, before it is skipped, and the listing that would have been
adopted in silence is then told object by object.

* `update_of_skipped`: a skipped event on a named object leaves the store *opened*, and one on an
  object without a name leaves it as it is.
* `run_opened`, `replies_opened`: that a store was opened shows in no answer as long as no listing
  comes.
* `sync_opened`, `exists_replies_ne`: with the first listing it shows.
* `update_leaves_no_trace_iff`: so a skipped event leaves no trace exactly if there were contents
  before, or its object has no name; and there is one that does (`not_update_leaves_no_trace`). -/

namespace Replica

/-- Whether the request comes with a listing. -/
def Request.lists : Request → Bool
  | .sync _ => true
  | .refilter list _ => list.isSome
  | _ => false

namespace Store

open Slot

/-- The answers to some requests, in order. -/
def replies (s : Store) : List Request → List Reply
  | [] => []
  | r :: rs => (r.run s).2 :: replies (r.run s).1 rs

/-- The store with empty contents if it had none. -/
def opened (s : Store) : Store := { s with items := some (s.items.getD .empty) }

theorem opened_of_isSome {s : Store} (h : s.items.isSome = true) : s.opened = s := by
  obtain ⟨items, filter⟩ := s
  obtain ⟨current, rfl⟩ := Option.isSome_iff_exists.1 h
  rfl

theorem advance_of_echo_eq_nil {filter : Filter} {slot : Option Entry} {e : Event}
    (hn : e.object.isNamed = true) (h : echo filter slot e = []) : advance filter slot e = slot := by
  have hpath := path_echo filter slot hn
  rw [h] at hpath
  exact hpath.eq_of_nil.symm

/-- **The store after a skipped event.**  It has the contents that it had, or empty ones if it had
none and the object of the event has a name. -/
theorem update_of_skipped {s : Store} {e : Event} (h : (s.update e).2 = []) :
    (s.update e).1 = if e.object.isNamed then s.opened else s := by
  unfold update at h ⊢
  split at h
  · rename_i hn
    rw [if_pos hn, if_pos hn]
    simp only [applyEvent_eq] at h ⊢
    rw [advance_of_echo_eq_nil hn h, SortedMap.put_get?]
    rfl
  · rename_i hn
    rw [if_neg hn, if_neg hn]

/-! ### Before a listing -/

/-- Opening a store commutes with a request without a listing, and does not show in its answer. -/
theorem run_opened (s : Store) {r : Request} (hr : r.lists = false) :
    r.run s.opened = ((r.run s).1.opened, (r.run s).2) := by
  cases hi : s.items with
  | some current =>
      have hsome : s.items.isSome = true := by rw [hi]; rfl
      rw [opened_of_isSome hsome, opened_of_isSome (isSome_items_run hsome r)]
  | none =>
      obtain ⟨items, filter⟩ := s
      obtain rfl : items = none := hi
      cases r with
      | sync list => cases hr
      | update e => cases hn : e.object.isNamed <;> simp [Request.run, opened, update, hn]
      | refilter list filter' =>
          obtain rfl : list = none := by simpa [Request.lists] using hr
          cases hs : filter.same filter' with
          | true => simp [Request.run, opened, refilter, hs]
          | false =>
              simp only [Request.run, opened, refilter, hs]
              rfl
      | get key => rfl
      | contents => rfl

theorem replies_opened (s : Store) {rs : List Request} (h : ∀ r ∈ rs, r.lists = false) :
    s.opened.replies rs = s.replies rs := by
  induction rs generalizing s with
  | nil => rfl
  | cons r rs ih =>
      obtain ⟨hr, hrs⟩ := List.forall_mem_cons.1 h
      rw [replies, replies, run_opened s hr, ih _ hrs]

/-! ### The first listing -/

theorem sync_opened {s : Store} (h : s.items = none) {o : Object} {v : Nat}
    (ha : s.filter.accepts o = true) (hn : o.isNamed = true) (hv : o.version? = some v) :
    (s.sync [o]).2 = [] ∧ (s.opened.sync [o]).2 = [⟨.create, o⟩] := by
  have hentry : entries s.filter [o] = [(o.key, ⟨v, o⟩)] := by
    simp [entries, entryOf?_eq, ha, hn, hv]
  constructor
  · simp [sync, h]
  · simp only [sync, opened, h, hentry]
    rfl

theorem exists_replies_ne {s : Store} (h : s.items = none) :
    ∃ rs, s.opened.replies rs ≠ s.replies rs := by
  -- The filter might reject everything, so it is replaced first.
  refine ⟨[.refilter none .acceptAll, .sync [.bare "a" "x" "1"]], fun hsame => ?_⟩
  have hrefilter : s.refilter none .acceptAll = (⟨none, .acceptAll⟩, []) := by
    obtain ⟨items, filter⟩ := s
    obtain rfl : items = none := h
    cases filter <;> simp [refilter, Filter.same]
  obtain ⟨hsilent, htold⟩ :=
    @sync_opened ⟨none, .acceptAll⟩ rfl (.bare "a" "x" "1") 1 rfl rfl rfl
  rw [replies, replies, run_opened s rfl] at hsame
  simp only [Request.run, hrefilter, replies, hsilent, htold] at hsame
  simp at hsame

/-- **A skipped event leaves no trace** in any answer to any later requests, exactly if the store
had contents before it or its object has no name.  Otherwise it leaves one, but none that shows
before the first listing. -/
theorem update_leaves_no_trace_iff {s : Store} {e : Event} (h : (s.update e).2 = []) :
    ((∀ rs, (s.update e).1.replies rs = s.replies rs) ↔
      (s.items = none → e.object.isNamed = false)) ∧
    ∀ rs, (∀ r ∈ rs, r.lists = false) → (s.update e).1.replies rs = s.replies rs := by
  rw [update_of_skipped h]
  cases hn : e.object.isNamed with
  | false => simp
  | true =>
      simp only [if_true, Bool.true_eq_false, imp_false]
      refine ⟨⟨?_, ?_⟩, fun rs hrs => replies_opened s hrs⟩
      · intro hsame hnone
        obtain ⟨rs, hne⟩ := exists_replies_ne hnone
        exact hne (hsame rs)
      · intro hsome rs
        rw [opened_of_isSome (Option.isSome_iff_ne_none.2 hsome)]

/-- A stale update of a store that has contents leaves no trace. -/
theorem update_leaves_no_trace_of_stale :
    let s := (Store.new .acceptAll).after [.sync [.bare "a" "x" "5"]]
    let e : Event := ⟨.update, .bare "a" "x" "3"⟩
    (s.update e).2 = [] ∧ ∀ rs, (s.update e).1.replies rs = s.replies rs := by
  intro s e
  have hskipped : (s.update e).2 = [] := by decide +kernel
  have hitems : s.items ≠ none := by decide +kernel
  exact ⟨hskipped, (update_leaves_no_trace_iff hskipped).1.2 fun hnone => absurd hnone hitems⟩

/-- A new store is given a creation whose version cannot be read.  It gives no events for it and
holds nothing, but then the first synchronisation is not silent. -/
theorem not_update_leaves_no_trace :
    let s := Store.new .acceptAll
    let e : Event := ⟨.create, .bare "a" "x" "v1"⟩
    (s.update e).2 = [] ∧ (s.sync [.bare "a" "x" "1"]).2 = [] ∧
      ((s.update e).1.sync [.bare "a" "x" "1"]).2 = [⟨.create, .bare "a" "x" "1"⟩] ∧
      ¬ ∀ rs, (s.update e).1.replies rs = s.replies rs := by
  intro s e
  have hskipped : (s.update e).2 = [] := by decide +kernel
  have hsilent : (s.sync [.bare "a" "x" "1"]).2 = [] := by decide +kernel
  have htold : ((s.update e).1.sync [.bare "a" "x" "1"]).2 = [⟨.create, .bare "a" "x" "1"⟩] := by
    decide +kernel
  refine ⟨hskipped, hsilent, htold, fun hsame => ?_⟩
  have := hsame [.sync [.bare "a" "x" "1"]]
  simp only [replies, Request.run, hsilent, htold] at this
  simp at this

end Store

end Replica
