import Replica.Proofs.Store.Run

/-! # What a store holds, its filter accepts

A store is bound to a filter, and it is *admitted* if the filter accepts everything that is stored.
Listings and events respect this.  A change of filter does too when it comes without a listing:
what the new filter rejects goes.

With a listing it need not.  What is stored then stays where the listing has nothing newer under
its key, and nobody asks the new filter about it.  `Store.Strands s r k e` says exactly when that
happens: the request `r` changes the filter of `s` with a listing, the new filter rejects the entry
`e` that is stored under `k`, and accepts something that is listed there, but nothing at a higher
version.

* `Slot.settle_eq_self_iff`: a listing keeps the stored entry exactly if it offers something for
  its key, and nothing newer.
* `admitted_run_iff`: a request to an admitted store leaves it admitted exactly if it strands
  nothing.
* `admitted_along_iff`: so all stores on the way are admitted exactly if no request strands
  anything, and there is such a request (`not_admitted_after_refilter`). -/

namespace Replica

namespace Store

open Slot

/-- The filter that the store is bound to accepts every stored object. -/
def Admitted (s : Store) : Prop := ∀ ⦃k e⦄, s.slot k = some e → s.filter.accepts e.object = true

/-- The request changes the filter with a listing, so that the entry that is stored under the key
stays although the new filter rejects it: something is listed there that the filter accepts, but
nothing newer. -/
def Strands (s : Store) (r : Request) (k : Key) (e : Entry) : Prop :=
  ∃ list filter, r = .refilter (some list) filter ∧ s.filter.same filter = false ∧
    s.slot k = some e ∧ filter.accepts e.object = false ∧
    offers k (entries filter list) ≠ [] ∧
    ∀ o ∈ offers k (entries filter list), o.version ≤ e.version

theorem admitted_new (filter : Filter) : (Store.new filter).Admitted := by
  intro k e h
  simp [Store.new, slot] at h

theorem notMem_offers_of_rejects {filter : Filter} {list : List Object} {k : Key} {e : Entry}
    (h : filter.accepts e.object = false) : e ∉ offers k (entries filter list) := by
  intro hm
  have := (mem_entries.1 (mem_offers.1 hm)).2.2
  rw [h] at this
  cases this

theorem Strands.not_admitted {s : Store} {r : Request} {k : Key} {e : Entry} (h : s.Strands r k e) :
    ¬ (r.run s).1.Admitted := by
  obtain ⟨list, filter, rfl, hs, hk, hrej, hne, hle⟩ := h
  intro hadm
  have hitems : s.items.isSome = true := by
    cases hi : s.items with
    | none => simp [slot, hi] at hk
    | some items => rfl
  have hkept : (s.refilter (some list) filter).1.slot k = some e := by
    rw [slot_refilter hs]
    show s.relist filter list k = some e
    rw [relist, if_pos hitems, hk]
    exact settle_eq_self_iff.2 ⟨hne, hle⟩
  have := hadm hkept
  change (s.refilter (some list) filter).1.filter.accepts e.object = true at this
  rw [filter_refilter hs, hrej] at this
  cases this

theorem Admitted.run {s : Store} (hs : s.Admitted) {r : Request}
    (h : ∀ k e, ¬ s.Strands r k e) : (r.run s).1.Admitted := by
  intro k e he
  rcases slot_run_cases he with hold | hnew
  · cases r with
    | sync list =>
        show (s.sync list).1.filter.accepts _ = true
        rw [filter_sync]
        exact hs hold
    | update ev =>
        show (s.update ev).1.filter.accepts _ = true
        rw [filter_update]
        exact hs hold
    | refilter list filter =>
        change (s.refilter list filter).1.slot k = some e at he
        show (s.refilter list filter).1.filter.accepts _ = true
        cases hsame : s.filter.same filter with
        | true =>
            rw [slot_refilter_of_same hsame]
            exact hs hold
        | false =>
            rw [slot_refilter hsame] at he
            rw [filter_refilter hsame]
            cases list with
            | none => exact (Option.filter_eq_some_iff.1 he).2
            | some list =>
                cases hrej : filter.accepts e.object with
                | true => rfl
                | false =>
                    change s.relist filter list k = some e at he
                    rw [relist, hold] at he
                    split at he
                    · obtain ⟨hne, hle⟩ := settle_eq_self_iff.1 he
                      exact absurd ⟨list, filter, rfl, hsame, hold, hrej, hne, hle⟩ (h k e)
                    · exact absurd (List.mem_of_getLast? he) (notMem_offers_of_rejects hrej)
    | get key => exact hs hold
    | contents => exact hs hold
  · exact hnew.2.2

/-- **One request.**  An admitted store stays admitted exactly if the request strands nothing. -/
theorem admitted_run_iff {s : Store} (hs : s.Admitted) (r : Request) :
    (r.run s).1.Admitted ↔ ∀ k e, ¬ s.Strands r k e :=
  ⟨fun h _ _ hst => hst.not_admitted h, hs.run⟩

theorem Admitted.along {s : Store} (hs : s.Admitted) {rs : List Request}
    (h : ∀ pre r post, rs = pre ++ r :: post → ∀ k e, ¬ (s.after pre).Strands r k e) :
    ∀ pre post, rs = pre ++ post → (s.after pre).Admitted := by
  induction rs generalizing s with
  | nil =>
      intro pre post hrs
      obtain ⟨rfl, -⟩ := List.append_eq_nil_iff.1 hrs.symm
      exact hs
  | cons r rs ih =>
      intro pre post hrs
      cases pre with
      | nil => exact hs
      | cons x pre =>
          rw [List.cons_append, List.cons.injEq] at hrs
          obtain ⟨rfl, hrs⟩ := hrs
          refine ih (hs.run (h [] r rs rfl)) (fun pre r' post hrs' => ?_) pre post hrs
          exact h (r :: pre) r' post (by rw [hrs', List.cons_append])

/-- **Any requests.**  All stores on the way from a new one are admitted exactly if no request
strands an entry of the store that it is made of. -/
theorem admitted_along_iff (filter : Filter) (rs : List Request) :
    (∀ pre post, rs = pre ++ post → ((Store.new filter).after pre).Admitted) ↔
      ∀ pre r post, rs = pre ++ r :: post →
        ∀ k e, ¬ ((Store.new filter).after pre).Strands r k e := by
  constructor
  · intro h pre r post hrs k e hst
    refine hst.not_admitted ?_
    have := h (pre ++ [r]) post (by simp [hrs])
    rwa [after_append] at this
  · exact (admitted_new filter).along

/-- A refilter with a listing can leave a store that is not admitted: the stored object is newer
than the listed one and does not carry the label that the new filter asks for. -/
theorem not_admitted_after_refilter :
    ¬ ((Store.new .acceptAll).after
      [.sync [.bare "a" "x" "5"],
        .refilter (some [.tagged "a" "x" "3"]) (.labels .app)]).Admitted := by
  intro h
  have hstored : ((Store.new .acceptAll).after
      [.sync [.bare "a" "x" "5"],
        .refilter (some [.tagged "a" "x" "3"]) (.labels .app)]).slot ⟨"a", "x"⟩ =
      some ⟨5, .bare "a" "x" "5"⟩ := by
    decide +kernel
  have := h hstored
  revert this
  decide +kernel

end Store

end Replica
