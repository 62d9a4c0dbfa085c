import Replica.Proofs.Store.Run

/-! # The events of a store are a diff of its contents

A store gives events with every change, and whoever follows it knows nothing else of it.  The
events are right if a *mirror*, a map from keys to objects that starts as the contents and takes
each event as it comes, holds the contents at the end, and if each event fits the mirror that it
meets: a creation a free key, an update a lower version, a deletion a key that is there.

* `Slot.Turn` is one such event at the slot of its key, and `Slot.Path` a row of them.
* `path_echo` and `path_news`: what a single event and a single listed entry give is such a row.
* `path_reconcile`, `path_run`: so is, for each key, what a request gives.
* `Mirror.replay_of_paths` puts the keys together again, and `emitted_mirrors_contents` states the
  result for every sequence of requests to a store that has contents. -/

namespace Replica

namespace Slot

/-- One event at the slot of its key, with the slot after it. -/
inductive Turn : Option Entry → Event → Option Entry → Prop
  | create {o : Object} {v : Nat} (named : o.isNamed = true) (version : o.version? = some v) :
      Turn none ⟨.create, o⟩ (some ⟨v, o⟩)
  | update {old : Entry} {o : Object} {v : Nat} (named : o.isNamed = true)
      (version : o.version? = some v) (newer : old.version < v) :
      Turn (some old) ⟨.update, o⟩ (some ⟨v, o⟩)
  | delete {old : Entry} {o : Object} (named : o.isNamed = true) :
      Turn (some old) ⟨.delete, o⟩ none

/-- `Path s es t`: the events `es` on one key lead its slot from `s` to `t`. -/
inductive Path : Option Entry → List Event → Option Entry → Prop
  | nil (s : Option Entry) : Path s [] s
  | cons {s t u : Option Entry} {e : Event} {es : List Event} :
      Turn s e t → Path t es u → Path s (e :: es) u

theorem Turn.filedAt {s t : Option Entry} {e : Event} {x : Entry} (h : Turn s e t)
    (ht : t = some x) : x.FiledAt e.object.key := by
  cases h with
  | create named version =>
      cases ht
      exact ⟨rfl, named, version⟩
  | update named version newer =>
      cases ht
      exact ⟨rfl, named, version⟩
  | delete named => cases ht

theorem Turn.named {s t : Option Entry} {e : Event} (h : Turn s e t) : e.object.isNamed = true := by
  cases h with
  | create named => exact named
  | update named => exact named
  | delete named => exact named

theorem Path.single {s t : Option Entry} {e : Event} (h : Turn s e t) : Path s [e] t :=
  .cons h (.nil t)

theorem Path.eq_of_nil {s t : Option Entry} (h : Path s [] t) : s = t := by
  cases h
  rfl

theorem Path.append {s t u : Option Entry} {es fs : List Event} (h : Path s es t)
    (h' : Path t fs u) : Path s (es ++ fs) u := by
  induction h with
  | nil => exact h'
  | cons ht _ ih => exact .cons ht (ih h')

theorem Path.split {s u : Option Entry} {es fs : List Event} (h : Path s (es ++ fs) u) :
    ∃ t, Path s es t ∧ Path t fs u := by
  induction es generalizing s with
  | nil => exact ⟨s, .nil s, h⟩
  | cons e es ih =>
      cases h with
      | cons ht h =>
          obtain ⟨t, h1, h2⟩ := ih h
          exact ⟨t, .cons ht h1, h2⟩

/-! ### Single events and single entries -/

theorem path_echo (filter : Filter) (slot : Option Entry) {e : Event}
    (hn : e.object.isNamed = true) : Path slot (echo filter slot e) (advance filter slot e) := by
  by_cases hd : e.kind = .delete
  · rw [advance_delete filter slot hd, echo_delete filter slot hd]
    cases slot with
    | none => exact .nil none
    | some old => exact .single (.delete hn)
  · cases hv : e.object.version? with
    | none =>
        rw [advance_unread filter slot hd hv, echo_unread filter slot hd hv]
        exact .nil slot
    | some v =>
        rw [advance_write filter slot hd hv, echo_write filter slot hd hv]
        cases slot with
        | none =>
            simp only [Option.any_none, Option.isSome_none, Bool.false_eq_true, if_false]
            split
            · exact .single (.create hn hv)
            · exact .nil none
        | some old =>
            simp only [Option.any_some, Option.isSome_some, decide_eq_true_eq, if_true]
            by_cases hle : v ≤ old.version
            · rw [if_pos hle, if_pos hle]
              exact .nil _
            · rw [if_neg hle, if_neg hle]
              split
              · exact .single (.update hn hv (by omega))
              · exact .single (.delete hn)

theorem object_of_mem_echo {filter : Filter} {slot : Option Entry} {e x : Event}
    (h : x ∈ echo filter slot e) : x.object = e.object := by
  by_cases hd : e.kind = .delete
  · rw [echo_delete filter slot hd] at h
    split at h
    · rw [List.mem_singleton.1 h]
    · cases h
  · cases hv : e.object.version? with
    | none =>
        rw [echo_unread filter slot hd hv] at h
        cases h
    | some v =>
        rw [echo_write filter slot hd hv] at h
        split at h
        · cases h
        · split at h
          · rw [List.mem_singleton.1 h]
          · split at h
            · rw [List.mem_singleton.1 h]
            · cases h

theorem eventsOf_echo (filter : Filter) (slot : Option Entry) (e : Event) (k : Key) :
    eventsOf k (echo filter slot e) = if e.object.key = k then echo filter slot e else [] := by
  split
  · rename_i h
    exact List.filter_eq_self.2 fun x hx => by simp [object_of_mem_echo hx, h]
  · rename_i h
    exact List.filter_eq_nil_iff.2 fun x hx => by simp [object_of_mem_echo hx, h]

theorem path_news (slot : Option Entry) {e : Entry} {k : Key} (h : e.FiledAt k) :
    Path slot (news slot e) (some (meet slot e)) := by
  cases slot with
  | none => exact .single (.create h.named h.version)
  | some old =>
      by_cases hlt : old.version < e.version
      · simp only [news, meet, hlt, if_true]
        exact .single (.update h.named h.version hlt)
      · simp only [news, meet, hlt, if_false]
        exact .nil _

theorem eventsOf_news (slot : Option Entry) (e : Entry) (k : Key) :
    eventsOf k (news slot e) = if e.object.key = k then news slot e else [] := by
  cases slot with
  | none => by_cases h : e.object.key = k <;> simp [news, eventsOf, h]
  | some old =>
      by_cases h : e.object.key = k <;> by_cases hlt : old.version < e.version <;>
        simp [news, eventsOf, h, hlt]

end Slot

namespace Store

open Slot

/-! ### What a request gives -/

theorem path_update {s : Store} (e : Event) (k : Key) :
    Path (s.slot k) (eventsOf k (s.update e).2) ((s.update e).1.slot k) := by
  rw [slot_update]
  unfold update
  by_cases hn : e.object.isNamed = true
  · simp only [hn, if_true, true_and, applyEvent_eq, eventsOf_echo]
    split
    · rename_i hk
      subst hk
      exact path_echo s.filter _ hn
    · exact .nil _
  · simp only [hn]
    exact .nil _

theorem filter_values_key {items : Contents}
    (h : ∀ k e, items.get? k = some e → e.object.key = k) (k : Key) :
    items.values.filter (·.object.key = k) = (items.get? k).toList := by
  have hfilter : items.toList.filter (fun e => decide (e.2.object.key = k)) =
      items.toList.filter (·.1 = k) :=
    List.filter_congr fun e he => by rw [h e.1 e.2 (SortedMap.mem_toList.1 he)]
  rw [SortedMap.values, List.filter_map, ← SortedMap.filter_toList_key, ← hfilter]
  rfl

theorem eventsOf_deletions {gone : Contents} (hg : ∀ k e, gone.get? k = some e → e.object.key = k)
    (k : Key) :
    eventsOf k (deletions gone) = (gone.get? k).toList.map fun e => ⟨.delete, e.object⟩ := by
  rw [eventsOf, deletions, List.filter_map, ← filter_values_key hg]
  rfl

theorem path_deletions {gone : Contents} (hg : ∀ k e, gone.get? k = some e → e.FiledAt k) (k : Key) :
    Path (gone.get? k) (eventsOf k (deletions gone)) none := by
  rw [eventsOf_deletions fun k e h => (hg k e h).key]
  cases h : gone.get? k with
  | none => exact .nil none
  | some e => exact .single (.delete (hg k e h).named)

theorem path_restrict {items : Contents} (hi : ∀ k e, items.get? k = some e → e.FiledAt k)
    (filter : Filter) (k : Key) :
    Path (items.get? k) (eventsOf k (deletions (items.filter fun _ e => !filter.accepts e.object)))
      ((items.get? k).filter (filter.accepts ·.object)) := by
  have hgone : ∀ k e, (items.filter fun _ e => !filter.accepts e.object).get? k = some e →
      e.FiledAt k := by
    intro k e h
    rw [SortedMap.get?_filter] at h
    exact hi k e (Option.filter_eq_some_iff.1 h).1
  rw [eventsOf_deletions fun k e h => (hgone k e h).key, SortedMap.get?_filter]
  cases h : items.get? k with
  | none => exact .nil none
  | some e =>
      simp only [Option.filter_some]
      cases ha : filter.accepts e.object with
      | true => exact .nil _
      | false => exact .single (.delete (hi k e h).named)

theorem path_foldl_take {incoming : List (Key × Entry)} (hin : ∀ e ∈ incoming, e.2.FiledAt e.1)
    {m : Merge} {slot : Option Entry} {k : Key} (h : Path slot (eventsOf k m.events) (m.slot k)) :
    Path slot (eventsOf k (incoming.foldl Merge.take m).events)
      ((incoming.foldl Merge.take m).slot k) := by
  induction incoming generalizing m with
  | nil => exact h
  | cons e incoming ih =>
      rw [List.forall_mem_cons] at hin
      refine ih hin.2 ?_
      rw [Merge.slot_take, Merge.take_eq]
      simp only
      rw [eventsOf_append, eventsOf_news, hin.1.key]
      split
      · rename_i hk
        subst hk
        exact h.append (path_news _ hin.1)
      · simpa using h

/-- **A listing gives the diff** between the contents before and after it, key by key. -/
theorem path_reconcile {current : Contents} (hc : ∀ k e, current.get? k = some e → e.FiledAt k)
    {incoming : List (Key × Entry)} (hin : ∀ e ∈ incoming, e.2.FiledAt e.1) (k : Key) :
    Path (current.get? k) (eventsOf k (reconcile current incoming).2)
      ((reconcile current incoming).1.get? k) := by
  have hmerge := path_foldl_take hin (m := ⟨current, .empty, []⟩) (k := k) (.nil (current.get? k))
  have hun := unlisted_foldl_take incoming ⟨current, .empty, []⟩
  have hlist := listed_foldl_take incoming ⟨current, .empty, []⟩ k
  change Path _ (eventsOf k (_ ++ deletions _)) (SortedMap.get? (Merge.listed _) k)
  rw [eventsOf_append]
  generalize incoming.foldl Merge.take ⟨current, .empty, []⟩ = m at hmerge hun hlist ⊢
  have hgone : ∀ k e, m.unlisted.get? k = some e → e.FiledAt k := by
    intro k e h
    rw [hun] at h
    split at h
    · exact hc k e h
    · cases h
  refine hmerge.append ?_
  by_cases ho : offers k incoming = []
  · rw [Merge.slot, hlist ho]
    exact path_deletions hgone k
  · have hnone : m.unlisted.get? k = none := by rw [hun, if_neg ho]
    rw [Merge.slot, hnone, Option.or_none, eventsOf_deletions fun k e h => (hgone k e h).key, hnone]
    exact .nil _

theorem filedAt_of_mem_entries {filter : Filter} {list : List Object} :
    ∀ e ∈ entries filter list, e.2.FiledAt e.1 :=
  fun _ he => (mem_entries.1 he).2.1

/-- A store with contents keeps contents, and the events of a request are the diff. -/
theorem path_run {s : Store} (hs : s.Filed) (hi : s.items.isSome = true) (r : Request) (k : Key) :
    Path (s.slot k) (eventsOf k (r.run s).2.eventList) ((r.run s).1.slot k) := by
  obtain ⟨items, filter⟩ := s
  obtain ⟨current, rfl⟩ := Option.isSome_iff_exists.1 hi
  have hc : ∀ k e, current.get? k = some e → e.FiledAt k := fun k e h => hs h
  cases r with
  | sync list => exact path_reconcile hc filedAt_of_mem_entries k
  | update e => exact path_update e k
  | refilter list filter' =>
      change Path _ (eventsOf k (Store.refilter _ list filter').2)
        ((Store.refilter _ list filter').1.slot k)
      cases h : filter.same filter' with
      | true =>
          rw [slot_refilter_of_same (s := ⟨some current, filter⟩) h]
          exact .nil _
      | false =>
          cases list with
          | some list =>
              simp only [refilter, h]
              exact path_reconcile hc filedAt_of_mem_entries k
          | none =>
              rw [slot_refilter (s := ⟨some current, filter⟩) h]
              simp only [refilter, h]
              exact path_restrict hc filter' k
  | get key => exact .nil _
  | contents => exact .nil _

/-- What a request gives leads to the contents after it from some contents, and from those before it
if there were any: a first listing is adopted without events. -/
theorem exists_path_run {s : Store} (hs : s.Filed) (r : Request) (k : Key) :
    ∃ slot, (s.items.isSome = true → slot = s.slot k) ∧
      Path slot (eventsOf k (r.run s).2.eventList) ((r.run s).1.slot k) := by
  cases hi : s.items with
  | some current => exact ⟨s.slot k, fun _ => rfl, path_run hs (by simp [hi]) r k⟩
  | none =>
      cases r with
      | update e => exact ⟨s.slot k, fun _ => rfl, path_update e k⟩
      | sync list =>
          have hsilent : (s.sync list).2 = [] := by simp [sync, hi]
          refine ⟨(s.sync list).1.slot k, by simp, ?_⟩
          change Path _ (eventsOf k (s.sync list).2) _
          rw [hsilent]
          exact .nil _
      | refilter list filter =>
          have hsilent : (s.refilter list filter).2 = [] := by
            cases h : s.filter.same filter <;> cases list <;> simp [refilter, hi, h]
          refine ⟨(s.refilter list filter).1.slot k, by simp, ?_⟩
          change Path _ (eventsOf k (s.refilter list filter).2) _
          rw [hsilent]
          exact .nil _
      | get key => exact ⟨s.slot k, fun _ => rfl, .nil _⟩
      | contents => exact ⟨s.slot k, fun _ => rfl, .nil _⟩

theorem path_emitted {s : Store} (hs : s.Filed) (hi : s.items.isSome = true) (rs : List Request)
    (k : Key) : Path (s.slot k) (eventsOf k (s.emitted rs)) ((s.after rs).slot k) := by
  induction rs generalizing s with
  | nil => exact .nil _
  | cons r rs ih =>
      rw [emitted, eventsOf_append, after_cons]
      exact (path_run hs hi r k).append (ih (filed_run hs r) (isSome_items_run hi r))

theorem silent_of_items_run {s : Store} {r : Request} (h : (r.run s).1.items = none) :
    s.items = none ∧ (r.run s).2.eventList = [] := by
  have hnone : s.items = none := by
    cases hi : s.items with
    | none => rfl
    | some items =>
        have := isSome_items_run (s := s) (by rw [hi]; rfl) r
        rw [h] at this
        cases this
  refine ⟨hnone, ?_⟩
  cases r with
  | sync list =>
      change (s.sync list).2 = []
      simp [sync, hnone]
  | update e =>
      change (s.update e).1.items = none at h
      change (s.update e).2 = []
      unfold update at h ⊢
      split at h
      · cases h
      · rename_i hn
        rw [if_neg hn]
  | refilter list filter =>
      change (s.refilter list filter).2 = []
      cases hs : s.filter.same filter <;> cases list <;> simp [refilter, hnone, hs]
  | get key => rfl
  | contents => rfl

theorem emitted_eq_nil {s : Store} {rs : List Request} (h : (s.after rs).items = none) :
    s.emitted rs = [] := by
  induction rs generalizing s with
  | nil => rfl
  | cons r rs ih =>
      have hnone : (r.run s).1.items = none := by
        cases hi : (r.run s).1.items with
        | none => rfl
        | some items =>
            have := isSome_items_after (s := (r.run s).1) (by rw [hi]; rfl) rs
            rw [after_cons] at h
            rw [h] at this
            cases this
      rw [emitted, (silent_of_items_run hnone).2, ih h]
      rfl

theorem exists_path_emitted {s : Store} (hs : s.Filed) (rs : List Request) (k : Key) :
    ∃ slot, Path slot (eventsOf k (s.emitted rs)) ((s.after rs).slot k) := by
  induction rs generalizing s with
  | nil => exact ⟨s.slot k, .nil _⟩
  | cons r rs ih =>
      rw [emitted, eventsOf_append, after_cons]
      cases hi : (r.run s).1.items with
      | none =>
          rw [(silent_of_items_run hi).2]
          exact ih (filed_run hs r)
      | some items =>
          obtain ⟨slot, -, hpath⟩ := exists_path_run hs r k
          exact ⟨slot, hpath.append (path_emitted (filed_run hs r) (by simp [hi]) rs k)⟩

end Store

/-! ### Mirrors -/

/-- What a follower knows of a store: the object under each key. -/
abbrev Mirror := Key → Option Object

namespace Mirror

/-- Takes an event: a deletion removes its key, any other event stores its object. -/
def apply (m : Mirror) (e : Event) : Mirror := fun k => if e.object.key = k then e.leaves else m k

/-- Takes several events in order. -/
def replay (m : Mirror) (es : List Event) : Mirror := es.foldl apply m

/-- An event fits the mirror that it meets: a creation a key that is not there, an update a key that
is there at a lower version, a deletion a key that is there. -/
def Fits (m : Mirror) (e : Event) : Prop :=
  match e.kind with
  | .create => m e.object.key = none
  | .update => ∃ old v w, m e.object.key = some old ∧ old.version? = some v ∧
      e.object.version? = some w ∧ v < w
  | .delete => ∃ old, m e.object.key = some old

/-- The mirror of slots. -/
def ofSlots (slots : Key → Option Entry) : Mirror := fun k => (slots k).map Entry.object

theorem fits_of_turn {slots : Key → Option Entry} {e : Event} {t : Option Entry}
    (hs : ∀ k x, slots k = some x → x.FiledAt k) (h : Slot.Turn (slots e.object.key) e t) :
    (ofSlots slots).Fits e ∧
      ofSlots (fun k => if e.object.key = k then t else slots k) = (ofSlots slots).apply e := by
  obtain ⟨kind, o⟩ := e
  have hmirror : ofSlots (fun k => if o.key = k then t else slots k) =
      fun k => if o.key = k then t.map Entry.object else ofSlots slots k := by
    funext k
    by_cases hk : o.key = k <;> simp [ofSlots, hk]
  rw [hmirror]
  generalize hslot : slots o.key = slot at h
  cases h with
  | create named version => exact ⟨by simp [Fits, ofSlots, hslot], rfl⟩
  | @update old _ v named version newer =>
      have hold : ofSlots slots o.key = some old.object := by simp [ofSlots, hslot]
      exact ⟨⟨old.object, old.version, v, hold, (hs _ _ hslot).version, version, newer⟩, rfl⟩
  | @delete old _ named =>
      have hold : ofSlots slots o.key = some old.object := by simp [ofSlots, hslot]
      exact ⟨⟨old.object, hold⟩, rfl⟩

/-- **Row by row and key by key.**  If the events on each key lead its slot from `slots` to
`slots'`, then all events together are a diff between the mirrors of the two. -/
theorem replay_of_paths {es : List Event} {slots slots' : Key → Option Entry}
    (hs : ∀ k x, slots k = some x → x.FiledAt k)
    (h : ∀ k, Slot.Path (slots k) (Slot.eventsOf k es) (slots' k)) :
    (ofSlots slots).replay es = ofSlots slots' ∧
      ∀ pre e post, es = pre ++ e :: post → ((ofSlots slots).replay pre).Fits e := by
  induction es generalizing slots with
  | nil =>
      have hsame : slots = slots' := funext fun k => (h k).eq_of_nil
      subst hsame
      refine ⟨rfl, fun pre e post hes => ?_⟩
      simp at hes
  | cons e es ih =>
      have hkey := h e.object.key
      rw [Slot.eventsOf_cons, if_pos rfl] at hkey
      cases hkey with
      | @cons _ t _ _ _ hturn hrest =>
          obtain ⟨hfits, happly⟩ := fits_of_turn hs hturn
          have hnext := @ih (fun k => if e.object.key = k then t else slots k) ?_ ?_
          · rw [happly] at hnext
            refine ⟨hnext.1, fun pre x post hes => ?_⟩
            cases pre with
            | nil =>
                rw [List.nil_append, List.cons.injEq] at hes
                rw [← hes.1]
                exact hfits
            | cons y pre =>
                rw [List.cons_append, List.cons.injEq] at hes
                obtain ⟨rfl, hes⟩ := hes
                exact hnext.2 pre x post hes
          · intro k x hx
            split at hx
            · rename_i hk
              subst hk
              exact hturn.filedAt hx
            · exact hs k x hx
          · intro k
            split
            · rename_i hk
              subst hk
              exact hrest
            · rename_i hk
              have := h k
              rw [Slot.eventsOf_cons, if_neg hk] at this
              exact this

end Mirror

namespace Store

theorem get?_eq_ofSlots (s : Store) : s.get? = Mirror.ofSlots s.slot :=
  funext s.get?_eq_slot

/-- **The events of a store are a diff of its contents.**  Once a store has contents, the events of
any requests, replayed in order on a mirror of the contents, give the contents after the requests,
and each event fits the mirror that it meets. -/
theorem emitted_mirrors_contents (filter : Filter) (before rs : List Request)
    (h : ((Store.new filter).after before).items.isSome = true) :
    let s := (Store.new filter).after before
    Mirror.replay s.get? (s.emitted rs) = (s.after rs).get? ∧
      ∀ pre e post, s.emitted rs = pre ++ e :: post → (Mirror.replay s.get? pre).Fits e := by
  intro s
  have hs : s.Filed := filed_after (filed_new filter) before
  rw [get?_eq_ofSlots, get?_eq_ofSlots]
  exact Mirror.replay_of_paths (fun k x hx => hs hx) (path_emitted hs h rs)

/-- Two objects are adopted; then one is updated, one is listed twice and one is gone, a deletion
comes with an older version, and at last a filter rejects the rest. -/
theorem emitted_mirrors_contents_of_relisting :
    let s := (Store.new .acceptAll).after [.sync [.bare "a" "x" "1", .bare "a" "y" "1"]]
    let rs := [Request.sync [.bare "a" "x" "3", .bare "a" "z" "2", .bare "a" "z" "4"],
      .update ⟨.delete, .bare "a" "x" "2"⟩, .refilter none .rejectAll]
    s.items.isSome = true ∧ Mirror.replay s.get? (s.emitted rs) = (s.after rs).get? ∧
      ∀ pre e post, s.emitted rs = pre ++ e :: post → (Mirror.replay s.get? pre).Fits e :=
  ⟨rfl, emitted_mirrors_contents _ _ _ rfl⟩

end Store

end Replica
