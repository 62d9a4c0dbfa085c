import Replica.Proofs.Store.Run

/-! # What a listing does, in full

A store that has contents takes over a listing, and says what has changed.  An object of the listing
is *admissible* if the filter accepts it, it has a name, and its version can be read (`admits?`);
the others might as well not be listed.  Of a key, the admissible objects are met one after the
other, and what counts is the highest version so far.

* `Slot.meetAll_eq_some_iff`: what is kept is the stored entry, if nothing newer is listed, and
  otherwise the first of the newest listed entries.
* `tiding?` is the event of one listed object after those before it, and `tidings` the events of a
  whole listing; `events_foldl_take_entries` finds them in the merge.
* `departures` are the deletions, one for each stored key without an admissible object.
* `Relisted` collects what is stored afterwards and which events there are, and `relisting_exact`
  states it of every synchronisation and of every change of filter that comes with a listing. -/

namespace Replica

namespace Slot

theorem meet_cases (slot : Option Entry) (e : Entry) :
    (meet slot e = e ∧ ∀ old, slot = some old → old.version < e.version) ∨
      (slot = some (meet slot e) ∧ e.version ≤ (meet slot e).version) := by
  cases slot with
  | none => exact .inl ⟨rfl, fun _ h => nomatch h⟩
  | some old =>
      by_cases h : old.version < e.version
      · refine .inl ⟨by simp [meet, h], fun old' hold => ?_⟩
        rwa [← Option.some.inj hold]
      · refine .inr ⟨by simp [meet, h], ?_⟩
        simp only [meet, h, if_false]
        omega

theorem meetAll_of_first {slot : Option Entry} {pre post : List Entry} {x : Entry}
    (hslot : ∀ old, slot = some old → old.version < x.version)
    (hpre : ∀ e ∈ pre, e.version < x.version) (hpost : ∀ e ∈ post, e.version ≤ x.version) :
    meetAll slot (pre ++ x :: post) = some x := by
  have hmeet : meet (meetAll slot pre) x = x := by
    cases h : meetAll slot pre with
    | none => rfl
    | some y =>
        have hy : y.version < x.version := (mem_or_of_meetAll h).elim (hpre y) (hslot y)
        simp [meet, hy]
  have happend : meetAll slot (pre ++ x :: post) =
      meetAll (some (meet (meetAll slot pre) x)) post := by
    simp [meetAll]
  rw [happend, hmeet]
  exact meetAll_of_le hpost

theorem stored_or_first_of_meetAll {slot : Option Entry} {es : List Entry} {x : Entry}
    (h : meetAll slot es = some x) :
    (slot = some x ∧ ∀ e ∈ es, e.version ≤ x.version) ∨
      (∀ old, slot = some old → old.version < x.version) ∧
        ∃ pre post, es = pre ++ x :: post ∧ (∀ e ∈ pre, e.version < x.version) ∧
          ∀ e ∈ post, e.version ≤ x.version := by
  induction es generalizing slot with
  | nil => exact .inl ⟨h, by simp⟩
  | cons e es ih =>
      have hmeet := meet_cases slot e
      rcases @ih (some (meet slot e)) h with ⟨hkept, hle⟩ | ⟨hnewer, pre, post, rfl, hpre, hpost⟩
      · rw [Option.some.inj hkept] at hmeet
        rcases hmeet with ⟨rfl, hfresh⟩ | ⟨hslot, hstale⟩
        · exact .inr ⟨hfresh, [], es, rfl, by simp, hle⟩
        · exact .inl ⟨hslot, List.forall_mem_cons.2 ⟨hstale, hle⟩⟩
      · have hlt : (meet slot e).version < x.version := hnewer _ rfl
        have hboth : (∀ old, slot = some old → old.version < x.version) ∧ e.version < x.version := by
          rcases hmeet with ⟨heq, hfresh⟩ | ⟨hslot, hstale⟩
          · rw [heq] at hlt
            exact ⟨fun old hold => Nat.lt_trans (hfresh old hold) hlt, hlt⟩
          · refine ⟨fun old hold => ?_, Nat.lt_of_le_of_lt hstale hlt⟩
            rwa [Option.some.inj (hold.symm.trans hslot)]
        exact .inr ⟨hboth.1, e :: pre, post, rfl, List.forall_mem_cons.2 ⟨hboth.2, hpre⟩, hpost⟩

/-- **What is kept.**  Of a stored entry and several listed ones, the stored entry is kept if none
of the listed ones is newer, and otherwise the first of the newest listed ones. -/
theorem meetAll_eq_some_iff {slot : Option Entry} {es : List Entry} {x : Entry} :
    meetAll slot es = some x ↔
      (slot = some x ∧ ∀ e ∈ es, e.version ≤ x.version) ∨
        (∀ old, slot = some old → old.version < x.version) ∧
          ∃ pre post, es = pre ++ x :: post ∧ (∀ e ∈ pre, e.version < x.version) ∧
            ∀ e ∈ post, e.version ≤ x.version := by
  constructor
  · exact stored_or_first_of_meetAll
  · rintro (⟨rfl, hle⟩ | ⟨hslot, pre, post, rfl, hpre, hpost⟩)
    · exact meetAll_of_le hle
    · exact meetAll_of_first hslot hpre hpost

theorem meetAll_eq_none_iff {slot : Option Entry} {es : List Entry} :
    meetAll slot es = none ↔ slot = none ∧ es = [] := by
  cases es with
  | nil =>
      show slot = none ↔ _
      simp
  | cons e es =>
      have hsome : (meetAll slot (e :: es)).isSome = true := isSome_meetAll (meet slot e) es
      constructor
      · intro hnone
        rw [hnone] at hsome
        cases hsome
      · rintro ⟨-, hnil⟩
        cases hnil

/-- The versions of a stored entry and of several listed ones. -/
def versions (slot : Option Entry) (es : List Entry) : List Nat := (slot.toList ++ es).map Entry.version

theorem lt_iff_of_meetAll {slot : Option Entry} {es : List Entry} {x : Entry}
    (h : meetAll slot es = some x) (v : Nat) : x.version < v ↔ ∀ w ∈ versions slot es, w < v := by
  have hmem : x.version ∈ versions slot es :=
    List.mem_map_of_mem (List.mem_append.2 ((mem_or_of_meetAll h).symm.imp Option.mem_toList.2 id))
  have hle : ∀ w ∈ versions slot es, w ≤ x.version := by
    intro w hw
    obtain ⟨e, he, rfl⟩ := List.mem_map.1 hw
    rw [List.mem_append, Option.mem_toList] at he
    rcases stored_or_first_of_meetAll h with ⟨rfl, hall⟩ | ⟨hslot, pre, post, rfl, hpre, hpost⟩
    · rcases he with he | he
      · exact Nat.le_of_eq (congrArg Entry.version (Option.some.inj he.symm))
      · exact hall e he
    · rw [List.mem_append, List.mem_cons] at he
      rcases he with he | he | rfl | he
      · exact Nat.le_of_lt (hslot e he)
      · exact Nat.le_of_lt (hpre e he)
      · exact Nat.le_refl _
      · exact hpost e he
  exact ⟨fun hlt w hw => Nat.lt_of_le_of_lt (hle w hw) hlt, fun hall => hall _ hmem⟩

/-- **What is new.**  A listed entry is announced if it is newer than everything before it, as a
creation if there is nothing before it. -/
theorem news_meetAll (slot : Option Entry) (es : List Entry) (e : Entry) :
    news (meetAll slot es) e =
      if ∀ w ∈ versions slot es, w < e.version then
        [⟨if versions slot es = [] then .create else .update, e.object⟩]
      else [] := by
  cases h : meetAll slot es with
  | none =>
      obtain ⟨rfl, rfl⟩ := meetAll_eq_none_iff.1 h
      rfl
  | some x =>
      have hne : versions slot es ≠ [] := by
        intro hnil
        simp only [versions, List.map_eq_nil_iff, List.append_eq_nil_iff, Option.toList_eq_nil_iff] at hnil
        rw [meetAll_eq_none_iff.2 hnil] at h
        cases h
      simp only [news, lt_iff_of_meetAll h, hne, if_false]

end Slot

namespace Store

open Slot

/-! ### Admissible objects -/

/-- The version at which a listed object can be taken over, if it can: the filter accepts it, it has
a name, and its version can be read. -/
def admits? (filter : Filter) (o : Object) : Option Nat :=
  if filter.accepts o && o.isNamed then o.version? else none

/-- The versions of the admissible objects of a key, in the order of the listing. -/
def listedVersions (filter : Filter) (k : Key) (list : List Object) : List Nat :=
  list.filterMap fun o => if o.key = k then admits? filter o else none

theorem entryOf?_eq_admits? (filter : Filter) (o : Object) :
    entryOf? filter o = (admits? filter o).map fun v => (o.key, ⟨v, o⟩) := by
  rw [entryOf?_eq, admits?]
  split <;> rfl

theorem offers_entries (filter : Filter) (k : Key) (list : List Object) :
    offers k (entries filter list) =
      list.filterMap fun o => if o.key = k then (admits? filter o).map (⟨·, o⟩) else none := by
  rw [offers, entries, List.filter_filterMap, List.map_filterMap]
  congr 1
  funext o
  rw [entryOf?_eq_admits?]
  by_cases h : o.key = k <;> cases admits? filter o <;> simp [h]

theorem listedVersions_eq (filter : Filter) (k : Key) (list : List Object) :
    listedVersions filter k list = (offers k (entries filter list)).map Entry.version := by
  rw [offers_entries, List.map_filterMap, listedVersions]
  congr 1
  funext o
  split
  · cases admits? filter o <;> rfl
  · rfl

theorem listedVersions_eq_nil_iff {filter : Filter} {k : Key} {list : List Object} :
    listedVersions filter k list = [] ↔ offers k (entries filter list) = [] := by
  rw [listedVersions_eq, List.map_eq_nil_iff]

/-! ### Events -/

/-- The versions of a key that a listing meets after the objects `earlier`: the stored one, and those
of the admissible objects so far. -/
def knownVersions (filter : Filter) (slots : Key → Option Entry) (earlier : List Object) (k : Key) :
    List Nat :=
  ((slots k).map Entry.version).toList ++ listedVersions filter k earlier

/-- The event of an object that stands after the objects `earlier` in a listing: none, unless it is
admissible and newer than all that is known of its key; a creation, if nothing is known of it. -/
def tiding? (filter : Filter) (slots : Key → Option Entry) (earlier : List Object) (o : Object) :
    Option Event :=
  (admits? filter o).bind fun v =>
    let known := knownVersions filter slots earlier o.key
    if ∀ w ∈ known, w < v then some ⟨if known = [] then .create else .update, o⟩ else none

/-- The events of the objects of a listing in their order, after the objects `earlier`. -/
def tidings (filter : Filter) (slots : Key → Option Entry) : List Object → List Object → List Event
  | _, [] => []
  | earlier, o :: list =>
    (tiding? filter slots earlier o).toList ++ tidings filter slots (earlier ++ [o]) list

theorem knownVersions_eq (filter : Filter) (slots : Key → Option Entry) (earlier : List Object)
    (k : Key) :
    knownVersions filter slots earlier k = versions (slots k) (offers k (entries filter earlier)) := by
  rw [knownVersions, versions, List.map_append, listedVersions_eq]
  cases slots k <;> rfl

theorem entries_append (filter : Filter) (list list' : List Object) :
    entries filter (list ++ list') = entries filter list ++ entries filter list' :=
  List.filterMap_append

/-- **The events of a merge** are those of the listing. -/
theorem events_foldl_take_entries (filter : Filter) (current : Contents) (earlier list : List Object) :
    ((entries filter list).foldl Merge.take
        ((entries filter earlier).foldl Merge.take ⟨current, .empty, []⟩)).events =
      ((entries filter earlier).foldl Merge.take ⟨current, .empty, []⟩).events ++
        tidings filter current.get? earlier list := by
  induction list generalizing earlier with
  | nil => simp [entries, tidings]
  | cons o list ih =>
      have hmerge := ih (earlier ++ [o])
      rw [entries_append, List.foldl_append] at hmerge
      have hcons : entries filter (o :: list) = entries filter [o] ++ entries filter list :=
        entries_append filter [o] list
      rw [hcons, List.foldl_append, hmerge, tidings, ← List.append_assoc]
      congr 1
      cases hv : admits? filter o with
      | none => simp [entries, entryOf?_eq_admits?, tiding?, hv]
      | some v =>
          have hentry : entries filter [o] = [(o.key, ⟨v, o⟩)] := by
            simp [entries, entryOf?_eq_admits?, hv]
          have hslot : ((entries filter earlier).foldl Merge.take ⟨current, .empty, []⟩).slot o.key =
              meetAll (current.get? o.key) (offers o.key (entries filter earlier)) :=
            slot_foldl_take (entries filter earlier) ⟨current, .empty, []⟩ o.key
          rw [hentry, List.foldl_cons, List.foldl_nil, Merge.take_eq, hslot, news_meetAll]
          simp only [tiding?, hv, Option.bind_some, knownVersions_eq]
          split <;> rfl

/-- The deletions of a listing: one for each stored entry of whose key nothing admissible is
listed. -/
def departures (filter : Filter) (current : Contents) (list : List Object) : List Event :=
  (current.toList.filter fun e => listedVersions filter e.1 list = []).map fun e =>
    ⟨.delete, e.2.object⟩

theorem deletions_foldl_take_entries (filter : Filter) (current : Contents) (list : List Object) :
    deletions ((entries filter list).foldl Merge.take ⟨current, .empty, []⟩).unlisted =
      departures filter current list := by
  have hunlisted : ((entries filter list).foldl Merge.take ⟨current, .empty, []⟩).unlisted =
      current.filter fun k _ => listedVersions filter k list = [] := by
    apply SortedMap.ext_get?
    intro k
    rw [unlisted_foldl_take, SortedMap.get?_filter]
    by_cases h : offers k (entries filter list) = []
    · cases current.get? k <;> simp [h, listedVersions_eq_nil_iff, Option.filter_some]
    · cases current.get? k <;> simp [h, listedVersions_eq_nil_iff, Option.filter_some]
  rw [hunlisted, deletions, departures, SortedMap.values, List.map_map]
  rfl

/-! ### Listings -/

/-- What becomes of contents when a listing is taken over, and the events of that. -/
structure Relisted (filter : Filter) (list : List Object) (current next : Contents)
    (es : List Event) : Prop where
  /-- Stored are the keys of admissible objects. -/
  keys : ∀ k, next.contains k = true ↔ listedVersions filter k list ≠ []
  /-- The stored entry of such a key stays if no admissible object is newer; otherwise the first of
  the newest admissible objects is stored. -/
  contents : ∀ k x, next.get? k = some x ↔
    (current.get? k = some x ∧ listedVersions filter k list ≠ [] ∧
      ∀ v ∈ listedVersions filter k list, v ≤ x.version) ∨
    (∀ old, current.get? k = some old → old.version < x.version) ∧
      ∃ pre post, list = pre ++ x.object :: post ∧
        x.object.key = k ∧ admits? filter x.object = some x.version ∧
        (∀ v ∈ listedVersions filter k pre, v < x.version) ∧
        ∀ v ∈ listedVersions filter k post, v ≤ x.version
  /-- The listed objects that are newer than what was known of their keys come in their order, then
  a deletion for each stored entry that nothing admissible is listed for. -/
  events : es = tidings filter current.get? [] list ++ departures filter current list

theorem exists_offers_split_iff (filter : Filter) (k : Key) (list : List Object) (x : Entry) :
    (∃ pre post, offers k (entries filter list) = pre ++ x :: post ∧
        (∀ e ∈ pre, e.version < x.version) ∧ ∀ e ∈ post, e.version ≤ x.version) ↔
      ∃ pre post, list = pre ++ x.object :: post ∧
        x.object.key = k ∧ admits? filter x.object = some x.version ∧
        (∀ v ∈ listedVersions filter k pre, v < x.version) ∧
        ∀ v ∈ listedVersions filter k post, v ≤ x.version := by
  simp only [listedVersions_eq, List.forall_mem_map]
  constructor
  · rintro ⟨pre, post, hsplit, hpre, hpost⟩
    rw [offers_entries, List.filterMap_eq_append_iff] at hsplit
    obtain ⟨before, rest, rfl, hbefore, hrest⟩ := hsplit
    obtain ⟨skipped, o, after, rfl, hskipped, ho, hafter⟩ := List.filterMap_eq_cons_iff.1 hrest
    split at ho
    · rename_i hkey
      obtain ⟨v, hv, rfl⟩ := Option.map_eq_some_iff.1 ho
      refine ⟨before ++ skipped, after, by simp, hkey, hv, ?_, ?_⟩
      · rw [offers_entries, List.filterMap_append, hbefore, List.filterMap_eq_nil_iff.2 hskipped]
        simpa using hpre
      · rwa [offers_entries, hafter]
    · cases ho
  · rintro ⟨pre, post, rfl, hkey, hv, hpre, hpost⟩
    refine ⟨_, _, ?_, hpre, hpost⟩
    simp [offers_entries, hkey, hv]

theorem relisted_reconcile (filter : Filter) (list : List Object) (current : Contents) :
    Relisted filter list current (reconcile current (entries filter list)).1
      (reconcile current (entries filter list)).2 where
  keys := by
    intro k
    rw [SortedMap.contains, get?_reconcile, Option.isSome_iff_ne_none, Ne, settle_eq_none_iff,
      ← listedVersions_eq_nil_iff]
  contents := by
    intro k x
    have hsettle : settle (current.get? k) (offers k (entries filter list)) = some x ↔
        listedVersions filter k list ≠ [] ∧
          meetAll (current.get? k) (offers k (entries filter list)) = some x := by
      unfold settle
      split <;> simp_all [listedVersions_eq_nil_iff]
    rw [get?_reconcile, hsettle, meetAll_eq_some_iff, and_or_left, ← exists_offers_split_iff]
    refine or_congr ?_ (and_iff_right_of_imp ?_)
    · rw [and_left_comm, listedVersions_eq, List.forall_mem_map]
    · rintro ⟨-, pre, post, hsplit, -⟩ hnil
      rw [listedVersions_eq_nil_iff.1 hnil] at hsplit
      simp at hsplit
  events := by
    have hmerge := events_foldl_take_entries filter current [] list
    show _ ++ deletions _ = _
    rw [deletions_foldl_take_entries]
    exact congrArg (· ++ _) hmerge

/-- **A listing, in full.**  A store with contents that takes over a listing, be it in a
synchronisation or with a new filter, stores the keys of the admissible objects: each with the stored
entry if nothing newer is listed, else with the first of the newest admissible objects.  Its events
are the listed objects that are newer than all that was known of their keys, in their order, then
one deletion for each stored entry that nothing admissible is listed for. -/
theorem relisting_exact {s : Store} {current : Contents} (h : s.items = some current)
    (list : List Object) :
    (∃ next es, s.sync list = (⟨some next, s.filter⟩, es) ∧
      Relisted s.filter list current next es) ∧
    ∀ filter, s.filter.same filter = false →
      ∃ next es, s.refilter (some list) filter = (⟨some next, filter⟩, es) ∧
        Relisted filter list current next es := by
  refine ⟨⟨_, _, ?_, relisted_reconcile s.filter list current⟩, fun filter hf =>
    ⟨_, _, ?_, relisted_reconcile filter list current⟩⟩
  · simp [sync, h]
  · simp [refilter, hf, h]

/-- Two objects are stored.  The listing has a new key twice, an object whose version cannot be read
and after it a readable one, and it has nothing of the other key; with the new filter, none of this
counts. -/
theorem relisting_exact_of_repeats :
    let s := (Store.new .acceptAll).after [.sync [.bare "a" "x" "2", .bare "a" "y" "1"]]
    let current : Contents := .ofList
      [(⟨"a", "x"⟩, ⟨2, .bare "a" "x" "2"⟩), (⟨"a", "y"⟩, ⟨1, .bare "a" "y" "1"⟩)]
    let list := [Object.bare "a" "z" "2", .bare "a" "z" "4", .bare "a" "x" "v3", .bare "a" "x" "3"]
    s.items = some current ∧
      (∃ next es, s.sync list = (⟨some next, s.filter⟩, es) ∧
        Relisted s.filter list current next es) ∧
      (s.sync list).2 = [⟨.create, .bare "a" "z" "2"⟩, ⟨.update, .bare "a" "z" "4"⟩,
        ⟨.update, .bare "a" "x" "3"⟩, ⟨.delete, .bare "a" "y" "1"⟩] ∧
      s.filter.same (.labels .app) = false ∧
      ∃ next es, s.refilter (some list) (.labels .app) = (⟨some next, .labels .app⟩, es) ∧
        Relisted (.labels .app) list current next es := by
  intro s current list
  have hcurrent : s.items = some current := by decide +kernel
  have hother : s.filter.same (.labels .app) = false := by decide +kernel
  exact ⟨hcurrent, (relisting_exact hcurrent list).1, by decide +kernel, hother,
    (relisting_exact hcurrent list).2 _ hother⟩

end Store

end Replica
