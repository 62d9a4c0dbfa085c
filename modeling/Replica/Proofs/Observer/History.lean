import Replica.Observer
import Replica.Proofs.Store.Log

/-! # The history that a handler is told

A handler is called with contents and then with events, and it may keep a mirror: the contents to
begin with, changed by each event as it comes (`Mirror.ofCalls`).  The calls are a history if each
event fits the mirror that it meets (`IsHistory`).

* `ofList_list`: a mirror of the listed contents of a store is a mirror of the store.
* `replay_eq_of_path`: of a row of events that leads to some slots, it does not matter on which mirror
  it is replayed, except for the keys on which there are no events.
* `fitting_iff`: of such a row, only the first event on each key can fail to fit. -/

namespace Replica

/-- The event of a call. -/
def Call.event? : Call → Option Event
  | .contents _ => none
  | .event e => some e

namespace Mirror

/-- The mirror of listed objects. -/
def ofList (list : List Object) : Mirror := fun k => list.find? (·.key = k)

/-- Takes what a call tells: contents replace everything. -/
def take (m : Mirror) : Call → Mirror
  | .contents list => ofList list
  | .event e => m.apply e

/-- What a handler knows after some calls. -/
def ofCalls (calls : List Call) : Mirror := calls.foldl take fun _ => none

/-- Every event that a handler is told fits what it knows. -/
def IsHistory (calls : List Call) : Prop :=
  ∀ pre e post, calls = pre ++ .event e :: post → (ofCalls pre).Fits e

/-- Events that fit, one after the other. -/
def Fitting (m : Mirror) (es : List Event) : Prop :=
  ∀ pre e post, es = pre ++ e :: post → (m.replay pre).Fits e

variable {m m' : Mirror} {e : Event} {es : List Event}

theorem replay_append (m : Mirror) (es fs : List Event) :
    m.replay (es ++ fs) = (m.replay es).replay fs :=
  List.foldl_append

theorem fits_congr (h : m e.object.key = m' e.object.key) : m.Fits e ↔ m'.Fits e := by
  obtain ⟨kind, o⟩ := e
  cases kind <;> simp only [Fits] at h ⊢ <;> rw [h]

/-! ### Calls -/

theorem ofCalls_eq_replay (list : List Object) (es : List Event) :
    ofCalls (.contents list :: es.map .event) = (ofList list).replay es := by
  rw [ofCalls, List.foldl_cons, List.foldl_map]
  rfl

theorem isHistory_nil : IsHistory [] := by
  intro pre e post h
  simp at h

theorem isHistory_iff_fitting (list : List Object) (es : List Event) :
    IsHistory (.contents list :: es.map .event) ↔ (ofList list).Fitting es := by
  constructor
  · intro h pre e post hes
    have := h (.contents list :: pre.map .event) e (post.map .event) (by simp [hes])
    rwa [ofCalls_eq_replay] at this
  · intro h pre e post hcalls
    cases pre with
    | nil => simp at hcalls
    | cons c pre =>
        rw [List.cons_append, List.cons.injEq] at hcalls
        obtain ⟨rfl, hmap⟩ := hcalls
        obtain ⟨as, bs, rfl, rfl, hbs⟩ := List.map_eq_append_iff.1 hmap
        obtain ⟨b, post', rfl, hb, -⟩ := List.map_eq_cons_iff.1 hbs
        obtain rfl : b = e := Call.event.inj hb
        rw [ofCalls_eq_replay]
        exact h as b post' rfl

end Mirror

/-! ### Mirrors of stores -/

namespace Store

/-- **A mirror of the listed contents of a store is a mirror of the store.** -/
theorem ofList_list {s : Store} (hs : s.Filed) : Mirror.ofList s.list = s.get? := by
  obtain ⟨items, filter⟩ := s
  cases items with
  | none => rfl
  | some items =>
      funext k
      have hkeys : ∀ k e, items.get? k = some e → e.object.key = k := fun k e he =>
        (@hs k e he).key
      have hfind : (items.values.map Entry.object).find? (·.key = k) =
          (items.values.find? (·.object.key = k)).map Entry.object := by
        rw [List.find?_map]
        rfl
      rw [Mirror.ofList, list, hfind, ← List.head?_filter, filter_values_key hkeys, get?_eq_slot]
      change _ = (items.get? k).map _
      cases items.get? k <;> rfl

end Store

/-! ### Rows of events that lead somewhere -/

namespace Slot

variable {s t : Option Entry} {es : List Event} {k : Key}

theorem Path.outcome_eq (h : Path s es t) : outcome (s.map Entry.object) es = t.map Entry.object := by
  induction h with
  | nil => rfl
  | cons hturn _ ih =>
      rw [outcome_cons, ← ih]
      cases hturn <;> rfl

theorem outcome_eq_of_ne_nil (h : es ≠ []) (x y : Option Object) : outcome x es = outcome y es := by
  cases es with
  | nil => exact absurd rfl h
  | cons e es => rfl

theorem Path.filedAt (h : Path s (eventsOf k es) t) (hne : eventsOf k es ≠ []) {x : Entry}
    (hx : t = some x) : x.FiledAt k := by
  have hkey : ∀ e ∈ eventsOf k es, e.object.key = k := fun e he => by
    simpa using (List.mem_filter.1 he).2
  generalize eventsOf k es = fs at h hne hkey
  induction h with
  | nil => exact absurd rfl hne
  | @cons _ _ _ e fs hturn hrest ih =>
      obtain ⟨he, hfs⟩ := List.forall_mem_cons.1 hkey
      by_cases hnil : fs = []
      · subst hnil
        exact he ▸ hturn.filedAt (hrest.eq_of_nil.trans hx)
      · exact ih hx hnil hfs

end Slot

namespace Mirror

open Slot

variable {m : Mirror} {es : List Event}

theorem fits_of_turn_of_eq {e : Event} {s t : Option Entry} (h : Turn s e t)
    (hs : ∀ x, s = some x → x.FiledAt e.object.key) (hm : m e.object.key = s.map Entry.object) :
    m.Fits e := by
  let slots : Key → Option Entry := fun k => if e.object.key = k then s else none
  have hslots : slots e.object.key = s := if_pos rfl
  have hfiled : ∀ k x, slots k = some x → x.FiledAt k := by
    intro k x hx
    by_cases hk : e.object.key = k
    · exact hk ▸ hs x ((if_pos hk).symm.trans hx)
    · rw [show slots k = none from if_neg hk] at hx
      cases hx
  refine (fits_congr ?_).1 (fits_of_turn hfiled (hslots.symm ▸ h)).1
  rw [ofSlots, hslots, hm]

/-- **On whatever mirror it is replayed, a row of events comes to what it leads to**, if the mirror is
right where there are no events. -/
theorem replay_eq_of_path {slots : Key → Option Entry}
    (h : ∀ k, ∃ s, Path s (eventsOf k es) (slots k))
    (hm : ∀ k, eventsOf k es = [] → m k = (slots k).map Entry.object) :
    m.replay es = ofSlots slots := by
  funext k
  rw [mirror_replay]
  obtain ⟨s, hpath⟩ := h k
  by_cases hnil : eventsOf k es = []
  · rw [hnil, outcome_nil, hm k hnil]
    rfl
  · rw [outcome_eq_of_ne_nil hnil _ (s.map Entry.object), hpath.outcome_eq]
    rfl

/-- **Only the first event on a key can fail to fit**, since each of the others was made for what the
one before it leaves. -/
theorem fitting_iff (h : ∀ k, ∃ s t, Path s (eventsOf k es) t) :
    m.Fitting es ↔ ∀ k e, (eventsOf k es).head? = some e → m.Fits e := by
  constructor
  · intro hfit k e hhead
    obtain ⟨rest, hrest⟩ : ∃ rest, eventsOf k es = e :: rest := by
      cases hes : eventsOf k es with
      | nil => simp [hes] at hhead
      | cons x rest =>
          rw [hes] at hhead
          exact ⟨rest, by rw [Option.some.inj hhead]⟩
    obtain ⟨pre, post, rfl, hpre, hk, -⟩ := List.filter_eq_cons_iff.1 hrest
    have hfits := hfit pre e post rfl
    have hnone : eventsOf e.object.key pre = [] := by
      rw [show e.object.key = k by simpa using hk]
      exact List.filter_eq_nil_iff.2 hpre
    refine (fits_congr ?_).1 hfits
    rw [mirror_replay, hnone, outcome_nil]
  · rintro hfirst pre e post rfl
    obtain ⟨s, t, hpath⟩ := h e.object.key
    rw [eventsOf_append, eventsOf_cons, if_pos rfl] at hpath
    obtain ⟨u, hpre, hrest⟩ := hpath.split
    by_cases hnil : eventsOf e.object.key pre = []
    · have hhead : (eventsOf e.object.key (pre ++ e :: post)).head? = some e := by
        rw [eventsOf_append, hnil, eventsOf_cons, if_pos rfl]
        rfl
      refine (fits_congr ?_).1 (hfirst _ e hhead)
      rw [mirror_replay, hnil, outcome_nil]
    · cases hrest with
      | cons hturn _ =>
          refine fits_of_turn_of_eq hturn (fun x hx => hpre.filedAt hnil hx) ?_
          rw [mirror_replay, outcome_eq_of_ne_nil hnil _ (s.map Entry.object), hpre.outcome_eq]

end Mirror

end Replica
