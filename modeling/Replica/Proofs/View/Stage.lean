import Replica.Proofs.Filter.Equality
import Replica.Proofs.Store.Run
import Replica.View

/-! # A view and its own store

A view does one thing at a time, and what it has asked of a store is answered later.  The `Errand`
is what is under way between the view and the stores.

* `Stage` lists what a view can be at, with what its own store holds then and what is under way.
* `Reaction` says what the view does when it is told something that it waits for; the lemmas
  `reaction_parentReady` to `reaction_applied` find the reaction in `View.step`.
* `stage_of_nothing`, `stage_of_contents`, `stage_of_answered` and `stage_serve`: every reaction of
  the view, and everything that its own store does, leads from one of the stages to one of them. -/

namespace Replica

/-- What is under way between a view and the stores that it asks. -/
inductive Errand where
  | nothing
  /-- The parent's contents are asked for. -/
  | reading
  /-- The parent's contents are on their way. -/
  | contents (list : List Object)
  /-- Something is asked of the own store. -/
  | asked (r : Request)
  /-- The own store's answer is on its way. -/
  | answered (events : List Event)

namespace Errand

/-- What a view sets off. -/
def ofActions : List View.Action → Errand
  | [.readParent] => .reading
  | [.ask r] => .asked r
  | _ => .nothing

/-- The event that is to be applied. -/
def events : Errand → List Event
  | .asked (.update e) => [e]
  | _ => []

/-- The parent's contents that are to be taken over. -/
def listing? : Errand → Option (List Object)
  | .contents list => some list
  | .asked (.sync list) => some list
  | .asked (.refilter list _) => list
  | _ => none

end Errand

namespace View

namespace Job

/-- What the own store is asked for, to take the parent's contents over. -/
def request (list : List Object) : Job → Request
  | .refilter filter true => .refilter (some list) filter
  | _ => .sync list

/-- The filter under which the contents are taken over. -/
def target (current : Filter) : Job → Filter
  | .refilter filter true => filter
  | _ => current

theorem events_request (job : Job) (list : List Object) :
    (Errand.asked (job.request list)).events = [] := by
  cases job with
  | seed => rfl
  | refilter filter changed => cases changed <;> rfl

theorem listing?_request (job : Job) (list : List Object) :
    (Errand.asked (job.request list)).listing? = some list := by
  cases job with
  | seed => rfl
  | refilter filter changed => cases changed <;> rfl

/-- A filter that is said to be new differs from the current one. -/
def IsApt (current : Filter) : Job → Prop
  | .refilter filter true => current.same filter = false
  | _ => True

end Job

/-- The view and its own store know the same. -/
structure InStep (v : View) (own : Store) : Prop where
  filter : own.filter = v.filter
  ready : v.isReady = own.items.isSome
  parent : v.isReady = true → v.parentReady = true

/-- What a view can be at, with its own store and what is under way. -/
inductive Stage (v : View) (own : Store) : Errand → Prop
  | idle (phase : v.phase = .idle) (inStep : v.InStep own) : Stage v own .nothing
  | reading {job : Job} (phase : v.phase = .reading job) (inStep : v.InStep own)
      (parent : v.parentReady = true) (apt : job.IsApt v.filter) : Stage v own .reading
  | read {job : Job} (list : List Object) (phase : v.phase = .reading job) (inStep : v.InStep own)
      (parent : v.parentReady = true) (apt : job.IsApt v.filter) : Stage v own (.contents list)
  | applying {job : Job} (list : List Object) (phase : v.phase = .applying job)
      (inStep : v.InStep own) (parent : v.parentReady = true) (apt : job.IsApt v.filter) :
      Stage v own (.asked (job.request list))
  | applied {job : Job} (events : List Event) (phase : v.phase = .applying job)
      (parent : v.parentReady = true) (filled : own.items.isSome = true)
      (filter : own.filter = job.target v.filter) : Stage v own (.answered events)
  | noting {filter : Filter} (phase : v.phase = .noting filter) (inStep : v.InStep own)
      (unready : v.isReady = false) (apt : v.filter.same filter = false) :
      Stage v own (.asked (.refilter none filter))
  | noted {filter : Filter} (events : List Event) (phase : v.phase = .noting filter)
      (unready : v.isReady = false) (empty : own.items = none) (bound : own.filter = filter) :
      Stage v own (.answered events)
  | updating (e : Event) (phase : v.phase = .updating) (inStep : v.InStep own)
      (ready : v.isReady = true) : Stage v own (.asked (.update e))
  | updated (events : List Event) (phase : v.phase = .updating) (inStep : v.InStep own)
      (ready : v.isReady = true) : Stage v own (.answered events)

/-! ### What the view does -/

/-- What a view does when it is told something that it waits for: the view afterwards, and what it
has set off. -/
inductive Reaction (v : View) : Input → View → Errand → Prop
  | wait (phase : v.phase = .idle) (deferred : (v.isDeferred && !v.isAsked) = true) :
      Reaction v .parentReady { v with parentReady := true } .nothing
  | seed (phase : v.phase = .idle) (free : (v.isDeferred && !v.isAsked) = false) :
      Reaction v .parentReady { v with parentReady := true, phase := .reading .seed } .reading
  | note {filter : Filter} (phase : v.phase = .idle) (parent : v.parentReady = false)
      (new : filter.same v.filter = false) :
      Reaction v (.refilter filter) { v with phase := .noting filter }
        (.asked (.refilter none filter))
  | keep {filter : Filter} (phase : v.phase = .idle) (parent : v.parentReady = false)
      (known : filter.same v.filter = true) :
      Reaction v (.refilter filter) { v with isAsked := true } .nothing
  | skip {filter : Filter} (phase : v.phase = .idle) (parent : v.parentReady = true)
      (ready : v.isReady = true) (known : filter.same v.filter = true) :
      Reaction v (.refilter filter) v .nothing
  | read {filter : Filter} (phase : v.phase = .idle) (parent : v.parentReady = true)
      (needed : v.isReady = true → filter.same v.filter = false) :
      Reaction v (.refilter filter)
        { v with phase := .reading (.refilter filter (!filter.same v.filter)) } .reading
  | ignore {e : Event} (phase : v.phase = .idle) (unready : v.isReady = false) :
      Reaction v (.event e) v .nothing
  | update {e : Event} (phase : v.phase = .idle) (ready : v.isReady = true) :
      Reaction v (.event e) { v with phase := .updating } (.asked (.update e))
  | take {job : Job} {list : List Object} (phase : v.phase = .reading job) :
      Reaction v (.contents list) { v with phase := .applying job } (.asked (job.request list))
  | taken {job : Job} {events : List Event} (phase : v.phase = .applying job) :
      Reaction v (.applied events)
        { v with filter := job.target v.filter, isReady := true, phase := .idle } .nothing
  | noted {filter : Filter} {events : List Event} (phase : v.phase = .noting filter) :
      Reaction v (.applied events) { v with filter, isAsked := true, phase := .idle } .nothing
  | updated {events : List Event} (phase : v.phase = .updating) :
      Reaction v (.applied events) { v with phase := .idle } .nothing

variable {v : View} {own : Store}

theorem InStep.empty (h : v.InStep own) (unready : v.isReady = false) : own.items = none := by
  have hready := h.ready
  rw [unready] at hready
  cases hi : own.items with
  | none => rfl
  | some items =>
      rw [hi] at hready
      cases hready

theorem reaction_parentReady (phase : v.phase = .idle) :
    v.Reaction .parentReady (v.step .parentReady).1 (.ofActions (v.step .parentReady).2) := by
  cases hwait : v.isDeferred && !v.isAsked with
  | true =>
      have hstep : v.step .parentReady = ({ v with parentReady := true }, []) := by
        simp only [step, phase, hwait, if_true]
      rw [hstep]
      exact .wait phase hwait
  | false =>
      have hstep : v.step .parentReady =
          ({ v with parentReady := true, phase := .reading .seed }, [.readParent]) := by
        simp [step, phase, hwait]
      rw [hstep]
      exact .seed phase hwait

theorem reaction_refilter (phase : v.phase = .idle) (filter : Filter) :
    v.Reaction (.refilter filter) (v.step (.refilter filter)).1
      (.ofActions (v.step (.refilter filter)).2) := by
  cases hp : v.parentReady with
  | false =>
      cases hs : filter.same v.filter with
      | false =>
          have hstep : v.step (.refilter filter) =
              ({ v with phase := .noting filter }, [.ask (.refilter none filter)]) := by
            simp [step, phase, hp, hs]
          rw [hstep]
          exact .note phase hp hs
      | true =>
          have hstep : v.step (.refilter filter) = ({ v with isAsked := true }, []) := by
            simp [step, phase, hp, hs]
          rw [hstep]
          exact .keep phase hp hs
  | true =>
      by_cases hskip : v.isReady = true ∧ filter.same v.filter = true
      · have hstep : v.step (.refilter filter) = (v, []) := by
          simp [step, phase, hp, hskip.1, hskip.2]
        rw [hstep]
        exact .skip phase hp hskip.1 hskip.2
      · have hstep : v.step (.refilter filter) =
            ({ v with phase := .reading (.refilter filter (!filter.same v.filter)) },
              [.readParent]) := by
          simp_all [step]
        rw [hstep]
        exact .read phase hp (by simpa using hskip)

theorem reaction_event (phase : v.phase = .idle) (e : Event) :
    v.Reaction (.event e) (v.step (.event e)).1 (.ofActions (v.step (.event e)).2) := by
  cases hr : v.isReady with
  | false =>
      have hstep : v.step (.event e) = (v, []) := by simp [step, phase, hr]
      rw [hstep]
      exact .ignore phase hr
  | true =>
      have hstep : v.step (.event e) = ({ v with phase := .updating }, [.ask (.update e)]) := by
        simp [step, phase, hr]
      rw [hstep]
      exact .update phase hr

theorem reaction_contents {job : Job} (phase : v.phase = .reading job) (list : List Object) :
    v.Reaction (.contents list) (v.step (.contents list)).1
      (.ofActions (v.step (.contents list)).2) := by
  have hstep : v.step (.contents list) =
      ({ v with phase := .applying job }, [.ask (job.request list)]) := by
    simp only [step, phase]
    rfl
  rw [hstep]
  exact .take phase

theorem reaction_applied {events : List Event} (h : Stage v own (.answered events)) :
    v.Reaction (.applied events) (v.step (.applied events)).1
      (.ofActions (v.step (.applied events)).2) := by
  cases h with
  | @applied job _ phase parent filled filter =>
      have hview : (v.step (.applied events)).1 =
          { v with filter := job.target v.filter, isReady := true, phase := .idle } := by
        simp only [step, phase]
        split <;> rfl
      have herrand : Errand.ofActions (v.step (.applied events)).2 = .nothing := by
        simp only [step, phase]
        split <;> rfl
      rw [hview, herrand]
      exact .taken phase
  | @noted filter _ phase unready empty bound =>
      have hstep : v.step (.applied events) =
          ({ v with filter, isAsked := true, phase := .idle }, []) := by
        simp [step, phase]
      rw [hstep]
      exact .noted phase
  | updated _ phase inStep ready =>
      have hstep : v.step (.applied events) = ({ v with phase := .idle }, [.offer events]) := by
        simp [step, phase]
      rw [hstep]
      exact .updated phase

/-! ### From stage to stage -/

theorem Stage.of_nothing (h : Stage v own .nothing) : v.phase = .idle ∧ v.InStep own := by
  generalize herrand : Errand.nothing = errand at h
  cases h with
  | idle phase inStep => exact ⟨phase, inStep⟩
  | _ => cases herrand

theorem Stage.of_contents {list : List Object} (h : Stage v own (.contents list)) :
    ∃ job, v.phase = .reading job ∧ v.InStep own ∧ v.parentReady = true ∧ job.IsApt v.filter := by
  cases h with
  | @read job _ phase inStep parent apt => exact ⟨job, phase, inStep, parent, apt⟩

/-- A view that waits for a store stops when that refuses. -/
theorem Stage.step_refused {errand : Errand} (h : Stage v own errand) (busy : errand ≠ .nothing) :
    v.step .refused = v.stop := by
  cases h with
  | idle => exact absurd rfl busy
  | reading phase | read _ phase | applying _ phase | applied _ phase | noting phase | noted _ phase
  | updating _ phase | updated _ phase => simp only [step, phase]

/-- What the view does when it is told something with nothing under way. -/
theorem Reaction.stage_of_nothing {v' : View} {i : Input} {errand : Errand}
    (h : v.Reaction i v' errand) (hs : Stage v own .nothing) : Stage v' own errand := by
  obtain ⟨idle, inStep⟩ := hs.of_nothing
  cases h with
  | wait phase deferred => exact .idle phase ⟨inStep.filter, inStep.ready, fun _ => rfl⟩
  | seed phase free =>
      exact @Stage.reading _ _ .seed rfl ⟨inStep.filter, inStep.ready, fun _ => rfl⟩ rfl trivial
  | @note filter phase parent new =>
      have hunready : v.isReady = false := by
        cases hr : v.isReady with
        | false => rfl
        | true =>
            have := inStep.parent hr
            rw [parent] at this
            cases this
      rw [Filter.same_comm] at new
      exact .noting rfl ⟨inStep.filter, inStep.ready, inStep.parent⟩ hunready new
  | keep phase parent known => exact .idle phase ⟨inStep.filter, inStep.ready, inStep.parent⟩
  | skip phase parent ready known => exact .idle phase inStep
  | @read filter phase parent needed =>
      refine .reading rfl ⟨inStep.filter, inStep.ready, inStep.parent⟩ parent ?_
      cases hs : filter.same v.filter with
      | false =>
          rw [Filter.same_comm] at hs
          exact hs
      | true => trivial
  | ignore phase unready => exact .idle phase inStep
  | update phase ready => exact .updating _ rfl ⟨inStep.filter, inStep.ready, inStep.parent⟩ ready
  | take phase | taken phase | noted phase | updated phase =>
      rw [idle] at phase
      cases phase

theorem Reaction.stage_of_contents {v' : View} {list : List Object} {errand : Errand}
    (h : v.Reaction (.contents list) v' errand) (hs : Stage v own (.contents list)) :
    Stage v' own errand := by
  obtain ⟨job, phase, inStep, parent, apt⟩ := hs.of_contents
  cases h with
  | take phase' =>
      rw [phase] at phase'
      cases phase'
      exact .applying list rfl ⟨inStep.filter, inStep.ready, inStep.parent⟩ parent apt

theorem Reaction.stage_of_answered {v' : View} {events : List Event} {errand : Errand}
    (h : v.Reaction (.applied events) v' errand) (hs : Stage v own (.answered events)) :
    Stage v' own errand := by
  cases hs with
  | applied _ phase parent filled filter =>
      cases h with
      | taken phase' =>
          rw [phase] at phase'
          cases phase'
          exact .idle rfl ⟨filter, filled.symm, fun _ => parent⟩
      | noted phase' | updated phase' =>
          rw [phase] at phase'
          cases phase'
  | noted _ phase unready empty bound =>
      cases h with
      | noted phase' =>
          rw [phase] at phase'
          cases phase'
          exact .idle rfl ⟨bound, by simp [unready, empty], by simp [unready]⟩
      | taken phase' | updated phase' =>
          rw [phase] at phase'
          cases phase'
  | updated _ phase inStep ready =>
      cases h with
      | updated phase' => exact .idle rfl ⟨inStep.filter, inStep.ready, inStep.parent⟩
      | taken phase' | noted phase' =>
          rw [phase] at phase'
          cases phase'

/-! ### What the own store does -/

/-- Taking the parent's contents over: every slot is relisted under the job's filter. -/
theorem run_request {job : Job} (apt : job.IsApt own.filter) (list : List Object) :
    ((job.request list).run own).1.filter = job.target own.filter ∧
      ((job.request list).run own).1.items.isSome = true ∧
      ∀ k, ((job.request list).run own).1.slot k = own.relist (job.target own.filter) list k := by
  have hsync : (own.sync list).1.items.isSome = true := by
    cases h : own.items <;> simp [Store.sync, h]
  cases job with
  | seed => exact ⟨own.filter_sync list, hsync, own.slot_sync list⟩
  | refilter filter changed =>
      cases changed with
      | false => exact ⟨own.filter_sync list, hsync, own.slot_sync list⟩
      | true =>
          change own.filter.same filter = false at apt
          refine ⟨Store.filter_refilter apt _, ?_, Store.slot_refilter apt _⟩
          change (own.refilter (some list) filter).1.items.isSome = true
          cases h : own.items <;> simp [Store.refilter, h, apt]

/-- Noting a filter fills nothing. -/
theorem items_run_note (h : own.items = none) (filter : Filter) :
    ((Request.refilter none filter).run own).1.items = none := by
  change (own.refilter none filter).1.items = none
  cases hs : own.filter.same filter <;> simp [Store.refilter, hs, h]

theorem stage_serve {r : Request} (h : Stage v own (.asked r)) :
    Stage v (r.run own).1 (.answered (r.run own).2.eventList) := by
  generalize herrand : Errand.asked r = errand at h
  cases h with
  | @applying job list phase inStep parent apt =>
      cases herrand
      rw [← inStep.filter] at apt
      obtain ⟨hfilter, hfilled, -⟩ := run_request apt list
      exact .applied _ phase parent hfilled (inStep.filter ▸ hfilter)
  | @noting filter phase inStep unready apt =>
      cases herrand
      rw [← inStep.filter] at apt
      exact .noted _ phase unready (items_run_note (inStep.empty unready) filter)
        (Store.filter_refilter apt none)
  | updating e phase inStep ready =>
      cases herrand
      have hfilled : own.items.isSome = true := inStep.ready ▸ ready
      refine .updated _ phase ⟨?_, ?_, inStep.parent⟩ ready
      · rw [← inStep.filter]
        exact own.filter_update e
      · rw [ready]
        exact (Store.isSome_items_run hfilled (.update e)).symm
  | _ => cases herrand

/-- A view that is ready has contents, and goes by the filter of its own store; or its own store
has just taken another one over. -/
theorem Stage.of_ready {errand : Errand} (h : Stage v own errand) (hr : v.isReady = true) :
    own.items.isSome = true ∧ v.parentReady = true ∧
      (own.filter = v.filter ∨
        ∃ events, errand = .answered events ∧ v.phase = .applying (.refilter own.filter true)) := by
  have hstep : v.InStep own → own.items.isSome = true ∧ v.parentReady = true ∧
      (own.filter = v.filter ∨
        ∃ events, errand = .answered events ∧ v.phase = .applying (.refilter own.filter true)) :=
    fun inStep => ⟨inStep.ready ▸ hr, inStep.parent hr, .inl inStep.filter⟩
  cases h with
  | idle phase inStep | reading phase inStep | read list phase inStep | applying list phase inStep =>
      exact hstep inStep
  | @applied job events phase parent filled filter =>
      refine ⟨filled, parent, ?_⟩
      cases job with
      | seed => exact .inl filter
      | refilter wanted changed =>
          cases changed with
          | false => exact .inl filter
          | true =>
              refine .inr ⟨events, rfl, ?_⟩
              rw [phase, filter]
              rfl
  | noting phase inStep unready | noted events phase unready =>
      rw [unready] at hr
      cases hr
  | updating e phase inStep | updated events phase inStep => exact hstep inStep

/-- A view that does not know of its parent's being ready has taken nothing over. -/
theorem Stage.of_unready {errand : Errand} (h : Stage v own errand) (hp : v.parentReady = false) :
    own.items = none ∧ errand.listing? = none ∧ errand.events = [] := by
  have hempty : v.InStep own → own.items = none := by
    intro inStep
    refine inStep.empty ?_
    cases hr : v.isReady with
    | false => rfl
    | true =>
        have := inStep.parent hr
        rw [hp] at this
        cases this
  cases h with
  | idle phase inStep => exact ⟨hempty inStep, rfl, rfl⟩
  | noting phase inStep => exact ⟨hempty inStep, rfl, rfl⟩
  | noted events phase unready empty => exact ⟨empty, rfl, rfl⟩
  | reading phase inStep parent | read list phase inStep parent | applying list phase inStep parent
  | applied events phase parent =>
      rw [hp] at parent
      cases parent
  | updating e phase inStep ready | updated events phase inStep ready =>
      rw [inStep.parent ready] at hp
      cases hp

end View

end Replica
