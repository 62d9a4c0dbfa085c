import Replica.Proofs.Store.Diff
import Replica.Proofs.View.Vantage

/-! # How a view becomes ready

`View.Progress` says how far a view is on its way to readiness, going by what was seen of it, and
`View.Known` adds what is known of its filter; whatever the view does when it is told something keeps both
(`Known.reaction`).  `Tracked` is what every move of a view with its own store keeps, and `readiness` reads
off it how the view stands as long as it runs. -/

namespace Replica

namespace View

open View.Mark

/-- There is a reason to be ready with the parent: the view is not deferred, or it was given a filter. -/
def HasReason (v : View) (t : List Mark) : Prop := v.isDeferred = false ∨ WasRefiltered t

/-- The view is not busy with anything that comes before its parent is ready or right then. -/
def IsPast (v : View) : Prop := v.job? ≠ some .seed ∧ ∀ filter, v.phase ≠ .noting filter

/-- How far a view is on its way to readiness, with what was seen of it. -/
inductive Progress (t : List Mark) (v : View) : Prop
  /-- The parent is not ready; a change of filter is remembered. -/
  | apart (parent : v.parentReady = false) (unready : v.isReady = false) (unsensed : .sensed ∉ t)
      (asked : v.isAsked = true ↔ WasRefiltered t)
  /-- The parent has become ready, and its contents are taken over. -/
  | seeding (parent : v.parentReady = true) (unready : v.isReady = false) (job : v.job? = some .seed)
      (unsensed : .sensed ∉ t) (reason : v.HasReason t)
  /-- The parent is ready, but the view waits for its first filter. -/
  | waiting (parent : v.parentReady = true) (unready : v.isReady = false) (past : v.IsPast)
      (sensed : .sensed ∈ t) (patient : ¬ v.HasReason t)
  | ready (parent : v.parentReady = true) (ready : v.isReady = true) (past : v.IsPast)
      (sensed : .sensed ∈ t) (reason : v.HasReason t)

variable {t u : List Mark} {v : View}

/-- Only events were offered. -/
def OffersOnly (u : List Mark) : Prop := ∀ m ∈ u, ∃ e, m = .offered e

theorem OffersOnly.sensed (h : OffersOnly u) : .sensed ∈ t ++ u ↔ .sensed ∈ t := by
  refine ⟨fun hmem => (List.mem_append.1 hmem).resolve_right fun hu => ?_, List.mem_append_left u⟩
  obtain ⟨e, he⟩ := h _ hu
  cases he

theorem OffersOnly.wasRefiltered (h : OffersOnly u) : WasRefiltered (t ++ u) ↔ WasRefiltered t := by
  refine wasRefiltered_append.trans (or_iff_left ?_)
  rintro ⟨filter, hu⟩
  obtain ⟨e, he⟩ := h _ hu
  cases he

theorem OffersOnly.nil : OffersOnly [] := by simp [OffersOnly]

theorem OffersOnly.map (events : List Event) : OffersOnly (events.map .offered) := by simp [OffersOnly]

theorem OffersOnly.lastFilter (h : OffersOnly u) (filter : Filter) :
    lastFilter filter (t ++ u) = lastFilter filter t := by
  rw [lastFilter_append]
  generalize Mark.lastFilter filter t = current
  induction u with
  | nil => rfl
  | cons m u ih =>
      obtain ⟨e, rfl⟩ := h m List.mem_cons_self
      exact ih fun m hm => h m (List.mem_cons_of_mem _ hm)

theorem lastFilter_refiltered (filter given : Filter) (t : List Mark) :
    lastFilter filter (t ++ [.refiltered given]) = given := by
  rw [lastFilter_append]
  rfl

theorem Progress.unready_of_seed (h : Progress t v) (job : v.job? = some .seed) :
    v.isReady = false := by
  cases h with
  | apart _ unready | seeding _ unready => exact unready
  | waiting _ _ past | ready _ _ past => exact absurd job past.1

/-- **A view is ready exactly when it is done with its parent's being ready and has a reason.** -/
theorem Progress.ready_iff (h : Progress t v) :
    v.isReady = true ↔ .sensed ∈ t ∧ v.HasReason t := by
  cases h with
  | apart _ unready unsensed | seeding _ unready _ unsensed => simp [unready, unsensed]
  | waiting _ unready _ sensed patient => simp [unready, patient]
  | ready _ ready _ sensed reason => simp [ready, sensed, reason]

theorem Progress.go (h : Progress t v) (hu : OffersOnly u) {filter : Filter} {phase : Phase}
    (hjob : ({ v with filter, phase } : View).job? = some .seed ↔ v.job? = some .seed)
    (hnoting : ∀ f, phase = .noting f → v.parentReady = false) :
    Progress (t ++ u) { v with filter, phase } := by
  have hpast : v.parentReady = true → v.IsPast → IsPast { v with filter, phase } := fun hp past =>
    ⟨fun hjob' => past.1 (hjob.1 hjob'), fun f hf => by simp [hnoting f hf] at hp⟩
  have hreason : HasReason { v with filter, phase } (t ++ u) ↔ v.HasReason t :=
    or_congr_right hu.wasRefiltered
  cases h with
  | apart parent unready unsensed asked =>
      exact .apart parent unready (by rwa [hu.sensed]) (by rwa [hu.wasRefiltered])
  | seeding parent unready job unsensed reason =>
      exact .seeding parent unready (hjob.2 job) (by rwa [hu.sensed]) (hreason.2 reason)
  | waiting parent unready past sensed patient =>
      exact .waiting parent unready (hpast parent past) (hu.sensed.2 sensed) (mt hreason.1 patient)
  | ready parent ready past sensed reason =>
      exact .ready parent ready (hpast parent past) (hu.sensed.2 sensed) (hreason.2 reason)

theorem Progress.wait (h : Progress t v) (phase : v.phase = .idle) (first : v.parentReady = false)
    (waits : (v.isDeferred && !v.isAsked) = true) :
    Progress (t ++ [.sensed]) { v with parentReady := true } := by
  obtain ⟨deferred, unasked⟩ := Bool.and_eq_true_iff.1 waits
  cases h with
  | apart _ unready _ asked =>
      refine .waiting rfl unready ⟨by simp [job?, phase], by simp [phase]⟩ (by simp) ?_
      rintro (hfree | hgiven)
      · exact Bool.false_ne_true (hfree.symm.trans deferred)
      · have hgiven : WasRefiltered t := (wasRefiltered_append.1 hgiven).resolve_right (by simp [WasRefiltered])
        simp [asked.2 hgiven] at unasked
  | seeding parent | waiting parent | ready parent => cases first.symm.trans parent

theorem Progress.seed (h : Progress t v) (first : v.parentReady = false)
    (free : (v.isDeferred && !v.isAsked) = false) :
    Progress t { v with parentReady := true, phase := .reading .seed } := by
  cases h with
  | apart _ unready unsensed asked =>
      refine .seeding rfl unready rfl unsensed ?_
      rcases Bool.and_eq_false_iff.1 free with hfree | hasked
      · exact .inl hfree
      · exact .inr (asked.1 (by simpa using hasked))
  | seeding parent | waiting parent | ready parent => cases first.symm.trans parent

theorem Progress.remember (h : Progress t v) (parent : v.parentReady = false) (filter given : Filter) :
    Progress (t ++ [.refiltered given]) { v with filter, isAsked := true, phase := .idle } := by
  cases h with
  | apart _ unready unsensed asked =>
      exact .apart parent unready (by simpa using unsensed)
        (iff_of_true rfl ⟨given, List.mem_append_right _ List.mem_cons_self⟩)
  | seeding parent' | waiting parent' | ready parent' => cases parent.symm.trans parent'

theorem Progress.become (h : Progress t v) (parent : v.parentReady = true)
    (job : v.job? ≠ some .seed) (u : List Mark) (filter given : Filter) :
    Progress (t ++ (u ++ [.refiltered given])) { v with filter, isReady := true, phase := .idle } := by
  have hsensed : .sensed ∈ t := by
    cases h with
    | apart parent' => cases parent.symm.trans parent'
    | seeding _ _ job' => exact absurd job' job
    | waiting _ _ _ sensed | ready _ _ _ sensed => exact sensed
  have hgiven : WasRefiltered (t ++ (u ++ [.refiltered given])) := ⟨given, by simp⟩
  exact .ready parent rfl ⟨by simp [job?], nofun⟩ (List.mem_append_left _ hsensed) (.inr hgiven)

theorem Progress.seeded (h : Progress t v) (parent : v.parentReady = true)
    (job : v.job? = some .seed) (filter : Filter) :
    Progress (t ++ [.sensed]) { v with filter, isReady := true, phase := .idle } := by
  cases h with
  | apart parent' => cases parent.symm.trans parent'
  | seeding _ _ _ _ reason =>
      refine .ready parent rfl ⟨by simp [job?], nofun⟩ (by simp) ?_
      exact reason.imp_right fun hw => wasRefiltered_append.2 (.inl hw)
  | waiting _ _ past | ready _ _ past => exact absurd job past.1

/-- What was seen of a view that runs, with its state. -/
structure Known (filter : Filter) (t : List Mark) (v : View) : Prop where
  progress : Progress t v
  last : (lastFilter filter t).same v.filter = true
  /-- A filter that is said to be no new one equals the current one. -/
  kept : ∀ f, v.job? = some (.refilter f false) → f.same v.filter = true

/-! ### What is seen of a view that is told something

For each way in which a view reacts: a view that is idle afterwards is done with something, and no other one is. -/

section marks

variable {f : Filter} {e : Event} {events : List Event} {list : List Object} {job : Job} {changed : Bool}

theorem marks_wait (phase : v.phase = .idle) (waits : (v.isDeferred && !v.isAsked) = true) :
    v.marks .parentReady = [.sensed] := by
  simp [marks, step, business?, isIdle, phase, waits]

theorem marks_seed (phase : v.phase = .idle) (free : (v.isDeferred && !v.isAsked) = false) :
    v.marks .parentReady = [] := by
  simp [marks, step, isIdle, phase, free, Action.offers]

theorem marks_note (phase : v.phase = .idle) (parent : v.parentReady = false) (new : f.same v.filter = false) :
    v.marks (.refilter f) = [] := by
  simp [marks, step, isIdle, phase, parent, new, Action.offers]

theorem marks_keep (phase : v.phase = .idle) (parent : v.parentReady = false) (known : f.same v.filter = true) :
    v.marks (.refilter f) = [.refiltered f] := by
  simp [marks, step, business?, isIdle, phase, parent, known]

theorem marks_skip (phase : v.phase = .idle) (parent : v.parentReady = true) (ready : v.isReady = true)
    (known : f.same v.filter = true) : v.marks (.refilter f) = [.refiltered f] := by
  simp [marks, step, business?, isIdle, phase, parent, ready, known]

theorem marks_read (phase : v.phase = .idle) (parent : v.parentReady = true)
    (needed : v.isReady = true → f.same v.filter = false) : v.marks (.refilter f) = [] := by
  by_cases hready : v.isReady = true
  · simp [marks, step, isIdle, phase, parent, hready, needed hready, Action.offers]
  · simp [marks, step, isIdle, phase, parent, hready, Action.offers]

theorem marks_ignore (phase : v.phase = .idle) (unready : v.isReady = false) : v.marks (.event e) = [] := by
  simp [marks, step, business?, isIdle, phase, unready]

theorem marks_update (phase : v.phase = .idle) (ready : v.isReady = true) : v.marks (.event e) = [] := by
  simp [marks, step, isIdle, phase, ready, Action.offers]

theorem marks_take (phase : v.phase = .reading job) : v.marks (.contents list) = [] := by
  simp [marks, step, isIdle, phase, Action.offers]

theorem marks_seeded (phase : v.phase = .applying .seed) (unready : v.isReady = false) :
    v.marks (.applied events) = [.sensed] := by
  simp [marks, step, business?, isIdle, phase, unready, Action.offers]

theorem marks_refiltered (phase : v.phase = .applying (.refilter f changed)) :
    v.marks (.applied events) = (if v.isReady then events else []).map .offered ++ [.refiltered f] := by
  cases hready : v.isReady <;> simp [marks, step, business?, isIdle, phase, hready, Action.offers]

theorem marks_noted (phase : v.phase = .noting f) : v.marks (.applied events) = [.refiltered f] := by
  simp [marks, step, business?, isIdle, phase]

theorem marks_updated (phase : v.phase = .updating) : v.marks (.applied events) = events.map .offered := by
  simp [marks, step, business?, isIdle, phase, Action.offers]

end marks

variable {v' : View} {i : Input} {errand : Errand} {filter : Filter}

/-- A view that is done with nothing keeps what is known of it. -/
theorem Known.go (h : Known filter t v) (hu : OffersOnly u) {phase : Phase}
    (hjob : ({ v with phase } : View).job? = some .seed ↔ v.job? = some .seed)
    (hnoting : ∀ f, phase = .noting f → v.parentReady = false)
    (kept : ∀ f, ({ v with phase } : View).job? = some (.refilter f false) → f.same v.filter = true) :
    Known filter (t ++ u) { v with phase } where
  progress := h.progress.go hu hjob hnoting
  last := by
    rw [hu.lastFilter]
    exact h.last
  kept := kept

theorem Known.seeded (h : Known filter t v) (parent : v.parentReady = true) (job : v.job? = some .seed) :
    Known filter (t ++ [.sensed]) { v with filter := v.filter, isReady := true, phase := .idle } where
  progress := h.progress.seeded parent job v.filter
  last := by
    rw [lastFilter_append]
    exact h.last
  kept := by simp [job?]

theorem Known.refiltered (h : Known filter t v) (parent : v.parentReady = true) {f : Filter} {changed : Bool}
    (job : v.job? = some (.refilter f changed)) (u : List Mark) :
    Known filter (t ++ (u ++ [.refiltered f]))
      { v with filter := (Job.refilter f changed).target v.filter, isReady := true, phase := .idle } where
  progress := h.progress.become parent (by simp [job]) u _ f
  last := by
    rw [← List.append_assoc, lastFilter_refiltered]
    cases changed with
    | true => exact (Filter.lawful f).refl
    | false => exact h.kept f job
  kept := by simp [job?]

/-- **What a view does when it is told something keeps its state in step with what is seen of it.** -/
theorem Known.reaction (h : Known filter t v) (hr : v.Reaction i v' errand)
    (first : i = .parentReady → v.parentReady = false)
    (parent : ∀ job, v.phase = .applying job → v.parentReady = true)
    (apart : ∀ f, v.phase = .noting f → v.parentReady = false) :
    Known filter (t ++ v.marks i) v' := by
  cases hr with
  | wait phase waits =>
      rw [marks_wait phase waits]
      exact ⟨h.progress.wait phase (first rfl) waits, by rw [lastFilter_append]; exact h.last, h.kept⟩
  | seed phase free =>
      rw [marks_seed phase free, List.append_nil]
      exact ⟨h.progress.seed (first rfl) free, h.last, by simp [job?]⟩
  | note phase parent' new =>
      rw [marks_note phase parent' new]
      exact h.go .nil (by simp [job?, phase]) (fun _ _ => parent') (by simp [job?])
  | @keep f phase parent' known =>
      rw [marks_keep phase parent' known]
      have hsame : ({ v with isAsked := true } : View) = { v with isAsked := true, phase := .idle } := by
        rw [← phase]
      refine ⟨hsame ▸ h.progress.remember parent' v.filter f, ?_, h.kept⟩
      rw [lastFilter_refiltered]
      exact known
  | @skip f phase parent' ready known =>
      rw [marks_skip phase parent' ready known]
      have hsame : v = { v with filter := v.filter, isReady := true, phase := .idle } := by
        rw [← phase, ← ready]
      refine ⟨hsame ▸ h.progress.become parent' (by simp [job?, phase]) [] v.filter f, ?_, h.kept⟩
      rw [lastFilter_refiltered]
      exact known
  | read phase parent' needed =>
      rw [marks_read phase parent' needed]
      refine h.go .nil (by simp [job?, phase]) nofun fun g hg => ?_
      simp only [job?, Option.some.injEq, Job.refilter.injEq, Bool.not_eq_false'] at hg
      exact hg.1 ▸ hg.2
  | ignore phase unready =>
      rw [marks_ignore phase unready, List.append_nil]
      exact h
  | update phase ready =>
      rw [marks_update phase ready]
      exact h.go .nil (by simp [job?, phase]) nofun (by simp [job?])
  | take phase =>
      rw [marks_take phase]
      exact h.go .nil (by simp [job?, phase]) nofun fun f hf => h.kept f (by simpa [job?, phase] using hf)
  | @taken job events phase =>
      cases job with
      | seed =>
          have hjob : v.job? = some .seed := by simp [job?, phase]
          rw [marks_seeded phase (h.progress.unready_of_seed hjob)]
          exact h.seeded (parent _ phase) hjob
      | refilter f changed =>
          rw [marks_refiltered phase]
          exact h.refiltered (parent _ phase) (by simp [job?, phase]) _
  | @noted f events phase =>
      rw [marks_noted phase]
      refine ⟨h.progress.remember (apart f phase) f f, ?_, by simp [job?]⟩
      rw [lastFilter_refiltered]
      exact (Filter.lawful f).refl
  | updated phase =>
      rw [marks_updated phase]
      exact h.go (.map _) (by simp [job?, phase]) nofun (by simp [job?])

theorem Stage.parent_of_applying {own : Store} (h : v.Stage own errand) {job : Job}
    (phase : v.phase = .applying job) : v.parentReady = true := by
  cases h with
  | applying _ _ _ parent | applied _ _ parent => exact parent
  | idle phase' | reading phase' | read _ phase' | noting phase' | noted _ phase' | updating _ phase'
  | updated _ phase' => cases phase.symm.trans phase'

/-- The own store goes by the view's filter, or it has just taken another one over. -/
theorem Stage.bound {own : Store} (h : v.Stage own errand) :
    own.filter = v.filter ∨ ∃ events, errand = .answered events ∧
      (v.phase = .noting own.filter ∨ v.phase = .applying (.refilter own.filter true)) := by
  cases h with
  | idle _ inStep | reading _ inStep | read _ _ inStep | applying _ _ inStep | noting _ inStep
  | updating _ _ inStep | updated _ _ inStep => exact .inl inStep.filter
  | noted events phase _ _ bound => exact .inr ⟨events, rfl, .inl (bound ▸ phase)⟩
  | @applied job events phase _ _ bound =>
      cases job with
      | seed => exact .inl bound
      | refilter f changed =>
          cases changed with
          | false => exact .inl bound
          | true =>
              obtain rfl : own.filter = f := bound
              exact .inr ⟨events, rfl, .inr phase⟩

/-- The own store of a view that is not ready is empty, or it has just been filled. -/
theorem Stage.empty_or_filled {own : Store} (h : v.Stage own errand) (unready : v.isReady = false) :
    own.items = none ∨ ∃ events job, errand = .answered events ∧ v.phase = .applying job := by
  cases h with
  | idle _ inStep | reading _ inStep | read _ _ inStep | applying _ _ inStep | noting _ inStep =>
      exact .inl (inStep.empty unready)
  | @applied job events phase => exact .inr ⟨events, job, rfl, phase⟩
  | noted _ _ _ empty => exact .inl empty
  | updating _ _ _ ready | updated _ _ _ ready => cases unready.symm.trans ready

theorem Stage.ready_of_updating {own : Store} (h : v.Stage own errand) (phase : v.phase = .updating) :
    v.isReady = true := by
  cases h with
  | updating _ _ _ ready | updated _ _ _ ready => exact ready
  | idle phase' | reading phase' | read _ phase' | applying _ phase' | applied _ phase' | noting phase'
  | noted _ phase' => cases phase.symm.trans phase'

theorem Reaction.isDeferred (h : v.Reaction i v' errand) : v'.isDeferred = v.isDeferred := by
  cases h <;> rfl

theorem Reaction.isReady (h : v.Reaction i v' errand) (ready : v.isReady = true) :
    v'.isReady = true := by
  cases h with
  | taken => rfl
  | _ => exact ready

theorem Reaction.apart_of_noting (h : v.Reaction i v' errand) {f : Filter}
    (hf : v'.phase = .noting f) : v'.parentReady = false := by
  cases h with
  | note phase parent => exact parent
  | wait phase | keep phase | skip phase | ignore phase => cases phase.symm.trans hf
  | _ => cases hf

theorem offers_marks (unready : v.isReady = false) (updating : v.phase ≠ .updating) (i : Input) :
    offers (v.marks i) = [] := by
  have hactions : ∀ a ∈ (v.step i).2, a.offers = [] := by
    cases hphase : v.phase <;> cases i <;> simp [step, hphase, unready, stop, Action.offers] at updating ⊢
    case idle.parentReady => split <;> simp
    case idle.refilter => (repeat' split) <;> simp
  have hbusiness : ∀ m ∈ (v.business? i).toList, m.offered? = none := by
    unfold business?
    split <;> simp [offered?]
  rw [marks, List.flatMap_eq_nil_iff.2 hactions, List.map_nil, List.nil_append]
  refine List.filterMap_eq_nil_iff.2 fun m hm => ?_
  split at hm
  · exact hbusiness m hm
  · cases hm

end View

namespace Vantage

open View.Mark

/-- What is so of a view that runs, with its own store and what is under way, when `t` was seen of it. -/
structure Standing (filter : Filter) (deferred : Bool) (t : List View.Mark) (p : Vantage) : Prop where
  /-- The view is ready exactly when it is done with its parent's being ready, and with a change of filter
  besides if it is deferred. -/
  ready : p.view.isReady = true ↔ .sensed ∈ t ∧ (deferred = false ∨ WasRefiltered t)
  /-- The view's filter equals the last one that it was done with. -/
  last : (lastFilter filter t).same p.view.filter = true
  /-- The own store is bound to the view's filter, or the view is about to learn that it has taken another
  one over. -/
  bound : p.own.filter = p.view.filter ∨ ∃ events, p.errand = .answered events ∧
    (p.view.phase = .noting p.own.filter ∨ p.view.phase = .applying (.refilter p.own.filter true))
  /-- With nothing under way the view and its own store agree. -/
  settled : p.errand = .nothing → p.own.filter = p.view.filter ∧ p.own.items.isSome = p.view.isReady
  /-- The own store of a view that is not ready is empty, or the view is about to learn that it was filled,
  without events, and will be ready then. -/
  empty : p.view.isReady = false →
    p.own.items = none ∨ p.errand = .answered [] ∧ (p.step .hear).view.isReady = true
  /-- A view that is not ready has offered nothing. -/
  silent : p.view.isReady = false → offers t = []
  /-- The move that makes it ready offers nothing either. -/
  next : p.view.isReady = false → ∀ m, offers (p.marks m) = []

/-- What every move keeps. -/
structure Tracked (filter : Filter) (deferred : Bool) (t : List View.Mark) (p : Vantage) : Prop where
  stage : p.view.Stage p.own p.errand
  known : p.view.Known filter t
  deferred : p.view.isDeferred = deferred
  apart : ∀ f, p.view.phase = .noting f → p.view.parentReady = false
  /-- What the own store gives before the view is ready is nothing. -/
  answered : ∀ events, p.errand = .answered events → p.view.isReady = false → events = []
  silent : p.view.isReady = false → offers t = []

variable {filter : Filter} {deferred : Bool} {t u : List View.Mark} {p p' : Vantage} {i : View.Input}
  {view : View} {errand : Errand}

theorem tracked_start (filter : Filter) (deferred : Bool) :
    Tracked filter deferred [] (start filter deferred) where
  stage := .idle rfl ⟨rfl, rfl, nofun⟩
  known :=
    { progress := .apart rfl rfl List.not_mem_nil (by simp [start, View.new, WasRefiltered])
      last := (Filter.lawful filter).refl
      kept := nofun }
  deferred := rfl
  apart := nofun
  answered := nofun
  silent := fun _ => rfl

theorem Tracked.offers_marks (h : Tracked filter deferred t p) (unready : p.view.isReady = false)
    (i : View.Input) : offers (p.view.marks i) = [] := by
  refine View.offers_marks unready (fun updating => ?_) i
  exact Bool.false_ne_true (unready.symm.trans (h.stage.ready_of_updating updating))

/-- What the view does when it is told something leaves no answer of its own store behind. -/
theorem Tracked.tell (h : Tracked filter deferred t p) (hr : p.view.Reaction i view errand)
    (stage : view.Stage p.own errand) (first : i = .parentReady → p.view.parentReady = false) :
    Tracked filter deferred (t ++ p.view.marks i) { p with view, errand } where
  stage := stage
  known := h.known.reaction hr first (fun _ phase => h.stage.parent_of_applying phase) h.apart
  deferred := hr.isDeferred.trans h.deferred
  apart := fun _ phase => hr.apart_of_noting phase
  answered := by
    intro events hevents
    cases hr <;> cases hevents
  silent := by
    intro unready'
    have unready : p.view.isReady = false := by
      by_contra hready
      exact Bool.false_ne_true (unready'.symm.trans (hr.isReady (by simpa using hready)))
    rw [offers_append, h.silent unready, h.offers_marks unready, List.nil_append]

theorem silent_serve {r : Request} (h : p.view.Stage p.own (.asked r)) (unready : p.view.isReady = false) :
    (r.run p.own).2.eventList = [] := by
  generalize herrand : Errand.asked r = errand at h
  cases h with
  | @applying job list _ inStep _ apt =>
      cases herrand
      have hempty := inStep.empty unready
      cases job with
      | seed => simp [View.Job.request, Request.run, Store.sync, hempty, Reply.eventList]
      | refilter f changed =>
          cases changed with
          | false => simp [View.Job.request, Request.run, Store.sync, hempty, Reply.eventList]
          | true =>
              simp only [View.Job.request, Request.run, Store.refilter, hempty]
              split <;> rfl
  | noting _ inStep =>
      cases herrand
      exact (Store.silent_of_items_run (View.items_run_note (inStep.empty unready) _)).2
  | updating _ _ _ ready => cases unready.symm.trans ready
  | _ => cases herrand

/-- **Every change of a view that runs is tracked.** -/
theorem Tracked.change (h : Tracked filter deferred t p) (hc : p.Change p' u) :
    Tracked filter deferred (t ++ u) p' := by
  have hstage := hc.stage h.stage
  cases hc with
  | still => rwa [List.append_nil]
  | sense _ first reaction => exact h.tell reaction hstage fun _ => first
  | refilter _ reaction | event _ reaction | contents _ reaction | applied _ reaction =>
      exact h.tell reaction hstage nofun
  | serve asked =>
      rw [List.append_nil]
      refine ⟨hstage, h.known, h.deferred, h.apart, fun events hevents unready => ?_, h.silent⟩
      cases hevents
      exact silent_serve (asked ▸ h.stage) unready

theorem isRunning_of_after {moves : List Move} (h : (p.after moves).view.isRunning = true) :
    p.view.isRunning = true := by
  induction moves generalizing p with
  | nil => exact h
  | cons m moves ih => exact isRunning_of_step (ih h)

theorem tracked_after (h : Tracked filter deferred t p) {moves : List Move}
    (running : (p.after moves).view.isRunning = true) :
    Tracked filter deferred (t ++ p.trace moves) (p.after moves) := by
  induction moves generalizing p t with
  | nil => rwa [trace, List.append_nil]
  | cons m moves ih =>
      have hchange : p.Change (p.step m) (p.marks m) := change_turn h.stage (isRunning_of_after running)
      rw [trace, ← List.append_assoc]
      exact ih (h.change hchange) running

theorem Tracked.next (h : Tracked filter deferred t p) (unready : p.view.isReady = false) (m : Move) :
    offers (p.marks m) = [] := by
  have htell : ∀ i, offers (p.tell i).2 = [] := h.offers_marks unready
  unfold marks
  cases m with
  | tell i =>
      rw [turn]
      split
      · exact htell i
      · rfl
  | serve =>
      rw [turn]
      split <;> rfl
  | hear =>
      rw [turn]
      split
      · exact htell _
      · rfl

/-- **What is tracked says how the view stands.** -/
theorem Tracked.standing (h : Tracked filter deferred t p) : Standing filter deferred t p where
  ready := h.deferred ▸ h.known.progress.ready_iff
  last := h.known.last
  bound := h.stage.bound
  settled := by
    intro free
    have hstage := h.stage
    rw [free] at hstage
    exact ⟨hstage.of_nothing.2.filter, hstage.of_nothing.2.ready.symm⟩
  empty := by
    intro unready
    rcases h.stage.empty_or_filled unready with hempty | ⟨events, job, told, phase⟩
    · exact .inl hempty
    · obtain rfl := h.answered events told unready
      refine .inr ⟨told, ?_⟩
      have hstep : (p.step .hear).view = (p.view.step (.applied [])).1 := by
        simp only [step, turn, told]
        rfl
      rw [hstep]
      simp [View.step, phase, unready]
  silent := h.silent
  next := h.next

/-- **How a view becomes ready.**  Whatever a view, deferred or not, is told in whatever order, how it
stands as long as it runs follows from what it is done with: being ready, its filter, the filter and the
contents of its own store, and whether it offers events. -/
theorem readiness (filter : Filter) (deferred : Bool) (moves : List Move)
    (running : ((start filter deferred).after moves).view.isRunning = true) :
    Standing filter deferred ((start filter deferred).trace moves) ((start filter deferred).after moves) :=
  (tracked_after (tracked_start filter deferred) running).standing

/-- A deferred view is given its own filter before its parent is ready and another one afterwards; events
come before it is ready and then. -/
theorem readiness_of_early_refilter :
    let moves := [.tell (.event ⟨.create, .bare "a" "x" "1"⟩), .tell (.refilter .acceptAll), .tell .parentReady,
      .tell (.contents [.bare "a" "x" "1", .tagged "a" "y" "1"]), .serve, .hear,
      .tell (.event ⟨.create, .bare "a" "z" "2"⟩), .serve, .hear, .tell (.refilter (.labels .app)),
      .tell (.contents [.tagged "a" "y" "1"]), .serve, .hear]
    ((start .acceptAll true).after moves).view.isRunning = true ∧
      Standing .acceptAll true ((start .acceptAll true).trace moves) ((start .acceptAll true).after moves) :=
  have running := by decide +kernel
  ⟨running, readiness _ _ _ running⟩

/-- What is seen of a deferred view whose parent is ready first. -/
example :
    (start .acceptAll true).trace
      [.tell .parentReady, .tell (.refilter .acceptAll), .tell (.contents [.bare "a" "x" "1"]), .serve, .hear,
        .tell (.event ⟨.create, .bare "a" "z" "2"⟩), .serve, .hear] =
      [.sensed, .refiltered .acceptAll, .offered ⟨.create, .bare "a" "z" "2"⟩] := by
  rfl

end Vantage

end Replica
