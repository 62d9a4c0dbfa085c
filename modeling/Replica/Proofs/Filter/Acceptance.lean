import Mathlib.Data.List.Permutation
import Replica.Proofs.View.Stage

/-! # Equal filters accept the same objects

Replacing a filter by an equal one is skipped, so filters that count as equal must accept the same
objects.  They do, as long as a token stands for one function: two function filters count as equal
by their tokens alone (`Filter.Coherent`).

* `Selector.accepts_normalized`: a selector in normal form matches the same labels, since sorting
  and dropping repetitions change neither what a requirement lists nor which requirements there are.
* `Filter.faithful`: by induction on the filter; every part of a conjunction or disjunction has a
  partner on the other side, in both directions (`exists_partner_right`, `exists_partner_left`).
* `Filter.accepts_of_same_or_skipped`: filters that count as equal accept the same, and after a
  change of filter a store, and a view whatever it is told next, go by a filter that accepts what
  the one asked for accepts.  `View.bound` is the filter of a view that has not yet done all that it
  is at. -/

namespace Replica

/-! ### Selectors in normal form -/

theorem Requirement.holds_sortedOnce (r : Requirement) (labels : Labels) :
    ({ r with values := sortedOnce r.values } : Requirement).holds labels = r.holds labels := by
  have hvalues : ∀ v, (sortedOnce r.values).contains v = r.values.contains v := by
    intro v
    rw [Bool.eq_iff_iff, List.contains_iff_mem, List.contains_iff_mem, mem_sortedOnce]
  simp only [holds, hvalues]

/-- **A normal form matches the same labels.** -/
theorem Selector.accepts_normalized (s : Selector) (labels : Labels) :
    s.normalized.accepts labels = s.accepts labels := by
  have hall : s.normalized.requirements.all (·.holds labels) =
      s.requirements.all (·.holds labels) := by
    rw [Bool.eq_iff_iff, List.all_eq_true, List.all_eq_true]
    simp only [normalized, mem_sortedOnce, List.forall_mem_map, Requirement.holds_sortedOnce]
  rw [accepts, hall]
  rfl

namespace Filter

/-! ### Functions and their tokens -/

mutual

/-- Some part of the filter is this function with this token. -/
def Uses (token : Int) (test : Object → Bool) : Filter → Prop
  | .func token' test' => token' = token ∧ test' = test
  | .not f => f.Uses token test
  | .and fs => SomeUses token test fs
  | .or fs => SomeUses token test fs
  | _ => False

/-- Some part of one of the filters is this function with this token. -/
def SomeUses (token : Int) (test : Object → Bool) : List Filter → Prop
  | [] => False
  | f :: fs => f.Uses token test ∨ SomeUses token test fs

end

theorem someUses_of_mem {token : Int} {test : Object → Bool} {f : Filter} {fs : List Filter}
    (hf : f ∈ fs) (h : f.Uses token test) : SomeUses token test fs := by
  induction fs with
  | nil => cases hf
  | cons g fs ih =>
      rcases List.mem_cons.1 hf with rfl | hin
      · exact .inl h
      · exact .inr (ih hin)

/-- A token that both filters use stands for the same function in both. -/
def Coherent (f g : Filter) : Prop :=
  ∀ ⦃token test test'⦄, f.Uses token test → g.Uses token test' → test = test'

theorem Coherent.symm {f g : Filter} (h : f.Coherent g) : g.Coherent f :=
  fun _ _ _ hg hf => (h hf hg).symm

theorem Coherent.not {f g : Filter} (h : (Filter.not f).Coherent (.not g)) : f.Coherent g :=
  fun _ _ _ hf hg => h hf hg

theorem Coherent.and {fs gs : List Filter} (h : (Filter.and fs).Coherent (.and gs)) :
    ∀ f ∈ fs, ∀ g ∈ gs, f.Coherent g :=
  fun _ hf _ hg _ _ _ huf hug => h (someUses_of_mem hf huf) (someUses_of_mem hg hug)

theorem Coherent.or {fs gs : List Filter} (h : (Filter.or fs).Coherent (.or gs)) :
    ∀ f ∈ fs, ∀ g ∈ gs, f.Coherent g :=
  fun _ hf _ hg _ _ _ huf hug => h (someUses_of_mem hf huf) (someUses_of_mem hg hug)

/-! ### What equal filters accept -/

/-- Whatever counts as equal to the filter accepts the same objects. -/
def Faithful (f : Filter) : Prop :=
  ∀ ⦃g⦄, f.Coherent g → f.same g = true → ∀ o, f.accepts o = g.accepts o

theorem exists_partner_right {fs gs : List Filter} (h : sameMembers fs gs = true) {f : Filter}
    (hf : f ∈ fs) : ∃ g ∈ gs, f.same g = true :=
  Multiset.exists_mem_of_rel_of_mem (rel_of_sameMembers h) hf

theorem exists_partner_left {fs gs : List Filter} (h : sameMembers fs gs = true) {g : Filter}
    (hg : g ∈ gs) : ∃ f ∈ fs, f.same g = true :=
  Multiset.exists_mem_of_rel_of_mem (Multiset.rel_flip.2 (rel_of_sameMembers h)) hg

theorem faithful_of_leaf {f : Filter} (hf : f.leaf?.isSome = true) : f.Faithful := by
  intro g hc h o
  cases f <;> cases g <;> simp only [same, Bool.false_eq_true, decide_eq_true_eq] at h
  case acceptAll.acceptAll => rfl
  case rejectAll.rejectAll => rfl
  case labels.labels => rw [h]
  case selector.selector s t =>
    rw [accepts, accepts, ← s.accepts_normalized, ← t.accepts_normalized, h]
  case keys.keys => rw [h]
  case func.func token test token' test' =>
    obtain rfl : token = token' := beq_iff_eq.1 h
    rw [hc ⟨rfl, rfl⟩ ⟨rfl, rfl⟩]
  all_goals cases hf

theorem Faithful.not {f : Filter} (hf : f.Faithful) : (Filter.not f).Faithful := by
  intro g hc h o
  obtain ⟨g', rfl, h⟩ := exists_of_same_not h
  rw [accepts_not, accepts_not, hf hc.not h]

theorem Faithful.and {fs : List Filter} (hf : ∀ f ∈ fs, f.Faithful) : (Filter.and fs).Faithful := by
  intro g hc h o
  obtain ⟨gs, rfl, h⟩ := exists_of_same_and h
  rw [accepts_and, accepts_and, Bool.eq_iff_iff, List.all_eq_true, List.all_eq_true]
  constructor
  · intro hall g hg
    obtain ⟨f, hin, hfg⟩ := exists_partner_left h hg
    rw [← hf f hin (hc.and f hin g hg) hfg]
    exact hall f hin
  · intro hall f hin
    obtain ⟨g, hg, hfg⟩ := exists_partner_right h hin
    rw [hf f hin (hc.and f hin g hg) hfg]
    exact hall g hg

theorem Faithful.or {fs : List Filter} (hf : ∀ f ∈ fs, f.Faithful) : (Filter.or fs).Faithful := by
  intro g hc h o
  obtain ⟨gs, rfl, h⟩ := exists_of_same_or h
  rw [accepts_or, accepts_or, Bool.eq_iff_iff, List.any_eq_true, List.any_eq_true]
  constructor
  · rintro ⟨f, hin, hacc⟩
    obtain ⟨g, hg, hfg⟩ := exists_partner_right h hin
    exact ⟨g, hg, by rw [← hf f hin (hc.or f hin g hg) hfg, hacc]⟩
  · rintro ⟨g, hg, hacc⟩
    obtain ⟨f, hin, hfg⟩ := exists_partner_left h hg
    exact ⟨f, hin, by rw [hf f hin (hc.or f hin g hg) hfg, hacc]⟩

/-- **Equality of filters is faithful**, whatever the filters are built from. -/
theorem faithful (f : Filter) : f.Faithful :=
  f.induction_on_parts faithful_of_leaf Faithful.not Faithful.and Faithful.or

end Filter

/-! ### Changes of filter that are skipped -/

/-- After a change of filter a store goes by a filter that accepts what the one asked for accepts. -/
theorem Store.accepts_filter_refilter {s : Store} {filter : Filter} (hc : s.filter.Coherent filter)
    (list : Option (List Object)) (o : Object) :
    (s.refilter list filter).1.filter.accepts o = filter.accepts o := by
  cases hs : s.filter.same filter with
  | true =>
      rw [slot_refilter_of_same hs]
      exact s.filter.faithful hc hs o
  | false => rw [filter_refilter hs]

namespace View

/-- The filter that a view goes by once it has done what it is at. -/
def bound (v : View) : Filter :=
  match v.phase with
  | .reading job => job.target v.filter
  | .applying job => job.target v.filter
  | .noting filter => filter
  | _ => v.filter

/-- The view is asked for nothing, and nothing is refused. -/
def Input.IsCalm : Input → Prop
  | .refilter _ => False
  | .refused => False
  | _ => True

/-- Another filter is taken over only if one is asked for. -/
theorem bound_step (v : View) {i : Input} (hi : i.IsCalm) : (v.step i).1.bound = v.bound := by
  cases hp : v.phase with
  | idle =>
      cases i with
      | refilter filter => cases hi
      | refused => cases hi
      | parentReady =>
          cases hwait : v.isDeferred && !v.isAsked <;> simp [step, bound, hp, hwait, Job.target]
      | event e => cases hr : v.isReady <;> simp [step, bound, hp, hr]
      | _ => simp [step, stop, bound, hp]
  | applying job =>
      cases i with
      | refused => cases hi
      | applied events =>
          have hfilter : (v.step (.applied events)).1 =
              { v with filter := job.target v.filter, isReady := true, phase := .idle } := by
            simp only [step, hp]
            split <;> rfl
          rw [hfilter]
          simp [bound, hp]
      | _ => simp [step, bound, hp]
  | _ =>
      cases i with
      | refused => cases hi
      | _ => simp [step, bound, hp]

/-- The view after it has been told several things. -/
def told (v : View) (is : List Input) : View := is.foldl (fun v i => (v.step i).1) v

theorem bound_told (v : View) {is : List Input} (h : ∀ i ∈ is, i.IsCalm) :
    (v.told is).bound = v.bound := by
  induction is generalizing v with
  | nil => rfl
  | cons i is ih =>
      rw [List.forall_mem_cons] at h
      exact (ih _ h.2).trans (v.bound_step h.1)

/-- A view that is asked for a filter goes by one that accepts what that accepts, as soon as it has
done what it is at. -/
theorem Reaction.accepts_bound {v v' : View} {filter : Filter} {errand : Errand}
    (h : v.Reaction (.refilter filter) v' errand) (hc : v.filter.Coherent filter) (o : Object) :
    v'.bound.accepts o = filter.accepts o := by
  have hknown : filter.same v.filter = true → v.filter.accepts o = filter.accepts o :=
    fun hs => (filter.faithful hc.symm hs o).symm
  cases h with
  | note phase parent new => rfl
  | keep phase parent known =>
      simp only [bound, phase]
      exact hknown known
  | skip phase parent ready known =>
      simp only [bound, phase]
      exact hknown known
  | read phase parent needed =>
      cases hs : filter.same v.filter with
      | false => rfl
      | true => exact hknown hs

end View

namespace Filter

/-- **Filters that count as equal accept the same objects**, as long as a token stands for the same
function in both; and so nobody is left with another filter than the one asked for because a change
was skipped.  A store, and a view whatever it is told next, go by a filter that accepts what the one
asked for accepts. -/
theorem accepts_of_same_or_skipped {f g : Filter} (hc : f.Coherent g) :
    (f.same g = true → ∀ o, f.accepts o = g.accepts o) ∧
      (∀ items list o,
        ((⟨items, f⟩ : Store).refilter list g).1.filter.accepts o = g.accepts o) ∧
      ∀ (v : View) (is : List View.Input), v.filter = f → v.phase = .idle →
        (∀ i ∈ is, i.IsCalm) →
        ∀ o, ((v.step (.refilter g)).1.told is).bound.accepts o = g.accepts o := by
  refine ⟨fun h o => f.faithful hc h o, fun items list o => ?_, fun v is hf hp his o => ?_⟩
  · exact Store.accepts_filter_refilter hc list o
  · rw [View.bound_told _ his]
    exact (View.reaction_refilter hp g).accepts_bound (hf ▸ hc) o

/-- A selector written in two ways and a function deep inside, the parts in another order; a store
keeps the old filter then, and so does a view that is not ready yet. -/
theorem accepts_of_same_or_skipped_of_reordering :
    let named := Filter.func 1 Object.isNamed
    let f := Filter.and [.selector ⟨.empty, [⟨"env", .isIn, ["prod", "dev"]⟩, ⟨"app", .exists, []⟩]⟩,
      .or [named, .not (.labels .app)]]
    let g := Filter.and [.or [.not (.labels .app), named],
      .selector ⟨.empty, [⟨"app", .exists, []⟩, ⟨"env", .isIn, ["dev", "prod", "dev"]⟩]⟩]
    f.Coherent g ∧ f.same g = true ∧ (∀ o, f.accepts o = g.accepts o) ∧
      (∀ o, ((⟨none, f⟩ : Store).refilter none g).1.filter.accepts o = g.accepts o) ∧
      ∀ o, (((View.new f false).step (.refilter g)).1.told [.parentReady]).bound.accepts o =
        g.accepts o := by
  intro named f g
  have hc : f.Coherent g := by
    intro token test test' hf hg
    simp only [f, g, named, Uses, SomeUses, false_or, or_false] at hf hg
    rw [← hf.2, hg.2]
  have hs : f.same g = true := by cbv
  obtain ⟨haccepts, hstore, hview⟩ := accepts_of_same_or_skipped hc
  refine ⟨hc, hs, haccepts hs, hstore none none, hview _ _ rfl rfl ?_⟩
  intro i hi
  obtain rfl := List.mem_singleton.1 hi
  trivial

end Filter

end Replica
