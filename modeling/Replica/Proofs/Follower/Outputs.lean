import Replica.Proofs.Follower.Pursuit

/-! # The outputs of a follower

Each reset gives the follower a new output, and the one before it is not written any more.

* `Outlet`: as long as the follower runs, and the reader of the last output has not let go of it, the
  follower has this output and can write to it.
* `Served`: what was read from an output and what waits there are events that were received while it was
  the last one, in their order; and unless its reader has let go of it, none is missing but those that
  found it full. -/

namespace Replica

namespace Follower

theorem passOn_eq (e : Event) (out : Feed Event) :
    passOn e out = if out.isAbandoned || out.isSealed then none
      else some { out with items := if out.hasRoom then out.items ++ [e] else out.items } := by
  unfold passOn Feed.push
  cases h : out.isAbandoned || out.isSealed with
  | true => rfl
  | false => cases hr : out.hasRoom <;> rfl

theorem next_eq (f : Follower) :
    f.next.1 = { f with
      output := f.output.bind fun out =>
        if out.items.isEmpty && out.isSealed then none
        else some { out with items := out.items.tail } } := by
  obtain ⟨_, _, _, _, _, output, _, _, _⟩ := f
  cases output with
  | none => rfl
  | some out =>
      obtain ⟨_, items, _, isSealed, _⟩ := out
      cases items with
      | cons a items => rfl
      | nil => cases isSealed <;> rfl

end Follower

namespace Pursuit

open Mark

variable {t u : List Mark} {p p' : Pursuit} {m : Move} {room : Nat}

/-! ### The last output -/

/-- The output of the last reset, as the follower has it; there is room for so many events in it. -/
structure Outlet (room : Nat) (t : List Mark) (p : Pursuit) : Prop where
  numbered : p.past.length = resets t
  width : p.follower.capacity = room
  roomy : 0 < room
  capacity : ∀ out, p.follower.output = some out → out.capacity = room
  written : p.follower.isStopped = false → ∀ out, p.follower.output = some out → out.isSealed = false
  held : resets t ≠ 0 → p.follower.isStopped = false → .released p.past.length ∉ t →
    ∃ out, p.follower.output = some out ∧ out.isAbandoned = false

theorem Outlet.exists_isOpen (h : Outlet room t p) (hreset : resets t ≠ 0)
    (running : p.follower.isStopped = false) (hheld : .released p.past.length ∉ t) :
    ∃ out, p.follower.output = some out ∧ out.IsOpen := by
  obtain ⟨out, hout, hread⟩ := h.held hreset running hheld
  exact ⟨out, hout, h.written running out hout, hread⟩

theorem Outlet.onItems (h : Outlet room t p) {g : Feed Event → Option (Feed Event)}
    (past : p'.past.length = p.past.length) (width : p'.follower.capacity = p.follower.capacity)
    (running : p'.follower.isStopped = false → p.follower.isStopped = false)
    (output : p'.follower.output = p.follower.output.bind g)
    (same : ∀ out out', g out = some out' → ∃ items, out' = { out with items })
    (kept : ∀ out, out.IsOpen → ∃ out', g out = some out') (quiet : resets u = 0) :
    Outlet room (t ++ u) p' := by
  have hbind : ∀ out', p'.follower.output = some out' →
      ∃ out items, p.follower.output = some out ∧ out' = { out with items } := by
    intro out' hout'
    obtain ⟨out, hout, hg⟩ := Option.bind_eq_some_iff.1 (output.symm.trans hout')
    obtain ⟨items, hitems⟩ := same out out' hg
    exact ⟨out, items, hout, hitems⟩
  constructor
  case numbered => rw [past, h.numbered, resets_append, quiet, Nat.add_zero]
  case width => exact width.trans h.width
  case roomy => exact h.roomy
  case capacity =>
    intro out' hout'
    obtain ⟨out, items, hout, rfl⟩ := hbind out' hout'
    exact h.capacity out hout
  case written =>
    intro hrunning out' hout'
    obtain ⟨out, items, hout, rfl⟩ := hbind out' hout'
    exact h.written (running hrunning) out hout
  case held =>
    rw [resets_append, quiet, Nat.add_zero, past]
    intro hreset hrunning hheld
    obtain ⟨out, hout, hopen⟩ := h.exists_isOpen hreset (running hrunning) fun hmem =>
      hheld (List.mem_append_left _ hmem)
    obtain ⟨out', hout'⟩ := kept out hopen
    obtain ⟨items, rfl⟩ := same out out' hout'
    refine ⟨{ out with items }, ?_, hopen.2⟩
    rw [output, hout]
    exact hout'

theorem Outlet.of_same (h : Outlet room t p) (past : p'.past.length = p.past.length)
    (width : p'.follower.capacity = p.follower.capacity)
    (running : p'.follower.isStopped = false → p.follower.isStopped = false)
    (output : p'.follower.output = p.follower.output) (quiet : resets u = 0) :
    Outlet room (t ++ u) p' := by
  have hbind : p'.follower.output = p.follower.output.bind some := by
    rw [output]
    cases p.follower.output <;> rfl
  exact h.onItems past width running hbind
    (fun out _ hout => ⟨out.items, (Option.some.inj hout).symm⟩) (fun out _ => ⟨out, rfl⟩) quiet

/-- **Every change leaves the follower its output.** -/
theorem Outlet.change (h : Outlet room t p) (hc : p.Change m p' u) : Outlet room (t ++ u) p' := by
  cases hc with
  | still | signal | ended | exhausted | elapse => exact h.of_same rfl rfl id rfl rfl
  | reset version running =>
      constructor
      case numbered =>
        rw [resets_append, ← h.numbered]
        exact List.length_append
      case width => exact h.width
      case roomy => exact h.roomy
      case capacity =>
        rintro _ ⟨⟩
        exact (Nat.max_eq_left (h.width ▸ h.roomy)).trans h.width
      case written =>
        rintro _ _ ⟨⟩
        rfl
      case held => exact fun _ _ _ => ⟨_, rfl, rfl⟩
  | event s live =>
      refine h.onItems rfl rfl id rfl (fun out out' hout => ?_) (fun out hopen => ?_) rfl
      · rw [Follower.passOn_eq] at hout
        split at hout
        · cases hout
        · exact ⟨_, (Option.some.inj hout).symm⟩
      · rw [Follower.passOn_eq, hopen.1, hopen.2]
        exact ⟨_, rfl⟩
  | stop reason =>
      rw [List.append_nil]
      constructor
      case numbered => exact h.numbered
      case width => exact h.width
      case roomy => exact h.roomy
      case capacity =>
        intro out hout
        obtain ⟨out', hout', rfl⟩ := Option.map_eq_some_iff.1 hout
        exact h.capacity out' hout'
      case written => exact nofun
      case held => exact fun _ => nofun
  | @read j out held isRead =>
      have hquiet : resets (out.poll.2.item?.toList.map (.delivered j)) = 0 := by
        rw [resets_eq_zero_iff]
        simp [isReset]
      rw [readOutput]
      split
      · refine h.onItems rfl ?_ ?_ (congrArg Follower.output p.follower.next_eq)
          (fun out out' hout => ?_) (fun out hopen => ?_) hquiet
        · rw [Follower.next_eq]
        · rw [Follower.next_eq]
          exact id
        · split at hout
          · cases hout
          · exact ⟨_, (Option.some.inj hout).symm⟩
        · simp [hopen.1]
      · exact h.of_same (List.length_modify ..) rfl id rfl hquiet
  | @release j out held =>
      rw [releaseOutput]
      split
      · rename_i hj
        subst hj
        constructor
        case numbered =>
          rw [resets_append]
          exact h.numbered
        case width => exact h.width
        case roomy => exact h.roomy
        case capacity =>
          intro out hout
          obtain ⟨out', hout', rfl⟩ := Option.map_eq_some_iff.1 hout
          exact h.capacity out' hout'
        case written =>
          intro hrunning out hout
          obtain ⟨out', hout', rfl⟩ := Option.map_eq_some_iff.1 hout
          exact h.written hrunning out' hout'
        case held => exact fun _ _ hheld => absurd (List.mem_append_right t (.head _)) hheld
      · exact h.of_same (List.length_modify ..) rfl id rfl rfl

/-! ### What waits in an output -/

theorem waitingOn_eq (p : Pursuit) (j : Nat) : p.waitingOn j =
    if j = p.past.length then p.follower.output.elim [] Feed.items
    else p.past[j]?.join.elim [] Feed.items := by
  rw [waitingOn, output?]
  split <;> rfl

theorem waitingOn_congr (past : p'.past = p.past)
    (output : p'.follower.output.elim [] Feed.items = p.follower.output.elim [] Feed.items) (j : Nat) :
    p'.waitingOn j = p.waitingOn j := by
  rw [waitingOn_eq, waitingOn_eq, past, output]

theorem waitingOn_reset {f : Follower} {out : Feed Event} (past : p'.past = p.past ++ [f.output.map .close])
    (before : f = p.follower) (output : p'.follower.output = some out) (hempty : out.items = [])
    (j : Nat) : p'.waitingOn j = if j = p.past.length + 1 then [] else p.waitingOn j := by
  subst before
  have hlength : p'.past.length = p.past.length + 1 := by rw [past, List.length_append]; rfl
  rw [waitingOn_eq, waitingOn_eq, hlength, output]
  split
  · exact hempty
  · rename_i hj
    rw [past]
    split
    · rename_i hlast
      subst hlast
      rw [List.getElem?_concat_length]
      cases p.follower.output <;> rfl
    · rename_i hne
      rcases Nat.lt_or_ge j p.past.length with hlt | hge
      · rw [List.getElem?_append_left hlt]
      · rw [List.getElem?_eq_none hge, List.getElem?_eq_none (by simp; omega)]

/-- What is read is gone from its output, and nothing else. -/
theorem waitingOn_readOutput {j : Nat} {out : Feed Event} (held : p.output? j = some out) (k : Nat) :
    (p.readOutput j).waitingOn k = if k = j then out.poll.1.items else p.waitingOn k := by
  have hpoll : out.poll.1.items = out.items.tail := by
    unfold Feed.poll
    split <;> rename_i h <;> rw [h] <;> rfl
  rw [readOutput, hpoll]
  split
  · rename_i hj
    subst hj
    rw [waitingOn_eq, waitingOn_eq, Follower.next_eq]
    rw [output?_self] at held
    split
    · rw [held, Option.bind_some]
      split
      · rename_i hended
        rw [Bool.and_eq_true, List.isEmpty_iff] at hended
        rw [hended.1]
        rfl
      · rfl
    · rfl
  · rename_i hj
    rw [output?_of_ne hj] at held
    rw [waitingOn_eq, waitingOn_eq, List.length_modify]
    by_cases hk : k = j
    · subst hk
      rw [if_neg hj, if_pos rfl, List.getElem?_modify_eq, Option.join_eq_some_iff.1 held]
      exact hpoll
    · rw [if_neg hk, List.getElem?_modify_ne _ _ (Ne.symm hk)]

/-- What is let go of is not read any more, and nothing else is lost. -/
theorem waitingOn_releaseOutput (p : Pursuit) (j k : Nat) :
    (p.releaseOutput j).waitingOn k = p.waitingOn k ∨
      k = j ∧ (p.releaseOutput j).waitingOn k = [] := by
  rw [releaseOutput]
  split
  · refine .inl (waitingOn_congr ?_ ?_ k)
    · rfl
    · cases p.follower.output <;> rfl
  · rename_i hj
    by_cases hk : k = j
    · subst hk
      refine .inr ⟨rfl, ?_⟩
      rw [waitingOn_eq, List.length_modify, if_neg hj, List.getElem?_modify_eq]
      cases p.past[k]? <;> rfl
    · refine .inl ?_
      rw [waitingOn_eq, waitingOn_eq, List.length_modify, List.getElem?_modify_ne _ _ (Ne.symm hk)]

/-! ### What comes and what is read -/

/-- What was read from an output with room for `room` events, and what waits in it, against the events
that were received for it. -/
structure Account (room : Nat) (arrived : List Arrival) (got waiting : List Event) (isHeld : Prop) :
    Prop where
  ordered : (got ++ waiting).Sublist (arrived.map Arrival.event)
  kept : isHeld → got ++ waiting = (arrived.filter (·.waiting < room)).map Arrival.event

namespace Account

variable {arrived : List Arrival} {got waiting waiting' : List Event} {isHeld isHeld' : Prop}

theorem arrive (h : Account room arrived got waiting isHeld) (a : Arrival)
    (hwaiting : waiting'.Sublist (waiting ++ [a.event]))
    (hkept : isHeld → waiting' = if a.waiting < room then waiting ++ [a.event] else waiting) :
    Account room (arrived ++ [a]) got waiting' isHeld where
  ordered := by
    rw [List.map_append]
    refine ((List.Sublist.refl got).append hwaiting).trans ?_
    rw [← List.append_assoc]
    exact h.ordered.append (.refl _)
  kept := by
    intro hheld
    rw [hkept hheld, List.filter_append, List.map_append, ← h.kept hheld]
    by_cases hroom : a.waiting < room
    · rw [if_pos hroom, List.filter_cons_of_pos (by simpa using hroom), List.append_assoc]
      rfl
    · rw [if_neg hroom, List.filter_cons_of_neg (by simpa using hroom)]
      exact (List.append_nil _).symm

theorem read {es : List Event} (h : Account room arrived got (es ++ waiting) isHeld) :
    Account room arrived (got ++ es) waiting isHeld where
  ordered := by rw [List.append_assoc]; exact h.ordered
  kept := by rw [List.append_assoc]; exact h.kept

theorem weaken (h : Account room arrived got waiting isHeld) (hheld : isHeld' → isHeld)
    (hwaiting : waiting'.Sublist waiting) (hsame : isHeld' → waiting' = waiting) :
    Account room arrived got waiting' isHeld' where
  ordered := ((List.Sublist.refl got).append hwaiting).trans h.ordered
  kept := fun h' => by rw [hsame h', h.kept (hheld h')]

end Account

/-- Every output stands as it should. -/
def Served (room : Nat) (t : List Mark) (p : Pursuit) : Prop :=
  ∀ j, Account room (arrivals j t) (deliveries j t) (p.waitingOn j) (.released j ∉ t)

namespace Served

/-- A change in which nothing is received or read, and in which what waits can only be lost when it is
let go of. -/
theorem of_quiet (h : Served room t p) (quiet : resets u = 0) (arrived : u.filterMap arrival? = [])
    (delivered : ∀ j, deliveries j u = [])
    (waiting : ∀ j, p'.waitingOn j = p.waitingOn j ∨ .released j ∈ u ∧ p'.waitingOn j = []) :
    Served room (t ++ u) p' := by
  intro j
  rw [arrivals_append_of_quiet quiet arrived, deliveries_append, delivered, List.append_nil]
  refine (h j).weaken (fun hheld hmem => hheld (List.mem_append_left _ hmem)) ?_ fun hheld => ?_
  · rcases waiting j with hsame | ⟨-, hnil⟩
    · exact hsame ▸ .refl _
    · rw [hnil]
      exact List.nil_sublist _
  · rcases waiting j with hsame | ⟨hmem, -⟩
    · exact hsame
    · exact absurd (List.mem_append_right _ hmem) hheld

theorem reset (h : Served room t p) (numbered : p.past.length = resets t) (version : String)
    (quiet : resets u = 0) (arrived : u.filterMap arrival? = []) (delivered : ∀ j, deliveries j u = [])
    (waiting : ∀ j, p'.waitingOn j = if j = p.past.length + 1 then [] else p.waitingOn j) :
    Served room (t ++ .reset version :: u) p' := by
  intro j
  have hheld : .released j ∉ t ++ .reset version :: u → Mark.released j ∉ t := fun hheld hmem =>
    hheld (List.mem_append_left _ hmem)
  have hdelivered : deliveries j (t ++ .reset version :: u) = deliveries j t := by
    rw [deliveries_append]
    exact (congrArg (deliveries j t ++ ·) (delivered j)).trans (List.append_nil _)
  rw [hdelivered, waiting, numbered, arrivals, period_append_reset t version quiet]
  by_cases hj : j = resets t + 1
  · -- Nothing can have been read from an output that was not there.
    have hnone : deliveries j t = [] := by
      have hordered := (h j).ordered
      rw [arrivals, period_of_resets_lt (by omega)] at hordered
      exact (List.append_eq_nil_iff.1 (List.sublist_nil.1 hordered)).1
    rw [if_pos hj, if_pos hj, arrived, hnone]
    exact ⟨.refl _, fun _ => rfl⟩
  · rw [if_neg hj, if_neg hj]
    exact (h j).weaken hheld (.refl _) fun _ => rfl

theorem event (h : Served room t p) (ho : Outlet room t p) (hreset : resets t ≠ 0)
    (running : p.follower.isStopped = false) {i : Nat} {e : Event} (past : p'.past = p.past)
    (output : p'.follower.output = p.follower.output.bind (Follower.passOn e)) :
    Served room (t ++ [.received ⟨i, e, (p.waitingOn p.past.length).length⟩]) p' := by
  intro j
  have hheld : .released j ∉ t ++ [.received ⟨i, e, (p.waitingOn p.past.length).length⟩] →
      Mark.released j ∉ t := fun hheld hmem => hheld (List.mem_append_left _ hmem)
  rw [arrivals_append_received, deliveries_append, ← ho.numbered]
  refine Account.weaken ?_ hheld (.refl _) fun _ => rfl
  rw [show deliveries j t ++ deliveries j [_] = deliveries j t from List.append_nil _]
  split
  · rename_i hj
    subst hj
    have hwaiting : p'.waitingOn p.past.length =
        (p.follower.output.bind (Follower.passOn e)).elim [] Feed.items := by
      rw [waitingOn_eq, past, if_pos rfl, output]
    refine (h _).arrive _ ?_ fun hheld => ?_
    · rw [hwaiting, waitingOn_eq, if_pos rfl]
      cases p.follower.output with
      | none => exact List.nil_sublist _
      | some out =>
          rw [Option.bind_some, Follower.passOn_eq]
          split
          · exact List.nil_sublist _
          · simp only [Option.elim_some]
            split
            · exact .refl _
            · exact List.sublist_append_left _ _
    · obtain ⟨out, hout, hopen⟩ := ho.exists_isOpen hreset running hheld
      have hitems : p.waitingOn p.past.length = out.items :=
        waitingOn_of_some ((output?_self p).trans hout)
      rw [hwaiting, hitems, hout, Option.bind_some, Follower.passOn_eq, hopen.1, hopen.2,
        ← ho.capacity out hout]
      simp [Feed.hasRoom]
  · rename_i hj
    have hsame : p'.waitingOn j = p.waitingOn j := by
      rw [waitingOn_eq, waitingOn_eq, past, if_neg hj, if_neg hj]
    rw [hsame]
    exact h j

theorem read (h : Served room t p) {j : Nat} {out : Feed Event} (held : p.output? j = some out) :
    Served room (t ++ out.poll.2.item?.toList.map (.delivered j)) (p.readOutput j) := by
  intro k
  have hquiet : resets (out.poll.2.item?.toList.map (.delivered j)) = 0 := by
    rw [resets_eq_zero_iff]
    simp [isReset]
  have hdelivered : deliveries k (out.poll.2.item?.toList.map (.delivered j)) =
      if k = j then out.poll.2.item?.toList else [] := by
    cases out.poll.2.item? with
    | none => simp [deliveries]
    | some e => by_cases hk : j = k <;> simp [deliveries, deliveredOn?, hk, eq_comm]
  have hheld : .released k ∉ t ++ out.poll.2.item?.toList.map (Mark.delivered j) →
      Mark.released k ∉ t := fun hheld hmem => hheld (List.mem_append_left _ hmem)
  rw [arrivals_append_of_quiet hquiet (by simp [arrival?, Function.comp_def]), deliveries_append,
    hdelivered, waitingOn_readOutput held]
  refine Account.weaken ?_ hheld (.refl _) fun _ => rfl
  by_cases hk : k = j
  · subst hk
    rw [if_pos rfl, if_pos rfl]
    refine Account.read ?_
    rw [Feed.item?_append_items_poll, ← waitingOn_of_some held]
    exact h k
  · rw [if_neg hk, if_neg hk, List.append_nil]
    exact h k

/-- **Every change leaves every output as it should stand**, if only a follower that runs and was reset
has a session. -/
theorem change (h : Served room t p) (ho : Outlet room t p)
    (hlive : p.follower.session ≠ none → resets t ≠ 0 ∧ p.follower.isStopped = false)
    (hc : p.Change m p' u) : Served room (t ++ u) p' := by
  cases hc with
  | still | signal | ended | exhausted | elapse =>
      exact h.of_quiet rfl rfl (fun _ => rfl) fun j => .inl (waitingOn_congr rfl rfl j)
  | reset version running =>
      exact h.reset ho.numbered version rfl rfl (fun _ => rfl) (waitingOn_reset rfl rfl rfl rfl)
  | event s live =>
      obtain ⟨hreset, running⟩ := hlive (by simp [live])
      exact h.event ho hreset running rfl rfl
  | stop =>
      refine h.of_quiet rfl rfl (fun _ => rfl) fun j => .inl (waitingOn_congr ?_ ?_ j)
      · rfl
      · simp only [Follower.stop]
        cases p.follower.output <;> rfl
  | read held isRead => exact h.read held
  | @release j out held =>
      refine h.of_quiet rfl rfl (fun _ => rfl) fun k => ?_
      refine (p.waitingOn_releaseOutput j k).imp_right fun ⟨hk, hnil⟩ => ⟨?_, hnil⟩
      rw [hk]
      exact .head _

end Served

end Pursuit

end Replica
