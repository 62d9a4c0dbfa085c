import Replica.Follower
import Replica.Proofs.Duration.Seconds

/-! # The delay before a retry

The delay is kept between the initial delay and the longest one, whatever the deviation is.  So it is a
duration for every number of attempts (`Reconnect.delays_between`), unless one of the delays that were set
is so long that no duration can be made of it again (`Reconnect.IsTimed`); and a follower whose session
ends goes on to wait for a retry as often as it may (`Follower.step_sessionEnded_of_allows`). -/

namespace Replica

namespace Reconnect

open Duration

variable {r : Reconnect}

/-- The delays that were set are durations again when they were doubles. -/
structure IsTimed (r : Reconnect) : Prop where
  initial : r.initial.secs < secsLimit - 1024
  max : r.max.secs < secsLimit - 1024

instance : Decidable r.IsTimed :=
  decidable_of_iff (r.initial.secs < secsLimit - 1024 ∧ r.max.secs < secsLimit - 1024)
    ⟨fun h => ⟨h.1, h.2⟩, fun h => ⟨h.1, h.2⟩⟩

theorem longest_cases (r : Reconnect) :
    r.longest = r.initial.toFloat ∨ r.longest = r.max.toFloat ∧ r.initial.toFloat ≤ r.longest := by
  rw [longest]
  split
  · rename_i hle
    exact .inr ⟨rfl, hle⟩
  · exact .inl rfl

theorem clamp_cases (r : Reconnect) (seconds : Float) :
    r.clamp seconds = r.initial.toFloat ∨ r.clamp seconds = r.longest ∨
      r.initial.toFloat ≤ r.clamp seconds ∧ r.clamp seconds ≤ r.longest := by
  rw [clamp]
  split
  · rename_i habove
    split
    · rename_i hbelow
      exact .inr (.inr ⟨hbelow, habove⟩)
    · exact .inl rfl
  · exact .inr (.inl rfl)

/-- What is kept between two delays that are durations is a duration between the two. -/
theorem exists_ofFloat?_clamp {least most : Duration} (hleast : ofFloat? r.initial.toFloat = some least)
    (hmost : ofFloat? r.longest = some most) (hle : least.nanos ≤ most.nanos) (seconds : Float) :
    ∃ d, ofFloat? (r.clamp seconds) = some d ∧ least.nanos ≤ d.nanos ∧ d.nanos ≤ most.nanos := by
  obtain heq | heq | ⟨hbelow, habove⟩ := r.clamp_cases seconds
  · rw [heq]
    exact ⟨least, hleast, le_rfl, hle⟩
  · rw [heq]
    exact ⟨most, hmost, hle, le_rfl⟩
  · exact exists_ofFloat? hleast hmost hbelow habove

theorem IsTimed.exists_bounds (h : r.IsTimed) : ∃ least most, ofFloat? r.initial.toFloat = some least ∧
    ofFloat? r.longest = some most ∧ least.nanos ≤ most.nanos := by
  obtain ⟨least, hleast⟩ := exists_ofFloat?_toFloat h.initial
  obtain ⟨bound, hbound⟩ := exists_ofFloat?_toFloat h.max
  obtain heq | ⟨heq, hle⟩ := r.longest_cases
  · exact ⟨least, least, hleast, heq ▸ hleast, le_rfl⟩
  · rw [heq] at hle ⊢
    exact ⟨least, bound, hleast, hbound, ofFloat?_mono hleast hbound hle⟩

/-- **Every delay is a duration between the initial delay and the longest one.** -/
theorem delays_between (h : r.IsTimed) : ∃ least most, ofFloat? r.initial.toFloat = some least ∧
    ofFloat? r.longest = some most ∧
      ∀ attempt, ∃ d, r.delay? attempt = some d ∧ least.nanos ≤ d.nanos ∧ d.nanos ≤ most.nanos := by
  obtain ⟨least, most, hleast, hmost, hle⟩ := h.exists_bounds
  exact ⟨least, most, hleast, hmost, fun _ => exists_ofFloat?_clamp hleast hmost hle _⟩

theorem IsTimed.exists_delay? (h : r.IsTimed) (attempt : Nat) : ∃ d, r.delay? attempt = some d := by
  obtain ⟨least, most, -, -, hdelay⟩ := delays_between h
  obtain ⟨d, hd, -⟩ := hdelay attempt
  exact ⟨d, hd⟩

/-- With equal bounds all delays are the same. -/
theorem delay?_of_fixed {d : Duration} (hinitial : ofFloat? r.initial.toFloat = some d)
    (hlongest : ofFloat? r.longest = some d) (attempt : Nat) : r.delay? attempt = some d := by
  obtain ⟨e, he, hle, hge⟩ := exists_ofFloat?_clamp hinitial hlongest le_rfl _
  exact he.trans (congrArg some (nanos_inj.1 (Nat.le_antisymm hge hle)))

/-- One second, as it is by default. -/
example (attempt : Nat) : default.delay? attempt = some (ofSecs 1) :=
  delay?_of_fixed (by decide +kernel) (by decide +kernel) attempt

end Reconnect

namespace Follower

/-- When its session has ended, a follower that may go on waits for a retry. -/
theorem step_sessionEnded_of_allows {f : Follower} (timed : f.reconnect.IsTimed)
    (allowed : f.reconnect.allows f.attempt = true) : f.step .sessionEnded =
      { f with
        session := none, retry := some f.attempt, attempt := min (f.attempt + 1) attemptLimit } := by
  obtain ⟨d, hd⟩ := timed.exists_delay? f.attempt
  rw [step, if_pos allowed, hd]

end Follower

end Replica
