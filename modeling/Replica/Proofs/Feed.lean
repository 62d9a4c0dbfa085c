import Replica.Feed

/-! # Feeds that are written and read

A feed that is written and read (`IsOpen`) takes an item or counts it as dropped (`offer_of_isOpen`), and
never holds more than it has room for (`length_offer_le`).  Its reader gets the items in their order
(`item?_append_items_poll`). -/

namespace Replica

/-- What was read, if anything. -/
def Polled.item? {α : Type} : Polled α → Option α
  | .item a => some a
  | .pending | .ended => none

namespace Feed

variable {α : Type} {f : Feed α} {a : α}

/-- The feed is written and read. -/
def IsOpen (f : Feed α) : Prop := f.isSealed = false ∧ f.isAbandoned = false

theorem push_of_isOpen (h : f.IsOpen) (a : α) :
    f.push a = if f.items.length < f.capacity then ({ f with items := f.items ++ [a] }, .taken)
      else (f, .full) := by
  by_cases hroom : f.items.length < f.capacity <;> simp [push, h.1, h.2, hasRoom, hroom]

/-- An item that is not taken leaves no trace. -/
theorem push_of_ne_taken (h : (f.push a).2 ≠ .taken) : (f.push a).1 = f := by
  unfold push at h ⊢
  split
  · rfl
  · rename_i hopen
    rw [if_neg hopen] at h
    split
    · rename_i hroom
      exact absurd (by rw [if_pos hroom]) h
    · rfl

theorem offer_of_isOpen (h : f.IsOpen) (a : α) :
    f.offer a = if f.items.length < f.capacity then ({ f with items := f.items ++ [a] }, .taken)
      else ({ f with dropped := f.dropped + 1 }, .full) := by
  by_cases hroom : f.items.length < f.capacity <;> simp [offer, push, h.1, h.2, hasRoom, hroom]

theorem capacity_offer (f : Feed α) (a : α) : (f.offer a).1.capacity = f.capacity := by
  unfold offer push
  by_cases h : f.isAbandoned || f.isSealed
  · simp [h]
  · by_cases hr : f.hasRoom <;> simp [h, hr]

theorem length_offer_le (h : f.items.length ≤ f.capacity) :
    (f.offer a).1.items.length ≤ f.capacity := by
  have hitems : (f.offer a).1.items = (f.push a).1.items := by
    unfold offer
    split
    · rename_i heq
      rw [heq]
    · rfl
  have hcapacity : (f.push a).1.capacity = f.capacity := by
    unfold push
    split
    · rfl
    · split <;> rfl
  rw [hitems, ← hcapacity]
  exact length_push_le f a h

theorem flags_offer (f : Feed α) (a : α) :
    (f.offer a).1.isAbandoned = f.isAbandoned ∧ (f.offer a).1.isSealed = f.isSealed := by
  unfold offer push
  by_cases h : f.isAbandoned || f.isSealed
  · simp [h]
  · by_cases hr : f.hasRoom <;> simp [h, hr]

/-- As long as a feed is open and drops nothing, it keeps what it is offered. -/
theorem items_offer_of_dropped (hread : f.isAbandoned = false)
    (hwritten : f.isSealed = false) (hdropped : (f.offer a).1.dropped = 0) :
    (f.offer a).1.items = f.items ++ [a] := by
  rw [dropped_offer] at hdropped
  rw [items_offer, if_pos]
  unfold offer push at hdropped ⊢
  cases hroom : f.hasRoom with
  | true => simp [hread, hwritten]
  | false => simp [hread, hwritten, hroom] at hdropped

theorem IsOpen.offer (h : f.IsOpen) (a : α) : (f.offer a).1.IsOpen := by
  rw [offer_of_isOpen h]
  split <;> exact h

theorem IsOpen.poll (h : f.IsOpen) : f.poll.1.IsOpen := by
  unfold Feed.poll
  split <;> exact h

theorem capacity_poll (f : Feed α) : f.poll.1.capacity = f.capacity := by
  unfold poll
  split <;> rfl

theorem dropped_poll (f : Feed α) : f.poll.1.dropped = f.dropped := by
  unfold poll
  split <;> rfl

/-- **What is read is the oldest item, and the others stay.** -/
theorem item?_append_items_poll (f : Feed α) : f.poll.2.item?.toList ++ f.poll.1.items = f.items := by
  unfold poll
  split
  · rename_i heq
    rw [heq]
    rfl
  · rename_i heq
    cases f.isSealed <;> simp [Polled.item?, heq]

/-- Where there is nothing to read, nothing changes. -/
theorem poll_of_item? (h : f.poll.2.item? = none) : f.poll.1 = f := by
  unfold poll at h ⊢
  split
  · rename_i heq
    rw [heq] at h
    cases h
  · rfl

/-- The end is reported when nothing is left and nothing will come. -/
theorem poll_eq_ended_iff : f.poll.2 = .ended ↔ f.items = [] ∧ f.isSealed = true := by
  unfold poll
  split
  · rename_i heq
    simp [heq]
  · rename_i heq
    cases f.isSealed <;> simp [heq]

theorem flags_poll (f : Feed α) :
    f.poll.1.isAbandoned = f.isAbandoned ∧ f.poll.1.isSealed = f.isSealed := by
  unfold poll
  split <;> exact ⟨rfl, rfl⟩

theorem length_poll_le (f : Feed α) : f.poll.1.items.length ≤ f.items.length := by
  rw [← item?_append_items_poll f, List.length_append]
  exact Nat.le_add_left _ _

end Feed

end Replica
