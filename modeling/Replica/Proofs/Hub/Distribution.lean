import Replica.Hub
import Replica.Proofs.Feed

/-! # What distributing does to each feed

Distributing offers the event once to each live feed (`Hub.getElem?_offerAll`), and exactly those on
which somebody still reads stay live (`Hub.mem_offerAll`). -/

namespace Replica

namespace Hub

variable {e : Event} {is : List FeedId} {feeds : Feeds} {i j : FeedId}

theorem getElem?_offerTo_self : (offerTo feeds i e).1[i]? = feeds[i]?.map fun f => (f.offer e).1 := by
  unfold offerTo
  cases h : feeds[i]? with
  | none => simpa using h
  | some f => simp [(List.getElem?_eq_some_iff.1 h).1]

theorem snd_offerTo_iff : (offerTo feeds i e).2 = true ↔
    ∃ f, feeds[i]? = some f ∧ (f.offer e).2 ≠ .refused := by
  unfold offerTo
  cases h : feeds[i]? with
  | none => simp
  | some f => simp

/-- **An event is offered once to each feed that is listed.** -/
theorem getElem?_offerAll (hnodup : is.Nodup) : (offerAll e is feeds).1[j]? =
    if j ∈ is then feeds[j]?.map fun f => (f.offer e).1 else feeds[j]? := by
  induction is generalizing feeds with
  | nil => rfl
  | cons i is ih =>
      obtain ⟨hi, hnodup⟩ := List.nodup_cons.1 hnodup
      simp only [offerAll, ih hnodup]
      by_cases hj : j = i
      · rw [hj, if_neg hi, if_pos List.mem_cons_self, getElem?_offerTo_self]
      · simp only [List.mem_cons, hj, false_or, getElem?_offerTo_of_ne feeds e (Ne.symm hj)]

theorem offerAll_sublist : (offerAll e is feeds).2.Sublist is := by
  induction is generalizing feeds with
  | nil => exact .slnil
  | cons i is ih =>
      simp only [offerAll]
      split
      · exact ih.cons_cons i
      · exact ih.cons i

/-- A feed stays listed as long as somebody reads it. -/
theorem mem_offerAll (hnodup : is.Nodup) : j ∈ (offerAll e is feeds).2 ↔
    j ∈ is ∧ ∃ f, feeds[j]? = some f ∧ (f.offer e).2 ≠ .refused := by
  induction is generalizing feeds with
  | nil => simp [offerAll]
  | cons i is ih =>
      obtain ⟨hi, hnodup⟩ := List.nodup_cons.1 hnodup
      have hrest : i ∉ (offerAll e is (offerTo feeds i e).1).2 := fun h =>
        hi (offerAll_sublist.subset h)
      simp only [offerAll]
      by_cases hj : j = i
      · subst hj
        rw [← snd_offerTo_iff]
        cases (offerTo feeds j e).2 <;> simp [hrest]
      · have htail : j ∈ (offerAll e is (offerTo feeds i e).1).2 ↔
            j ∈ is ∧ ∃ f, feeds[j]? = some f ∧ (f.offer e).2 ≠ .refused := by
          rw [ih hnodup, getElem?_offerTo_of_ne feeds e (Ne.symm hj)]
        cases (offerTo feeds i e).2 <;> simp [htail, hj]

end Hub

end Replica
