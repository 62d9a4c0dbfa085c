import Replica.Object

/-!
# Label selectors

A selector holds labels that must be there and requirements on single labels; all of them must hold.

* `Selector.accepts` says which label maps a selector matches;
* `Selector.normalized` sorts the requirements and the values of each, and drops repetitions, so
  that the order and the repetition of what was declared do not count.
-/

namespace Replica

/-- What a requirement demands of a label. -/
inductive Operator where
  /-- The label is there and its value is listed. -/
  | isIn
  /-- The label is not there or its value is not listed. -/
  | notIn
  /-- The label is there. -/
  | exists
  /-- The label is not there. -/
  | doesNotExist
  deriving DecidableEq, Inhabited

namespace Operator

/-- The operator's name. -/
def text : Operator → String
  | .isIn => "In"
  | .notIn => "NotIn"
  | .exists => "Exists"
  | .doesNotExist => "DoesNotExist"

/-- All operators in their order. -/
def all : List Operator := [.isIn, .notIn, .exists, .doesNotExist]

/-- The operator of a name. -/
def parse? (s : String) : Option Operator := all.find? (·.text == s)

theorem parse?_text (o : Operator) : parse? o.text = some o := by cases o <;> decide

/-- The operator's place in the order. -/
def rank : Operator → Nat
  | .isIn => 0
  | .notIn => 1
  | .exists => 2
  | .doesNotExist => 3

theorem rank_injective {a b : Operator} (h : a.rank = b.rank) : a = b := by
  cases a <;> cases b <;> simp_all [rank]

end Operator

/-- A demand on one label. -/
structure Requirement where
  key : String
  operator : Operator
  values : List String
  deriving DecidableEq, Inhabited

namespace Requirement

/-- Requirements are ordered by key, then by operator, then by values. -/
instance : Ord Requirement where
  compare a b :=
    (compare a.key b.key).then
      ((compare a.operator.rank b.operator.rank).then (compare a.values b.values))

/-- Whether labels meet the requirement. -/
def holds (r : Requirement) (labels : Labels) : Bool :=
  match r.operator, labels.get? r.key with
  | .isIn, some v => r.values.contains v
  | .isIn, none => false
  | .notIn, some v => !r.values.contains v
  | .notIn, none => true
  | .exists, v => v.isSome
  | .doesNotExist, v => v.isNone

end Requirement

/-- Drops each element that equals the one before it. -/
def dropRepeats {α : Type} [DecidableEq α] : List α → List α
  | [] => []
  | [x] => [x]
  | x :: y :: rest => if x = y then dropRepeats (y :: rest) else x :: dropRepeats (y :: rest)

theorem mem_dropRepeats {α : Type} [DecidableEq α] {a : α} :
    ∀ {xs : List α}, a ∈ dropRepeats xs ↔ a ∈ xs
  | [] => .rfl
  | [_] => .rfl
  | x :: y :: rest => by
    rw [dropRepeats]
    split
    next h => simp [h, @mem_dropRepeats _ _ a (y :: rest)]
    next => simp [@mem_dropRepeats _ _ a (y :: rest)]

/-- The elements in order, each once. -/
def sortedOnce {α : Type} [Ord α] [DecidableEq α] (xs : List α) : List α :=
  dropRepeats (xs.mergeSort fun a b => (compare a b).isLE)

@[simp] theorem mem_sortedOnce {α : Type} [Ord α] [DecidableEq α] {a : α} {xs : List α} :
    a ∈ sortedOnce xs ↔ a ∈ xs := by
  rw [sortedOnce, mem_dropRepeats, List.mem_mergeSort]

/-- Labels that must be there, and requirements; the empty selector matches all. -/
structure Selector where
  matchLabels : Labels
  requirements : List Requirement
  deriving DecidableEq, Inhabited

namespace Selector

/-- Whether all parts of the selector hold. -/
def accepts (s : Selector) (labels : Labels) : Bool :=
  s.matchLabels.toList.all (fun e => labels.get? e.1 == some e.2)
    && s.requirements.all (·.holds labels)

/-- The selector with requirements and their values in order, each once. -/
def normalized (s : Selector) : Selector :=
  { s with
    requirements := sortedOnce (s.requirements.map fun r => { r with values := sortedOnce r.values }) }

end Selector

end Replica
