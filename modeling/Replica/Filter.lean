import Replica.Selector

/-!
# Object filters

A filter is a pure test on an object's key and labels, built from a few basic tests by negation,
conjunction and disjunction.

* `Filter.accepts` evaluates a filter;
* `Filter.same` compares filters, so that replacing a filter by an equal one can be skipped:
  selectors count in normal form, the parts of a conjunction or disjunction as a multiset, and
  function filters by the token of their function.
-/

namespace Replica

/-- A test on objects. -/
inductive Filter where
  /-- Accepts every object. -/
  | acceptAll
  /-- Accepts no object. -/
  | rejectAll
  /-- Accepts objects that carry all these labels. -/
  | labels (wanted : Labels)
  /-- Accepts objects whose labels a selector matches. -/
  | selector (s : Selector)
  /-- Accepts objects whose key one of the patterns covers. -/
  | keys (patterns : SortedSet Key)
  /-- Accepts what the other filter rejects. -/
  | not (f : Filter)
  /-- Accepts what all parts accept. -/
  | and (fs : List Filter)
  /-- Accepts what some part accepts. -/
  | or (fs : List Filter)
  /-- Accepts what a function accepts; `token` tells functions apart. -/
  | func (token : Int) (test : Object → Bool)

namespace Filter

instance : Inhabited Filter := ⟨acceptAll⟩

/-- A selector filter in normal form. -/
def ofSelector (s : Selector) : Filter := .selector s.normalized

mutual

/-- Whether the filter accepts an object. -/
def accepts : Filter → Object → Bool
  | .acceptAll, _ => true
  | .rejectAll, _ => false
  | .labels wanted, o => wanted.toList.all fun e => o.labels.get? e.1 == some e.2
  | .selector s, o => s.accepts o.labels
  | .keys patterns, o => patterns.coversKey o.key
  | .not f, o => !f.accepts o
  | .and fs, o => allAccept fs o
  | .or fs, o => anyAccepts fs o
  | .func _ test, o => test o

/-- Whether all parts accept an object. -/
def allAccept : List Filter → Object → Bool
  | [], _ => true
  | f :: fs, o => f.accepts o && allAccept fs o

/-- Whether some part accepts an object. -/
def anyAccepts : List Filter → Object → Bool
  | [], _ => false
  | f :: fs, o => f.accepts o || anyAccepts fs o

end

theorem allAccept_eq_all (fs : List Filter) (o : Object) :
    allAccept fs o = fs.all (·.accepts o) := by
  induction fs with
  | nil => rfl
  | cons f fs ih => simp [allAccept, ih]

theorem anyAccepts_eq_any (fs : List Filter) (o : Object) :
    anyAccepts fs o = fs.any (·.accepts o) := by
  induction fs with
  | nil => rfl
  | cons f fs ih => simp [anyAccepts, ih]

@[simp] theorem accepts_and (fs : List Filter) (o : Object) :
    (Filter.and fs).accepts o = fs.all (·.accepts o) := by
  rw [accepts, allAccept_eq_all]

@[simp] theorem accepts_or (fs : List Filter) (o : Object) :
    (Filter.or fs).accepts o = fs.any (·.accepts o) := by
  rw [accepts, anyAccepts_eq_any]

@[simp] theorem accepts_not (f : Filter) (o : Object) :
    (Filter.not f).accepts o = !f.accepts o := by
  rw [accepts]

/-- The list without its first element that satisfies `p`, if there is one. -/
def dropFirst? {α : Type} (p : α → Bool) : List α → Option (List α)
  | [] => none
  | x :: xs => if p x then some xs else (dropFirst? p xs).map (x :: ·)

mutual

/-- Whether two filters count as equal. -/
def same : Filter → Filter → Bool
  | .acceptAll, .acceptAll => true
  | .rejectAll, .rejectAll => true
  | .labels a, .labels b => a = b
  | .selector a, .selector b => a.normalized = b.normalized
  | .keys a, .keys b => a = b
  | .not f, .not g => same f g
  | .and fs, .and gs => sameMembers fs gs
  | .or fs, .or gs => sameMembers fs gs
  | .func a _, .func b _ => a == b
  | _, _ => false

/-- Whether each filter of the first list can be paired with one of its own in the second, none left
over: each takes the first equal one that is still free. -/
def sameMembers : List Filter → List Filter → Bool
  | [], gs => gs.isEmpty
  | f :: fs, gs =>
    match dropFirst? (fun g => same f g) gs with
    | some rest => sameMembers fs rest
    | none => false

end

end Filter

end Replica
