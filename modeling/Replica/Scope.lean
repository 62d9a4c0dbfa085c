/-!
# Scopes and signals

A scope is the lifetime of a component.  It fires once and stays fired; a scope made below another
one fires with it.  A signal, such as readiness, is a scope that stands alone.

`Scopes.fire` gives the scopes that fired just now in their order: what is below the scope comes before
it, the youngest first.
-/

namespace Replica

/-- The number of a scope. -/
abbrev ScopeId := Nat

/-- A scope: the one it is below, if any, and whether it has fired. -/
structure Scope where
  parent : Option ScopeId
  isFired : Bool
  deriving DecidableEq, Inhabited

/-- All scopes by number, each made after the one that it is below. -/
structure Scopes where
  list : List Scope
  deriving DecidableEq, Inhabited

namespace Scopes

/-- No scopes. -/
def empty : Scopes := ⟨[]⟩

/-- Whether a scope has fired. -/
def isFired (s : Scopes) (i : ScopeId) : Bool := (s.list[i]?.map Scope.isFired).getD false

/-- Adds a scope that stands alone. -/
def addRoot (s : Scopes) : Scopes × ScopeId := (⟨s.list ++ [⟨none, false⟩]⟩, s.list.length)

/-- Adds a scope below another one; it is born fired if that one has fired. -/
def addChild (s : Scopes) (parent : ScopeId) : Scopes × ScopeId :=
  (⟨s.list ++ [⟨some parent, s.isFired parent⟩]⟩, s.list.length)

/-- The scopes right below one, the youngest first. -/
def children (s : Scopes) (i : ScopeId) : List ScopeId :=
  ((s.list.zipIdx.filter fun c => c.1.parent == some i && !c.1.isFired).map Prod.snd).reverse

/-- The scopes of a stack and all unfired ones below them in the order in which they fire.  Those
right below a scope fire before it if nothing is below them; the others come next after it. -/
def unwind (s : Scopes) : Nat → List ScopeId → List ScopeId
  | 0, stack => stack
  | _ + 1, [] => []
  | fuel + 1, i :: stack =>
    let (leaves, inner) := (s.children i).partition fun c => (s.children c).isEmpty
    leaves ++ i :: s.unwind fuel (inner.reverse ++ stack)

/-- Fires a scope with all below it; with those that had not fired before. -/
def fire (s : Scopes) (i : ScopeId) : Scopes × List ScopeId :=
  if s.isFired i then (s, [])
  else
    let order := s.unwind s.list.length (s.children i) ++ [i]
    (⟨s.list.mapIdx fun j c => if order.contains j then { c with isFired := true } else c⟩, order)

theorem isFired_of_length_le (s : Scopes) {i : ScopeId} (h : s.list.length ≤ i) :
    s.isFired i = false := by
  simp [isFired, List.getElem?_eq_none h]

@[simp] theorem isFired_addRoot (s : Scopes) (i : ScopeId) :
    s.addRoot.1.isFired i = s.isFired i := by
  rcases Nat.lt_trichotomy i s.list.length with h | h | h
  · simp [isFired, addRoot, List.getElem?_append_left h]
  · subst h
    simp [isFired, addRoot]
  · rw [isFired_of_length_le s (Nat.le_of_lt h), isFired_of_length_le]
    simp [addRoot]; omega

theorem isFired_addChild (s : Scopes) (parent i : ScopeId) :
    (s.addChild parent).1.isFired i =
      if i = s.list.length then s.isFired parent else s.isFired i := by
  rcases Nat.lt_trichotomy i s.list.length with h | h | h
  · simp [isFired, addChild, List.getElem?_append_left h, Nat.ne_of_lt h]
  · subst h
    simp [isFired, addChild]
  · rw [if_neg (Nat.ne_of_gt h), isFired_of_length_le s (Nat.le_of_lt h), isFired_of_length_le]
    simp [addChild]; omega

/-- What has fired stays fired. -/
theorem isFired_fire_of_isFired (s : Scopes) (i : ScopeId) {j : ScopeId} (h : s.isFired j) :
    (s.fire i).1.isFired j := by
  unfold fire
  split
  · exact h
  · simp only [isFired, List.getElem?_mapIdx] at h ⊢
    cases hj : s.list[j]? with
    | none => simp [hj] at h
    | some c =>
      simp only [hj, Option.map_some, Option.getD_some] at h ⊢
      split <;> simp [h]

end Scopes

end Replica
