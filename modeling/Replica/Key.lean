import Replica.SortedMap

/-!
# Keys of objects

An object is identified by a namespace and a name.

* `Key.text` writes a key as `namespace/name`, and `Key.parse?` reads that form: exactly one slash;
* keys are ordered by namespace, then by name;
* in a filter an empty component stands for any text (`Key.Covers`).
-/

namespace Replica

/-- The identity of an object. -/
structure Key where
  ns : String
  name : String
  deriving DecidableEq, Inhabited

namespace Key

instance : Ord Key := ⟨compareLex (compareOn ns) (compareOn name)⟩

theorem compare_def (a b : Key) :
    compare a b = (compare a.ns b.ns).then (compare a.name b.name) := rfl

instance : Std.TransOrd Key where
  eq_swap {a b} := by
    have hns : compare a.ns b.ns = (compare b.ns a.ns).swap := Std.OrientedCmp.eq_swap
    have hname : compare a.name b.name = (compare b.name a.name).swap := Std.OrientedCmp.eq_swap
    rw [compare_def, compare_def, hns, hname]
    cases compare b.ns a.ns <;> rfl
  isLE_trans {a b c} hab hbc := by
    rw [compare_def, Ordering.isLE_then_iff_and] at hab hbc ⊢
    refine ⟨Std.TransCmp.isLE_trans hab.1 hbc.1, ?_⟩
    rcases hab.2 with h | h
    · exact .inl (Std.TransCmp.lt_of_lt_of_isLE h hbc.1)
    · rcases hbc.2 with h' | h'
      · exact .inl (Std.TransCmp.lt_of_isLE_of_lt hab.1 h')
      · exact .inr (Std.TransCmp.isLE_trans h h')

instance : Std.LawfulEqOrd Key where
  eq_of_compare {a b} h := by
    rw [compare_def, Ordering.then_eq_eq] at h
    obtain ⟨n, m⟩ := a
    obtain ⟨n', m'⟩ := b
    rw [Key.mk.injEq]
    exact ⟨Std.LawfulEqCmp.eq_of_compare h.1, Std.LawfulEqCmp.eq_of_compare h.2⟩

/-- The written form, `namespace/name`. -/
def text (k : Key) : String := k.ns ++ "/" ++ k.name

/-- Reads the written form; a text with no slash or with several is no key. -/
def parse? (s : String) : Option Key :=
  match s.toList.dropWhile (· != '/') with
  | [] => none
  | _ :: rest =>
    if rest.contains '/' then none
    else some ⟨String.ofList (s.toList.takeWhile (· != '/')), String.ofList rest⟩

/-- Whether a component is empty, so that the key as a pattern leaves it open. -/
def isPartial (k : Key) : Bool := k.ns.isEmpty || k.name.isEmpty

/-- Whether each component of the pattern `p` is empty or the one of `k`. -/
def covers (p k : Key) : Bool :=
  (p.ns.isEmpty || p.ns == k.ns) && (p.name.isEmpty || p.name == k.name)

end Key

/-- Whether a set of patterns covers `k`: as a member of the set or through a partial pattern. -/
def SortedSet.coversKey (ids : SortedSet Key) (k : Key) : Bool :=
  ids.contains k || (ids.keys.filter Key.isPartial).any (Key.covers · k)

end Replica
