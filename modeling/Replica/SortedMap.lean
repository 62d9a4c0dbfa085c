/-!
# Finite maps in key order

A `SortedMap` is a list of key/value pairs whose keys strictly increase.  The order is part of the
type, so a map has one representation and two maps with the same lookups are equal
(`SortedMap.ext_get?`).

* `insert`, `erase` and `filter` change one map into another; each has one equation through
  `get?` (`get?_insert`, `get?_erase`, `get?_filter`);
* `ofList` inserts pairs from left to right, so the last of several pairs with one key stays
  (`get?_ofList`), and a map is the map of its pairs (`ofList_toList`);
* `toList` gives the pairs in key order, and membership in it is lookup (`mem_toList`).
-/

namespace Replica

/-- A finite map as the list of its pairs, keys strictly increasing. -/
structure SortedMap (κ υ : Type) [Ord κ] where
  entries : List (κ × υ)
  sorted : entries.Pairwise (fun a b => compare a.1 b.1 = .lt)

namespace SortedMap

variable {κ υ : Type} [Ord κ]

/-! ### The list underneath -/

/-- The value at `k`, if a pair has this key. -/
def lookup (k : κ) : List (κ × υ) → Option υ
  | [] => none
  | e :: es => if compare k e.1 = .eq then some e.2 else lookup k es

/-- The pairs with `k ↦ v` in its place, instead of an older pair of that key. -/
def place (k : κ) (v : υ) : List (κ × υ) → List (κ × υ)
  | [] => [(k, v)]
  | e :: es =>
    match compare k e.1 with
    | .lt => (k, v) :: e :: es
    | .eq => (k, v) :: es
    | .gt => e :: place k v es

theorem compare_self_eq [Std.TransOrd κ] (k : κ) : compare k k = .eq := Std.ReflCmp.compare_self

theorem mem_place {k : κ} {v : υ} {e : κ × υ} {es : List (κ × υ)} (h : e ∈ place k v es) :
    e = (k, v) ∨ e ∈ es := by
  induction es with
  | nil => simpa [place] using h
  | cons x xs ih =>
    unfold place at h
    split at h <;> simp only [List.mem_cons] at h ⊢
    · exact h
    · exact h.imp_right .inr
    · rcases h with h | h
      · exact .inr (.inl h)
      · exact (ih h).imp_right .inr

theorem pairwise_place [Std.TransOrd κ] [Std.LawfulEqOrd κ] (k : κ) (v : υ) {es : List (κ × υ)}
    (h : es.Pairwise (fun a b => compare a.1 b.1 = .lt)) :
    (place k v es).Pairwise (fun a b => compare a.1 b.1 = .lt) := by
  induction es with
  | nil => simp [place]
  | cons x xs ih =>
    have ⟨hx, hxs⟩ := List.pairwise_cons.1 h
    unfold place
    split
    next hlt =>
      refine List.pairwise_cons.2 ⟨fun e he => ?_, h⟩
      rcases List.mem_cons.1 he with rfl | he
      · exact hlt
      · exact Std.TransCmp.lt_trans hlt (hx e he)
    next heq =>
      have hk : k = x.1 := Std.LawfulEqCmp.compare_eq_iff_eq.1 heq
      exact List.pairwise_cons.2 ⟨fun e he => by simpa [hk] using hx e he, hxs⟩
    next hgt =>
      refine List.pairwise_cons.2 ⟨fun e he => ?_, ih hxs⟩
      rcases mem_place he with rfl | he
      · exact Std.OrientedCmp.gt_iff_lt.1 hgt
      · exact hx e he

theorem lookup_place [Std.TransOrd κ] [Std.LawfulEqOrd κ] (k : κ) (v : υ) (k' : κ)
    {es : List (κ × υ)} :
    lookup k' (place k v es) = if compare k' k = .eq then some v else lookup k' es := by
  induction es with
  | nil => simp [place, lookup]
  | cons x xs ih =>
    unfold place
    split
    · simp [lookup]
    next heq =>
      have hk : k = x.1 := Std.LawfulEqCmp.compare_eq_iff_eq.1 heq
      subst hk
      by_cases h : compare k' x.1 = .eq <;> simp [lookup, h]
    next hgt =>
      simp only [lookup, ih]
      by_cases hx : compare k' x.1 = .eq
      · have : k' = x.1 := Std.LawfulEqCmp.compare_eq_iff_eq.1 hx
        subst this
        have hne : compare x.1 k ≠ .eq := by
          intro he
          rw [Std.LawfulEqCmp.compare_eq_iff_eq.1 he, compare_self_eq] at hgt
          cases hgt
        simp [hne]
      · simp [hx]

theorem lookup_eq_some_iff [Std.TransOrd κ] [Std.LawfulEqOrd κ] {k : κ} {v : υ}
    {es : List (κ × υ)} (h : es.Pairwise (fun a b => compare a.1 b.1 = .lt)) :
    lookup k es = some v ↔ (k, v) ∈ es := by
  induction es with
  | nil => simp [lookup]
  | cons x xs ih =>
    have ⟨hx, hxs⟩ := List.pairwise_cons.1 h
    by_cases hk : compare k x.1 = .eq
    · have : k = x.1 := Std.LawfulEqCmp.compare_eq_iff_eq.1 hk
      subst this
      have hnot : (x.1, v) ∉ xs := fun hm => by
        have := hx _ hm
        rw [compare_self_eq] at this
        cases this
      simp only [lookup, Std.ReflCmp.compare_self, if_true, Option.some.injEq, List.mem_cons, hnot,
        or_false]
      exact ⟨fun h => h ▸ rfl, fun h => congrArg Prod.snd h.symm⟩
    · have hne : (k, v) ≠ x := fun h => hk (by simp [← h, Std.ReflCmp.compare_self])
      simp [lookup, hk, ih hxs, hne]

/-! ### Maps -/

instance [DecidableEq κ] [DecidableEq υ] : DecidableEq (SortedMap κ υ) := fun a b =>
  decidable_of_iff (a.entries = b.entries) (by cases a; cases b; simp)

/-- The map without pairs. -/
def empty : SortedMap κ υ := ⟨[], .nil⟩

instance : Inhabited (SortedMap κ υ) := ⟨empty⟩
instance : EmptyCollection (SortedMap κ υ) := ⟨empty⟩

/-- The pairs in key order. -/
def toList (m : SortedMap κ υ) : List (κ × υ) := m.entries

/-- The keys in order. -/
def keys (m : SortedMap κ υ) : List κ := m.toList.map Prod.fst

/-- The values in the order of their keys. -/
def values (m : SortedMap κ υ) : List υ := m.toList.map Prod.snd

/-- Whether the map has no pair. -/
def isEmpty (m : SortedMap κ υ) : Bool := m.entries.isEmpty

/-- The value stored under `k`. -/
def get? (m : SortedMap κ υ) (k : κ) : Option υ := lookup k m.entries

/-- Whether some value is stored under `k`. -/
def contains (m : SortedMap κ υ) (k : κ) : Bool := (m.get? k).isSome

/-- The pairs that satisfy `p`. -/
def filter (p : κ → υ → Bool) (m : SortedMap κ υ) : SortedMap κ υ :=
  ⟨m.entries.filter fun e => p e.1 e.2, m.sorted.filter _⟩

/-- The map without the pair at `k`. -/
def erase (m : SortedMap κ υ) (k : κ) : SortedMap κ υ := m.filter fun k' _ => compare k' k != .eq

section Lawful

variable [Std.TransOrd κ] [Std.LawfulEqOrd κ]

/-- Stores `v` under `k`, instead of any value stored there before. -/
def insert (m : SortedMap κ υ) (k : κ) (v : υ) : SortedMap κ υ :=
  ⟨place k v m.entries, pairwise_place k v m.sorted⟩

/-- Inserts the pairs from left to right: the last pair of a key wins. -/
def ofList (es : List (κ × υ)) : SortedMap κ υ := es.foldl (fun m e => m.insert e.1 e.2) empty

/-! ### Lookup after each operation -/

omit [Std.TransOrd κ] [Std.LawfulEqOrd κ] in
@[simp] theorem get?_empty (k : κ) : (empty : SortedMap κ υ).get? k = none := rfl

theorem get?_insert (m : SortedMap κ υ) (k k' : κ) (v : υ) :
    (m.insert k v).get? k' = if compare k' k = .eq then some v else m.get? k' :=
  lookup_place k v k'

@[simp] theorem get?_insert_self (m : SortedMap κ υ) (k : κ) (v : υ) :
    (m.insert k v).get? k = some v := by
  simp [get?_insert, Std.ReflCmp.compare_self]

theorem get?_insert_of_ne (m : SortedMap κ υ) {k k' : κ} (v : υ) (h : k' ≠ k) :
    (m.insert k v).get? k' = m.get? k' := by
  rw [get?_insert, if_neg fun he => h (Std.LawfulEqCmp.compare_eq_iff_eq.1 he)]

theorem mem_toList {m : SortedMap κ υ} {k : κ} {v : υ} : (k, v) ∈ m.toList ↔ m.get? k = some v :=
  (lookup_eq_some_iff m.sorted).symm

theorem get?_filter (p : κ → υ → Bool) (m : SortedMap κ υ) (k : κ) :
    (m.filter p).get? k = (m.get? k).filter (p k) := by
  apply Option.ext
  intro v
  rw [← mem_toList, Option.filter_eq_some_iff, ← mem_toList]
  simp [toList, filter]

theorem get?_erase (m : SortedMap κ υ) (k k' : κ) :
    (m.erase k).get? k' = if compare k' k = .eq then none else m.get? k' := by
  rw [erase, get?_filter]
  by_cases h : compare k' k = .eq
  · cases m.get? k' <;> simp [h]
  · cases m.get? k' <;> simp [h]

@[simp] theorem get?_erase_self (m : SortedMap κ υ) (k : κ) : (m.erase k).get? k = none := by
  simp [get?_erase, Std.ReflCmp.compare_self]

theorem get?_erase_of_ne (m : SortedMap κ υ) {k k' : κ} (h : k' ≠ k) :
    (m.erase k).get? k' = m.get? k' := by
  rw [get?_erase, if_neg fun he => h (Std.LawfulEqCmp.compare_eq_iff_eq.1 he)]

theorem mem_keys {m : SortedMap κ υ} {k : κ} : k ∈ m.keys ↔ m.contains k := by
  simp only [keys, List.mem_map, Prod.exists, exists_and_right, exists_eq_right, contains,
    Option.isSome_iff_exists, mem_toList]

omit [Std.LawfulEqOrd κ] in
theorem nodup_keys (m : SortedMap κ υ) : m.keys.Nodup := by
  refine List.pairwise_map.2 (m.sorted.imp fun {a b} h he => ?_)
  rw [he, compare_self_eq] at h
  cases h

/-- Two maps with the same lookups are the same map. -/
theorem ext_get? {m n : SortedMap κ υ} (h : ∀ k, m.get? k = n.get? k) : m = n := by
  obtain ⟨es, hes⟩ := m
  obtain ⟨fs, hfs⟩ := n
  congr
  induction es generalizing fs with
  | nil =>
    cases fs with
    | nil => rfl
    | cons f fs => simpa [get?, lookup, Std.ReflCmp.compare_self] using h f.1
  | cons e es ih =>
    cases fs with
    | nil => simpa [get?, lookup, Std.ReflCmp.compare_self] using h e.1
    | cons f fs =>
      have he := List.pairwise_cons.1 hes
      have hf := List.pairwise_cons.1 hfs
      have hmem : ∀ x, x ∈ e :: es ↔ x ∈ f :: fs := fun x => by
        rw [← lookup_eq_some_iff (k := x.1) (v := x.2) hes,
          ← lookup_eq_some_iff (k := x.1) (v := x.2) hfs]
        exact Eq.to_iff (congrArg (· = some x.2) (h x.1))
      have hef : e = f := by
        rcases List.mem_cons.1 ((hmem e).1 (.head _)) with h1 | h1
        · exact h1
        rcases List.mem_cons.1 ((hmem f).2 (.head _)) with h2 | h2
        · exact h2.symm
        have := Std.TransCmp.lt_trans (he.1 f h2) (hf.1 e h1)
        rw [compare_self_eq] at this
        cases this
      subst hef
      congr 1
      refine ih he.2 fs hf.2 fun k => ?_
      have hk := h k
      simp only [get?, lookup] at hk ⊢
      by_cases hc : compare k e.1 = .eq
      · have : k = e.1 := Std.LawfulEqCmp.compare_eq_iff_eq.1 hc
        subst this
        have aux : ∀ (l : List (κ × υ)), (∀ b ∈ l, compare e.1 b.1 = .lt) →
            lookup e.1 l = none := by
          intro l
          induction l with
          | nil => simp [lookup]
          | cons b l ihl =>
            intro hb
            simp [lookup, hb b (.head _), ihl fun b' hb' => hb b' (.tail _ hb')]
        rw [aux es he.1, aux fs hf.1]
      · simpa [hc] using hk

/-! ### Maps and lists of pairs -/

omit [Std.TransOrd κ] [Std.LawfulEqOrd κ] in
theorem eq_empty_of_isEmpty {m : SortedMap κ υ} (h : m.isEmpty = true) : m = empty := by
  obtain ⟨es, hes⟩ := m
  obtain rfl : es = [] := List.isEmpty_iff.1 h
  rfl

variable [DecidableEq κ]

/-- The pairs of one key are what a lookup finds. -/
theorem filter_toList_key (m : SortedMap κ υ) (k : κ) :
    (m.toList.filter (·.1 = k)).map Prod.snd = (m.get? k).toList := by
  obtain ⟨es, hes⟩ := m
  show (es.filter (·.1 = k)).map Prod.snd = (lookup k es).toList
  induction es with
  | nil => rfl
  | cons e es ih =>
      have ⟨he, htail⟩ := List.pairwise_cons.1 hes
      by_cases h : e.1 = k
      · subst h
        have hnone : ∀ x ∈ es, ¬ x.1 = e.1 := by
          intro x hx hkey
          have := he x hx
          rw [hkey, compare_self_eq] at this
          cases this
        rw [List.filter_cons_of_pos (by simp), List.filter_eq_nil_iff.2 (by simpa using hnone)]
        simp [lookup, Std.ReflCmp.compare_self]
      · have hne : ¬ compare k e.1 = .eq := fun hc => h (Std.LawfulEqCmp.compare_eq_iff_eq.1 hc).symm
        rw [List.filter_cons_of_neg (by simpa using h), ih htail]
        simp [lookup, hne]

/-- Of several pairs that are put in with one key, the last one stays. -/
theorem get?_foldl_insert (es : List (κ × υ)) (m : SortedMap κ υ) (k : κ) :
    (es.foldl (fun m e => m.insert e.1 e.2) m).get? k =
      ((es.filter (·.1 = k)).map Prod.snd).getLast?.or (m.get? k) := by
  induction es generalizing m with
  | nil => rfl
  | cons e es ih =>
      rw [List.foldl_cons, ih]
      by_cases h : e.1 = k
      · subst h
        rw [List.filter_cons_of_pos (by simp), List.map_cons, List.getLast?_cons, get?_insert_self]
        cases ((es.filter (·.1 = e.1)).map Prod.snd).getLast? <;> rfl
      · rw [List.filter_cons_of_neg (by simpa using h), get?_insert_of_ne _ _ (Ne.symm h)]

theorem get?_ofList (es : List (κ × υ)) (k : κ) :
    (ofList es).get? k = ((es.filter (·.1 = k)).map Prod.snd).getLast? :=
  (get?_foldl_insert es empty k).trans (Option.or_none ..)

theorem mem_of_mem_ofList {es : List (κ × υ)} {e : κ × υ} (h : e ∈ (ofList es).toList) : e ∈ es := by
  rw [mem_toList, get?_ofList] at h
  obtain ⟨x, hx, hv⟩ := List.mem_map.1 (List.mem_of_getLast? h)
  obtain ⟨hmem, hkey⟩ := List.mem_filter.1 hx
  have hxe : x = e := Prod.ext (of_decide_eq_true hkey) hv
  exact hxe ▸ hmem

/-- A map is the map of its pairs. -/
theorem ofList_toList (m : SortedMap κ υ) : ofList m.toList = m := by
  apply ext_get?
  intro k
  rw [get?_ofList, filter_toList_key]
  cases m.get? k <;> rfl

end Lawful

end SortedMap

/-- A finite set in order: a map to the one-element type. -/
abbrev SortedSet (κ : Type) [Ord κ] := SortedMap κ Unit

/-- The set of the listed elements. -/
def SortedSet.ofElements {κ : Type} [Ord κ] [Std.TransOrd κ] [Std.LawfulEqOrd κ] (ks : List κ) :
    SortedSet κ :=
  SortedMap.ofList (ks.map fun k => (k, ()))

end Replica
