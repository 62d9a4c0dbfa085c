import Mathlib.Data.List.Basic
import Mathlib.Data.List.TakeWhile
import Replica.Filter

/-! # Keys as texts and as patterns

The written form of a key is read back exactly where that is possible.  To read a key is to cut the
text at its slashes and to take the parts if they are two (`parse?_eq`).  A text has one part more
than it has slashes (`length_splitOn`), so one slash is needed and a second one is refused, and a
component that holds a slash cannot be told from a third part (`written_form`).

A set of keys covers a key as the plain scan of all its members would say (`coversKey_eq_any`): a
pattern that leaves nothing open covers only itself, which the lookup finds, and a key covers itself
also where a component of it is empty. -/

namespace Replica

namespace Key

/-! ### The written form -/

theorem length_splitOn (c : Char) (cs : List Char) : (cs.splitOn c).length = cs.count c + 1 := by
  induction cs with
  | nil => rfl
  | cons d cs ih =>
      rw [List.splitOn_cons_eq_if_modifyHead, List.count_cons]
      split
      · rw [List.length_cons, ih]
      · rw [List.length_modifyHead, ih, Nat.add_zero]

/-- The key of the parts of a text between its slashes, if they are two. -/
def ofParts? : List (List Char) → Option Key
  | [ns, name] => some ⟨.ofList ns, .ofList name⟩
  | _ => none

theorem ofParts?_eq_some_iff {parts : List (List Char)} {k : Key} :
    ofParts? parts = some k ↔ parts = [k.ns.toList, k.name.toList] := by
  constructor
  · intro h
    unfold ofParts? at h
    split at h
    · obtain rfl := Option.some.inj h
      simp
    · cases h
  · rintro rfl
    simp [ofParts?]

theorem isSome_ofParts? {parts : List (List Char)} :
    (ofParts? parts).isSome = true ↔ parts.length = 2 := by
  rw [List.length_eq_two, Option.isSome_iff_exists]
  constructor
  · rintro ⟨k, hk⟩
    exact ⟨_, _, ofParts?_eq_some_iff.1 hk⟩
  · rintro ⟨ns, name, rfl⟩
    exact ⟨_, rfl⟩

/-- **A key is read off the parts of its text.** -/
theorem parse?_eq (s : String) : parse? s = ofParts? (s.toList.splitOn '/') := by
  have hbefore : ∀ c : Char, c ≠ '/' → (c != '/') = true := fun c hc => bne_iff_ne.2 hc
  by_cases hslash : '/' ∈ s.toList
  · obtain ⟨ns, rest, hcut, hns⟩ := List.eq_append_cons_of_mem hslash
    have hfirst : ∀ c ∈ ns, (c != '/') = true := fun c hc =>
      hbefore c fun heq => hns (heq ▸ hc)
    rw [parse?, hcut, List.dropWhile_append_of_pos hfirst, List.takeWhile_append_of_pos hfirst,
      List.splitOn_append_cons_self_of_not_mem hns]
    by_cases hsecond : '/' ∈ rest
    · obtain ⟨name, more, rfl, hname⟩ := List.eq_append_cons_of_mem hsecond
      obtain ⟨part, parts, hparts⟩ := List.exists_cons_of_ne_nil (List.splitOn_ne_nil '/' more)
      rw [List.splitOn_append_cons_self_of_not_mem hname, hparts]
      simp [ofParts?]
    · rw [List.splitOn_eq_singleton hsecond]
      simp [ofParts?, hsecond]
  · have hall : ∀ c ∈ s.toList, (c != '/') = true := fun c hc =>
      hbefore c fun heq => hslash (heq ▸ hc)
    rw [parse?, List.dropWhile_eq_nil_iff.2 hall, List.splitOn_eq_singleton hslash]
    rfl

theorem toList_text (k : Key) :
    k.text.toList = ['/'].intercalate [k.ns.toList, k.name.toList] := by
  simp [text, List.intercalate]

/-- **Written form and key.**  A text is read as a key exactly if it has one slash, and the key is
then written as that text.  The written form of a key is read as that key if neither component has a
slash, and as none otherwise. -/
theorem written_form :
    (∀ s : String, ((parse? s).isSome = true ↔ s.toList.count '/' = 1) ∧
      ∀ k, parse? s = some k → k.text = s) ∧
    ∀ k : Key, parse? k.text =
      if '/' ∈ k.ns.toList ∨ '/' ∈ k.name.toList then none else some k := by
  have hread : ∀ s : String, (parse? s).isSome = true ↔ s.toList.count '/' = 1 := by
    intro s
    rw [parse?_eq, isSome_ofParts?, length_splitOn]
    omega
  refine ⟨fun s => ⟨hread s, fun k hk => ?_⟩, fun k => ?_⟩
  · rw [parse?_eq, ofParts?_eq_some_iff] at hk
    rw [← String.toList_inj, toList_text, ← hk, List.intercalate_splitOn]
  · split
    next hslash =>
      have hcount : k.text.toList.count '/' =
          k.ns.toList.count '/' + 1 + k.name.toList.count '/' := by
        simp [text]
        omega
      have hmore : 1 < k.text.toList.count '/' := by
        rcases hslash with hns | hname
        · have := List.count_pos_iff.2 hns
          omega
        · have := List.count_pos_iff.2 hname
          omega
      rw [← Option.not_isSome_iff_eq_none, hread]
      omega
    next hnone =>
      rw [not_or] at hnone
      rw [parse?_eq, ofParts?_eq_some_iff, toList_text]
      refine List.splitOn_intercalate '/' (fun part hpart => ?_) (List.cons_ne_nil _ _)
      rcases List.mem_cons.1 hpart with rfl | hlast
      · exact hnone.1
      · obtain rfl := List.mem_singleton.1 hlast
        exact hnone.2

/-! ### Keys as patterns -/

theorem covers_iff {p k : Key} :
    p.covers k = true ↔ (p.ns = "" ∨ p.ns = k.ns) ∧ (p.name = "" ∨ p.name = k.name) := by
  simp [covers]

theorem covers_self (k : Key) : k.covers k = true := covers_iff.2 ⟨.inr rfl, .inr rfl⟩

theorem eq_of_covers {p k : Key} (hfull : p.isPartial = false) (h : p.covers k = true) : p = k := by
  rw [isPartial, Bool.or_eq_false_iff, String.isEmpty_eq_false_iff,
    String.isEmpty_eq_false_iff] at hfull
  obtain ⟨hns, hname⟩ := covers_iff.1 h
  obtain ⟨ns, name⟩ := p
  rw [mk.injEq]
  exact ⟨hns.resolve_left hfull.1, hname.resolve_left hfull.2⟩

end Key

/-- **The lookup and the scan of the partial patterns find what a scan of all patterns finds.** -/
theorem SortedSet.coversKey_eq_any (ids : SortedSet Key) (k : Key) :
    ids.coversKey k = ids.keys.any (Key.covers · k) := by
  rw [Bool.eq_iff_iff, coversKey, Bool.or_eq_true, ← SortedMap.mem_keys, List.any_eq_true,
    List.any_eq_true]
  constructor
  · rintro (hmem | ⟨p, hp, hcovers⟩)
    · exact ⟨k, hmem, k.covers_self⟩
    · exact ⟨p, (List.mem_filter.1 hp).1, hcovers⟩
  · rintro ⟨p, hp, hcovers⟩
    cases hpartial : p.isPartial with
    | true => exact .inr ⟨p, List.mem_filter.2 ⟨hp, hpartial⟩, hcovers⟩
    | false =>
        obtain rfl := Key.eq_of_covers hpartial hcovers
        exact .inl hp

/-- **A set of patterns accepts an object exactly if one of them does**: if each of its components
is empty or the one of the object.  This goes for objects with an empty namespace or name too, whose
own key is a pattern that leaves something open. -/
theorem Filter.accepts_keys_iff (patterns : SortedSet Key) (o : Object) :
    (Filter.keys patterns).accepts o = true ↔
      ∃ p ∈ patterns.keys, (p.ns = "" ∨ p.ns = o.metadata.ns) ∧
        (p.name = "" ∨ p.name = o.metadata.name) := by
  rw [Filter.accepts, SortedSet.coversKey_eq_any, List.any_eq_true]
  simp only [Key.covers_iff]
  rfl

end Replica
