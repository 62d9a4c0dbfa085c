import Replica.Proofs.Wire.Canonical
import Replica.Wire

/-! # What is written is read back

Objects, listings and notices are written as JSON values and read from them.  An object keeps its
metadata and its opaque fields in one JSON object, so it is *regular* if the opaque fields are
values and none of them takes the name of the metadata; a listing is if its objects are, and a
notice if its object is or its code has 16 bits.

* `Object.ofJson?_toJson`, `Listing.ofJson?_toJson`, `Notice.ofJson?_toJson`: what is regular is
  written as a value, and read back from it as it was.
* `Object.regular_of_ofJson?` and its like: whatever is read is regular.
* `Object.field?_toJson_of_ofJson?`: an object that was read is written with the fields that it was
  read from.
* `wire_round_trip` puts these together, for values and for any other JSON text. -/

namespace Replica

/-! ### Metadata -/

namespace Metadata

theorem inOrder_fields (m : Metadata) : Json.InOrder
    ((if m.labels.isEmpty then [] else [("labels", Json.ofStringMap m.labels)])
      ++ [("name", .str m.name), ("namespace", .str m.ns), ("resourceVersion", .str m.version)]) := by
  cases m.labels.isEmpty <;> simp [Json.InOrder] <;> decide

theorem canonical_toJson (m : Metadata) : m.toJson.Canonical := by
  refine m.inOrder_fields.canonical_obj ?_
  cases m.labels.isEmpty <;> simp [Json.canonical_str, Json.canonical_ofStringMap]

theorem ofJson?_toJson (m : Metadata) : ofJson? m.toJson = some m := by
  rw [ofJson?, toJson, m.inOrder_fields.record?]
  obtain ⟨ns, name, version, labels⟩ := m
  cases h : labels.isEmpty with
  | false =>
      rw [if_neg Bool.false_ne_true]
      show (Json.stringMap? (Json.ofStringMap labels)).bind (fun ls => some (mk ns name version ls)) = _
      rw [Json.stringMap?_ofStringMap]
      rfl
  | true =>
      obtain rfl := SortedMap.eq_empty_of_isEmpty h
      rfl

end Metadata

/-! ### Objects -/

namespace Object

/-- The opaque fields are values, and leave the name of the metadata free. -/
structure Regular (o : Object) : Prop where
  /-- Every opaque field is a value. -/
  values : ∀ f ∈ o.data.toList, f.2.Canonical
  /-- None is called like the metadata. -/
  free : o.data.get? "metadata" = none

instance (o : Object) : Decidable o.Regular :=
  decidable_of_iff ((∀ f ∈ o.data.toList, f.2.Canonical) ∧ o.data.get? "metadata" = none)
    ⟨fun h => ⟨h.1, h.2⟩, fun h => ⟨h.values, h.free⟩⟩

variable {o : Object} {j : Json}

theorem toJson_of_free (h : o.data.get? "metadata" = none) :
    o.toJson = .obj (o.data.insert "metadata" o.metadata.toJson).toList := by
  simp [toJson, SortedMap.contains, h]

/-- A regular object is written as a value. -/
theorem Regular.canonical_toJson (h : o.Regular) : o.toJson.Canonical := by
  rw [toJson_of_free h.free]
  refine (Json.inOrder_toList _).canonical_obj fun f hf => ?_
  rw [SortedMap.mem_toList, SortedMap.get?_insert] at hf
  split at hf
  · rw [← Option.some.inj hf]
    exact o.metadata.canonical_toJson
  · exact h.values f (SortedMap.mem_toList.2 hf)

/-- A regular object is read back as it was. -/
theorem ofJson?_toJson (h : o.Regular) : ofJson? o.toJson = some o := by
  obtain ⟨metadata, data⟩ := o
  obtain ⟨hvalues, hfree⟩ := h
  simp only at hvalues hfree
  -- Without the metadata, the fields are the opaque ones again.
  have hrest : (data.insert "metadata" metadata.toJson).toList.filter (·.1 != "metadata") =
      data.toList := by
    suffices (data.insert "metadata" metadata.toJson).filter (fun name _ => name != "metadata") =
        data from congrArg SortedMap.toList this
    apply SortedMap.ext_get?
    intro name
    rw [SortedMap.get?_filter]
    by_cases hname : name = "metadata"
    · subst hname
      simp [hfree]
    · rw [SortedMap.get?_insert_of_ne _ _ hname]
      cases data.get? name <;> simp [hname]
  rw [toJson_of_free hfree, ofJson?, (Json.inOrder_toList _).record?]
  simp [Json.Record.required, Json.lookup_toList, Metadata.ofJson?_toJson, hrest,
    Json.canonicalFields?_eq_self hvalues, SortedMap.ofList_toList]

/-- What an object is read from: its opaque fields are the canonical forms of all fields but the
metadata. -/
theorem exists_fields_of_ofJson? (h : ofJson? j = some o) :
    ∃ fields data, j = .obj fields ∧
      Json.canonicalFields? (fields.filter (·.1 != "metadata")) = some data ∧
      o.data = .ofList data := by
  cases j with
  | obj fields =>
      simp only [ofJson?, Option.bind_eq_bind, Option.bind_eq_some_iff, Option.pure_def,
        Option.some.injEq] at h
      obtain ⟨r, -, metadata, -, data, hdata, rfl⟩ := h
      exact ⟨fields, data, rfl, hdata, rfl⟩
  | _ => cases h

/-- The opaque fields of an object that was read, by name. -/
theorem get?_data_of_ofJson? (h : ofJson? j = some o) (name : String) :
    o.data.get? name =
      if name = "metadata" then none else (j.field? name).bind Json.canonical? := by
  obtain ⟨fields, data, rfl, hdata, hrest⟩ := exists_fields_of_ofJson? h
  rw [hrest, Json.get?_ofList_canonicalFields? hdata, Json.get?_ofList_drop]
  split <;> rfl

/-- Whatever is read is regular. -/
theorem regular_of_ofJson? (h : ofJson? j = some o) : o.Regular where
  values := by
    intro f hf
    rw [SortedMap.mem_toList, get?_data_of_ofJson? h] at hf
    split at hf
    · cases hf
    · obtain ⟨x, -, hx⟩ := Option.bind_eq_some_iff.1 hf
      exact Json.canonical_of_canonical? hx
  free := by rw [get?_data_of_ofJson? h, if_pos rfl]

/-- An object that was read is written with the fields that it was read from, each in canonical
form. -/
theorem field?_toJson_of_ofJson? (h : ofJson? j = some o) {name : String} (hn : name ≠ "metadata") :
    o.toJson.field? name = (j.field? name).bind Json.canonical? := by
  have hdata := get?_data_of_ofJson? h name
  rw [if_neg hn] at hdata
  rw [toJson_of_free (regular_of_ofJson? h).free, ← hdata]
  show (SortedMap.ofList (SortedMap.toList _)).get? name = _
  rw [SortedMap.ofList_toList, SortedMap.get?_insert_of_ne _ _ hn]

/-- If it was read from a value, then with the very same fields. -/
theorem field?_toJson_of_canonical (hj : j.Canonical) (h : ofJson? j = some o) {name : String}
    (hn : name ≠ "metadata") : o.toJson.field? name = j.field? name := by
  rw [field?_toJson_of_ofJson? h hn]
  cases hx : j.field? name with
  | none => rfl
  | some x => exact hj.field? hx

end Object

/-! ### Listings -/

namespace Listing

/-- Every object is regular. -/
def Regular (l : Listing) : Prop := ∀ o ∈ l.items, o.Regular

instance (l : Listing) : Decidable l.Regular := inferInstanceAs (Decidable (∀ o ∈ l.items, o.Regular))

variable {l : Listing} {j : Json}

theorem inOrder_fields (l : Listing) : Json.InOrder
    [("items", .arr (l.items.map Object.toJson)), ("resourceVersion", .str l.version)] := by
  simp [Json.InOrder]
  decide

theorem Regular.canonical_toJson (h : l.Regular) : l.toJson.Canonical := by
  have hitems : (Json.arr (l.items.map Object.toJson)).Canonical := by
    refine Json.canonical_arr fun x hx => ?_
    obtain ⟨o, ho, rfl⟩ := List.mem_map.1 hx
    exact (h o ho).canonical_toJson
  exact l.inOrder_fields.canonical_obj (by simp [hitems, Json.canonical_str])

theorem ofJson?_toJson (h : l.Regular) : ofJson? l.toJson = some l := by
  have hitems : (l.items.map Object.toJson).mapM Object.ofJson? = some l.items :=
    Json.mapM_map_eq_some fun o ho => Object.ofJson?_toJson (h o ho)
  rw [ofJson?, toJson, l.inOrder_fields.record?]
  show ((l.items.map Object.toJson).mapM Object.ofJson?).bind (fun items => some (mk l.version items)) = _
  rw [hitems]
  rfl

theorem regular_of_ofJson? (h : ofJson? j = some l) : l.Regular := by
  simp only [ofJson?, Option.bind_eq_bind, Option.bind_eq_some_iff, Option.pure_def,
    Option.some.injEq] at h
  obtain ⟨r, -, version, -, items, hitems, rfl⟩ := h
  intro o ho
  rcases Json.Record.withDefault_cases hitems with rfl | ⟨js, hjs⟩
  · cases ho
  · cases js with
    | arr js =>
        obtain ⟨x, hx⟩ := Json.exists_of_mem_mapM hjs o ho
        exact Object.regular_of_ofJson? hx
    | _ => cases hjs

end Listing

/-! ### Notices -/

namespace Status

theorem inOrder_fields (s : Status) : Json.InOrder
    [("code", .int s.code), ("message", .str s.message), ("reason", .str s.reason)] := by
  simp [Json.InOrder]
  decide

theorem canonical_toJson (s : Status) : s.toJson.Canonical :=
  s.inOrder_fields.canonical_obj (by simp [Json.canonical_str, Json.canonical_int])

theorem ofJson?_toJson {s : Status} (h : s.code < Nat.pow 2 16) : ofJson? s.toJson = some s := by
  rw [ofJson?, toJson, s.inOrder_fields.record?, Option.bind_eq_bind, Option.bind_some]
  rw [Json.Record.withDefault_of_some (j := .int s.code) rfl, Json.natBelow?_int h]
  rfl

theorem code_lt_of_ofJson? {s : Status} {j : Json} (h : ofJson? j = some s) :
    s.code < Nat.pow 2 16 := by
  simp only [ofJson?, Option.bind_eq_bind, Option.bind_eq_some_iff, Option.pure_def,
    Option.some.injEq] at h
  obtain ⟨r, -, code, hcode, message, -, reason, -, rfl⟩ := h
  rcases Json.Record.withDefault_cases hcode with rfl | ⟨x, hx⟩
  · exact Nat.pow_pos (by decide)
  · exact Json.lt_of_natBelow? hx

end Status

namespace Notice

/-- The object is regular, or the code of the status message has 16 bits. -/
def Regular : Notice → Prop
  | .added o | .modified o | .deleted o => o.Regular
  | .status s => s.code < Nat.pow 2 16

instance : (n : Notice) → Decidable n.Regular
  | .added o | .modified o | .deleted o => inferInstanceAs (Decidable o.Regular)
  | .status s => inferInstanceAs (Decidable (s.code < Nat.pow 2 16))

variable {n : Notice} {j : Json}

theorem inOrder_fields (body type : Json) : Json.InOrder [("object", body), ("type", type)] := by
  simp [Json.InOrder]
  decide

theorem Regular.canonical_toJson (h : n.Regular) : n.toJson.Canonical := by
  have hfields : ∀ body : Json, body.Canonical →
      (Json.obj [("object", body), ("type", .str n.typeName)]).Canonical := fun body hbody =>
    (inOrder_fields _ _).canonical_obj (by simp [hbody, Json.canonical_str])
  cases n with
  | added o | modified o | deleted o => exact hfields _ (Object.Regular.canonical_toJson h)
  | status s => exact hfields _ s.canonical_toJson

/-- A type and a value are read as the notice of that type with this object, in whatever order they
are written. -/
theorem ofJson?_fields {type : String} {body : Json} (h : body.Canonical) :
    ofJson? (.obj [("object", body), ("type", .str type)]) = ofTyped? type body := by
  rw [ofJson?, (inOrder_fields _ _).record?]
  rw [Json.Canonical] at h
  simp [Json.Record.required, List.lookup_cons, Json.caseName?, h]

theorem ofJson?_toJson (h : n.Regular) : ofJson? n.toJson = some n := by
  cases n with
  | added o | modified o | deleted o =>
      have hbody : o.Regular := h
      refine (ofJson?_fields hbody.canonical_toJson).trans ?_
      simp [typeName, ofTyped?, Object.ofJson?_toJson hbody]
  | status s =>
      refine (ofJson?_fields s.canonical_toJson).trans ?_
      simp [typeName, ofTyped?, Status.ofJson?_toJson h]

theorem regular_of_ofTyped? {type : String} {body : Json} (h : ofTyped? type body = some n) :
    n.Regular := by
  unfold ofTyped? at h
  split at h
  all_goals first | cases h | obtain ⟨x, hx, rfl⟩ := Option.map_eq_some_iff.1 h
  · exact Object.regular_of_ofJson? hx
  · exact Object.regular_of_ofJson? hx
  · exact Object.regular_of_ofJson? hx
  · exact Status.code_lt_of_ofJson? hx

theorem regular_of_ofJson? (h : ofJson? j = some n) : n.Regular := by
  simp only [ofJson?, Option.bind_eq_bind, Option.bind_eq_some_iff] at h
  obtain ⟨r, -, type, -, body, -, h⟩ := h
  split at h
  · cases h
  · exact regular_of_ofTyped? h

end Notice

/-! ### The round trip -/

/-- **Nothing is lost on the wire.**  Objects, listings and notices that are regular, and only
they, are read back as they were from the values that they are written as.  The other way round,
whatever JSON an object is read from, no opaque field is called like the metadata, the object is
written with the same fields beside the metadata, each in canonical form, so with the very same
ones if it was read from a value, and it is read back from there. -/
theorem wire_round_trip :
    (∀ o : Object, o.Regular ↔ o.toJson.Canonical ∧ Object.ofJson? o.toJson = some o) ∧
    (∀ l : Listing, l.Regular ↔ l.toJson.Canonical ∧ Listing.ofJson? l.toJson = some l) ∧
    (∀ n : Notice, n.Regular ↔ n.toJson.Canonical ∧ Notice.ofJson? n.toJson = some n) ∧
    ∀ j o, Object.ofJson? j = some o →
      o.data.get? "metadata" = none ∧
      (∀ name, name ≠ "metadata" →
        o.toJson.field? name = (j.field? name).bind Json.canonical?) ∧
      (j.Canonical → ∀ name, name ≠ "metadata" → o.toJson.field? name = j.field? name) ∧
      Object.ofJson? o.toJson = some o := by
  refine ⟨fun o => ⟨fun h => ?_, fun h => ?_⟩, fun l => ⟨fun h => ?_, fun h => ?_⟩,
    fun n => ⟨fun h => ?_, fun h => ?_⟩, fun j o h => ⟨?_, fun name => ?_, fun hj name => ?_, ?_⟩⟩
  · exact ⟨h.canonical_toJson, Object.ofJson?_toJson h⟩
  · exact Object.regular_of_ofJson? h.2
  · exact ⟨h.canonical_toJson, Listing.ofJson?_toJson h⟩
  · exact Listing.regular_of_ofJson? h.2
  · exact ⟨h.canonical_toJson, Notice.ofJson?_toJson h⟩
  · exact Notice.regular_of_ofJson? h.2
  · exact (Object.regular_of_ofJson? h).free
  · exact Object.field?_toJson_of_ofJson? h
  · exact Object.field?_toJson_of_canonical hj h
  · exact Object.ofJson?_toJson (Object.regular_of_ofJson? h)

/-- An object with a label and nested opaque fields. -/
def Object.nested : Object where
  metadata := ⟨"a", "x", "7", .ofList [("app", "db")]⟩
  data := .ofList [("status", .str "Running"),
    ("spec", .obj [("metadata", .null), ("replicas", .arr [.int 3, .bool true])])]

/-- A text that it is read from, with one field named twice and the metadata last. -/
def Json.nestedText : Json :=
  .obj [("spec", .null), ("status", .str "Running"),
    ("spec", .obj [("replicas", .arr [.int 3, .bool true]), ("metadata", .null)]),
    ("metadata", .obj [("labels", .obj [("app", .str "db")]), ("namespace", .str "a"),
      ("name", .str "x"), ("resourceVersion", .str "7")])]

/-- The object goes back and forth by itself, in a listing and in a notice, and from the text. -/
theorem wire_round_trip_of_nested :
    let o := Object.nested
    let l : Listing := ⟨"9", [o, o]⟩
    let n : Notice := .deleted o
    let j := Json.nestedText
    (o.Regular ∧ Object.ofJson? o.toJson = some o) ∧
    (l.Regular ∧ Listing.ofJson? l.toJson = some l) ∧
    (n.Regular ∧ Notice.ofJson? n.toJson = some n) ∧
    Object.ofJson? j = some o ∧ o.toJson.field? "spec" = (j.field? "spec").bind Json.canonical? := by
  obtain ⟨hobject, hlisting, hnotice, hread⟩ := wire_round_trip
  have ho : Object.nested.Regular := by decide +kernel
  have hl : Listing.Regular ⟨"9", [Object.nested, Object.nested]⟩ := by
    intro o h
    obtain rfl : o = Object.nested := by simpa using h
    exact ho
  have hj : Object.ofJson? Json.nestedText = some Object.nested := by decide +kernel
  exact ⟨⟨ho, ((hobject _).1 ho).2⟩, ⟨hl, ((hlisting _).1 hl).2⟩, ⟨ho, ((hnotice (.deleted _)).1 ho).2⟩,
    hj, (hread _ _ hj).2.1 "spec" (by decide)⟩

end Replica
