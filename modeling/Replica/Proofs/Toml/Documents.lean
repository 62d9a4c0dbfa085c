import Replica.Proofs.Toml.Numbers
import Replica.Proofs.Toml.Strings

/-!
# Documents of plain entries

A plain entry is a line with a key of one word, an equals sign and a text, such as the string or the
number of a field.  A document of such lines, no key being given twice, is read as these keys with
what their texts denote, in their order (`parse?_document`).
-/

namespace Replica.Toml

open Reader

/-! ### Texts of values -/

/-- A text that is read as a value, at the end of a line and behind the space before it. -/
structure Denotes (text : List Char) (v : Value) : Prop where
  reads : ∀ fuel depth rest, value (fuel + 1) depth (text ++ '\n' :: rest) = some (v, '\n' :: rest)
  starts : ∀ rest, skipSpaces (text ++ rest) = text ++ rest

theorem skipSpaces_cons {c : Char} (h : c ≠ ' ' ∧ c ≠ '\t') (cs : List Char) :
    skipSpaces (c :: cs) = c :: cs := by
  simp [skipSpaces, h]

theorem value_quote {q : Char} (h : q = '"' ∨ q = '\'') (fuel depth : Nat) (cs : List Char) :
    value (fuel + 1) depth (q :: cs) = (string (q :: cs)).map fun (s, r) => (.string s, r) := by
  obtain rfl | rfl := h <;> rw [value]

/-- A string that is written begins with a quote. -/
theorem exists_renderString_cons (s : String) :
    ∃ q cs, (renderString s).toList = q :: cs ∧ (q = '"' ∨ q = '\'') := by
  unfold renderString
  rw [String.toList_ofList]
  cases stringForm s.toList with
  | basic => exact ⟨_, _, rfl, .inl rfl⟩
  | literal => exact ⟨_, _, rfl, .inr rfl⟩
  | basicLines => exact ⟨_, _, rfl, .inl rfl⟩
  | literalLines => exact ⟨_, _, rfl, .inr rfl⟩

theorem denotes_string (s : String) : Denotes (renderString s).toList (.string s) := by
  obtain ⟨q, cs, hcons, hquote⟩ := exists_renderString_cons s
  refine ⟨fun fuel depth rest => ?_, fun rest => ?_⟩
  · have hread : string ((renderString s).toList ++ '\n' :: rest) = some (s, '\n' :: rest) :=
      string_renderString s (by simp) (by simp)
    rw [hcons, List.cons_append] at hread ⊢
    rw [value_quote hquote, hread]
    rfl
  · rw [hcons]
    refine skipSpaces_cons ?_ _
    obtain rfl | rfl := hquote <;> decide

theorem value_digit {c : Char} (h : c.isDigit = true) (fuel depth : Nat) (cs : List Char) :
    value (fuel + 1) depth (c :: cs) = scalar (c :: cs) := by
  rw [value]
  all_goals
    rintro _ heq
    obtain ⟨rfl, -⟩ := List.cons.inj heq
    cases h

theorem isWordChar_of_isDigit {c : Char} (h : c.isDigit = true) : Scalar.isWordChar c = true := by
  simp [Scalar.isWordChar, Char.isAlphanum, h]

theorem scalar_toDigits {n : Nat} (h : (n : Int) < Scalar.integerLimit) (rest : List Char) :
    scalar (Nat.toDigits 10 n ++ '\n' :: rest) = some (.integer n, '\n' :: rest) := by
  have hdigits := (decimal_toDigits n).isDigit
  have hword : ∀ c ∈ Nat.toDigits 10 n, Scalar.isWordChar c = true := fun c hc =>
    isWordChar_of_isDigit (hdigits c hc)
  have htake : (Nat.toDigits 10 n ++ '\n' :: rest).takeWhile Scalar.isWordChar =
      Nat.toDigits 10 n := by
    rw [List.takeWhile_append_of_pos hword]
    exact List.append_nil _
  have hdrop : (Nat.toDigits 10 n ++ '\n' :: rest).dropWhile Scalar.isWordChar = '\n' :: rest := by
    rw [List.dropWhile_append_of_pos hword]
    rfl
  rw [scalar, htake, hdrop, Scalar.isDate_eq_false hdigits, Scalar.value?_toDigits h]
  rfl

theorem denotes_number {n : Nat} (h : (n : Int) < Scalar.integerLimit) :
    Denotes (toString n).toList (.integer n) := by
  have htext : (toString n).toList = Nat.toDigits 10 n := Nat.toList_repr
  obtain ⟨c, cs, hcons⟩ := List.exists_cons_of_ne_nil (decimal_toDigits n).ne_nil
  have hdigit : c.isDigit = true := (decimal_toDigits n).isDigit c (hcons ▸ List.mem_cons_self)
  refine ⟨fun fuel depth rest => ?_, fun rest => ?_⟩
  · have hread := scalar_toDigits h rest
    rw [hcons, List.cons_append] at hread
    rw [htext, hcons, List.cons_append, value_digit hdigit, hread]
  · rw [htext, hcons]
    refine skipSpaces_cons ⟨?_, ?_⟩ _
    all_goals
      rintro rfl
      cases hdigit

/-! ### Lines -/

/-- A key that needs no quotes. -/
structure IsBareKey (k : String) : Prop where
  ne_nil : k.toList ≠ []
  bare : ∀ c ∈ k.toList, isBareChar c = true

theorem ne_of_isBareChar {c d : Char} (hc : isBareChar c = true) (hd : isBareChar d = false) :
    c ≠ d := by
  rintro rfl
  rw [hc] at hd
  cases hd

theorem IsBareKey.exists_cons {k : String} (h : IsBareKey k) :
    ∃ c cs, k.toList = c :: cs ∧ isBareChar c = true := by
  obtain ⟨c, cs, hcons⟩ := List.exists_cons_of_ne_nil h.ne_nil
  exact ⟨c, cs, hcons, h.bare c (hcons ▸ List.mem_cons_self)⟩

theorem IsBareKey.skipSpaces {k : String} (h : IsBareKey k) (rest : List Char) :
    skipSpaces (k.toList ++ rest) = k.toList ++ rest := by
  obtain ⟨c, cs, hcons, hbare⟩ := h.exists_cons
  rw [hcons]
  exact skipSpaces_cons ⟨ne_of_isBareChar hbare rfl, ne_of_isBareChar hbare rfl⟩ _

theorem simpleKey_bare {k : String} (h : IsBareKey k) {c : Char} (hc : isBareChar c = false)
    (rest : List Char) : simpleKey (k.toList ++ c :: rest) = some (k, c :: rest) := by
  have htake : (k.toList ++ c :: rest).takeWhile isBareChar = k.toList := by
    rw [List.takeWhile_append_of_pos h.bare, List.takeWhile_cons_of_neg (by simp [hc]),
      List.append_nil]
  have hdrop : (k.toList ++ c :: rest).dropWhile isBareChar = c :: rest := by
    rw [List.dropWhile_append_of_pos h.bare, List.dropWhile_cons_of_neg (by simp [hc])]
  obtain ⟨d, ds, hcons, hbare⟩ := h.exists_cons
  unfold simpleKey
  split
  · rename_i heq
    rw [hcons] at heq
    exact absurd (List.cons.inj heq).1 (ne_of_isBareChar hbare rfl)
  · rename_i heq
    rw [hcons] at heq
    exact absurd (List.cons.inj heq).1 (ne_of_isBareChar hbare rfl)
  · rw [htake, hdrop]
    split
    · rename_i hnil
      exact absurd hnil h.ne_nil
    · rw [String.ofList_toList]

theorem key_bare {k : String} (h : IsBareKey k) (rest : List Char) :
    key (k.toList ++ ' ' :: '=' :: rest) = some (([], k), '=' :: rest) := by
  have hparts : dottedKey (nestingLimit - 1) (k.toList ++ ' ' :: '=' :: rest) =
      some ([k], '=' :: rest) := by
    rw [show nestingLimit - 1 = 78 + 1 from rfl, dottedKey, h.skipSpaces,
      simpleKey_bare h (by decide)]
    rfl
  rw [key, hparts]
  rfl

theorem endOfLine?_bare {k : String} (h : IsBareKey k) (rest : List Char) :
    endOfLine? (k.toList ++ rest) = none := by
  obtain ⟨c, cs, hcons, hbare⟩ := h.exists_cons
  have hcomment : skipComment (k.toList ++ rest) = k.toList ++ rest := by
    unfold skipComment
    split
    · rename_i heq
      rw [hcons] at heq
      exact absurd (List.cons.inj heq).1 (ne_of_isBareChar hbare rfl)
    · rfl
  rw [endOfLine?, h.skipSpaces, hcomment, hcons]
  exact lineEnd?_cons (ne_of_isBareChar hbare rfl) (ne_of_isBareChar hbare rfl) _

theorem alter_new {k : String} {fields : Fields} (h : k ∉ fields.map Prod.fst)
    {f : Option Value → Option Value} {v : Value} (hf : f none = some v) :
    fields.alter k f = some (fields ++ [(k, v)]) := by
  induction fields with
  | nil => simp [Fields.alter, hf]
  | cons e fields ih =>
      rw [List.map_cons, List.mem_cons, not_or] at h
      rw [Fields.alter, if_neg h.1, ih h.2]
      rfl

/-- A new key is added behind the others. -/
theorem setUnder_new {k : String} {fields : Fields} (h : k ∉ fields.map Prod.fst) (v : Value) :
    fields.setUnder [] [] k v = some (fields ++ [(k, v)]) := by
  rw [Fields.setUnder, Fields.walk, Fields.set, Fields.walk]
  exact alter_new h rfl

/-- A line with a key and a text. -/
def entryLine (k : String) (text : List Char) : List Char :=
  k.toList ++ ' ' :: '=' :: ' ' :: (text ++ ['\n'])

theorem line_entry {k : String} {text : List Char} {v : Value} {fields : Fields}
    (hk : IsBareKey k) (hv : Denotes text v) (hnew : k ∉ fields.map Prod.fst) (rest : List Char) :
    line [] fields (entryLine k text ++ rest) = some (([], fields ++ [(k, v)]), rest) := by
  have htext : entryLine k text ++ rest =
      k.toList ++ ' ' :: '=' :: ' ' :: (text ++ '\n' :: rest) := by
    simp [entryLine]
  have hspace : skipSpaces (' ' :: (text ++ '\n' :: rest)) = text ++ '\n' :: rest :=
    hv.starts _
  rw [htext, line, hk.skipSpaces]
  obtain ⟨c, cs, hcons, hbare⟩ := hk.exists_cons
  split
  · rename_i heq
    rw [hcons] at heq
    exact absurd (List.cons.inj heq).1 (ne_of_isBareChar hbare rfl)
  · rename_i heq
    rw [hcons] at heq
    exact absurd (List.cons.inj heq).1 (ne_of_isBareChar hbare rfl)
  · rw [endOfLine?_bare hk, key_bare hk]
    simp [hspace, hv.reads, setUnder_new hnew]
    rfl

/-! ### Documents -/

/-- The text of some entries. -/
def document (entries : List (String × List Char × Value)) : List Char :=
  entries.flatMap fun e => entryLine e.1 e.2.1

theorem entryLine_ne_nil (k : String) (text : List Char) : entryLine k text ≠ [] := by
  simp [entryLine]

theorem length_le_document (entries : List (String × List Char × Value)) :
    entries.length ≤ (document entries).length := by
  induction entries with
  | nil => exact Nat.zero_le _
  | cons e entries ih =>
      have hline := List.length_pos_of_ne_nil (entryLine_ne_nil e.1 e.2.1)
      rw [document, List.flatMap_cons, List.length_append, List.length_cons]
      exact Nat.add_comm .. ▸ Nat.add_le_add hline ih

theorem lines_document {entries : List (String × List Char × Value)} {fields : Fields} {fuel : Nat}
    (hentries : ∀ e ∈ entries, IsBareKey e.1 ∧ Denotes e.2.1 e.2.2)
    (hnodup : (fields.map Prod.fst ++ entries.map Prod.fst).Nodup)
    (hfuel : entries.length ≤ fuel) :
    lines fuel [] fields (document entries) =
      some (fields ++ entries.map fun e => (e.1, e.2.2)) := by
  induction entries generalizing fields fuel with
  | nil => cases fuel <;> simp [lines, document]
  | cons e entries ih =>
      obtain ⟨⟨hk, hv⟩, htail⟩ := List.forall_mem_cons.1 hentries
      obtain ⟨fuel, rfl⟩ := Nat.exists_eq_add_of_lt hfuel
      have hsplit : document (e :: entries) = entryLine e.1 e.2.1 ++ document entries := by
        rw [document, List.flatMap_cons]
        rfl
      have hnew : e.1 ∉ fields.map Prod.fst := fun hmem =>
        (List.nodup_append.1 hnodup).2.2 e.1 hmem e.1 List.mem_cons_self rfl
      have hsome : (entryLine e.1 e.2.1 ++ document entries).isEmpty = false := by
        simp [entryLine_ne_nil]
      have hread : lines (entries.length + fuel) [] (fields ++ [(e.1, e.2.2)]) (document entries) =
          some (fields ++ [(e.1, e.2.2)] ++ entries.map fun e => (e.1, e.2.2)) :=
        ih htail (by simpa using hnodup) (Nat.le_add_right _ _)
      rw [hsplit, lines, hsome, line_entry hk hv hnew]
      simpa using hread

theorem document_ne_mark {entries : List (String × List Char × Value)}
    (hentries : ∀ e ∈ entries, IsBareKey e.1 ∧ Denotes e.2.1 e.2.2) (cs : List Char) :
    document entries ≠ '\ufeff' :: cs := by
  cases entries with
  | nil => exact (List.cons_ne_nil _ _).symm
  | cons e entries =>
      obtain ⟨c, ds, hcons, hbare⟩ := (hentries e List.mem_cons_self).1.exists_cons
      rw [document, List.flatMap_cons, entryLine, hcons]
      exact fun heq => ne_of_isBareChar hbare rfl (List.cons.inj heq).1

/-- **A document of entries with different keys is read as these.** -/
theorem parse?_document {entries : List (String × List Char × Value)}
    (hentries : ∀ e ∈ entries, IsBareKey e.1 ∧ Denotes e.2.1 e.2.2)
    (hnodup : (entries.map Prod.fst).Nodup) :
    parse? (String.ofList (document entries)) = some (entries.map fun e => (e.1, e.2.2)) := by
  have hread : lines (document entries).length [] [] (document entries) =
      some ([] ++ entries.map fun e => (e.1, e.2.2)) :=
    lines_document hentries (by simpa using hnodup) (length_le_document entries)
  rw [parse?, String.toList_ofList]
  split
  · -- no byte order mark stands in front
    rename_i cs heq
    exact absurd heq (document_ne_mark hentries cs)
  · exact hread

end Replica.Toml
