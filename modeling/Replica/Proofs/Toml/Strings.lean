import Replica.Toml.Reader
import Replica.Toml.Writer

/-!
# Strings that are written are read back

`renderString` chooses one of four forms for a text, and `Reader.string` reads the text again from any
of them, whatever comes behind but a further quote (`string_renderString`).

* `Encodes` says how a character stands between double quotes: as itself, or as an escape that
  `Reader.escape?` takes for it.
* `Lines` says how a text stands between threefold quotes: there are never three quotes in a row, so
  the first three that are found are the closing ones, but for the quotes that the text ends with.
* `Reads` says what the readers of both kinds of threefold quotes have in common, and `Reads.lines` is
  the one induction for both.
* `Suits` says what a text is like that is given a form without escapes (`suits_stringForm`).
-/

namespace Replica.Toml

open Reader

/-! ### Characters -/

theorem isText_of_not_isControl {c : Char} (h : isControl c = false) (hline : c ≠ '\n') :
    isText c = true := by
  simp only [isControl, isText, Bool.or_eq_false_iff, Bool.and_eq_false_iff,
    decide_eq_false_iff_not, bne_eq_false_iff_eq, beq_eq_false_iff_ne, Bool.or_eq_true,
    Bool.and_eq_true, decide_eq_true_iff, beq_iff_eq, bne_iff_ne] at h ⊢
  grind

/-- What follows a backslash stands for a character, whatever comes behind it. -/
structure Stands (c : Char) (e : List Char) : Prop where
  reads : ∀ rest, escape? (e ++ rest) = some (c, rest)
  /-- It is no line end, which would be left out. -/
  isNoLineEnd : ∀ rest, continuation? (e ++ rest) = none

theorem lineEnd?_cons {c : Char} (hfeed : c ≠ '\n') (hreturn : c ≠ '\r') (rest : List Char) :
    lineEnd? (c :: rest) = none := by
  unfold lineEnd?
  split <;> simp_all

theorem lineEnd?_cons_of_isText {c : Char} (h : isText c = true) (rest : List Char) :
    lineEnd? (c :: rest) = none := by
  refine lineEnd?_cons ?_ ?_ rest
  · rintro rfl
    cases h
  · rintro rfl
    cases h

/-- A letter or a quote is no line end. -/
theorem continuation?_cons {c : Char} (h : c ∉ [' ', '\t', '\n', '\r']) (rest : List Char) :
    continuation? (c :: rest) = none := by
  simp only [List.mem_cons, List.not_mem_nil, or_false, not_or] at h
  have hspaces : skipSpaces (c :: rest) = c :: rest := by simp [skipSpaces, h]
  simp [continuation?, hspaces, lineEnd?_cons h.2.2.1 h.2.2.2]

/-- The number of a control reads back from its digits. -/
theorem hexValue?_paddedHexDigits :
    ∀ n < 128, (Text.paddedHexDigits 4 n).length = 4 ∧
      Text.hexValue? (Text.paddedHexDigits 4 n) = some n := by
  decide

theorem stands_code {c : Char} (h : isControl c = true) :
    Stands c ('u' :: Text.paddedHexDigits 4 c.toNat) := by
  have hsmall : c.toNat < 128 := by
    simp only [isControl, Bool.or_eq_true, Bool.and_eq_true, decide_eq_true_iff, beq_iff_eq] at h
    omega
  obtain ⟨hlength, hvalue⟩ := hexValue?_paddedHexDigits c.toNat hsmall
  refine ⟨fun rest => ?_, fun rest => continuation?_cons (by decide) _⟩
  have hscalar : scalar? c.toNat = some c := by
    have hvalid : c.toNat.isValidChar := c.valid
    simp [scalar?, hvalid]
  have htake : (Text.paddedHexDigits 4 c.toNat ++ rest).take 4 = Text.paddedHexDigits 4 c.toNat :=
    List.take_left' hlength
  have hdrop : (Text.paddedHexDigits 4 c.toNat ++ rest).drop 4 = rest :=
    List.drop_left' hlength
  have hlong : ¬ (Text.paddedHexDigits 4 c.toNat ++ rest).length < 4 := by
    rw [List.length_append]
    omega
  rw [List.cons_append, escape?, if_neg hlong, htake, hdrop, hvalue]
  simp [hscalar]

/-- How a character stands in a text between double quotes, over several lines or on one. -/
inductive Encodes (lines : Bool) : Char → List Char → Prop
  | escape {c : Char} {e : List Char} (stands : Stands c e) : Encodes lines c ('\\' :: e)
  | plain {c : Char} (text : isText c = true) (unescaped : c ≠ '\\') (unquoted : c ≠ '"') :
    Encodes lines c [c]
  | lineEnd (several : lines = true) : Encodes lines '\n' ['\n']

/-- What stands for a character is not empty, and does not begin with a quote. -/
theorem Encodes.exists_cons {lines : Bool} {c : Char} {e : List Char} (h : Encodes lines c e) :
    ∃ d e', e = d :: e' ∧ d ≠ '"' := by
  cases h with
  | escape => exact ⟨_, _, rfl, by decide⟩
  | plain _ _ unquoted => exact ⟨_, _, rfl, unquoted⟩
  | lineEnd => exact ⟨_, _, rfl, by decide⟩

/-- It begins with a line end only for a line end. -/
theorem Encodes.isText_head {lines : Bool} {c d : Char} {e : List Char}
    (h : Encodes lines c (d :: e)) (hline : c ≠ '\n') : isText d = true := by
  cases h with
  | escape => decide
  | plain text => exact text
  | lineEnd => exact absurd rfl hline

theorem encodes_quote (lines : Bool) : Encodes lines '"' ['\\', '"'] :=
  .escape (e := ['"']) ⟨fun _ => rfl, fun rest => continuation?_cons (by decide) rest⟩

theorem encodes_escapeChar (lines : Bool) {c : Char} (h : c ≠ '"') :
    Encodes lines c (escapeChar lines c) := by
  unfold escapeChar
  split
  · exact .escape (e := ['\\']) ⟨fun _ => rfl, fun rest => continuation?_cons (by decide) rest⟩
  · exact .escape (e := ['b']) ⟨fun _ => rfl, fun rest => continuation?_cons (by decide) rest⟩
  · exact .escape (e := ['t']) ⟨fun _ => rfl, fun rest => continuation?_cons (by decide) rest⟩
  · exact .escape (e := ['f']) ⟨fun _ => rfl, fun rest => continuation?_cons (by decide) rest⟩
  · exact .escape (e := ['r']) ⟨fun _ => rfl, fun rest => continuation?_cons (by decide) rest⟩
  · cases lines with
    | true => exact .lineEnd rfl
    | false =>
        exact .escape (e := ['n']) ⟨fun _ => rfl, fun rest => continuation?_cons (by decide) rest⟩
  · rename_i hbackslash _ _ _ _ hline
    split
    · rename_i hcontrol
      exact .escape (stands_code hcontrol)
    · rename_i hcontrol
      exact .plain (isText_of_not_isControl (by simpa using hcontrol) hline) hbackslash h

/-! ### Between double quotes, on one line -/

/-- A character is read off what it is written as. -/
theorem basic_step {c : Char} {e : List Char} (h : Encodes false c e) (acc rest : List Char)
    (fuel : Nat) : basic acc (fuel + 1) (e ++ rest) = basic (c :: acc) fuel rest := by
  cases h with
  | escape stands =>
      rw [List.cons_append, basic, stands.reads]
      rfl
  | plain text unescaped unquoted =>
      rw [List.singleton_append, basic.eq_def]
      split <;> simp_all
  | lineEnd several => cases several

theorem exists_escapeBasic_cons (c : Char) (cs : List Char) :
    ∃ e, Encodes false c e ∧ escapeBasic (c :: cs) = e ++ escapeBasic cs := by
  refine ⟨_, ?_, List.flatMap_cons⟩
  split
  · rename_i hquote
    rw [beq_iff_eq.1 hquote]
    exact encodes_quote false
  · rename_i hquote
    exact encodes_escapeChar false (by simpa using hquote)

theorem length_le_escapeBasic (cs : List Char) : cs.length ≤ (escapeBasic cs).length := by
  induction cs with
  | nil => exact Nat.le_refl _
  | cons c cs ih =>
      obtain ⟨e, he, hcons⟩ := exists_escapeBasic_cons c cs
      obtain ⟨d, e, rfl, -⟩ := he.exists_cons
      rw [hcons, List.length_append, List.length_cons, List.length_cons]
      omega

/-- What is written on one line does not begin with a quote, and an empty text not with three. -/
theorem escapeBasic_append_ne {rest : List Char} (h : rest.head? ≠ some '"') (cs more : List Char) :
    escapeBasic cs ++ '"' :: rest ≠ '"' :: '"' :: more := by
  intro heq
  cases cs with
  | nil =>
      obtain ⟨-, hrest⟩ := List.cons.inj heq
      exact h (congrArg List.head? hrest)
  | cons c cs =>
      obtain ⟨e, he, hcons⟩ := exists_escapeBasic_cons c cs
      obtain ⟨d, e, rfl, hd⟩ := he.exists_cons
      rw [hcons] at heq
      exact hd (List.cons.inj heq).1

theorem basic_escapeBasic (cs acc rest : List Char) {fuel : Nat} (h : cs.length < fuel) :
    basic acc fuel (escapeBasic cs ++ '"' :: rest) =
      some (String.ofList (acc.reverse ++ cs), rest) := by
  induction cs generalizing acc fuel with
  | nil =>
      obtain ⟨fuel, rfl⟩ := Nat.exists_eq_add_of_lt h
      simp [escapeBasic, basic]
  | cons c cs ih =>
      obtain ⟨fuel, rfl⟩ := Nat.exists_eq_add_of_lt h
      obtain ⟨e, he, hcons⟩ := exists_escapeBasic_cons c cs
      rw [hcons, List.append_assoc, basic_step he, ih _ (by rw [List.length_cons]; omega)]
      simp

/-! ### Over several lines -/

/-- The number of quotes in front. -/
def leading (q : Char) (cs : List Char) : Nat := (cs.takeWhile (· == q)).length

@[simp] theorem leading_nil (q : Char) : leading q [] = 0 := rfl

@[simp] theorem leading_cons_self (q : Char) (cs : List Char) :
    leading q (q :: cs) = leading q cs + 1 := by
  simp [leading]

theorem leading_cons_of_ne {q c : Char} (h : c ≠ q) (cs : List Char) : leading q (c :: cs) = 0 := by
  simp [leading, h]

theorem leading_of_head? {q : Char} {cs : List Char} (h : cs.head? ≠ some q) :
    leading q cs = 0 := by
  cases cs with
  | nil => rfl
  | cons c cs => exact leading_cons_of_ne (fun heq => h (congrArg some heq)) cs

theorem closing_of_leading_lt {q : Char} {cs : List Char} (h : leading q cs < 3) (acc : List Char) :
    closing q acc cs = none := if_pos h

theorem closing_of_le_leading {q : Char} {cs : List Char} (h : 3 ≤ leading q cs) (acc : List Char) :
    closing q acc cs =
      some (String.ofList (List.replicate (min (leading q cs - 3) 2) q ++ acc).reverse,
        cs.drop (min (leading q cs - 3) 2 + 3)) := if_neg (Nat.not_lt.2 h)

/-- A quote in front belongs to the text, as long as neither too few nor too many follow. -/
theorem closing_cons {q : Char} {cs : List Char}
    (h : leading q cs ≤ 1 ∨ 3 ≤ leading q cs ∧ leading q cs ≤ 4) (acc : List Char) :
    closing q acc (q :: cs) = closing q (q :: acc) cs := by
  rcases h with hfew | ⟨hmany, hroom⟩
  · rw [closing_of_leading_lt (by rw [leading_cons_self]; omega), closing_of_leading_lt (by omega)]
  · have hown : min (leading q cs - 3) 2 = leading q cs - 3 := by omega
    have hmore : min (leading q cs + 1 - 3) 2 = leading q cs - 3 + 1 := by omega
    rw [closing_of_le_leading (by rw [leading_cons_self]; omega), closing_of_le_leading hmany,
      leading_cons_self, hown, hmore, List.replicate_succ', List.append_assoc]
    rfl

/-- How a text stands over several lines, after `run` quotes in a row: never more than two quotes
follow each other, and all else is written as `writes` tells and does not begin with a quote. -/
inductive Lines (q : Char) (writes : Char → List Char → Prop) : Nat → List Char → List Char → Prop
  | nil {run : Nat} (few : run ≤ 2) : Lines q writes run [] []
  | quote {run : Nat} {cs es : List Char} (few : run < 2) (rest : Lines q writes (run + 1) cs es) :
    Lines q writes run (q :: cs) (q :: es)
  | char {run : Nat} {c d : Char} {e cs es : List Char} (few : run ≤ 2)
    (written : writes c (d :: e)) (apart : d ≠ q) (rest : Lines q writes 0 cs es) :
    Lines q writes run (c :: cs) (d :: e ++ es)

section Lines

variable {q : Char} {writes : Char → List Char → Prop} {run : Nat} {cs es rest : List Char}

/-- Quotes in front are too few to close the text, or they are its end. -/
theorem Lines.leading (h : Lines q writes run cs es) (hrest : rest.head? ≠ some q) :
    leading q (es ++ q :: q :: q :: rest) + run ≤ 2 ∨
      3 ≤ leading q (es ++ q :: q :: q :: rest) ∧
        leading q (es ++ q :: q :: q :: rest) + run ≤ 5 := by
  induction h with
  | nil few =>
      rw [List.nil_append, leading_cons_self, leading_cons_self, leading_cons_self,
        leading_of_head? hrest]
      omega
  | quote few _ ih =>
      rw [List.cons_append, leading_cons_self]
      omega
  | char few written apart _ _ =>
      rw [List.append_assoc, List.cons_append, leading_cons_of_ne apart]
      omega

/-- What is written is at least as long. -/
theorem Lines.length_le (h : Lines q writes run cs es) : cs.length ≤ es.length := by
  induction h with
  | nil => exact Nat.le_refl _
  | quote _ _ ih => exact Nat.succ_le_succ ih
  | char _ _ _ _ ih =>
      rw [List.length_append, List.length_cons, List.length_cons]
      omega

/-- What is written for a text of one line does not begin with a line end. -/
theorem Lines.lineEnd?_eq_none (h : Lines q writes run cs es) (hquote : isText q = true)
    (hwrites : ∀ {c d e}, writes c (d :: e) → c ≠ '\n' → isText d = true) (hline : '\n' ∉ cs) :
    lineEnd? (es ++ q :: rest) = none := by
  cases h with
  | nil => exact lineEnd?_cons_of_isText hquote _
  | quote => exact lineEnd?_cons_of_isText hquote _
  | char _ written =>
      rw [List.append_assoc]
      exact lineEnd?_cons_of_isText (hwrites written fun heq => hline (heq ▸ List.mem_cons_self)) _

theorem closing_nil (hrest : rest.head? ≠ some q) (acc : List Char) :
    closing q acc (q :: q :: q :: rest) = some (String.ofList acc.reverse, rest) := by
  have hleading : Toml.leading q (q :: q :: q :: rest) = 3 := by
    rw [leading_cons_self, leading_cons_self, leading_cons_self, leading_of_head? hrest]
  rw [closing_of_le_leading (Nat.le_of_eq hleading.symm), hleading]
  rfl

end Lines

/-- A reader takes what is written as `writes` says, until threefold quotes close the text. -/
structure Reads (q : Char) (writes : Char → List Char → Prop)
    (read : List Char → Nat → List Char → Option (String × List Char)) : Prop where
  closes : ∀ {acc cs r} fuel, closing q acc cs = some r → read acc (fuel + 1) cs = some r
  /-- A character is read off what it is written as. -/
  takes : ∀ {c e rest} acc fuel, writes c e → leading q (e ++ rest) < 3 →
    read acc (fuel + 1) (e ++ rest) = read (c :: acc) fuel rest
  /-- A quote that does not close the text belongs to it. -/
  takesQuote : ∀ {rest} acc fuel, leading q (q :: rest) < 3 →
    read acc (fuel + 1) (q :: rest) = read (q :: acc) fuel rest

section Reads

variable {q : Char} {writes : Char → List Char → Prop} {run : Nat} {cs es rest : List Char}
  {read : List Char → Nat → List Char → Option (String × List Char)}

/-- A quote in front of the rest of a text is read, whether it closes the text or not. -/
theorem Reads.quote (h : Reads q writes read)
    (hleading : leading q cs ≤ 1 ∨ 3 ≤ leading q cs ∧ leading q cs ≤ 4) (acc : List Char)
    (fuel : Nat) : read acc (fuel + 2) (q :: cs) = read (q :: acc) (fuel + 1) cs := by
  rcases hleading with hfew | hmany
  · exact h.takesQuote acc _ (by rw [leading_cons_self]; omega)
  · have hcloses := closing_of_le_leading hmany.1 (q :: acc)
    rw [h.closes _ hcloses, h.closes _ ((closing_cons (.inr hmany) acc).trans hcloses)]

/-- **What is written over several lines is read back.** -/
theorem Reads.lines (h : Reads q writes read) (hlines : Lines q writes run cs es)
    (hrest : rest.head? ≠ some q) (acc : List Char) {fuel : Nat} (hfuel : cs.length < fuel) :
    read acc fuel (es ++ q :: q :: q :: rest) = some (String.ofList (acc.reverse ++ cs), rest) := by
  induction hlines generalizing acc fuel with
  | nil few =>
      obtain ⟨fuel, rfl⟩ := Nat.exists_eq_add_of_lt hfuel
      rw [List.append_nil]
      exact h.closes _ (closing_nil hrest acc)
  | @quote run cs es few tail ih =>
      obtain ⟨fuel, rfl⟩ := Nat.exists_eq_add_of_lt hfuel
      have hleading := tail.leading hrest
      rw [List.cons_append, List.length_cons, Nat.add_right_comm _ 1 fuel, h.quote (by omega),
        ih _ (by omega)]
      simp
  | @char run c d e cs es few written apart tail ih =>
      obtain ⟨fuel, rfl⟩ := Nat.exists_eq_add_of_lt hfuel
      have hnone : leading q (d :: e ++ (es ++ q :: q :: q :: rest)) < 3 := by
        rw [List.cons_append, leading_cons_of_ne apart]
        omega
      rw [List.append_assoc, h.takes _ _ written hnone, ih _ (by rw [List.length_cons]; omega)]
      simp

/-- The first line end of a text over several lines is the one that was put there. -/
theorem dropLineEnd_lead {cs es rest : List Char} (h : '\n' ∉ cs → lineEnd? (es ++ rest) = none) :
    dropLineEnd ((if cs.contains '\n' then ['\n'] else []) ++ (es ++ rest)) = es ++ rest := by
  cases hline : cs.contains '\n' with
  | true => rfl
  | false =>
      have hnone := h (by simpa using hline)
      simp [dropLineEnd, hnone]

/-- With a line end in front, if the text has one, what is written is read back whole. -/
theorem Reads.lead (h : Reads q writes read) (hlines : Lines q writes run cs es)
    (hquote : isText q = true)
    (hwrites : ∀ {c d e}, writes c (d :: e) → c ≠ '\n' → isText d = true)
    (hrest : rest.head? ≠ some q) {body : List Char}
    (hbody : body = (if cs.contains '\n' then ['\n'] else []) ++ (es ++ q :: q :: q :: rest)) :
    read [] (body.length + 1) (dropLineEnd body) = some (String.ofList cs, rest) := by
  have hlength : cs.length < body.length + 1 := by
    have hle := hlines.length_le
    rw [hbody, List.length_append, List.length_append]
    omega
  have hdrop : dropLineEnd body = es ++ q :: q :: q :: rest := by
    rw [hbody]
    exact dropLineEnd_lead (hlines.lineEnd?_eq_none hquote hwrites)
  rw [hdrop, h.lines hlines hrest [] hlength]
  rfl

end Reads

/-! ### Between threefold double quotes -/

/-- A character that stands for itself is read as it stands, quotes included. -/
theorem basicLines_plain {c : Char} {rest : List Char} (text : isText c = true)
    (unescaped : c ≠ '\\') (few : leading '"' (c :: rest) < 3) (acc : List Char) (fuel : Nat) :
    basicLines acc (fuel + 1) (c :: rest) = basicLines (c :: acc) fuel rest := by
  rw [basicLines.eq_def]
  simp only [closing_of_leading_lt few acc, lineEnd?_cons_of_isText text]
  exact if_pos text

theorem reads_basicLines : Reads '"' (Encodes true) basicLines where
  closes fuel hcloses := by
    rw [basicLines.eq_def]
    simp [hcloses]
  takes acc fuel written few := by
    cases written with
    | @escape _ e stands =>
        have hline : ∀ rest, lineEnd? ('\\' :: rest) = none :=
          lineEnd?_cons (by decide) (by decide)
        rw [List.cons_append] at few ⊢
        rw [basicLines.eq_def]
        simp only [closing_of_leading_lt few acc, hline, stands.isNoLineEnd, stands.reads]
    | plain text unescaped unquoted => exact basicLines_plain text unescaped few acc fuel
    | lineEnd several =>
        rw [basicLines.eq_def]
        simp only [closing_of_leading_lt few acc]
        rfl
  takesQuote acc fuel few := basicLines_plain (by decide) (by decide) few acc fuel

theorem lines_escapeLines {run : Nat} (h : run ≤ 2) (cs : List Char) :
    Lines '"' (Encodes true) run cs (escapeLines run cs) := by
  induction cs generalizing run with
  | nil => exact .nil h
  | cons c cs ih =>
      by_cases hquote : c = '"'
      · subst hquote
        by_cases hrun : run = 2
        · rw [escapeLines, if_pos hrun]
          exact .char h (encodes_quote true) (by decide) (ih (by omega))
        · rw [escapeLines, if_neg hrun]
          exact .quote (by omega) (ih (by omega))
      · have hwritten := encodes_escapeChar true hquote
        have hcons : escapeLines run (c :: cs) = escapeChar true c ++ escapeLines 0 cs := by
          rw [escapeLines]
          exact hquote
        obtain ⟨d, e, he, apart⟩ := hwritten.exists_cons
        rw [hcons, he]
        exact .char h (he ▸ hwritten) apart (ih (by omega))

/-! ### Between threefold single quotes -/

/-- A character stands for itself, and may be a line end. -/
def Plain (c : Char) (e : List Char) : Prop := e = [c] ∧ (isText c = true ∨ c = '\n')

theorem Plain.isText_head {c d : Char} {e : List Char} (h : Plain c (d :: e)) (hline : c ≠ '\n') :
    isText d = true := by
  obtain ⟨heq, hplain⟩ := h
  rw [(List.cons.inj heq).1]
  exact hplain.resolve_right hline

theorem reads_literalLines : Reads '\'' Plain literalLines where
  closes fuel hcloses := by
    rw [literalLines.eq_def]
    simp [hcloses]
  takes acc fuel written few := by
    obtain ⟨rfl, text | rfl⟩ := written
    · rw [List.singleton_append] at few ⊢
      rw [literalLines.eq_def]
      simp only [closing_of_leading_lt few acc, lineEnd?_cons_of_isText text]
      exact if_pos text
    · rw [literalLines.eq_def]
      simp only [closing_of_leading_lt few acc]
      rfl
  takesQuote acc fuel few := by
    rw [literalLines.eq_def]
    simp only [closing_of_leading_lt few acc, lineEnd?_cons_of_isText (show isText '\'' from rfl)]
    rfl

/-- The longest run only grows. -/
theorem le_foldl_countRun (q : Char) (cs : List Char) (runs : Nat × Nat) :
    runs.1 ≤ (cs.foldl (countRun q) runs).1 := by
  induction cs generalizing runs with
  | nil => exact Nat.le_refl _
  | cons c cs ih =>
      refine Nat.le_trans ?_ (ih (countRun q runs c))
      rw [countRun]
      split
      · exact Nat.le_max_left _ _
      · exact Nat.le_refl _

/-- A text without three quotes in a row needs no escapes. -/
theorem lines_self {q : Char} {cs : List Char} {runs : Nat × Nat} (hrun : runs.2 ≤ 2)
    (hruns : (cs.foldl (countRun q) runs).1 < 3)
    (hplain : ∀ c ∈ cs, isText c = true ∨ c = '\n') : Lines q Plain runs.2 cs cs := by
  induction cs generalizing runs with
  | nil => exact .nil hrun
  | cons c cs ih =>
      obtain ⟨hc, hcs⟩ := List.forall_mem_cons.1 hplain
      rw [List.foldl_cons] at hruns
      by_cases hquote : c = q
      · subst hquote
        have hnext : countRun c runs c = (max runs.1 (runs.2 + 1), runs.2 + 1) := by simp [countRun]
        have hgrows := le_foldl_countRun c cs (countRun c runs c)
        rw [hnext] at hruns hgrows
        dsimp only at hgrows
        exact .quote (by omega) (ih (by dsimp only; omega) hruns hcs)
      · have hnext : countRun q runs c = (runs.1, 0) := by simp [countRun, hquote]
        rw [hnext] at hruns
        exact .char hrun ⟨rfl, hc⟩ hquote (ih (Nat.zero_le 2) hruns hcs)

/-! ### All forms -/

theorem string_basic {body : List Char} (h : ∀ cs, body ≠ '"' :: '"' :: cs) :
    string ('"' :: body) = basic [] (body.length + 1) body := by
  unfold string
  split
  · rename_i heq
    exact absurd (List.cons.inj heq).2 (h _)
  · simp_all
  · rename_i heq
    rw [(List.cons.inj heq).2]
  · simp_all
  · simp_all

theorem string_literal {body : List Char} (h : ∀ cs, body ≠ '\'' :: '\'' :: cs) :
    string ('\'' :: body) = literal body := by
  unfold string
  split
  · simp_all
  · rename_i heq
    exact absurd (List.cons.inj heq).2 (h _)
  · simp_all
  · rename_i heq
    rw [(List.cons.inj heq).2]
  · simp_all

theorem literal_append {cs : List Char} (h : ∀ c ∈ cs, c ≠ '\'' ∧ isText c = true)
    (rest : List Char) : literal (cs ++ '\'' :: rest) = some (String.ofList cs, rest) := by
  have hinside : ∀ c ∈ cs, (c != '\'' && isText c) = true := fun c hc => by simp [h c hc]
  rw [literal, List.dropWhile_append_of_pos hinside, List.takeWhile_append_of_pos hinside]
  simp

/-- What stands between single quotes does not begin with one, and an empty text not with three. -/
theorem literal_append_ne {cs rest : List Char} (h : ∀ c ∈ cs, c ≠ '\'' ∧ isText c = true)
    (hrest : rest.head? ≠ some '\'') (more : List Char) :
    cs ++ '\'' :: rest ≠ '\'' :: '\'' :: more := by
  intro heq
  cases cs with
  | nil =>
      obtain ⟨-, hnext⟩ := List.cons.inj heq
      exact hrest (congrArg List.head? hnext)
  | cons c cs => exact (h c List.mem_cons_self).1 (List.cons.inj heq).1

/-- What a text is like that is given a form: between single quotes there are no escapes. -/
inductive Suits (cs : List Char) : StringForm → Prop
  | basic : Suits cs .basic
  | literal (plain : ∀ c ∈ cs, c ≠ '\'' ∧ isText c = true) : Suits cs .literal
  | basicLines : Suits cs .basicLines
  | literalLines (few : longestRun '\'' cs < 3) (plain : ∀ c ∈ cs, isText c = true ∨ c = '\n') :
    Suits cs .literalLines

theorem suits_stringForm (cs : List Char) : Suits cs (stringForm cs) := by
  have htext : cs.any isControl = false → ∀ c ∈ cs, c ≠ '\n' → isText c = true := fun hnone c hc =>
    isText_of_not_isControl (by simpa using List.any_eq_false.1 hnone c hc)
  unfold stringForm
  dsimp only
  split
  · exact .basic
  · split
    · rename_i hform
      simp only [Bool.and_eq_true, Bool.not_eq_true', List.contains_eq_mem,
        decide_eq_false_iff_not] at hform
      obtain ⟨⟨hquote, hline⟩, hcontrol⟩ := hform
      exact .literal fun c hc =>
        ⟨fun heq => hquote (heq ▸ hc), htext hcontrol c hc fun heq => hline (heq ▸ hc)⟩
    · split
      · exact .basicLines
      · split
        · rename_i hform
          rw [Bool.and_eq_true, Bool.not_eq_true', decide_eq_true_iff] at hform
          exact .literalLines hform.2 fun c hc =>
            Decidable.or_iff_not_imp_right.2 fun hline => htext hform.1 c hc hline
        · split
          · exact .basicLines
          · exact .basic

/-- **A string that is written is read back**, if no quote stands behind it. -/
theorem string_renderString (s : String) {rest : List Char} (hdouble : rest.head? ≠ some '"')
    (hsingle : rest.head? ≠ some '\'') :
    string ((renderString s).toList ++ rest) = some (s, rest) := by
  have hself : String.ofList s.toList = s := String.ofList_toList
  unfold renderString
  rw [String.toList_ofList]
  generalize hform : stringForm s.toList = form
  have hsuits := hform ▸ suits_stringForm s.toList
  cases hsuits with
  | basic =>
      have hlength : s.toList.length < (escapeBasic s.toList ++ '"' :: rest).length + 1 := by
        have hle := length_le_escapeBasic s.toList
        rw [List.length_append]
        omega
      simp only [List.cons_append, List.append_assoc, List.nil_append]
      rw [string_basic (escapeBasic_append_ne hdouble s.toList),
        basic_escapeBasic s.toList [] rest hlength, List.reverse_nil, List.nil_append, hself]
  | literal plain =>
      simp only [List.cons_append, List.append_assoc, List.nil_append]
      rw [string_literal (literal_append_ne plain hsingle), literal_append plain, hself]
  | basicLines =>
      have hread := reads_basicLines.lead (lines_escapeLines (Nat.zero_le 2) s.toList) (by decide)
        Encodes.isText_head hdouble rfl
      rw [hself] at hread
      simp only [List.append_assoc]
      exact hread
  | literalLines few plain =>
      have hread := reads_literalLines.lead (lines_self (Nat.zero_le 2) few plain) (by decide)
        Plain.isText_head hsingle rfl
      rw [hself] at hread
      simp only [List.append_assoc]
      exact hread

end Replica.Toml
