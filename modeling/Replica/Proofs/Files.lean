import Mathlib.Data.List.Basic
import Replica.Files

/-!
# Where texts can be put

A path can be written to if it leads to a file, through places where directories are or can be made
(`Files.IsWritable`).  This is all it takes for the directories on the way to be made and for a text
to be put at the end of the path (`Files.exists_spot_iff`); the text is found there again
(`Files.read?_put`), and directories that are made change no text (`Files.texts_makeDirectories`).
-/

namespace Replica

namespace Path

/-! ### Ways -/

/-- The directories that names lead into, from a directory; two dots lead back into one that is
there already. -/
def stops (dir : Place) : List String → List Place
  | [] => []
  | name :: names =>
    if name == ".." then stops (dir.step name) names
    else dir.step name :: stops (dir.step name) names

/-- Where names lead. -/
def target (names : List String) : Place := names.foldl Place.step []

/-! ### The last name -/

theorem segments_of_not_mem {path : String} (h : '/' ∉ path.toList) : segments path = [path] := by
  rw [segments, List.splitOn_eq_singleton h, List.map_singleton, String.ofList_toList]

theorem segments_append_slash (before last : String) :
    segments (before ++ "/" ++ last) = segments before ++ segments last := by
  have hlist : (before ++ "/" ++ last).toList = before.toList ++ '/' :: last.toList := by simp
  rw [segments, hlist, List.splitOn_append_cons_self, List.map_append]
  rfl

theorem intercalate_segments (path : String) : "/".intercalate (segments path) = path := by
  rw [← String.toList_inj, String.toList_intercalate, segments, List.map_map]
  have hback : String.toList ∘ String.ofList = id := funext fun _ => String.toList_ofList
  rw [hback, List.map_id]
  exact List.intercalate_splitOn '/'

/-- A path has a last slash, or none at all. -/
theorem last_slash (path : String) :
    '/' ∉ path.toList ∨ ∃ before last : String, path = before ++ "/" ++ last ∧ '/' ∉ last.toList := by
  by_cases h : '/' ∈ path.toList
  · obtain ⟨after, rest, hsplit, hafter⟩ := List.eq_append_cons_of_mem (List.mem_reverse.2 h)
    refine .inr ⟨.ofList rest.reverse, .ofList after.reverse, ?_, by simpa using hafter⟩
    rw [← String.toList_inj, ← List.reverse_inj, hsplit]
    simp
  · exact .inl h

theorem parent_append_slash {before last : String} (h : '/' ∉ last.toList)
    (hstill : isStill last = false) : parent (before ++ "/" ++ last) = before := by
  rw [parent, segments_append_slash, segments_of_not_mem h, List.reverse_concat]
  simp [hstill, intercalate_segments]

theorem parent_of_not_mem {path : String} (h : '/' ∉ path.toList) (hstill : isStill path = false) :
    parent path = "" := by
  rw [parent, segments_of_not_mem h]
  simp [hstill]

/-- A path that leads to a file leads through its parent to the last name. -/
theorem exists_names_eq {path : String} (h : isDirectory path = false) :
    ∃ last, names path = names (parent path) ++ [last] ∧ ∃ rest, path = parent path ++ rest := by
  rw [isDirectory, Bool.or_eq_false_iff] at h
  obtain hnone | ⟨before, last, rfl, hlast⟩ := last_slash path
  · have hstill : isStill path = false := by simpa [segments_of_not_mem hnone] using h.1
    refine ⟨path, ?_, path, ?_⟩
    · have hroot : names "" = [] := by decide
      rw [parent_of_not_mem hnone hstill, hroot, names, segments_of_not_mem hnone]
      simp [hstill]
    · rw [parent_of_not_mem hnone hstill]
      simp
  · have hstill : isStill last = false := by
      simpa [segments_append_slash, segments_of_not_mem hlast] using h.1
    refine ⟨last, ?_, "/" ++ last, ?_⟩
    · rw [parent_append_slash hlast hstill, names, segments_append_slash,
        segments_of_not_mem hlast, List.filter_append]
      simp [hstill, names]
    · rw [parent_append_slash hlast hstill, String.append_assoc]

theorem exists_names_dropLast {path : String} (h : isDirectory path = false) :
    ∃ last, names path = (names path).dropLast ++ [last] := by
  obtain ⟨last, hnames, -⟩ := exists_names_eq h
  exact ⟨last, by rw [hnames, List.dropLast_concat]⟩

theorem exists_mem_splitOn {c sep : Char} (hne : c ≠ sep) {cs : List Char} (h : c ∈ cs) :
    ∃ part ∈ cs.splitOn sep, c ∈ part := by
  induction cs with
  | nil => cases h
  | cons d cs ih =>
      rw [List.splitOn_cons_eq_if_modifyHead]
      obtain ⟨part, parts, hparts⟩ := List.exists_cons_of_ne_nil (List.splitOn_ne_nil sep cs)
      by_cases hd : d = c
      · subst hd
        rw [if_neg (by simpa using hne), hparts]
        exact ⟨d :: part, List.mem_cons_self, List.mem_cons_self⟩
      · obtain ⟨found, hfound, hc⟩ := ih ((List.mem_cons.1 h).resolve_left (Ne.symm hd))
        split
        · exact ⟨found, List.mem_cons_of_mem _ hfound, hc⟩
        · rw [hparts] at hfound ⊢
          rcases List.mem_cons.1 hfound with rfl | hrest
          · exact ⟨d :: found, List.mem_cons_self, List.mem_cons_of_mem d hc⟩
          · exact ⟨found, List.mem_cons_of_mem _ hrest, hc⟩

/-- If all names are proper there is no zero character. -/
theorem not_mem_of_isName {path : String} (h : ∀ name ∈ names path, isName name = true) :
    '\x00' ∉ path.toList := by
  intro hmem
  obtain ⟨part, hpart, hzero⟩ := exists_mem_splitOn (by decide : '\x00' ≠ '/') hmem
  have hsegment : String.ofList part ∈ segments path := List.mem_map_of_mem hpart
  have hstill : isStill (String.ofList part) = false := by
    have hother : ∀ s : String, '\x00' ∉ s.toList → (String.ofList part == s) = false := by
      rintro s hs
      refine beq_eq_false_iff_ne.2 fun heq => hs ?_
      rw [← heq, String.toList_ofList]
      exact hzero
    rw [isStill, hother "" (by decide), hother "." (by decide)]
    rfl
  have hname := h _ (List.mem_filter.2 ⟨hsegment, by simp [hstill]⟩)
  simp [isName, hzero] at hname

end Path

namespace Files

variable {files : Files} {path : String}

/-- A path leads to a place where a text can be put, and on the way there is no other text. -/
structure IsWritable (files : Files) (path : String) : Prop where
  short : path.utf8ByteSize < Path.sizeLimit
  /-- The last name is that of a file. -/
  named : Path.isDirectory path = false
  proper : ∀ name ∈ Path.names path, Path.isName name = true
  clear : ∀ p ∈ Path.stops [] (Path.names path).dropLast, files.isText p = false
  free : files.isDirectory (Path.target (Path.names path)) = false ∧
    Path.target (Path.names path) ∉ Path.stops [] (Path.names path).dropLast

/-! ### Directories -/

theorem texts_make (names : List String) (dir : Place) (files : Files) :
    (files.make names dir).1.texts = files.texts := by
  induction names generalizing dir files with
  | nil => rfl
  | cons name names ih =>
      rw [make]
      split
      · exact ih _ files
      · split
        · rfl
        · exact ih _ (files.addDirectory (dir.step name))

theorem texts_makeDirectories (files : Files) (path : String) :
    (files.makeDirectories path).1.texts = files.texts := by
  rw [makeDirectories]
  split
  · exact texts_make _ _ _
  · rfl

theorem isDirectory_addDirectory {p q : Place} :
    (files.addDirectory p).isDirectory q = true ↔ q = p ∨ files.isDirectory q = true := by
  by_cases h : q = p <;> simp [isDirectory, addDirectory, h]

/-- Names lead on as long as they are proper and no text is in the way. -/
theorem made_iff (names : List String) (dir : Place) (files : Files) :
    (files.make names dir).2 = true ↔
      (∀ name ∈ names, Path.isName name = true) ∧
        ∀ p ∈ Path.stops dir names, files.isText p = false := by
  induction names generalizing dir files with
  | nil => simp [make, Path.stops]
  | cons name names ih =>
      rw [make, Path.stops, List.forall_mem_cons]
      by_cases hup : name = ".."
      · subst hup
        have hname : Path.isName ".." = true := by decide
        simp [ih, hname]
      · have hdown : (name == "..") = false := beq_eq_false_iff_ne.2 hup
        have hkept : ∀ p, (files.addDirectory (dir.step name)).isText p = files.isText p := fun _ => rfl
        rw [hdown, if_neg Bool.false_ne_true, if_neg Bool.false_ne_true, List.forall_mem_cons]
        split
        · rename_i hstuck
          rw [Bool.or_eq_true, Bool.not_eq_true'] at hstuck
          rcases hstuck with hname | htext
          · simp [hname]
          · simp [htext]
        · rename_i hfree
          simp only [Bool.or_eq_true, Bool.not_eq_true', not_or] at hfree
          simp [ih, hkept, hfree]

theorem isDirectory_make {names : List String} {dir : Place} (h : (files.make names dir).2 = true)
    (p : Place) : (files.make names dir).1.isDirectory p = true ↔
      p ∈ Path.stops dir names ∨ files.isDirectory p = true := by
  induction names generalizing dir files with
  | nil => simp [make, Path.stops]
  | cons name names ih =>
      rw [make] at h ⊢
      rw [Path.stops]
      split at h
      · rename_i hup
        rw [if_pos hup, if_pos hup, ih h]
      · rename_i hdown
        rw [if_neg hdown, if_neg hdown]
        split at h
        · cases h
        · rename_i hfree
          rw [if_neg hfree, ih h, isDirectory_addDirectory, List.mem_cons, or_left_comm, or_assoc]

/-- The directories of a path are those of its names but the last. -/
theorem makeDirectories_parent (short : path.utf8ByteSize < Path.sizeLimit)
    (named : Path.isDirectory path = false)
    (proper : ∀ name ∈ Path.names path, Path.isName name = true) :
    files.makeDirectories (Path.parent path) = files.make (Path.names path).dropLast [] := by
  obtain ⟨last, hnames, rest, hpath⟩ := Path.exists_names_eq named
  have hshort : (Path.parent path).utf8ByteSize < Path.sizeLimit := by
    have hsize := congrArg String.utf8ByteSize hpath
    rw [String.utf8ByteSize_append] at hsize
    exact Nat.lt_of_le_of_lt (by omega) short
  have hzero : '\x00' ∉ (Path.parent path).toList := by
    intro hmem
    refine Path.not_mem_of_isName proper ?_
    rw [hpath, String.toList_append]
    exact List.mem_append_left _ hmem
  rw [hnames, List.dropLast_concat, makeDirectories, if_pos]
  simp [hshort, hzero]

/-! ### Places -/

/-- Names lead somewhere if the directories on the way are there. -/
theorem follow?_concat (names : List String) (last : String) (dir : Place) :
    files.follow? (names ++ [last]) dir =
      if ∀ p ∈ Path.stops dir names, files.isDirectory p = true then
        some ((names ++ [last]).foldl Place.step dir)
      else none := by
  induction names generalizing dir with
  | nil => simp [follow?, Path.stops]
  | cons name names ih =>
      have hfollow : files.follow? (name :: (names ++ [last])) dir =
          if name == ".." || files.isDirectory (dir.step name) then
            files.follow? (names ++ [last]) (dir.step name)
          else none := by
        cases names <;> rfl
      rw [List.cons_append, hfollow, ih, Path.stops, List.foldl_cons]
      by_cases hup : name = ".."
      · simp [hup]
      · by_cases hdir : files.isDirectory (dir.step name) = true <;> simp [hup, hdir]

theorem follow?_congr {files others : Files} (h : files.directories = others.directories)
    (names : List String) (dir : Place) : files.follow? names dir = others.follow? names dir := by
  induction names generalizing dir with
  | nil => rfl
  | cons name names ih =>
      cases names with
      | nil => rfl
      | cons next names => simp [follow?, isDirectory, h, ih]

theorem place?_eq {last : String} (h : Path.names path = (Path.names path).dropLast ++ [last]) :
    files.place? path =
      if ∀ p ∈ Path.stops [] (Path.names path).dropLast, files.isDirectory p = true then
        some (Path.target (Path.names path))
      else none := by
  rw [place?, h, follow?_concat, List.dropLast_concat]
  rfl

theorem spot?_eq_some_iff {place : Place} :
    files.spot? path = some place ↔
      files.place? path = some place ∧ path.utf8ByteSize < Path.sizeLimit ∧
        Path.isDirectory path = false ∧ (∀ name ∈ Path.names path, Path.isName name = true) ∧
        files.isDirectory place = false := by
  rw [spot?]
  cases files.place? path with
  | none => simp
  | some found =>
      simp only [Option.bind_eq_bind, Option.bind_some]
      split
      · rename_i hrefused
        constructor
        · intro h
          cases h
        · rintro ⟨heq, hshort, hnamed, hproper, hfree⟩
          obtain rfl := Option.some.inj heq
          rw [hnamed, hfree, List.all_eq_true.2 hproper, decide_eq_false (Nat.not_le.2 hshort)]
            at hrefused
          cases hrefused
      · rename_i htaken
        simp only [Bool.or_eq_true, not_or, Bool.not_eq_true, Bool.not_eq_false', decide_eq_true_eq,
          Nat.not_le, List.all_eq_true, and_assoc] at htaken
        obtain ⟨hnamed, hproper, hfree, hshort⟩ := htaken
        constructor
        · intro h
          obtain rfl := Option.some.inj h
          exact ⟨rfl, hshort, hnamed, hproper, hfree⟩
        · exact fun h => h.1

/-- **A path can be written to exactly if its directories can be made and a text then be put.** -/
theorem exists_spot_iff :
    (∃ made place, files.makeDirectories (Path.parent path) = (made, true) ∧
      made.spot? path = some place) ↔ files.IsWritable path := by
  constructor
  · rintro ⟨made, place, hmade, hspot⟩
    obtain ⟨hplace, hshort, hnamed, hproper, hfree⟩ := spot?_eq_some_iff.1 hspot
    obtain ⟨last, hnames⟩ := Path.exists_names_dropLast hnamed
    rw [makeDirectories_parent hshort hnamed hproper] at hmade
    have hdone : (files.make (Path.names path).dropLast []).2 = true := by rw [hmade]
    have hdirectories := isDirectory_make hdone
    rw [hmade] at hdirectories
    rw [place?_eq hnames] at hplace
    split at hplace
    · obtain rfl := Option.some.inj hplace
      rw [← Bool.not_eq_true, hdirectories, not_or, Bool.not_eq_true] at hfree
      exact ⟨hshort, hnamed, hproper, ((made_iff _ _ _).1 hdone).2, hfree.symm⟩
    · cases hplace
  · intro h
    obtain ⟨last, hnames⟩ := Path.exists_names_dropLast h.named
    have hdone : (files.make (Path.names path).dropLast []).2 = true :=
      (made_iff _ _ _).2 ⟨fun name hname => h.proper name (List.dropLast_subset _ hname), h.clear⟩
    have hdirectories := isDirectory_make hdone
    refine ⟨(files.make (Path.names path).dropLast []).1, Path.target (Path.names path), ?_, ?_⟩
    · rw [makeDirectories_parent h.short h.named h.proper]
      exact Prod.ext rfl hdone
    · have hfree : (files.make (Path.names path).dropLast []).1.isDirectory
          (Path.target (Path.names path)) = false := by
        rw [← Bool.not_eq_true, hdirectories, not_or, Bool.not_eq_true]
        exact h.free.symm
      rw [spot?_eq_some_iff, place?_eq hnames, if_pos fun p hp => (hdirectories p).2 (.inl hp)]
      exact ⟨rfl, h.short, h.named, h.proper, hfree⟩

/-- **A text that is put somewhere is found there.** -/
theorem read?_put {place : Place} (h : files.spot? path = some place) (text : String) :
    (files.put place text).read? path = some text := by
  have hsame : (files.put place text).place? path = files.place? path :=
    follow?_congr (show (files.put place text).directories = files.directories from rfl) _ _
  rw [read?, hsame, (spot?_eq_some_iff.1 h).1]
  exact List.lookup_cons_self

end Files

end Replica
