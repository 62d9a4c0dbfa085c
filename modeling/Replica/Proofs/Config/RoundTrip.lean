import Replica.Proofs.Config.Layers
import Replica.Proofs.Config.Saving
import Replica.Proofs.Toml.Documents

/-!
# A saved configuration is loaded again

The text of a configuration is a document of plain entries, which is read as the layer of the
configuration (`Config.ofToml_tomlEntries`); so loading lays the variables over the configuration
that was saved (`Config.saved_then_loaded`).
-/

namespace Replica

namespace Config

variable {c : Config}

/-! ### The text of a configuration -/

/-- The lines of a configuration: keys with the texts of their values, and the values. -/
def tomlEntries (c : Config) : List (String × List Char × Toml.Value) :=
  [("refresh_period", (Toml.renderString c.refreshPeriod).toList, .string c.refreshPeriod),
    ("watch_retry_delay", (Toml.renderString c.watchRetryDelay).toList, .string c.watchRetryDelay),
    ("watch_retry_max_delay", (Toml.renderString c.watchRetryMaxDelay).toList,
      .string c.watchRetryMaxDelay)]
  ++ (c.watchMaxRetries.map fun n : Nat =>
      ("watch_max_retries", (toString n).toList, Toml.Value.integer n)).toList
  ++ [("watch_buffer_size", (toString c.watchBufferSize).toList, .integer c.watchBufferSize),
    ("subscription_buffer_size", (toString c.subscriptionBufferSize).toList,
      .integer c.subscriptionBufferSize)]

theorem toList_tomlLine (key value : String) :
    (tomlLine key value).toList = Toml.entryLine key value.toList := by
  simp [tomlLine, Toml.entryLine]

/-- A configuration has a text exactly if its sizes are TOML numbers. -/
theorem isSome_toToml?_iff :
    c.toToml?.isSome = true ↔
      c.watchBufferSize < Nat.pow 2 63 ∧ c.subscriptionBufferSize < Nat.pow 2 63 := by
  have hlimit : ∀ n : Nat, (n : Int) < Toml.Scalar.integerLimit ↔ n < Nat.pow 2 63 := fun n =>
    Int.ofNat_lt
  unfold toToml?
  dsimp only
  split
  · rename_i hfits
    simpa [hlimit] using hfits
  · rename_i hfits
    simpa [hlimit] using hfits

theorem toToml?_eq {text : String} (h : c.toToml? = some text) :
    text = String.ofList (Toml.document c.tomlEntries) := by
  unfold toToml? at h
  dsimp only at h
  split at h
  · obtain rfl := Option.some.inj h
    rw [← String.toList_inj, String.toList_join, String.toList_ofList]
    cases hretries : c.watchMaxRetries <;> simp [tomlEntries, Toml.document, toList_tomlLine, hretries]
  · cases h

/-- The values of the lines are the settings of the configuration. -/
theorem ofToml_tomlEntries (c : Config) :
    Layer.ofToml (c.tomlEntries.map fun e => (e.1, e.2.2)) = Layer.ofConfig c := by
  unfold Layer.ofToml Layer.ofConfig tomlEntries
  cases c.watchMaxRetries <;> rfl

theorem isBareKey_of_mem_fieldNames {k : String} (h : k ∈ fieldNames) : Toml.IsBareKey k := by
  have hall : fieldNames.all (fun k => k.toList != [] && k.toList.all Toml.Reader.isBareChar) = true :=
    rfl
  have hk := List.all_eq_true.1 hall k h
  rw [Bool.and_eq_true, bne_iff_ne, List.all_eq_true] at hk
  exact ⟨hk.1, hk.2⟩

theorem denotes_tomlEntries (hretries : ∀ n ∈ c.watchMaxRetries, n < retriesLimit)
    (hbuffer : c.watchBufferSize < Nat.pow 2 63) (hroom : c.subscriptionBufferSize < Nat.pow 2 63) :
    ∀ e ∈ c.tomlEntries, Toml.IsBareKey e.1 ∧ Toml.Denotes e.2.1 e.2.2 := by
  have hnumber : ∀ n < Nat.pow 2 63, Toml.Denotes (toString n).toList (.integer n) := fun n hn =>
    Toml.denotes_number (Int.ofNat_lt.2 hn)
  have hkey : ∀ k ∈ fieldNames, Toml.IsBareKey k := fun k => isBareKey_of_mem_fieldNames
  simp only [fieldNames, List.forall_mem_cons] at hkey
  obtain ⟨hperiod, hdelay, hlongest, hmost, hwatch, hqueue, -⟩ := hkey
  intro e he
  simp only [tomlEntries, List.mem_append, List.mem_cons, List.not_mem_nil, or_false,
    Option.mem_toList, Option.map_eq_some_iff] at he
  obtain ((rfl | rfl | rfl) | ⟨n, hn, rfl⟩) | (rfl | rfl) := he
  all_goals dsimp only
  · exact ⟨hperiod, Toml.denotes_string c.refreshPeriod⟩
  · exact ⟨hdelay, Toml.denotes_string c.watchRetryDelay⟩
  · exact ⟨hlongest, Toml.denotes_string c.watchRetryMaxDelay⟩
  · have hsmall : n < Nat.pow 2 63 := Nat.lt_trans (hretries n hn) (by decide)
    exact ⟨hmost, hnumber n hsmall⟩
  · exact ⟨hwatch, hnumber _ hbuffer⟩
  · exact ⟨hqueue, hnumber _ hroom⟩

theorem nodup_tomlEntries (c : Config) : (c.tomlEntries.map Prod.fst).Nodup := by
  unfold tomlEntries
  cases c.watchMaxRetries <;> simp

/-- **The text of a configuration is read as its settings.** -/
theorem parse?_of_toToml? {text : String} (h : c.toToml? = some text)
    (hretries : ∀ n ∈ c.watchMaxRetries, n < retriesLimit) :
    Toml.parse? text = some (c.tomlEntries.map fun e => (e.1, e.2.2)) := by
  have hfits := isSome_toToml?_iff.1 (Option.isSome_of_eq_some h)
  rw [toToml?_eq h]
  exact Toml.parse?_document (denotes_tomlEntries hretries hfits.1 hfits.2) (nodup_tomlEntries c)

/-! ### Loading -/

section Loading

variable {text : String} {fields : Toml.Fields} {env : List (String × String)}

/-- Loading lays variables over the file, and the file over the defaults. -/
theorem loadText_eq (hparse : Toml.parse? text = some fields)
    (henv : ∀ v ∈ env, Variable.IsReadable v) :
    loadText (some text) env =
      ((Variable.assigned env).onto
        ((Layer.ofToml fields).onto (Layer.ofConfig default))).toConfig := by
  rw [loadText, Variable.layer_eq_ok henv]
  simp only [hparse]
  rfl

theorem loadText_eq_ok_iff {d : Config} (hparse : Toml.parse? text = some fields)
    (henv : ∀ v ∈ env, Variable.IsReadable v) :
    loadText (some text) env = .ok d ↔
      Overlays
        (fun k => (Variable.given? env k).or
          (((Layer.ofToml fields).get? k).or ((Layer.ofConfig default).get? k)))
        default d := by
  have hlayers : ((Variable.assigned env).onto
      ((Layer.ofToml fields).onto (Layer.ofConfig default))).get? = fun k =>
        (Variable.given? env k).or
          (((Layer.ofToml fields).get? k).or ((Layer.ofConfig default).get? k)) := by
    funext k
    rw [Layer.get?_onto, Layer.get?_onto, Variable.get?_assigned]
  rw [loadText_eq hparse henv, Layer.toConfig_eq_ok_iff, hlayers]

end Loading

/-- Without settings a configuration stays as it is. -/
theorem overlays_self {given : String → Option Setting} (h : ∀ k ∈ fieldNames, given k = none)
    (c : Config) : Overlays given c c := by
  have hmissing : ∀ {α : Type} {means : Setting → α → Prop} {a : α} {k : String}, k ∈ fieldNames →
      Overlaid means a (given k) a := fun hk => h _ hk ▸ .missing
  exact ⟨hmissing (by decide), hmissing (by decide), hmissing (by decide), hmissing (by decide),
    hmissing (by decide), hmissing (by decide)⟩

/-- **A saved configuration is loaded again.**  It is saved exactly if the path can be written to and
its sizes are TOML numbers; where it has no text, the files keep theirs.  Once it is saved, loading
gives the configuration with the settings of variables laid over it, if each of them has the type of
its field, and fails otherwise. -/
theorem saved_then_loaded {files : Files} {c : Config} {path : String}
    (hretries : ∀ n ∈ c.watchMaxRetries, n < retriesLimit) :
    ((∃ saved, c.save files path = .ok saved) ↔ files.IsWritable path ∧
      c.watchBufferSize < Nat.pow 2 63 ∧ c.subscriptionBufferSize < Nat.pow 2 63) ∧
    ((c.saving files path).2 = some .serialization →
      (c.saving files path).1.texts = files.texts) ∧
    ∀ saved, c.save files path = .ok saved →
      ∀ env, (∀ v ∈ env, Variable.IsReadable v) →
        (∀ d, load saved env path = .ok d ↔ Overlays (Variable.given? env) c d) ∧
        ((∀ k ∈ fieldNames, Variable.given? env k = none) → load saved env path = .ok c) := by
  refine ⟨?_, texts_saving, fun saved hsaved env henv => ?_⟩
  · rw [exists_save_iff, isSome_toToml?_iff]
  · obtain ⟨text, htext, hread⟩ := exists_read?_of_save hsaved
    have hfits := isSome_toToml?_iff.1 (Option.isSome_of_eq_some htext)
    have hparse := parse?_of_toToml? htext hretries
    have hload : ∀ d, load saved env path = .ok d ↔ Overlays (Variable.given? env) c d := fun d => by
      rw [load, hread, loadText_eq_ok_iff hparse henv, ofToml_tomlEntries]
      exact Layer.overlays_or_ofConfig hretries (Nat.lt_trans hfits.1 (by decide))
        (Nat.lt_trans hfits.2 (by decide))
    exact ⟨hload, fun hnone => (hload c).2 (overlays_self hnone c)⟩

/-- A text with quotes and a line end, below a directory that is yet to be made; of the two variables
for one key the later one counts. -/
theorem saved_then_loaded_with_variables :
    (∀ n ∈ (⟨"it's \"1m\"\n", "1s", "1s", some 5, 100, 100⟩ : Config).watchMaxRetries,
      n < retriesLimit) ∧
    Files.empty.IsWritable "nested/config.toml" ∧
    (∀ v ∈ [("KCACHE_WATCH_BUFFER_SIZE", "7"), ("kcache_watch_buffer_size", " 8 "), ("HOME", "/")],
      Variable.IsReadable v) ∧
    ∃ saved,
      save .empty ⟨"it's \"1m\"\n", "1s", "1s", some 5, 100, 100⟩ "nested/config.toml" = .ok saved ∧
      load saved [] "nested/config.toml" = .ok ⟨"it's \"1m\"\n", "1s", "1s", some 5, 100, 100⟩ ∧
      load saved
          [("KCACHE_WATCH_BUFFER_SIZE", "7"), ("kcache_watch_buffer_size", " 8 "), ("HOME", "/")]
          "nested/config.toml" =
        .ok ⟨"it's \"1m\"\n", "1s", "1s", some 5, 8, 100⟩ := by
  have hretries : ∀ n ∈ (⟨"it's \"1m\"\n", "1s", "1s", some 5, 100, 100⟩ : Config).watchMaxRetries,
      n < retriesLimit := by decide
  have hpath : Files.empty.IsWritable "nested/config.toml" :=
    ⟨by decide, by decide +kernel, by decide +kernel, by decide +kernel, by decide +kernel⟩
  have henv : ∀ v ∈ [("KCACHE_WATCH_BUFFER_SIZE", "7"), ("kcache_watch_buffer_size", " 8 "),
      ("HOME", "/")], Variable.IsReadable v := by
    simp only [List.forall_mem_cons]
    exact ⟨.inr ⟨.whole 7, rfl⟩, .inr ⟨.whole 8, rfl⟩, .inl rfl, nofun⟩
  have hgiven : ∀ k ∈ fieldNames,
      Variable.given? [("KCACHE_WATCH_BUFFER_SIZE", "7"), ("kcache_watch_buffer_size", " 8 "),
        ("HOME", "/")] k = if k = "watch_buffer_size" then some (.whole 8) else none := by
    decide +kernel
  obtain ⟨hsave, -, hload⟩ := saved_then_loaded hretries
  obtain ⟨saved, hsaved⟩ := hsave.2 ⟨hpath, by decide, by decide⟩
  refine ⟨hretries, hpath, henv, saved, hsaved,
    (hload saved hsaved [] nofun).2 fun _ _ => rfl, ((hload saved hsaved _ henv).1 _).2 ?_⟩
  rw [overlays_iff, hgiven "refresh_period" (by decide), hgiven "watch_retry_delay" (by decide),
    hgiven "watch_retry_max_delay" (by decide), hgiven "watch_max_retries" (by decide),
    hgiven "watch_buffer_size" (by decide), hgiven "subscription_buffer_size" (by decide)]
  exact ⟨.missing, .missing, .missing, .missing, .given ⟨rfl, by decide⟩, .missing⟩

/-- A variable of another type than its field is not passed over for what was saved. -/
theorem loading_fails_of_other_type :
    ∃ saved, save .empty default "config.toml" = .ok saved ∧
      load saved [("KCACHE_WATCH_BUFFER_SIZE", "many")] "config.toml" =
        .error (.wrongType "watch_buffer_size") := by
  have hpath : Files.empty.IsWritable "config.toml" :=
    ⟨by decide, by decide +kernel, by decide +kernel, by decide +kernel, by decide +kernel⟩
  obtain ⟨saved, hsaved⟩ := exists_save_iff.2 ⟨hpath, (by decide +kernel : default.toToml?.isSome)⟩
  obtain ⟨text, htext, hread⟩ := exists_read?_of_save hsaved
  have henv : ∀ v ∈ [("KCACHE_WATCH_BUFFER_SIZE", "many")], Variable.IsReadable v := by
    simp only [List.forall_mem_cons]
    exact ⟨.inr ⟨.text "many", rfl⟩, nofun⟩
  refine ⟨saved, hsaved, ?_⟩
  rw [load, hread, loadText_eq (parse?_of_toToml? htext nofun) henv, ofToml_tomlEntries]
  decide +kernel

end Config

end Replica
