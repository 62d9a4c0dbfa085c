import Replica.Config.Files
import Replica.Proofs.Files

/-!
# What saving does to the files

`Config.Outcome` lists what saving can come to (`Config.outcome_saving`).  A configuration is saved
exactly if its path can be written to and it has a text (`Config.exists_save_iff`); then the text
stands at the path (`Config.exists_read?_of_save`).  Without a text no other text is changed
(`Config.texts_saving`).
-/

namespace Replica

namespace Config

variable {files : Files} {c : Config} {path : String}

/-! ### What can come of saving -/

/-- What saving can come to, and under which conditions. -/
inductive Outcome (files : Files) (c : Config) (path : String) : Files × Option SaveError → Prop
  | noDirectory {made : Files} (directories : files.makeDirectories (Path.parent path) = (made, false)) :
    Outcome files c path (made, some .io)
  | noText {made : Files} (directories : files.makeDirectories (Path.parent path) = (made, true))
    (text : c.toToml? = none) : Outcome files c path (made, some .serialization)
  | noSpot {made : Files} {text : String}
    (directories : files.makeDirectories (Path.parent path) = (made, true))
    (written : c.toToml? = some text) (spot : made.spot? path = none) :
    Outcome files c path (made, some .io)
  | saved {made : Files} {text : String} {place : Place}
    (directories : files.makeDirectories (Path.parent path) = (made, true))
    (written : c.toToml? = some text) (spot : made.spot? path = some place) :
    Outcome files c path (made.put place text, none)

theorem outcome_saving (files : Files) (c : Config) (path : String) :
    Outcome files c path (c.saving files path) := by
  unfold saving
  rcases hmade : files.makeDirectories (Path.parent path) with ⟨made, done⟩
  cases done with
  | false => exact .noDirectory hmade
  | true =>
      cases htext : c.toToml? with
      | none => exact .noText hmade htext
      | some text =>
          cases hspot : made.spot? path with
          | none => simpa [Files.write?, hspot] using Outcome.noSpot hmade htext hspot
          | some place => simpa [Files.write?, hspot] using Outcome.saved hmade htext hspot

/-- If the configuration has no text, the texts stay as they are. -/
theorem texts_saving (h : (c.saving files path).2 = some .serialization) :
    (c.saving files path).1.texts = files.texts := by
  have hmade := files.texts_makeDirectories (Path.parent path)
  generalize hout : c.saving files path = out at h ⊢
  have hcome := hout ▸ outcome_saving files c path
  cases hcome with
  | noDirectory => cases h
  | noText directories =>
      rw [directories] at hmade
      exact hmade
  | noSpot => cases h
  | saved => cases h

theorem saving_succeeds_iff :
    (c.saving files path).2 = none ↔ files.IsWritable path ∧ c.toToml?.isSome = true := by
  generalize hout : c.saving files path = out
  have hcome := hout ▸ outcome_saving files c path
  cases hcome with
  | noDirectory directories => simp [← Files.exists_spot_iff, directories]
  | noText directories text => simp [text]
  | noSpot directories written spot => simp [← Files.exists_spot_iff, directories, spot]
  | saved directories written spot => simp [← Files.exists_spot_iff, directories, written, spot]

theorem exists_save_iff :
    (∃ saved, c.save files path = .ok saved) ↔ files.IsWritable path ∧ c.toToml?.isSome = true := by
  rw [← saving_succeeds_iff, save]
  cases c.saving files path with
  | mk left fault => cases fault <;> simp

theorem exists_read?_of_save {saved : Files} (h : save files c path = .ok saved) :
    ∃ text, c.toToml? = some text ∧ saved.read? path = some text := by
  unfold save at h
  generalize hout : c.saving files path = out at h
  have hcome := hout ▸ outcome_saving files c path
  cases hcome with
  | noDirectory => cases h
  | noText => cases h
  | noSpot => cases h
  | saved directories written spot =>
      cases h
      exact ⟨_, written, Files.read?_put spot _⟩

end Config

end Replica
