import Mathlib.Data.List.Basic
import Mathlib.Tactic.MkIffOfInductiveProp
import Replica.Config.Variable

/-!
# Layers of a configuration, field by field

A setting means a value of a field if it has the type of the field and is in its range.  What is laid
over a configuration gives another one (`Config.Overlays`): each field has the value that is meant for
its key, or is as it was if nothing is given for the key.  A layer gives the configuration that it
makes of the defaults (`Layer.toConfig_eq_ok_iff`), a layer in between can be put into the
configuration below (`Config.overlays_or_ofConfig`), and the layer of variables gives each key what
the last variable for it means (`Variable.layer_eq_ok`).
-/

namespace Replica

/-! ### What is laid over a configuration -/

namespace Setting

/-- The setting is this text. -/
def IsText (s : Setting) (t : String) : Prop := s = .text t

/-- The setting is this number, which is below the limit. -/
def IsWhole (limit : Nat) (s : Setting) (n : Nat) : Prop := s = .whole n ∧ n < limit

/-- The setting is the number that is there. -/
def IsPresent (limit : Nat) (s : Setting) (o : Option Nat) : Prop :=
  ∃ n, o = some n ∧ s.IsWhole limit n

end Setting

/-- A value with a setting laid over it: what the setting means, or the value itself if there is
none. -/
inductive Overlaid {α : Type} (means : Setting → α → Prop) (base : α) : Option Setting → α → Prop
  | given {s : Setting} {a : α} (meant : means s a) : Overlaid means base (some s) a
  | missing : Overlaid means base none base

namespace Overlaid

variable {α : Type} {means : Setting → α → Prop} {base a : α} {s : Setting} {o : Option Setting}

@[simp] theorem some_iff : Overlaid means base (some s) a ↔ means s a :=
  ⟨fun | .given meant => meant, .given⟩

@[simp] theorem none_iff : Overlaid means base none a ↔ a = base :=
  ⟨fun | .missing => rfl, fun h => h ▸ .missing⟩

/-- A setting that means just one value can stand for the value below. -/
theorem getD_iff (h : ∀ a, means s a ↔ a = base) :
    means (o.getD s) a ↔ Overlaid means base o a := by
  cases o with
  | none => simp [h]
  | some given => simp

end Overlaid

namespace Config

/-- The fields of `base` with the settings of keys laid over them. -/
@[mk_iff]
structure Overlays (given : String → Option Setting) (base c : Config) : Prop where
  refreshPeriod : Overlaid Setting.IsText base.refreshPeriod (given "refresh_period") c.refreshPeriod
  watchRetryDelay :
    Overlaid Setting.IsText base.watchRetryDelay (given "watch_retry_delay") c.watchRetryDelay
  watchRetryMaxDelay :
    Overlaid Setting.IsText base.watchRetryMaxDelay (given "watch_retry_max_delay")
      c.watchRetryMaxDelay
  watchMaxRetries :
    Overlaid (Setting.IsPresent retriesLimit) base.watchMaxRetries (given "watch_max_retries")
      c.watchMaxRetries
  watchBufferSize :
    Overlaid (Setting.IsWhole sizeLimit) base.watchBufferSize (given "watch_buffer_size")
      c.watchBufferSize
  subscriptionBufferSize :
    Overlaid (Setting.IsWhole sizeLimit) base.subscriptionBufferSize
      (given "subscription_buffer_size") c.subscriptionBufferSize

end Config

/-! ### Layers -/

namespace Layer

/-- Of two layers, the upper one counts. -/
theorem get?_onto (upper lower : Layer) (k : String) :
    (upper.onto lower).get? k = (upper.get? k).or (lower.get? k) := by
  rw [onto, SortedMap.get?_foldl_insert, SortedMap.filter_toList_key]
  cases upper.get? k <;> rfl

theorem textAt_eq_ok_iff {layer : Layer} {k base t : String} :
    layer.textAt k base = .ok t ↔ Overlaid Setting.IsText base (layer.get? k) t := by
  unfold textAt
  cases layer.get? k with
  | none => simp [eq_comm]
  | some s => cases s <;> simp [Setting.IsText]

theorem wholeAt?_eq_ok_iff {layer : Layer} {k : String} {limit : Nat} {o : Option Nat} :
    layer.wholeAt? k limit = .ok o ↔
      Overlaid (Setting.IsPresent limit) none (layer.get? k) o := by
  unfold wholeAt?
  cases layer.get? k with
  | none => simp [eq_comm]
  | some s =>
      rw [Overlaid.some_iff]
      cases s with
      | text t => simp [Setting.IsPresent, Setting.IsWhole]
      | other => simp [Setting.IsPresent, Setting.IsWhole]
      | whole n =>
          dsimp only
          constructor
          · intro h
            split at h
            · rename_i hrange
              obtain rfl := Except.ok.inj h
              exact ⟨n.toNat, rfl, congrArg Setting.whole (Int.toNat_of_nonneg hrange.1).symm,
                by omega⟩
            · cases h
          · rintro ⟨m, rfl, hwhole, hlimit⟩
            obtain rfl := Setting.whole.inj hwhole
            rw [if_pos ⟨by omega, by omega⟩, Int.toNat_natCast]

theorem bind_eq_ok_iff {ε α β : Type} {x : Except ε α} {f : α → Except ε β} {b : β} :
    (x >>= f) = .ok b ↔ ∃ a, x = .ok a ∧ f a = .ok b := by
  cases x with
  | error e => simp [bind, Except.bind]
  | ok a => simp [bind, Except.bind]

/-- A number that has to be there has a default instead. -/
theorem exists_overlaid_getD_iff {limit base n : Nat} {o : Option Setting} :
    (∃ m, Overlaid (Setting.IsPresent limit) none o m ∧ m.getD base = n) ↔
      Overlaid (Setting.IsWhole limit) base o n := by
  cases o with
  | none => simp [eq_comm]
  | some s => simp [Setting.IsPresent]

theorem toConfig_eq_ok_iff {layer : Layer} {c : Config} :
    layer.toConfig = .ok c ↔ Config.Overlays layer.get? Config.default c := by
  unfold toConfig
  simp only [bind_eq_ok_iff, textAt_eq_ok_iff, wholeAt?_eq_ok_iff]
  constructor
  · rintro ⟨period, hperiod, room, hroom, buffer, hbuffer, retries, hretries, delay, hdelay, longest,
      hlongest, heq⟩
    obtain rfl := Except.ok.inj heq
    exact ⟨hperiod, hdelay, hlongest, Option.or_none.symm ▸ hretries,
      exists_overlaid_getD_iff.1 ⟨buffer, hbuffer, rfl⟩,
      exists_overlaid_getD_iff.1 ⟨room, hroom, rfl⟩⟩
  · rintro ⟨hperiod, hdelay, hlongest, hretries, hbuffer, hroom⟩
    obtain ⟨buffer, hbuffer, hbufferSize⟩ := exists_overlaid_getD_iff.2 hbuffer
    obtain ⟨room, hroom, hroomSize⟩ := exists_overlaid_getD_iff.2 hroom
    refine ⟨_, hperiod, room, hroom, buffer, hbuffer, _, hretries, _, hdelay, _, hlongest, ?_⟩
    have hdefault : Config.default.watchMaxRetries = none := rfl
    rw [hbufferSize, hroomSize, hdefault, Option.or_none]
    rfl

/-! ### The layer of a configuration -/

theorem isText_getD_iff {o : Option Setting} {s t : String} :
    (o.getD (.text s)).IsText t ↔ Overlaid Setting.IsText s o t :=
  Overlaid.getD_iff fun t => by simp [Setting.IsText, eq_comm]

theorem isWhole_getD_iff {o : Option Setting} {limit n m : Nat} (h : n < limit) :
    (o.getD (.whole n)).IsWhole limit m ↔ Overlaid (Setting.IsWhole limit) n o m :=
  Overlaid.getD_iff fun m => by
    simp only [Setting.IsWhole, Setting.whole.injEq, Int.natCast_inj]
    omega

theorem isPresent_getD_iff {o : Option Setting} {limit n : Nat} {m : Option Nat} (h : n < limit) :
    (o.getD (.whole n)).IsPresent limit m ↔ Overlaid (Setting.IsPresent limit) (some n) o m :=
  Overlaid.getD_iff fun m => by
    simp only [Setting.IsPresent, Setting.IsWhole, Setting.whole.injEq, Int.natCast_inj]
    constructor
    · rintro ⟨k, rfl, rfl, -⟩
      rfl
    · rintro rfl
      exact ⟨n, rfl, rfl, h⟩

/-- The settings of a configuration in the order of its fields. -/
def entries (c : Config) : List (String × Setting) :=
  [("refresh_period", .text c.refreshPeriod),
    ("watch_retry_delay", .text c.watchRetryDelay),
    ("watch_retry_max_delay", .text c.watchRetryMaxDelay)]
  ++ (c.watchMaxRetries.map fun n => ("watch_max_retries", Setting.whole n)).toList
  ++ [("watch_buffer_size", .whole c.watchBufferSize),
    ("subscription_buffer_size", .whole c.subscriptionBufferSize)]

theorem get?_ofConfig (c : Config) (k : String) :
    (ofConfig c).get? k = (((entries c).filter (·.1 = k)).map Prod.snd).getLast? :=
  SortedMap.get?_ofList (entries c) k

/-- **A configuration that is laid over the defaults takes their place.** -/
theorem overlays_or_ofConfig {given : String → Option Setting} {c d : Config}
    (hretries : ∀ n ∈ c.watchMaxRetries, n < Config.retriesLimit)
    (hbuffer : c.watchBufferSize < Config.sizeLimit)
    (hroom : c.subscriptionBufferSize < Config.sizeLimit) :
    Config.Overlays
        (fun k => (given k).or (((ofConfig c).get? k).or ((ofConfig Config.default).get? k)))
        Config.default d ↔
      Config.Overlays given c d := by
  simp only [Config.overlays_iff, get?_ofConfig]
  cases hlimit : c.watchMaxRetries with
  | none =>
      have hdefault : Config.default.watchMaxRetries = none := rfl
      simp [entries, hlimit, hdefault, isText_getD_iff, isWhole_getD_iff hbuffer,
        isWhole_getD_iff hroom]
  | some n =>
      have hn : n < Config.retriesLimit := hretries n hlimit
      simp [entries, hlimit, isText_getD_iff, isPresent_getD_iff hn, isWhole_getD_iff hbuffer,
        isWhole_getD_iff hroom]

end Layer

/-! ### The layer of variables -/

namespace Variable

/-- The text of a variable can be read, if the variable counts at all. -/
def IsReadable (v : String × String) : Prop := keyParts? v.1 = none ∨ ∃ s, setting v.2 = .ok s

/-- The key that a variable sets, with its setting; a key in parts makes a table of its first part. -/
def assignment? (v : String × String) : Option (String × Setting) :=
  match keyParts? v.1, setting v.2 with
  | some [key], .ok s => some (key, s)
  | some (key :: _ :: _), .ok _ => some (key, .other)
  | _, _ => none

/-- The setting that variables give a key: that of the last one for it. -/
def given? (env : List (String × String)) (key : String) : Option Setting :=
  (((env.filterMap assignment?).filter (·.1 = key)).map Prod.snd).getLast?

/-- A field is set by the variable with its name, in upper case and behind the prefix. -/
theorem keyParts?_of_mem_fieldNames {k : String} (h : k ∈ Config.fieldNames) :
    keyParts? (namePrefix ++ k.toUpper) = some [k] := by
  have hall : ∀ k ∈ Config.fieldNames, keyParts? (namePrefix ++ k.toUpper) = some [k] := by
    decide +kernel
  exact hall k h

theorem filterMapM_eq_ok {ε α β : Type} {f : α → Except ε (Option β)} {g : α → Option β}
    {xs : List α} (h : ∀ x ∈ xs, f x = .ok (g x)) : xs.filterMapM f = .ok (xs.filterMap g) := by
  induction xs with
  | nil => rfl
  | cons x xs ih =>
      obtain ⟨hx, hxs⟩ := List.forall_mem_cons.1 h
      rw [List.filterMapM_cons, hx, ih hxs]
      cases hg : g x with
      | none => rw [List.filterMap_cons_none hg]; rfl
      | some y => rw [List.filterMap_cons_some hg]; rfl

/-- The layer of what variables assign. -/
def assigned (env : List (String × String)) : Layer := .ofList (env.filterMap assignment?)

theorem get?_assigned (env : List (String × String)) (key : String) :
    (assigned env).get? key = given? env key := SortedMap.get?_ofList _ key

/-- **Variables that can be read make the layer of what they assign.** -/
theorem layer_eq_ok {env : List (String × String)} (h : ∀ v ∈ env, IsReadable v) :
    layer env = .ok (assigned env) := by
  unfold layer
  rw [filterMapM_eq_ok (g := assignment?)]
  · rfl
  · intro v hv
    obtain hnone | ⟨s, hs⟩ := h v hv
    · simp [assignment?, hnone]
      rfl
    · rw [assignment?, hs]
      cases keyParts? v.1 with
      | none => rfl
      | some parts =>
          cases parts with
          | nil => rfl
          | cons key more => cases more <;> rfl

end Variable

end Replica
