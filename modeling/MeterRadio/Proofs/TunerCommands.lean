/-
Module: MeterRadio.Proofs.TunerCommands
Purpose: What a tuner is told for given settings. Each command goes out once, the settings can be
  read back from the bytes on the wire, and a default is sent just where nothing is set.
Main exports: Tuner.orders, Tuner.Settings.told, Tuner.Settings.onto, Tuner.WireLaw,
  Tuner.settings_on_the_wire
-/
import MeterRadio.Proofs.BitFields
import MeterRadio.Proofs.SourceBlocks
import MeterRadio.Tuner.Client

namespace MeterRadio

/-! ### Frames -/

namespace Tuning

@[simp] theorem length_frame (t : Tuning) : t.frame.length = frameBytes := by
  simp [frame, frameBytes]

theorem ofNat_toNat_parameter (t : Tuning) :
    UInt32.ofNat (Bytes.toNat (Bytes.ofNat 4 t.parameter.toNat)) = t.parameter := by
  rw [Bytes.toNat_ofNat, Nat.mod_eq_of_lt t.parameter.toNat_lt, UInt32.ofNat_toNat]

@[simp] theorem flag?_flag (on : Bool) : flag? (flag on) = some on := by
  cases on <;> rfl

theorem ofParts?_of_tuning (t : Tuning) : ofParts? t.opcode t.parameter = some t := by
  cases t <;> simp [ofParts?, opcode, parameter]

/-- A frame is read back as the command that it was written for. -/
theorem ofFrame?_frame (t : Tuning) : ofFrame? t.frame = some t := by
  have hparameter := ofNat_toNat_parameter t
  have hbytes := Bytes.length_ofNat 4 t.parameter.toNat
  rw [frame]
  match hfour : Bytes.ofNat 4 t.parameter.toNat, hbytes with
  | [a, b, c, d], _ =>
      rw [hfour] at hparameter
      rw [ofFrame?, hparameter, ofParts?_of_tuning]

end Tuning

namespace Tuner

/-- The frames in a byte string. -/
def frames (bytes : Bytes) : List Bytes := Source.blocks Tuning.frameBytes bytes

/-- The number of a frame's command, and its parameter. -/
def order (frame : Bytes) : UInt8 × UInt32 :=
  (frame.headD 0, UInt32.ofNat (Bytes.toNat (frame.drop 1)))

/-- The numbers and parameters of the commands in a byte string. -/
def orders (bytes : Bytes) : List (UInt8 × UInt32) := (frames bytes).map order

theorem frames_flatMap (tunings : List Tuning) :
    frames (tunings.flatMap Tuning.frame) = tunings.map Tuning.frame := by
  rw [frames, List.flatMap_def]
  refine Source.blocks_flatten (by decide) ?_
  intro frame hframe
  obtain ⟨t, -, rfl⟩ := List.mem_map.1 hframe
  exact t.length_frame

theorem order_frame (t : Tuning) : order t.frame = (t.opcode, t.parameter) :=
  Prod.ext rfl t.ofNat_toNat_parameter

theorem orders_flatMap (tunings : List Tuning) :
    orders (tunings.flatMap Tuning.frame) = tunings.map fun t => (t.opcode, t.parameter) := by
  rw [orders, frames_flatMap, List.map_map]
  exact List.map_congr_left fun t _ => order_frame t

namespace Settings

/-! ### Commands of settings

A command is known by its number, and its parameter is looked up among all that are sent. Settings
are optional, so each one is a list of at most one command, and these lists are joined. -/

/-- The parameter sent for a command, if it is sent. -/
def sent? (tunings : List Tuning) (opcode : UInt8) : Option UInt32 :=
  (tunings.map fun t => (t.opcode, t.parameter)).lookup opcode

theorem sent?_append (a b : List Tuning) (opcode : UInt8) :
    sent? (a ++ b) opcode = (sent? a opcode).or (sent? b opcode) := by
  rw [sent?, List.map_append, List.lookup_append]
  rfl

theorem sent?_singleton (t : Tuning) (opcode : UInt8) :
    sent? [t] opcode = if opcode = t.opcode then some t.parameter else .none := by
  rw [sent?, List.map_singleton, List.lookup_cons]
  by_cases h : opcode = t.opcode
  · rw [beq_iff_eq.2 h, if_pos h]
  · rw [beq_false_of_ne h, if_neg h]
    rfl

/-- One setting is sent by its own command only. -/
theorem sent?_optional {α : Type} (command : α → Tuning) (own : UInt8)
    (hown : ∀ a, (command a).opcode = own) (setting : Option α) (opcode : UInt8) :
    sent? (setting.map command).toList opcode =
      if opcode = own then setting.map fun a => (command a).parameter else .none := by
  cases setting with
  | none => simp [sent?]
  | some a => rw [Option.map_some, Option.toList_some, sent?_singleton, hown, Option.map_some]

theorem or_of_opcode {opcode own : UInt8} (word : Option UInt32) {rest : Option UInt32}
    (h : opcode = own → rest = .none) :
    (if opcode = own then word else .none).or rest = if opcode = own then word else rest := by
  split
  case isTrue hown => rw [h hown, Option.or_none]
  case isFalse => rfl

theorem sent?_tunings (s : Settings) (opcode : UInt8) :
    sent? s.tunings opcode =
      if opcode = 0x01 then s.centerFrequency
      else if opcode = 0x02 then s.sampleRate
      else if opcode = 0x05 then s.frequencyCorrection.map Int32.toUInt32
      else if opcode = 0x03 then s.gainMode.map Tuning.flag
      else if opcode = 0x04 then s.gain
      else if opcode = 0x0D then s.gainIndex
      else if opcode = 0x08 then s.gainControl.map Tuning.flag
      else if opcode = 0x09 then s.directSampling
      else if opcode = 0x0A then s.offsetTuning.map Tuning.flag
      else .none := by
  simp only [tunings, sent?_append, Option.or_assoc]
  rw [sent?_optional .centerFrequency 0x01 fun _ => rfl,
    sent?_optional .sampleRate 0x02 fun _ => rfl,
    sent?_optional .frequencyCorrection 0x05 fun _ => rfl,
    sent?_optional .gainMode 0x03 fun _ => rfl, sent?_optional .gain 0x04 fun _ => rfl,
    sent?_optional .gainIndex 0x0D fun _ => rfl, sent?_optional .gainControl 0x08 fun _ => rfl,
    sent?_optional .directSampling 0x09 fun _ => rfl,
    sent?_optional .offsetTuning 0x0A fun _ => rfl]
  -- Where one command has its number, the others have none of theirs.
  rw [or_of_opcode, or_of_opcode, or_of_opcode, or_of_opcode, or_of_opcode, or_of_opcode,
    or_of_opcode, or_of_opcode]
  · simp only [Tuning.parameter, Option.map_id']
  all_goals rintro rfl; rfl

/-! ### No command twice -/

/-- The numbers of commands. -/
def opcodes (tunings : List Tuning) : List UInt8 := tunings.map Tuning.opcode

theorem sent?_eq_none_iff (tunings : List Tuning) (opcode : UInt8) :
    sent? tunings opcode = .none ↔ opcode ∉ opcodes tunings := by
  rw [sent?, List.lookup_eq_none_iff, opcodes, List.forall_mem_map, List.mem_map, not_exists]
  simp only [bne_iff_ne, ne_eq, not_and]
  exact forall₂_congr fun t _ => not_congr eq_comm

theorem sublist_optional {α : Type} (command : α → Tuning) (own : UInt8)
    (hown : ∀ a, (command a).opcode = own) (setting : Option α) :
    (opcodes (setting.map command).toList).Sublist [own] := by
  cases setting with
  | none => exact List.nil_sublist _
  | some a =>
      have hone : opcodes ((some a).map command).toList = [own] := by
        rw [Option.map_some, Option.toList_some, opcodes, List.map_singleton, hown]
      exact hone ▸ List.Sublist.refl _

theorem nodup_tunings (s : Settings) : (opcodes s.tunings).Nodup := by
  have hsublist : (opcodes s.tunings).Sublist
      [0x01, 0x02, 0x05, 0x03, 0x04, 0x0D, 0x08, 0x09, 0x0A] := by
    simp only [opcodes, tunings, List.map_append]
    exact ((((((((sublist_optional .centerFrequency 0x01 (fun _ => rfl) _).append
      (sublist_optional .sampleRate 0x02 (fun _ => rfl) _)).append
      (sublist_optional .frequencyCorrection 0x05 (fun _ => rfl) _)).append
      (sublist_optional .gainMode 0x03 (fun _ => rfl) _)).append
      (sublist_optional .gain 0x04 (fun _ => rfl) _)).append
      (sublist_optional .gainIndex 0x0D (fun _ => rfl) _)).append
      (sublist_optional .gainControl 0x08 (fun _ => rfl) _)).append
      (sublist_optional .directSampling 0x09 (fun _ => rfl) _)).append
      (sublist_optional .offsetTuning 0x0A (fun _ => rfl) _)
  exact hsublist.nodup (by decide)

/-! ### Defaults

Defaults are settings as well, which say something where the given ones are silent. Everything that
holds of settings then holds of them. -/

/-- The defaults as settings of their own: they say something only where the given settings are
silent. -/
def fallback (s : Settings) (rate : UInt32) : Settings :=
  { none with
    centerFrequency := if s.centerFrequency.isNone then some defaultFrequency else .none
    sampleRate := if s.sampleRate.isNone then some rate else .none
    gainMode := if s.overridesGain then .none else some false }

theorem defaults_eq_tunings (s : Settings) (rate : UInt32) :
    s.defaults rate = (s.fallback rate).tunings := by
  unfold defaults fallback tunings
  cases s.centerFrequency.isNone <;> cases s.sampleRate.isNone <;> cases s.overridesGain <;> rfl

/-- Nothing is set that has to do with gain. -/
theorem overridesGain_eq_false_iff (s : Settings) : s.overridesGain = false ↔
    s.gainMode = .none ∧ s.gain = .none ∧ s.gainIndex = .none ∧ s.gainControl = .none := by
  simp [overridesGain, and_assoc]

/-- A default is sent only for a setting that is not. -/
theorem sent?_fallback_of_sent {s : Settings} {rate : UInt32} {opcode : UInt8}
    (h : sent? s.tunings opcode ≠ .none) : sent? (s.fallback rate).tunings opcode = .none := by
  rw [sent?_tunings] at h ⊢
  by_cases hfrequency : opcode = 0x01
  · subst hfrequency
    obtain ⟨hertz, hset⟩ := Option.ne_none_iff_exists'.1 h
    change (if s.centerFrequency.isNone then _ else _) = _
    rw [show s.centerFrequency = some hertz from hset]
    rfl
  by_cases hrate : opcode = 0x02
  · subst hrate
    obtain ⟨hertz, hset⟩ := Option.ne_none_iff_exists'.1 h
    change (if s.sampleRate.isNone then _ else _) = _
    rw [show s.sampleRate = some hertz from hset]
    rfl
  by_cases hgain : opcode = 0x03
  · subst hgain
    obtain ⟨word, hset⟩ := Option.ne_none_iff_exists'.1 h
    obtain ⟨manual, hmode, -⟩ :=
      Option.map_eq_some_iff.1 (show s.gainMode.map _ = some word from hset)
    change Option.map _ (if s.overridesGain then _ else _) = _
    rw [overridesGain, hmode]
    rfl
  · rw [if_neg hfrequency, if_neg hrate]
    simp only [fallback, none, Option.map_none, ite_self, if_neg hgain]

theorem nodup_commands (s : Settings) (rate : UInt32) :
    (opcodes (s.tunings ++ s.defaults rate)).Nodup := by
  rw [opcodes, List.map_append, defaults_eq_tunings]
  refine List.nodup_append.2 ⟨nodup_tunings s, nodup_tunings _, ?_⟩
  rintro opcode hset _ hdefault rfl
  have hsent : sent? s.tunings opcode ≠ .none := fun h => (sent?_eq_none_iff _ _).1 h hset
  exact (sent?_eq_none_iff _ _).1 (sent?_fallback_of_sent hsent) hdefault

/-! ### A tuner that carries out commands -/

/-- How a tuner is set after one more command. -/
def told (base : Settings) : Tuning → Settings
  | .centerFrequency hertz => { base with centerFrequency := some hertz }
  | .sampleRate hertz => { base with sampleRate := some hertz }
  | .gainMode manual => { base with gainMode := some manual }
  | .gain tenths => { base with gain := some tenths }
  | .frequencyCorrection ppm => { base with frequencyCorrection := some ppm }
  | .gainControl on => { base with gainControl := some on }
  | .directSampling branch => { base with directSampling := some branch }
  | .offsetTuning on => { base with offsetTuning := some on }
  | .gainIndex index => { base with gainIndex := some index }

/-- The given settings, and for what they leave open those of `base`. -/
def onto (s base : Settings) : Settings where
  centerFrequency := s.centerFrequency.or base.centerFrequency
  sampleRate := s.sampleRate.or base.sampleRate
  frequencyCorrection := s.frequencyCorrection.or base.frequencyCorrection
  gainMode := s.gainMode.or base.gainMode
  gain := s.gain.or base.gain
  gainIndex := s.gainIndex.or base.gainIndex
  gainControl := s.gainControl.or base.gainControl
  directSampling := s.directSampling.or base.directSampling
  offsetTuning := s.offsetTuning.or base.offsetTuning

/-- The command of one setting changes what that setting does. -/
theorem foldl_told_optional {α : Type} (command : α → Tuning)
    (change : Option α → Settings → Settings)
    (hsome : ∀ a base, base.told (command a) = change (some a) base)
    (hnone : ∀ base, change .none base = base) (setting : Option α) (base : Settings) :
    (setting.map command).toList.foldl told base = change setting base := by
  cases setting with
  | none => exact (hnone base).symm
  | some a => exact hsome a base

theorem foldl_told_tunings (s base : Settings) : s.tunings.foldl told base = s.onto base := by
  simp only [tunings, List.foldl_append]
  rw [foldl_told_optional .centerFrequency
      (fun o base => { base with centerFrequency := o.or base.centerFrequency })
      (fun _ _ => rfl) (fun _ => rfl),
    foldl_told_optional .sampleRate
      (fun o base => { base with sampleRate := o.or base.sampleRate })
      (fun _ _ => rfl) (fun _ => rfl),
    foldl_told_optional .frequencyCorrection
      (fun o base => { base with frequencyCorrection := o.or base.frequencyCorrection })
      (fun _ _ => rfl) (fun _ => rfl),
    foldl_told_optional .gainMode (fun o base => { base with gainMode := o.or base.gainMode })
      (fun _ _ => rfl) (fun _ => rfl),
    foldl_told_optional .gain (fun o base => { base with gain := o.or base.gain })
      (fun _ _ => rfl) (fun _ => rfl),
    foldl_told_optional .gainIndex (fun o base => { base with gainIndex := o.or base.gainIndex })
      (fun _ _ => rfl) (fun _ => rfl),
    foldl_told_optional .gainControl
      (fun o base => { base with gainControl := o.or base.gainControl })
      (fun _ _ => rfl) (fun _ => rfl),
    foldl_told_optional .directSampling
      (fun o base => { base with directSampling := o.or base.directSampling })
      (fun _ _ => rfl) (fun _ => rfl),
    foldl_told_optional .offsetTuning
      (fun o base => { base with offsetTuning := o.or base.offsetTuning })
      (fun _ _ => rfl) (fun _ => rfl)]
  rfl

/-- Although they come last, defaults take nothing from the settings. -/
theorem foldl_told_commands (s base : Settings) (rate : UInt32) :
    (s.tunings ++ s.defaults rate).foldl told base = s.onto ((s.fallback rate).onto base) := by
  rw [List.foldl_append, defaults_eq_tunings, foldl_told_tunings, foldl_told_tunings]
  have hfrequency :
      (s.fallback rate).centerFrequency.or (s.centerFrequency.or base.centerFrequency) =
        s.centerFrequency.or ((s.fallback rate).centerFrequency.or base.centerFrequency) := by
    unfold fallback
    cases s.centerFrequency <;> rfl
  have hrate : (s.fallback rate).sampleRate.or (s.sampleRate.or base.sampleRate) =
      s.sampleRate.or ((s.fallback rate).sampleRate.or base.sampleRate) := by
    unfold fallback
    cases s.sampleRate <;> rfl
  have hgain : (s.fallback rate).gainMode.or (s.gainMode.or base.gainMode) =
      s.gainMode.or ((s.fallback rate).gainMode.or base.gainMode) := by
    unfold fallback overridesGain
    cases s.gainMode with
    | none => rfl
    | some manual => rfl
  simp only [onto]
  rw [hfrequency, hrate, hgain]
  rfl

end Settings

/-! ### Calls that fail -/

/-- The commands carried out are the first ones, and they are all of them just if none fails. -/
theorem performFrom_spec (faultAt : Nat → Option Fault) (tunings : List Tuning) :
    ∀ index, (performFrom faultAt index tunings).1 <+: tunings ∧
      ((performFrom faultAt index tunings).2 = none ↔
        (performFrom faultAt index tunings).1 = tunings) := by
  induction tunings with
  | nil =>
      intro index
      exact ⟨List.prefix_rfl, iff_of_true rfl rfl⟩
  | cons t rest ih =>
      intro index
      obtain ⟨hfirst, hall⟩ := ih (index + 1)
      rw [performFrom]
      cases faultAt index with
      | some fault => simp
      | none => exact ⟨(List.prefix_cons_inj t).2 hfirst, by simpa using hall⟩

theorem performFrom_without_fault (tunings : List Tuning) :
    ∀ index, performFrom (fun _ => none) index tunings = (tunings, none) := by
  induction tunings with
  | nil => intro index; rfl
  | cons t rest ih =>
      intro index
      rw [performFrom, ih]

/-! ### On the wire -/

/-- What the bytes say that are sent for settings, where the decoder wants `rate`. -/
structure WireLaw (s : Settings) (rate : UInt32) (bytes : Bytes) : Prop where
  /-- They consist of whole frames. -/
  whole : (frames bytes).flatten = bytes ∧
    ∀ frame ∈ frames bytes, frame.length = Tuning.frameBytes
  /-- No command is sent twice. -/
  distinct : ((orders bytes).map Prod.fst).Nodup
  /-- The center frequency and the sample rate are always sent. -/
  centerFrequency : (orders bytes).lookup 0x01 = some (s.centerFrequency.getD 920299072)
  sampleRate : (orders bytes).lookup 0x02 = some (s.sampleRate.getD rate)
  /-- Automatic gain is asked for if nothing is set that has to do with gain. -/
  gainMode : (orders bytes).lookup 0x03 =
    if s.gainMode = none ∧ s.gain = none ∧ s.gainIndex = none ∧ s.gainControl = none then some 0
    else s.gainMode.map Tuning.flag
  /-- Every other setting is sent just if it is made. -/
  gain : (orders bytes).lookup 0x04 = s.gain
  frequencyCorrection :
    ((orders bytes).lookup 0x05).map UInt32.toInt32 = s.frequencyCorrection
  gainControl : (orders bytes).lookup 0x08 = s.gainControl.map Tuning.flag
  directSampling : (orders bytes).lookup 0x09 = s.directSampling
  offsetTuning : (orders bytes).lookup 0x0A = s.offsetTuning.map Tuning.flag
  gainIndex : (orders bytes).lookup 0x0D = s.gainIndex
  /-- There are no other commands. -/
  other : ∀ opcode, opcode ∉ [0x01, 0x02, 0x03, 0x04, 0x05, 0x08, 0x09, 0x0A, 0x0D] →
    (orders bytes).lookup opcode = none
  /-- A tuner that carries them out has the settings in the end, the defaults where these are
  silent, and is as before in all else. -/
  carriedOut : ∃ tunings, (frames bytes).mapM Tuning.ofFrame? = some tunings ∧
    ∀ base : Settings, tunings.foldl Settings.told base = s.onto ((s.fallback rate).onto base)

theorem mapM_ofFrame?_frame (tunings : List Tuning) :
    (tunings.map Tuning.frame).mapM Tuning.ofFrame? = some tunings := by
  induction tunings with
  | nil => rfl
  | cons t rest ih => simp [Tuning.ofFrame?_frame, ih]

theorem lookup_commands (s : Settings) (rate : UInt32) (opcode : UInt8) :
    (orders ((s.tunings ++ s.defaults rate).flatMap Tuning.frame)).lookup opcode =
      (Settings.sent? s.tunings opcode).or (Settings.sent? (s.fallback rate).tunings opcode) := by
  rw [orders_flatMap, ← Settings.sent?, Settings.sent?_append, Settings.defaults_eq_tunings]

theorem wireLaw_of_commands (s : Settings) (rate : UInt32) :
    WireLaw s rate ((s.tunings ++ s.defaults rate).flatMap Tuning.frame) := by
  have hframes := frames_flatMap (s.tunings ++ s.defaults rate)
  have hlookup := lookup_commands s rate
  simp only [Settings.sent?_tunings] at hlookup
  refine ⟨?whole, ?distinct, ?centerFrequency, ?sampleRate, ?gainMode, ?gain,
    ?frequencyCorrection, ?gainControl, ?directSampling, ?offsetTuning, ?gainIndex, ?other,
    ?carriedOut⟩
  case whole =>
    rw [hframes]
    refine ⟨(List.flatMap_def ..).symm, ?_⟩
    intro frame hframe
    obtain ⟨t, -, rfl⟩ := List.mem_map.1 hframe
    exact t.length_frame
  case distinct =>
    rw [orders_flatMap, List.map_map]
    exact Settings.nodup_commands s rate
  case carriedOut =>
    refine ⟨_, ?_, fun base => Settings.foldl_told_commands s base rate⟩
    rw [hframes, mapM_ofFrame?_frame]
  case centerFrequency =>
    rw [hlookup]
    cases h : s.centerFrequency <;> simp [Settings.fallback, h, Settings.defaultFrequency]
  case sampleRate =>
    rw [hlookup]
    cases h : s.sampleRate <;> simp [Settings.fallback, h]
  case gainMode =>
    simp only [hlookup, ← Settings.overridesGain_eq_false_iff]
    cases hmode : s.gainMode with
    | some manual => simp [Settings.overridesGain, hmode]
    | none => cases h : s.overridesGain <;> simp [Settings.fallback, h, Tuning.flag]
  case gain =>
    rw [hlookup]
    exact Option.or_none
  case frequencyCorrection =>
    rw [hlookup]
    simp [Settings.fallback, Settings.none, Function.comp_def]
  case gainControl =>
    rw [hlookup]
    exact Option.or_none
  case directSampling =>
    rw [hlookup]
    exact Option.or_none
  case offsetTuning =>
    rw [hlookup]
    exact Option.or_none
  case gainIndex =>
    rw [hlookup]
    exact Option.or_none
  case other =>
    intro opcode hopcode
    simp only [List.mem_cons, List.not_mem_nil, or_false, not_or] at hopcode
    rw [hlookup]
    simp [hopcode]

theorem Client.sentBytes_foldl_send (tunings : List Tuning) (c : Client) :
    (tunings.foldl Client.send c).sentBytes = c.sentBytes ++ tunings.flatMap Tuning.frame := by
  induction tunings generalizing c with
  | nil => exact (List.append_nil _).symm
  | cons t rest ih => rw [List.foldl_cons, ih]; simp [Client.sentBytes, Client.send]

/-- The settings are told to a tuner, and the defaults after them: the bytes sent say each of them
once. If a call for a default fails, those made before it are not all of them, and are the first
ones. -/
theorem settings_on_the_wire (c : Client) (s : Settings) (rate : UInt32) :
    (∃ bytes, ((s.defaults rate).foldl Client.send (s.tunings.foldl Client.send c)).sentBytes =
        c.sentBytes ++ bytes ∧ WireLaw s rate bytes) ∧
      perform (fun _ => none) (s.defaults rate) = (s.defaults rate, none) ∧
      ∀ faultAt fault, (perform faultAt (s.defaults rate)).2 = some fault →
        (perform faultAt (s.defaults rate)).1 <+: s.defaults rate ∧
          (perform faultAt (s.defaults rate)).1 ≠ s.defaults rate := by
  refine ⟨⟨_, ?_, wireLaw_of_commands s rate⟩, performFrom_without_fault _ 0, ?_⟩
  · rw [← List.foldl_append, Client.sentBytes_foldl_send]
  · intro faultAt fault hfault
    obtain ⟨hfirst, hall⟩ := performFrom_spec faultAt (s.defaults rate) 0
    refine ⟨hfirst, fun heq => ?_⟩
    rw [perform, hall.2 heq] at hfault
    cases hfault

/-- A correction downwards and a gain, and nothing else. -/
def corrected : Settings :=
  { Settings.none with frequencyCorrection := some (-3), gain := some 496 }

/-- The correction is sent in two's complement, both defaults are, and automatic gain is not asked
for; if the second default fails, the first one is all that was made. -/
theorem corrected_on_the_wire :
    ∃ bytes, (((corrected.defaults 2359296).foldl Client.send
        (corrected.tunings.foldl Client.send ⟨⟨5, 29⟩, [], []⟩)).sentBytes = bytes) ∧
      (orders bytes).lookup 0x05 = some 0xFFFFFFFD ∧ (orders bytes).lookup 0x04 = some 496 ∧
      (orders bytes).lookup 0x01 = some 920299072 ∧ (orders bytes).lookup 0x03 = none ∧
      (perform (fun k => if k = 1 then some .brokenPipe else none)
          (corrected.defaults 2359296)).2 = some .brokenPipe ∧
      (perform (fun k => if k = 1 then some .brokenPipe else none)
          (corrected.defaults 2359296)).1 ≠ corrected.defaults 2359296 := by
  obtain ⟨⟨bytes, hbytes, hlaw⟩, -, hfails⟩ :=
    settings_on_the_wire ⟨⟨5, 29⟩, [], []⟩ corrected 2359296
  refine ⟨bytes, hbytes, ?_, hlaw.gain, hlaw.centerFrequency, ?_, by decide, ?_⟩
  · obtain ⟨word, hword, hppm⟩ := Option.map_eq_some_iff.1 hlaw.frequencyCorrection
    rw [hword]
    exact congrArg (fun ppm : Int32 => some ppm.toUInt32) hppm
  · rw [hlaw.gainMode]
    decide
  · exact (hfails _ .brokenPipe (by decide)).2

end Tuner
end MeterRadio
