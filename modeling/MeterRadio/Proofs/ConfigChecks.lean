/-
Module: MeterRadio.Proofs.ConfigChecks
Purpose: What the checks of a configuration let through: arguments that are accepted have passed
  each check, and the configuration has what the checks gave.
Main exports: Config.exists_of_bind_eq_ok, Config.Checked, Config.checked_of_ofArguments
-/
import MeterRadio.Config

namespace MeterRadio.Config

/-- What goes on after a check is done only if the check is passed. -/
theorem exists_of_bind_eq_ok {ε α β : Type} {check : Except ε α} {next : α → Except ε β} {b : β}
    (h : check >>= next = .ok b) : ∃ a, check = .ok a ∧ next a = .ok b := by
  cases check with
  | error e => cases h
  | ok a => exact ⟨a, rfl, h⟩

theorem eq_ok_of_mapError {ε δ α : Type} {check : Except ε α} {name : ε → δ} {a : α}
    (h : check.mapError name = .ok a) : check = .ok a := by
  cases check with
  | error e => cases h
  | ok b =>
      cases h
      rfl

/-- A configuration that has passed the checks of its arguments. -/
structure Checked (arguments : CommandLine.Arguments) (config : Config) : Prop where
  symbolLength : checkedSymbolLength (arguments.symbolLength.getD defaultSymbolLength) =
    .ok config.symbolLength
  gain : checkedGain arguments.gain = .ok config.tuner.gain
  protocol : checkedProtocol (arguments.messageType.getD "scm") = .ok config.protocol
  ids : ∃ ids, list? 0xFFFFFFFF (arguments.filterIds.getD "") = .ok ids ∧
    config.filterIds = ids.map UInt32.ofNat
  types : ∃ types, list? 0xFF (arguments.filterTypes.getD "") = .ok types ∧
    config.filterTypes = types.map UInt8.ofNat
  format : checkedFormat (arguments.format.getD "plain") = .ok config.format
  timeLimit : Time.limit? (arguments.duration.getD "0") = .ok config.timeLimit

/-- A configuration comes of arguments only by way of all checks. -/
theorem checked_of_ofArguments {arguments : CommandLine.Arguments} {config : Config}
    (h : ofArguments arguments = .ok config) : Checked arguments config := by
  obtain ⟨symbolLength, hsymbol, h⟩ := exists_of_bind_eq_ok h
  obtain ⟨gain, hgain, h⟩ := exists_of_bind_eq_ok h
  obtain ⟨protocol, hprotocol, h⟩ := exists_of_bind_eq_ok h
  obtain ⟨ids, hids, h⟩ := exists_of_bind_eq_ok h
  obtain ⟨types, htypes, h⟩ := exists_of_bind_eq_ok h
  obtain ⟨format, hformat, h⟩ := exists_of_bind_eq_ok h
  obtain ⟨timeLimit, hlimit, h⟩ := exists_of_bind_eq_ok h
  cases h
  exact {
    symbolLength := hsymbol
    gain := hgain
    protocol := hprotocol
    ids := ⟨ids, eq_ok_of_mapError hids, rfl⟩
    types := ⟨types, eq_ok_of_mapError htypes, rfl⟩
    format := hformat
    timeLimit := eq_ok_of_mapError hlimit }

end MeterRadio.Config
