/-
Module: MeterRadio.Proofs.InclusionLists
Purpose: Lists of numbers as users write them. A text is its items between commas, with white space
  around them and blank items anywhere; it is read as a list of numbers just if each item is a way
  to write its number, and else the first item that is none is named.
Main exports: Config.Listed, Config.listed_iff, Config.Writes, Config.ListLaw,
  Config.inclusion_lists_exact
-/
import Mathlib.Data.List.Forall2
import MeterRadio.Proofs.ConfigChecks
import MeterRadio.Proofs.Spellings

namespace MeterRadio.Config

open Text

/-! ### Reading one item after the other -/

section Items

variable {ε α β : Type} {read : α → Except ε β}

theorem mapM_eq_ok_iff {xs : List α} {ys : List β} :
    xs.mapM read = .ok ys ↔ List.Forall₂ (fun x y => read x = .ok y) xs ys := by
  induction xs generalizing ys with
  | nil =>
      rw [List.mapM_nil, List.forall₂_nil_left_iff]
      constructor
      · rintro ⟨⟩
        rfl
      · rintro rfl
        rfl
  | cons x rest ih =>
      rw [List.mapM_cons, List.forall₂_cons_left_iff]
      constructor
      · intro h
        obtain ⟨y, hy, h⟩ := exists_of_bind_eq_ok h
        obtain ⟨others, hothers, h⟩ := exists_of_bind_eq_ok h
        cases h
        exact ⟨y, others, hy, ih.1 hothers, rfl⟩
      · rintro ⟨y, others, hy, hothers, rfl⟩
        rw [hy, ih.2 hothers]
        rfl

theorem exists_of_mapM_eq_error {xs : List α} {e : ε} (h : xs.mapM read = .error e) :
    ∃ before x after ys, xs = before ++ x :: after ∧
      List.Forall₂ (fun x y => read x = .ok y) before ys ∧ read x = .error e := by
  induction xs with
  | nil => cases h
  | cons x rest ih =>
      rw [List.mapM_cons] at h
      cases hx : read x with
      | error fault =>
          rw [hx] at h
          cases h
          exact ⟨[], x, rest, [], rfl, .nil, hx⟩
      | ok y =>
          cases hrest : rest.mapM read with
          | error fault =>
              rw [hx, hrest] at h
              cases h
              obtain ⟨before, z, after, ys, rfl, hbefore, hz⟩ := ih hrest
              exact ⟨x :: before, z, after, y :: ys, rfl, .cons hx hbefore, hz⟩
          | ok ys =>
              rw [hx, hrest] at h
              cases h

/-- The first item that cannot be read is the error. -/
theorem mapM_eq_error_iff {xs : List α} {e : ε} :
    xs.mapM read = .error e ↔ ∃ before x after ys, xs = before ++ x :: after ∧
      List.Forall₂ (fun x y => read x = .ok y) before ys ∧ read x = .error e := by
  constructor
  · exact exists_of_mapM_eq_error
  · rintro ⟨before, x, after, ys, rfl, hbefore, hx⟩
    rw [List.mapM_append, mapM_eq_ok_iff.2 hbefore, List.mapM_cons, hx]
    rfl

end Items

/-! ### The items of a text

Items are said by what stands between the commas, and not by how a text is taken apart. That they
are found is one equivalence, and the rest is about single items. -/

/-- `items` are what stands between the commas of a text, without the white space around it, where
there is more than that. -/
def Listed (chars : List Char) (items : List (List Char)) : Prop :=
  ∃ pieces cores, pieces ≠ [] ∧ (∀ piece ∈ pieces, ',' ∉ piece) ∧
    chars = [','].intercalate pieces ∧ List.Forall₂ Trimmed pieces cores ∧
    items = cores.filter fun core => !core.isEmpty

theorem not_mem_of_mem_splitOn (chars : List Char) : ∀ piece ∈ chars.splitOn ',', ',' ∉ piece := by
  induction chars with
  | nil => simp
  | cons c rest ih =>
      rw [List.splitOn_cons_eq_if_modifyHead]
      split
      case isTrue => simpa using ih
      case isFalse hc =>
        have hne : ¬ ',' = c := fun heq => hc (beq_iff_eq.2 heq.symm)
        cases hpieces : rest.splitOn ',' with
        | nil => exact absurd hpieces (List.splitOn_ne_nil ',' rest)
        | cons first others =>
            rw [hpieces] at ih
            simpa [hne] using ih

/-- A text has one list of items, which is found. -/
theorem listed_iff {chars : List Char} {found : List (List Char)} :
    Listed chars found ↔ items chars = found := by
  constructor
  · rintro ⟨pieces, cores, hne, hcommas, rfl, hcores, rfl⟩
    have htrim : List.Forall₂ (· = ·) (pieces.map trim) cores :=
      List.forall₂_map_left_iff.2 (hcores.imp fun _ _ h => trim_eq_iff.2 h)
    rw [List.forall₂_eq_eq_eq] at htrim
    rw [items, List.splitOn_intercalate ',' hcommas hne, htrim]
  · rintro rfl
    refine ⟨chars.splitOn ',', (chars.splitOn ',').map trim, List.splitOn_ne_nil ',' chars,
      not_mem_of_mem_splitOn chars, (List.intercalate_splitOn ',').symm, ?_, rfl⟩
    exact List.forall₂_map_right_iff.2 (List.forall₂_same.2 fun _ _ => trim_eq_iff.1 rfl)

/-! ### The numbers of a list -/

theorem item?_eq_ok_iff {limit n : Nat} {item : List Char} :
    item? limit item = .ok n ↔ Spells limit item n := by
  rw [← natural?_eq_some_iff, item?]
  cases natural? limit item with
  | none => simp
  | some m => simp

/-- An item is refused if it is no way to write a number, and named as it is. -/
theorem item?_eq_error_iff {limit : Nat} {item : List Char} {bad : String} :
    item? limit item = .error bad ↔ (∀ n, ¬ Spells limit item n) ∧ bad = String.ofList item := by
  simp only [← natural?_eq_some_iff]
  rw [item?]
  cases natural? limit item with
  | none => simp [eq_comm]
  | some m => simp

/-- A text writes a list if its items are ways to write the numbers of the list, each at most
`limit`, one after the other. -/
def Writes (limit : Nat) (chars : List Char) (numbers : List Nat) : Prop :=
  ∃ items, Listed chars items ∧ List.Forall₂ (Spells limit) items numbers

/-- What is read from a text as a list of numbers. -/
structure ListLaw (limit : Nat) (text : String) : Prop where
  /-- Every text has its items, and no other ones. -/
  listed : ∃! items, Listed text.toList items
  /-- The lists read are those written, with every number in its place. -/
  accepted : ∀ numbers, list? limit text = .ok numbers ↔ Writes limit text.toList numbers
  /-- What is named otherwise is the first item that is no way to write a number. -/
  refused : ∀ bad, list? limit text = .error bad ↔
    ∃ before item after numbers, Listed text.toList (before ++ item :: after) ∧
      List.Forall₂ (Spells limit) before numbers ∧ (∀ n, ¬ Spells limit item n) ∧
        bad = String.ofList item

theorem listLaw (limit : Nat) (text : String) : ListLaw limit text where
  listed := ⟨items text.toList, listed_iff.2 rfl, fun _ h => (listed_iff.1 h).symm⟩
  accepted := by
    intro numbers
    rw [list?, mapM_eq_ok_iff]
    simp only [item?_eq_ok_iff]
    constructor
    · intro h
      exact ⟨items text.toList, listed_iff.2 rfl, h⟩
    · rintro ⟨found, hfound, h⟩
      rw [listed_iff.1 hfound]
      exact h
  refused := by
    intro bad
    rw [list?, mapM_eq_error_iff]
    simp only [item?_eq_ok_iff, item?_eq_error_iff, listed_iff]

/-- The numbers of a written list are within their limit. -/
theorem Writes.le {limit : Nat} {chars : List Char} {numbers : List Nat}
    (h : Writes limit chars numbers) : ∀ n ∈ numbers, n ≤ limit := by
  obtain ⟨items, -, hspelled⟩ := h
  induction hspelled with
  | nil => simp
  | cons hfirst _ ih =>
      intro n hn
      rcases List.mem_cons.1 hn with rfl | hrest
      · exact hfirst.1
      · exact ih n hrest

/-- What is written of numbers is written of the words they become, if the words have room for the
limit. -/
theorem Writes.words {W : Type} {toNat : W → Nat} {ofNat : Nat → W} {limit : Nat}
    {chars : List Char} {numbers : List Nat} (h : Writes limit chars numbers)
    (hback : ∀ n ≤ limit, toNat (ofNat n) = n) :
    Writes limit chars ((numbers.map ofNat).map toNat) := by
  have hsame : (numbers.map ofNat).map toNat = numbers := by
    rw [List.map_map]
    exact (List.map_congr_left fun n hn => hback n (h.le n hn)).trans (List.map_id numbers)
  rw [hsame]
  exact h

/-- Every list that is written is read, with its numbers in order, and nothing else is: else the
first item that is no number is named. So a configuration filters by just the numbers written for
it. -/
theorem inclusion_lists_exact :
    (∀ limit text, ListLaw limit text) ∧
      ∀ arguments config, ofArguments arguments = .ok config →
        Writes 0xFFFFFFFF (arguments.filterIds.getD "").toList
            (config.filterIds.map UInt32.toNat) ∧
          Writes 0xFF (arguments.filterTypes.getD "").toList
            (config.filterTypes.map UInt8.toNat) := by
  refine ⟨listLaw, fun arguments config h => ?_⟩
  have hchecked := checked_of_ofArguments h
  obtain ⟨ids, hids, hfilter⟩ := hchecked.ids
  obtain ⟨types, htypes, hother⟩ := hchecked.types
  have hwritten := ((listLaw _ _).accepted ids).1 hids
  have hwrittenTypes := ((listLaw _ _).accepted types).1 htypes
  rw [hfilter, hother]
  exact ⟨hwritten.words fun n hn => UInt32.toNat_ofNat_of_lt' (Nat.lt_succ_of_le hn),
    hwrittenTypes.words fun n hn => UInt8.toNat_ofNat_of_lt' (Nat.lt_succ_of_le hn)⟩

/-- A filter of two meters, written with a blank item, a sign and zeros, and of one type. -/
def twoMeters : CommandLine.Arguments :=
  { CommandLine.Arguments.none with
    filterIds := some " +007,, 4294967295 ,", filterTypes := some "12" }

theorem twoMeters_filtered :
    ∃ config, ofArguments twoMeters = .ok config ∧
      Writes 0xFFFFFFFF " +007,, 4294967295 ,".toList [7, 4294967295] ∧
        Writes 0xFF "12".toList [12] := by
  have hfilters : (ofArguments twoMeters).toOption.map (fun c => (c.filterIds, c.filterTypes)) =
      some ([7, 4294967295], [12]) := by rfl
  cases h : ofArguments twoMeters with
  | error e =>
      rw [h] at hfilters
      cases hfilters
  | ok config =>
      rw [h] at hfilters
      obtain ⟨hids, htypes⟩ := Prod.mk.inj (Option.some.inj hfilters)
      have hwritten := inclusion_lists_exact.2 twoMeters config h
      rw [hids, htypes] at hwritten
      exact ⟨config, rfl, hwritten⟩

end MeterRadio.Config
