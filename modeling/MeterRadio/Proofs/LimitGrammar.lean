/-
Module: MeterRadio.Proofs.LimitGrammar
Purpose: Time limits as they may be written: numbers with units, each number with a fraction or
  without, and white space around and inside the numbers. The reader of time limits accepts just
  these texts, and reads in them what is written.
Main exports: Time.Spaced, Time.ComponentText, Time.ComponentsText, Time.components?_eq_some_iff
-/
import Mathlib.Data.List.TakeWhile
import MeterRadio.Proofs.Numerals
import MeterRadio.Time.Limit

namespace MeterRadio.Time

open Text (digit isBlank isBlank_of_isDigit)

variable {chars rest front : List Char} {digits places : List Nat} {unit : TimeUnit}
  {c : Component}

/-! ### Characters -/

/-- A text that does not begin with a digit or white space. -/
def Stops (rest : List Char) : Prop := ∀ x ∈ rest.head?, x.isDigit = false ∧ isBlank x = false

/-- A text that begins with a digit or white space, if at all. -/
def Continues (rest : List Char) : Prop :=
  ∀ x ∈ rest.head?, x.isDigit = true ∨ isBlank x = true

theorem isUnitLetter_iff {x : Char} : isUnitLetter x = true ↔
    (97 ≤ x.toNat ∧ x.toNat ≤ 122) ∨ (65 ≤ x.toNat ∧ x.toNat ≤ 90) ∨ x.toNat = 181 := by
  have hmicro : x = 'µ' ↔ x.toNat = 181 := Char.toNat_inj.symm
  simp only [isUnitLetter, Bool.or_eq_true, Bool.and_eq_true, decide_eq_true_eq, beq_iff_eq,
    hmicro, Char.le_def, UInt32.le_iff_toNat_le, or_assoc]
  rfl

/-- A unit ends where a number may begin. -/
theorem isUnitLetter_of_digit_or_blank {x : Char} (h : x.isDigit = true ∨ isBlank x = true) :
    isUnitLetter x = false := by
  rw [Bool.eq_false_iff, Ne, isUnitLetter_iff]
  rcases h with hdigit | hblank
  · have hrange : 48 ≤ x.toNat ∧ x.toNat ≤ 57 := Char.isDigit_iff_toNat.1 hdigit
    omega
  · simp only [isBlank, Bool.or_eq_true, Bool.and_eq_true, decide_eq_true_eq, beq_iff_eq] at hblank
    omega

theorem isUnitLetter_point : isUnitLetter '.' = false := by decide

/-! ### Digits with white space among them

For this part of the grammar, and for each one after it, there is a relation between a text and what
it stands for. One lemma says that such a text is taken off the front of any other, and one is its
converse. -/

/-- Digits with white space anywhere, and what the digits are. -/
inductive Spaced : List Char → List Nat → Prop where
  | nil : Spaced [] []
  | digit {x : Char} {chars : List Char} {digits : List Nat} (hdigit : x.isDigit = true)
      (rest : Spaced chars digits) : Spaced (x :: chars) (digit x :: digits)
  | blank {x : Char} {chars : List Char} {digits : List Nat} (hblank : isBlank x = true)
      (rest : Spaced chars digits) : Spaced (x :: chars) digits

theorem Spaced.exists_digit (h : Spaced chars digits) (hne : digits ≠ []) :
    ∃ x ∈ chars, isBlank x = false := by
  induction h with
  | nil => exact absurd rfl hne
  | digit hdigit _ _ => exact ⟨_, List.mem_cons_self, isBlank_of_isDigit hdigit⟩
  | blank _ _ ih =>
      obtain ⟨x, hx, hsolid⟩ := ih hne
      exact ⟨x, List.mem_cons_of_mem _ hx, hsolid⟩

/-- Digits and white space are read as far as they go. -/
theorem spacedDigits_append (h : Spaced chars digits) (hrest : Stops rest) :
    spacedDigits (chars ++ rest) = (digits, rest) := by
  induction h with
  | nil =>
      cases rest with
      | nil => rfl
      | cons x rest =>
          obtain ⟨hdigit, hblank⟩ := hrest x rfl
          rw [List.nil_append, spacedDigits, hdigit, hblank]
          rfl
  | digit hdigit _ ih =>
      rw [List.cons_append, spacedDigits, hdigit, ih]
      rfl
  | @blank x _ _ hblank _ ih =>
      have hdigit : x.isDigit = false := by
        cases h : x.isDigit with
        | false => rfl
        | true => rw [isBlank_of_isDigit h] at hblank; cases hblank
      rw [List.cons_append, spacedDigits, hdigit, hblank, ih]
      rfl

theorem spaced_of_spacedDigits (h : spacedDigits chars = (digits, rest)) :
    ∃ front, chars = front ++ rest ∧ Spaced front digits ∧ Stops rest := by
  induction chars generalizing digits with
  | nil =>
      cases h
      exact ⟨[], rfl, .nil, by simp [Stops]⟩
  | cons x chars ih =>
      rw [spacedDigits] at h
      cases hdigit : x.isDigit with
      | true =>
          rw [hdigit] at h
          cases h
          obtain ⟨front, hsplit, hspaced, hstops⟩ := ih rfl
          exact ⟨x :: front, congrArg (List.cons x) hsplit, hspaced.digit hdigit, hstops⟩
      | false =>
          rw [hdigit] at h
          cases hblank : isBlank x with
          | true =>
              rw [hblank] at h
              obtain ⟨front, hsplit, hspaced, hstops⟩ := ih h
              exact ⟨x :: front, congrArg (List.cons x) hsplit, hspaced.blank hblank, hstops⟩
          | false =>
              rw [hblank] at h
              cases h
              refine ⟨[], rfl, .nil, ?_⟩
              intro y hy
              cases hy
              exact ⟨hdigit, hblank⟩

theorem spaced?_append (h : Spaced chars digits) (hne : digits ≠ []) (hrest : Stops rest) :
    spaced? (chars ++ rest) = some (digits, rest) := by
  have hempty : digits.isEmpty = false := List.isEmpty_eq_false_iff.2 hne
  rw [spaced?, spacedDigits_append h hrest]
  simp [hempty]

theorem spaced_of_spaced? (h : spaced? chars = some (digits, rest)) :
    ∃ front, chars = front ++ rest ∧ Spaced front digits ∧ digits ≠ [] ∧ Stops rest := by
  rw [spaced?] at h
  split at h
  next found after hread =>
    split at h
    case isTrue => cases h
    case isFalse hempty =>
      cases h
      obtain ⟨front, hsplit, hspaced, hstops⟩ := spaced_of_spacedDigits hread
      exact ⟨front, hsplit, hspaced, fun heq => hempty (List.isEmpty_iff.2 heq), hstops⟩

/-! ### Fractions -/

/-- A point with digits after it and white space anywhere behind it, or nothing. -/
inductive FractionText : List Char → List Nat → Prop where
  | none : FractionText [] []
  | some {chars : List Char} {places : List Nat} (hspaced : Spaced chars places)
      (hplaces : places ≠ []) : FractionText ('.' :: chars) places

theorem FractionText.stops (h : FractionText front places) (hrest : Stops rest) :
    Stops (front ++ rest) := by
  cases h with
  | none => exact hrest
  | some hspaced hplaces =>
      intro x hx
      cases hx
      decide

theorem fraction?_append (h : FractionText front places) (hrest : Stops rest)
    (hpoint : rest.head? ≠ some '.') :
    fraction? (front ++ rest) = some (places, rest) := by
  cases h with
  | none =>
      rw [List.nil_append]
      unfold fraction?
      split
      case h_1 => exact absurd rfl hpoint
      case h_2 => rfl
  | some hspaced hplaces =>
      rw [List.cons_append, fraction?, spaced?_append hspaced hplaces hrest]

theorem fractionText_of_fraction? (h : fraction? chars = some (places, rest)) :
    ∃ front, chars = front ++ rest ∧ FractionText front places := by
  unfold fraction? at h
  split at h
  case h_1 after =>
    obtain ⟨front, rfl, hspaced, hplaces, -⟩ := spaced_of_spaced? h
    exact ⟨'.' :: front, rfl, .some hspaced hplaces⟩
  case h_2 =>
    cases h
    exact ⟨[], rfl, .none⟩

/-! ### Units -/

theorem TimeUnit.all_letters (unit : TimeUnit) :
    ∀ word ∈ unit.words, word ≠ "" ∧ word.toList.all isUnitLetter = true := by
  cases unit <;> decide

/-- No word stands for two units. -/
theorem TimeUnit.ofWord?_eq_some_iff {word : String} :
    ofWord? word = some unit ↔ word ∈ unit.words := by
  constructor
  · intro h
    rw [ofWord?] at h
    have hcontains := List.find?_some h
    exact List.contains_iff_mem.1 hcontains
  · have hwords : ∀ word ∈ unit.words, ofWord? word = some unit := by
      cases unit <;> decide
    exact hwords word

/-- The letters of a unit, taken from the front of what goes on with a digit or white space. -/
theorem takeWhile_letters {word : List Char} (hword : ∀ x ∈ word, isUnitLetter x = true)
    (hrest : Continues rest) :
    (word ++ rest).takeWhile isUnitLetter = word ∧
      (word ++ rest).dropWhile isUnitLetter = rest := by
  rw [List.takeWhile_append_of_pos hword, List.dropWhile_append_of_pos hword]
  cases rest with
  | nil => simp
  | cons x rest =>
      have hstop := isUnitLetter_of_digit_or_blank (hrest x rfl)
      rw [List.takeWhile_cons_of_neg (by simp [hstop]),
        List.dropWhile_cons_of_neg (by simp [hstop])]
      simp

theorem TimeUnit.isUnitLetter_of_mem {word : List Char} (h : String.ofList word ∈ unit.words) :
    (∀ x ∈ word, isUnitLetter x = true) ∧ word ≠ [] := by
  obtain ⟨hne, hall⟩ := unit.all_letters _ h
  rw [String.toList_ofList] at hall
  refine ⟨List.all_eq_true.1 hall, ?_⟩
  rintro rfl
  exact hne rfl

theorem unit?_eq_some_iff : unit? chars = some (unit, rest) ↔
    ∃ word, chars = word ++ rest ∧ String.ofList word ∈ unit.words ∧ Continues rest := by
  constructor
  · intro h
    obtain ⟨found, hword, h⟩ := Option.bind_eq_some_iff.1 h
    have hmem := TimeUnit.ofWord?_eq_some_iff.1 hword
    have hsplit : chars = chars.takeWhile isUnitLetter ++ chars.dropWhile isUnitLetter :=
      List.takeWhile_append_dropWhile.symm
    split at h
    case h_1 hafter =>
      cases h
      rw [hafter] at hsplit
      exact ⟨_, hsplit, hmem, by simp [Continues]⟩
    case h_2 x after hafter =>
      split at h
      case isTrue hnext =>
        cases h
        rw [hafter] at hsplit
        refine ⟨_, hsplit, hmem, ?_⟩
        intro y hy
        cases hy
        exact Bool.or_eq_true_iff.1 hnext
      case isFalse => cases h
  · rintro ⟨word, rfl, hmem, hrest⟩
    obtain ⟨htaken, hleft⟩ := takeWhile_letters (TimeUnit.isUnitLetter_of_mem hmem).1 hrest
    rw [unit?, htaken, hleft, TimeUnit.ofWord?_eq_some_iff.2 hmem]
    cases rest with
    | nil => rfl
    | cons x rest => exact if_pos (Bool.or_eq_true_iff.2 (hrest x rfl))

/-! ### Components -/

/-- A number and the word of its unit. -/
inductive ComponentText : List Char → Component → Prop where
  | mk {number front word : List Char} {digits places : List Nat} {unit : TimeUnit}
      (hnumber : Spaced number digits) (hdigits : digits ≠ [])
      (hfraction : FractionText front places) (hword : String.ofList word ∈ unit.words) :
      ComponentText (number ++ (front ++ word)) ⟨decimalValue digits, places, unit⟩

/-- Components one behind the other, and white space behind the last one. -/
inductive ComponentsText : List Char → List Component → Prop where
  | last {chars blank : List Char} {c : Component} (hfirst : ComponentText chars c)
      (hblank : ∀ x ∈ blank, isBlank x = true) : ComponentsText (chars ++ blank) [c]
  | next {chars rest : List Char} {c : Component} {components : List Component}
      (hfirst : ComponentText chars c) (hrest : ComponentsText rest components) :
      ComponentsText (chars ++ rest) (c :: components)

theorem stops_of_word {word : List Char} (h : String.ofList word ∈ unit.words)
    (rest : List Char) : Stops (word ++ rest) ∧ (word ++ rest).head? ≠ some '.' := by
  obtain ⟨hletters, hne⟩ := TimeUnit.isUnitLetter_of_mem h
  obtain ⟨x, word, rfl⟩ := List.exists_cons_of_ne_nil hne
  have hletter := hletters x List.mem_cons_self
  constructor
  · intro y hy
    cases hy
    have hnot : ¬ (x.isDigit = true ∨ isBlank x = true) := by
      intro hbegins
      rw [isUnitLetter_of_digit_or_blank hbegins] at hletter
      cases hletter
    simpa using hnot
  · intro heq
    cases heq
    rw [isUnitLetter_point] at hletter
    cases hletter

theorem component?_append (h : ComponentText chars c) (hrest : Continues rest) :
    component? (chars ++ rest) = some (c, rest) := by
  cases h with
  | @mk number front word digits places unit hnumber hdigits hfraction hword =>
      obtain ⟨hstops, hpoint⟩ := stops_of_word hword rest
      have hwhole := spaced?_append hnumber hdigits (hfraction.stops hstops)
      have hplaces := fraction?_append hfraction hstops hpoint
      have hunit := unit?_eq_some_iff.2 ⟨word, rfl, hword, hrest⟩
      simp [component?, hwhole, hplaces, hunit]

theorem componentText_of_component? (h : component? chars = some (c, rest)) :
    ∃ front, chars = front ++ rest ∧ ComponentText front c ∧ Continues rest := by
  obtain ⟨⟨digits, afterWhole⟩, hwhole, h⟩ := Option.bind_eq_some_iff.1 h
  obtain ⟨⟨places, afterFraction⟩, hfraction, h⟩ := Option.bind_eq_some_iff.1 h
  obtain ⟨⟨unit, afterUnit⟩, hunit, h⟩ := Option.bind_eq_some_iff.1 h
  cases h
  obtain ⟨number, rfl, hnumber, hdigits, -⟩ := spaced_of_spaced? hwhole
  obtain ⟨front, rfl, hfront⟩ := fractionText_of_fraction? hfraction
  obtain ⟨word, rfl, hword, hcontinues⟩ := unit?_eq_some_iff.1 hunit
  exact ⟨number ++ (front ++ word), by simp, .mk hnumber hdigits hfront hword, hcontinues⟩

/-! ### All components -/

theorem ComponentText.exists_solid (h : ComponentText chars c) :
    ∃ x ∈ chars, isBlank x = false := by
  cases h with
  | mk hnumber hdigits =>
      obtain ⟨x, hx, hsolid⟩ := hnumber.exists_digit hdigits
      exact ⟨x, List.mem_append_left _ hx, hsolid⟩

theorem ComponentText.continues (h : ComponentText chars c) (rest : List Char) :
    Continues (chars ++ rest) := by
  cases h with
  | mk hnumber hdigits =>
      cases hnumber with
      | nil => exact absurd rfl hdigits
      | digit hdigit => simp [Continues, hdigit]
      | blank hblank => simp [Continues, hblank]

theorem ComponentsText.exists_first {components : List Component}
    (h : ComponentsText chars components) :
    ∃ first c rest, ComponentText first c ∧ chars = first ++ rest := by
  cases h with
  | last hfirst => exact ⟨_, _, _, hfirst, rfl⟩
  | next hfirst => exact ⟨_, _, _, hfirst, rfl⟩

theorem ComponentsText.continues {components : List Component}
    (h : ComponentsText chars components) : Continues chars := by
  obtain ⟨first, c, rest, hfirst, rfl⟩ := h.exists_first
  exact hfirst.continues rest

theorem ComponentsText.trimStart_ne_nil {components : List Component}
    (h : ComponentsText chars components) : Text.trimStart chars ≠ [] := by
  obtain ⟨first, c, rest, hfirst, rfl⟩ := h.exists_first
  obtain ⟨x, hx, hsolid⟩ := hfirst.exists_solid
  intro hnil
  have hblank := List.dropWhile_eq_nil_iff.1 hnil x (List.mem_append_left rest hx)
  rw [hsolid] at hblank
  cases hblank

/-- Every component takes a character at least, so the length of the text is fuel enough. -/
theorem componentsFrom_of_text {components : List Component} (h : ComponentsText chars components)
    {fuel : Nat} (hfuel : chars.length < fuel) : componentsFrom fuel chars = some components := by
  induction h generalizing fuel with
  | @last chars blank c hfirst hblank =>
      obtain ⟨fuel, rfl⟩ := Nat.exists_eq_succ_of_ne_zero (Nat.ne_zero_of_lt hfuel)
      have hcontinues : Continues blank := fun x hx => .inr (hblank x (List.mem_of_mem_head? hx))
      have hnone : Text.trimStart blank = [] := List.dropWhile_eq_nil_iff.2 hblank
      simp [componentsFrom, component?_append hfirst hcontinues, hnone]
  | @next chars rest c components hfirst hrest ih =>
      obtain ⟨fuel, rfl⟩ := Nat.exists_eq_succ_of_ne_zero (Nat.ne_zero_of_lt hfuel)
      obtain ⟨x, hx, -⟩ := hfirst.exists_solid
      have htaken := List.length_pos_of_mem hx
      have hread := ih (show rest.length < fuel by rw [List.length_append] at hfuel; omega)
      simp [componentsFrom, component?_append hfirst hrest.continues, hrest.trimStart_ne_nil, hread]

theorem text_of_componentsFrom {components : List Component} {fuel : Nat}
    (h : componentsFrom fuel chars = some components) : ComponentsText chars components := by
  induction fuel generalizing chars components with
  | zero => cases h
  | succ fuel ih =>
      obtain ⟨⟨c, rest⟩, hread, hmore⟩ := Option.bind_eq_some_iff.1 h
      obtain ⟨front, rfl, hfirst, -⟩ := componentText_of_component? hread
      dsimp only at hmore
      split at hmore
      case isTrue hblank =>
        cases hmore
        exact .last hfirst (List.dropWhile_eq_nil_iff.1 (List.isEmpty_iff.1 hblank))
      case isFalse =>
        obtain ⟨others, hothers, rfl⟩ := Option.map_eq_some_iff.1 hmore
        exact .next hfirst (ih hothers)

/-- The texts of components are those that are read as these. -/
theorem components?_eq_some_iff {components : List Component} :
    components? chars = some components ↔ ComponentsText chars components :=
  ⟨text_of_componentsFrom, fun h => componentsFrom_of_text h (Nat.lt_succ_self _)⟩

end MeterRadio.Time
