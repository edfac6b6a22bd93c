/-
Module: MeterRadio.Proofs.TimeLimits
Purpose: Time limits are exact. A text says a bare number of seconds or numbers with units, and no
  text says two things; a limit that is accepted is the sum of what the text says, with nothing
  rounded and nothing wrapped around, and a bare number is as good as the same number of seconds.
Main exports: Time.Says, Time.Reads, Time.LimitLaw, Time.limits_exact
-/
import MeterRadio.Proofs.LimitGrammar
import MeterRadio.Proofs.LimitSums

namespace MeterRadio.Time

open Text (Spells Trimmed digitsValue natural?_eq_some_iff)

variable {core : List Char} {text : String} {components : List Component} {limit : Option Span}

/-! ### What a text says

The reader tries a bare number first and components after it. There is no text that is both, so the
order does not show in what a text says. -/

/-- What a text without white space at its ends says: a bare number of seconds, or components. -/
inductive Says : List Char → List Component → Prop where
  | bare {core : List Char} {n : Nat} (hspelled : Spells maxCount core n) :
      Says core [⟨n, [], .second⟩]
  | written {core : List Char} {components : List Component}
      (htext : ComponentsText core components) : Says core components

/-- What a text says, with white space around it or without. -/
def Reads (text : String) (components : List Component) : Prop :=
  ∃ core, Trimmed text.toList core ∧ Says core components

/-- Reads a bare number of seconds, and else components. -/
def said? (core : List Char) : Option (List Component) :=
  match Text.natural? maxCount core with
  | some n => some [⟨n, [], .second⟩]
  | none => components? core

theorem not_letter_of_spells {n : Nat} (h : Spells maxCount core n) :
    ∀ x ∈ core, isUnitLetter x = false := by
  obtain ⟨-, sign, width, hsign, rfl⟩ := h
  intro x hx
  rcases List.mem_append.1 hx with hfront | hdigit
  · rcases hsign with rfl | rfl
    · cases hfront
    · rw [List.mem_singleton.1 hfront]
      decide
  · exact isUnitLetter_of_digit_or_blank (.inl (Text.isDigit_of_mem_zeroPadded width n x hdigit))

theorem ComponentsText.exists_letter (h : ComponentsText core components) :
    ∃ x ∈ core, isUnitLetter x = true := by
  obtain ⟨first, c, rest, hfirst, rfl⟩ := h.exists_first
  cases hfirst with
  | mk hnumber hdigits hfraction hword =>
      obtain ⟨hletters, hne⟩ := TimeUnit.isUnitLetter_of_mem hword
      obtain ⟨x, word, rfl⟩ := List.exists_cons_of_ne_nil hne
      exact ⟨x, by simp, hletters x List.mem_cons_self⟩

/-- There is a unit in a text of components, so no such text is a bare number. -/
theorem ComponentsText.natural?_eq_none (h : ComponentsText core components) :
    Text.natural? maxCount core = none := by
  obtain ⟨x, hx, hletter⟩ := h.exists_letter
  rw [Option.eq_none_iff_forall_ne_some]
  intro n hread
  have hnot := not_letter_of_spells (natural?_eq_some_iff.1 hread) x hx
  rw [hletter] at hnot
  cases hnot

theorem said?_eq_some_iff : said? core = some components ↔ Says core components := by
  constructor
  · intro hsaid
    unfold said? at hsaid
    split at hsaid
    case h_1 n hread =>
      cases hsaid
      exact .bare (natural?_eq_some_iff.1 hread)
    case h_2 => exact .written (components?_eq_some_iff.1 hsaid)
  · intro hsays
    cases hsays with
    | bare hspelled => rw [said?, natural?_eq_some_iff.2 hspelled]
    | written htext => rw [said?, htext.natural?_eq_none, components?_eq_some_iff.2 htext]

theorem reads_iff : Reads text components ↔ said? (Text.trim text.toList) = some components := by
  simp only [Reads, ← Text.trim_eq_iff, said?_eq_some_iff, exists_eq_left']

/-- Bare seconds count as a component in seconds would. -/
theorem span?_eq (core : List Char) : span? core = (said? core).bind total? := by
  rw [span?, said?]
  cases hread : Text.natural? maxCount core with
  | none => rfl
  | some n =>
      have hle := (natural?_eq_some_iff.1 hread).1
      rw [Option.bind_some, total?_seconds, counted_of_le hle]
      rfl

/-! ### Limits -/

/-- The length of a limit in nanoseconds, and zero where there is none. -/
def limitLength (limit : Option Span) : Nat := limit.elim 0 Span.nanoseconds

theorem limitLength_limitOf (span : Span) : limitLength (limitOf span) = span.nanoseconds := by
  unfold limitOf
  split
  case isTrue hzero => exact hzero.symm
  case isFalse => rfl

theorem limitOf_eq_none_iff {span : Span} : limitOf span = none ↔ span.nanoseconds = 0 := by
  simp [limitOf]

theorem mem_limitOf {span other : Span} (h : other ∈ limitOf span) : other = span := by
  unfold limitOf at h
  split at h
  case isTrue => cases h
  case isFalse =>
    cases h
    rfl

theorem limit?_eq_ok_iff : limit? text = .ok limit ↔
    ∃ components span, Reads text components ∧ total? components = some span ∧
      limit = limitOf span := by
  simp only [reads_iff]
  rw [limit?, span?_eq]
  cases hsaid : said? (Text.trim text.toList) with
  | none => simp
  | some components =>
      cases htotal : total? components with
      | none => simp [htotal]
      | some span => simp [htotal, limitOf, eq_comm]

theorem limit?_eq_error_iff {e : String} : limit? text = .error e ↔
    (∀ components, Reads text components → total? components = none) ∧
      e = String.ofList (Text.trim text.toList) := by
  simp only [reads_iff]
  rw [limit?, span?_eq]
  cases hsaid : said? (Text.trim text.toList) with
  | none => simp [eq_comm]
  | some components =>
      cases htotal : total? components with
      | none => simp [htotal, eq_comm]
      | some span => simp [htotal]

/-! ### Bare numbers -/

section Digits

variable {digits : List Char}

theorem trim_of_solid {chars : List Char} (h : ∀ x ∈ chars, Text.isBlank x = false) :
    Text.trim chars = chars :=
  Text.trim_eq_iff.2 ⟨[], [], by simp, by simp, by simp,
    fun x hx => h x (List.mem_of_mem_head? hx), fun x hx => h x (List.mem_of_mem_getLast? hx)⟩

theorem natural?_of_digits (hne : digits ≠ []) (h : ∀ x ∈ digits, x.isDigit = true) :
    Text.natural? maxCount digits = counted (digitsValue digits) := by
  have hread : Text.digits? digits = some (digitsValue digits) := by
    rw [Text.digits?, if_neg (by simpa using hne), if_pos (List.all_eq_true.2 h)]
  unfold Text.natural?
  split
  case h_1 rest =>
    have hsign := h '+' List.mem_cons_self
    cases hsign
  case h_2 =>
    rw [hread]
    rfl

theorem decimalValue_map_digit (digits : List Char) :
    decimalValue (digits.map Text.digit) = digitsValue digits := by
  rw [decimalValue, List.foldl_map]
  rfl

theorem spaced_of_digits (h : ∀ x ∈ digits, x.isDigit = true) :
    Spaced digits (digits.map Text.digit) := by
  induction digits with
  | nil => exact .nil
  | cons x rest ih =>
      exact .digit (h x List.mem_cons_self) (ih fun y hy => h y (List.mem_cons_of_mem x hy))

/-- Digits that make no count are no components either, as there is no unit. -/
theorem said?_digits (hne : digits ≠ []) (h : ∀ x ∈ digits, x.isDigit = true) :
    said? digits = (counted (digitsValue digits)).map fun n => [⟨n, [], .second⟩] := by
  have hnone : components? digits = none := by
    rw [Option.eq_none_iff_forall_ne_some]
    intro components hread
    obtain ⟨x, hx, hletter⟩ := (components?_eq_some_iff.1 hread).exists_letter
    rw [isUnitLetter_of_digit_or_blank (.inl (h x hx))] at hletter
    cases hletter
  rw [said?, natural?_of_digits hne h]
  cases counted (digitsValue digits) with
  | none => exact hnone
  | some n => rfl

theorem said?_digits_second (hne : digits ≠ []) (h : ∀ x ∈ digits, x.isDigit = true) :
    said? (digits ++ ['s']) = some [⟨digitsValue digits, [], .second⟩] := by
  have hword : String.ofList ['s'] ∈ TimeUnit.second.words := by decide
  have htext : ComponentText (digits ++ ['s']) ⟨digitsValue digits, [], .second⟩ := by
    rw [← decimalValue_map_digit]
    exact .mk (spaced_of_digits h) (by simpa using hne) .none hword
  have hall : ComponentsText (digits ++ ['s'] ++ []) [⟨digitsValue digits, [], .second⟩] :=
    .last htext (by simp)
  rw [List.append_nil] at hall
  exact said?_eq_some_iff.2 (.written hall)

/-- Digits, and the same digits as a number of seconds, are one span. -/
theorem span?_digits (hne : digits ≠ []) (h : ∀ x ∈ digits, x.isDigit = true) :
    span? digits = (counted (digitsValue digits)).map (Span.ofParts · 0) ∧
      span? (digits ++ ['s']) = (counted (digitsValue digits)).map (Span.ofParts · 0) := by
  rw [span?_eq, span?_eq, said?_digits hne h, said?_digits_second hne h, Option.bind_some,
    total?_seconds]
  refine ⟨?_, rfl⟩
  cases hcount : counted (digitsValue digits) with
  | none => rfl
  | some n =>
      obtain ⟨hle, -⟩ := counted_eq_some_iff.1 hcount
      rw [Option.map_some, Option.bind_some, total?_seconds, counted_of_le hle]

/-- Digits set the limit that the same number of seconds sets, or both are refused as they stand. -/
theorem limit?_digits (hne : text ≠ "") (h : ∀ x ∈ text.toList, x.isDigit = true) :
    (digitsValue text.toList ≤ maxCount ∧
      limit? text = .ok (limitOf (.ofParts (digitsValue text.toList) 0)) ∧
      limit? (text ++ "s") = .ok (limitOf (.ofParts (digitsValue text.toList) 0))) ∨
    (maxCount < digitsValue text.toList ∧ limit? text = .error text ∧
      limit? (text ++ "s") = .error (text ++ "s")) := by
  have hsolid : ∀ x ∈ text.toList, Text.isBlank x = false :=
    fun x hx => Text.isBlank_of_isDigit (h x hx)
  have hsecond : (text ++ "s").toList = text.toList ++ ['s'] := String.toList_append
  have hsolidSecond : ∀ x ∈ (text ++ "s").toList, Text.isBlank x = false := by
    intro x hx
    rw [hsecond, List.mem_append, List.mem_singleton] at hx
    rcases hx with hdigit | rfl
    · exact hsolid x hdigit
    · decide
  obtain ⟨hspan, hspanSecond⟩ := span?_digits (by simpa using hne) h
  rw [limit?, limit?, trim_of_solid hsolid, trim_of_solid hsolidSecond, hsecond, hspan, hspanSecond,
    ← hsecond, String.ofList_toList, String.ofList_toList]
  rcases Nat.lt_or_ge maxCount (digitsValue text.toList) with hlarge | hle
  · have hnone : counted (digitsValue text.toList) = none := if_neg (Nat.not_le.2 hlarge)
    rw [hnone]
    exact .inr ⟨hlarge, rfl, rfl⟩
  · rw [counted_of_le hle]
    exact .inl ⟨hle, rfl, rfl⟩

end Digits

/-! ### The law of limits -/

/-- What a text sets as a time limit. -/
structure LimitLaw (text : String) : Prop where
  /-- A text says one thing, if anything. -/
  unique : ∀ components others, Reads text components → Reads text others → components = others
  /-- A limit that is accepted is the sum of what the text says, with its fractions and to the
  nanosecond; it is none just if the sum is zero, and its seconds have sixty-four bits. -/
  exact : ∀ limit, limit? text = .ok limit → ∃ components, Reads text components ∧
    (limitLength limit : ℚ) = (components.map Component.value).sum ∧
      (limit = none ↔ (components.map Component.value).sum = 0) ∧
        ∀ span ∈ limit, span.seconds ≤ maxCount
  /-- Components with room for their counts and fractions of whole counts are accepted, if their sum
  has room for its seconds. -/
  accepted : ∀ components, Reads text components → (∀ c ∈ components, c.Modest) →
    (components.map Component.value).sum < lengthBound →
      ∃ limit, limit? text = .ok limit
  /-- A text that is refused is named without the white space at its ends; it says nothing, or
  something of which no sum is found. -/
  refused : ∀ e, limit? text = .error e → Trimmed text.toList e.toList ∧
    ∀ components, Reads text components → total? components = none
  /-- Digits set the limit that the same number of seconds sets, or both are refused as they
  stand. -/
  bare : text ≠ "" → (∀ x ∈ text.toList, x.isDigit = true) →
    (∃ limit, limit? text = .ok limit ∧ limit? (text ++ "s") = .ok limit ∧
      limitLength limit = digitsValue text.toList * Span.perSecond ∧
        digitsValue text.toList ≤ maxCount) ∨
    (limit? text = .error text ∧ limit? (text ++ "s") = .error (text ++ "s") ∧
      maxCount < digitsValue text.toList)

/-- Every text is read as it is written: the limit is the sum of its numbers times their units. -/
theorem limits_exact (text : String) : LimitLaw text where
  unique := by
    intro components others hreads hothers
    rw [reads_iff] at hreads hothers
    exact Option.some.inj (hreads.symm.trans hothers)
  exact := by
    intro limit h
    obtain ⟨components, span, hreads, htotal, rfl⟩ := limit?_eq_ok_iff.1 h
    obtain ⟨hsum, hseconds⟩ := total?_exact htotal
    refine ⟨components, hreads, ?_, ?_, fun other hmem => ?_⟩
    · rw [limitLength_limitOf, hsum]
    · rw [limitOf_eq_none_iff, ← hsum, Nat.cast_eq_zero]
    · rw [mem_limitOf hmem]
      exact hseconds
  accepted := by
    intro components hreads hmodest hroom
    obtain ⟨span, htotal⟩ := exists_total? hmodest hroom
    exact ⟨limitOf span, limit?_eq_ok_iff.2 ⟨components, span, hreads, htotal, rfl⟩⟩
  refused := by
    intro e h
    obtain ⟨hnone, rfl⟩ := limit?_eq_error_iff.1 h
    rw [String.toList_ofList]
    exact ⟨Text.trim_eq_iff.1 rfl, hnone⟩
  bare := by
    intro hne h
    rcases limit?_digits hne h with ⟨hle, hbare, hsecond⟩ | ⟨hlarge, hbare, hsecond⟩
    · refine .inl ⟨_, hbare, hsecond, ?_, hle⟩
      rw [limitLength_limitOf, Span.ofParts, Nat.add_zero]
    · exact .inr ⟨hbare, hsecond, hlarge⟩

/-- One minute and a half and a quarter of a second. -/
def minuteAndHalf : List Component := [⟨1, [5], .minute⟩, ⟨250, [], .millisecond⟩]

theorem minuteAndHalf_limited :
    (∃ limit, limit? " 1.5m 250ms" = .ok limit ∧ limitLength limit = 90250000000) ∧
      ∃ limit, limit? "90" = .ok limit ∧ limit? "90s" = .ok limit ∧
        limitLength limit = 90 * Span.perSecond := by
  constructor
  · have hreads : Reads " 1.5m 250ms" minuteAndHalf := reads_iff.2 (by rfl)
    have hsum : (minuteAndHalf.map Component.value).sum = 90250000000 := by
      norm_num [minuteAndHalf, Component.value, decimalValue, TimeUnit.nanoseconds]
    have hmodest : ∀ c ∈ minuteAndHalf, c.Modest := by
      intro c hc
      rcases List.mem_cons.1 hc with rfl | hc
      · constructor <;> decide
      · rw [List.mem_singleton.1 hc]
        constructor <;> decide
    have hroom : (minuteAndHalf.map Component.value).sum < lengthBound := by
      rw [hsum]
      norm_num [lengthBound, maxCount, Span.perSecond]
    obtain ⟨limit, hlimit⟩ := (limits_exact _).accepted _ hreads hmodest hroom
    obtain ⟨components, hsame, hlength, -, -⟩ := (limits_exact _).exact limit hlimit
    rw [(limits_exact _).unique _ _ hsame hreads, hsum] at hlength
    exact ⟨limit, hlimit, by exact_mod_cast hlength⟩
  · have hdigits : "90".toList.all Char.isDigit = true := by rfl
    rcases (limits_exact "90").bare (by decide) (List.all_eq_true.1 hdigits) with
      hboth | ⟨-, -, hlarge⟩
    · obtain ⟨limit, hbare, hsecond, hlength, -⟩ := hboth
      exact ⟨limit, hbare, hsecond, hlength⟩
    · exact absurd hlarge (by decide)

end MeterRadio.Time
