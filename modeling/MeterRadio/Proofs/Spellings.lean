/-
Module: MeterRadio.Proofs.Spellings
Purpose: The ways to write a number in decimal, and a text without the white space at its ends: what
  the readers of both accept is said by what is written, and the readers find just that.
Main exports: Text.Spells, Text.natural?_eq_some_iff, Text.Trimmed, Text.trim_eq_iff
-/
import Mathlib.Data.List.Induction
import Mathlib.Data.List.TakeWhile
import MeterRadio.Proofs.Numerals

namespace MeterRadio.Text

/-! ### Digits and their number -/

theorem digit_lt {c : Char} (h : c.isDigit = true) : digit c < 10 := by
  rw [Char.isDigit_iff_toNat] at h
  have hhigh : c.toNat ≤ 57 := h.2
  have hzero : '0'.toNat = 48 := rfl
  rw [digit, hzero]
  omega

theorem digit_injective {c d : Char} (hc : c.isDigit = true) (hd : d.isDigit = true)
    (h : digit c = digit d) : c = d := by
  rw [Char.isDigit_iff_toNat] at hc hd
  have hlow : 48 ≤ c.toNat ∧ 48 ≤ d.toNat := ⟨hc.1, hd.1⟩
  have hzero : '0'.toNat = 48 := rfl
  rw [digit, digit, hzero] at h
  apply Char.toNat_inj.1
  omega

theorem digitsValue_concat (digits : List Char) (c : Char) :
    digitsValue (digits ++ [c]) = 10 * digitsValue digits + digit c := by
  rw [digitsValue, List.foldl_append]
  rfl

theorem digitsValue_lt {digits : List Char} (h : ∀ c ∈ digits, c.isDigit = true) :
    digitsValue digits < 10 ^ digits.length := by
  induction digits using List.reverseRecOn with
  | nil => exact Nat.one_pos
  | append_singleton digits c ih =>
      have hlast := digit_lt (h c (by simp))
      have hrest := ih fun d hd => h d (List.mem_append_left [c] hd)
      rw [digitsValue_concat, List.length_append, List.length_singleton, Nat.pow_succ]
      omega

/-- Digits in equal number that make the same number are the same. -/
theorem eq_of_digitsValue_eq {a b : List Char} (hlength : a.length = b.length)
    (ha : ∀ c ∈ a, c.isDigit = true) (hb : ∀ c ∈ b, c.isDigit = true)
    (h : digitsValue a = digitsValue b) : a = b := by
  induction a using List.reverseRecOn generalizing b with
  | nil => exact (List.length_eq_zero_iff.1 hlength.symm).symm
  | append_singleton a c ih =>
      rcases List.eq_nil_or_concat b with rfl | ⟨b, d, rfl⟩
      · simp at hlength
      · rw [List.concat_eq_append] at hlength hb h ⊢
        have hc := ha c (by simp)
        have hd := hb d (by simp)
        have hclt := digit_lt hc
        have hdlt := digit_lt hd
        rw [digitsValue_concat, digitsValue_concat] at h
        have hrest := ih (by simpa using hlength) (fun e he => ha e (List.mem_append_left [c] he))
          (fun e he => hb e (List.mem_append_left [d] he)) (by omega)
        rw [hrest, digit_injective hc hd (by omega)]

/-- Digits are those of their number, with zeros in front up to their length. -/
theorem eq_zeroPadded {digits : List Char} (hne : digits ≠ [])
    (h : ∀ c ∈ digits, c.isDigit = true) :
    digits = (zeroPadded digits.length (digitsValue digits)).toList := by
  apply eq_of_digitsValue_eq
  · exact (length_zeroPadded (List.length_pos_iff.2 hne) (digitsValue_lt h)).symm
  · exact h
  · exact isDigit_of_mem_zeroPadded _ _
  · exact (digitsValue_zeroPadded _ _).symm

theorem digits?_eq_some_iff {chars : List Char} {n : Nat} :
    digits? chars = some n ↔ ∃ width, chars = (zeroPadded width n).toList := by
  constructor
  · intro h
    unfold digits? at h
    split at h
    case isTrue => cases h
    case isFalse hempty =>
      split at h
      case isTrue hall =>
        cases h
        refine ⟨chars.length, eq_zeroPadded ?_ (List.all_eq_true.1 hall)⟩
        rintro rfl
        exact hempty rfl
      case isFalse => cases h
  · rintro ⟨width, hchars⟩
    obtain ⟨c, rest, hcons, -⟩ := zeroPadded_eq_cons width n
    have hall : chars.all Char.isDigit = true := by
      rw [hchars]
      exact List.all_eq_true.2 (isDigit_of_mem_zeroPadded width n)
    have hvalue : digitsValue chars = n := by
      rw [hchars, digitsValue_zeroPadded]
    rw [← hchars] at hcons
    rw [digits?, hall, hvalue, hcons]
    rfl

/-! ### Numbers as written

A number has many spellings. They are described from the number, by a sign and zeros in front of its
digits, and the reader is shown to take these and no other text. -/

/-- A number of at most `limit` as it may be written: a plus sign or none, and its decimal digits
with any number of zeros in front. -/
def Spells (limit : Nat) (chars : List Char) (n : Nat) : Prop :=
  n ≤ limit ∧
    ∃ sign width, (sign = [] ∨ sign = ['+']) ∧ chars = sign ++ (zeroPadded width n).toList

theorem within_eq_some_iff {limit m n : Nat} : within limit m = some n ↔ n ≤ limit ∧ m = n := by
  unfold within
  split
  case isTrue h =>
    constructor
    · rintro ⟨⟩
      exact ⟨h, rfl⟩
    · rintro ⟨-, rfl⟩
      rfl
  case isFalse h =>
    constructor
    · intro heq
      cases heq
    · rintro ⟨hle, rfl⟩
      exact absurd hle h

theorem digits?_within_eq_some_iff {limit n : Nat} {chars : List Char} :
    (digits? chars).bind (within limit) = some n ↔
      n ≤ limit ∧ ∃ width, chars = (zeroPadded width n).toList := by
  rw [Option.bind_eq_some_iff]
  constructor
  · rintro ⟨m, hm, hn⟩
    obtain ⟨hle, rfl⟩ := within_eq_some_iff.1 hn
    exact ⟨hle, digits?_eq_some_iff.1 hm⟩
  · rintro ⟨hle, hwidth⟩
    exact ⟨n, digits?_eq_some_iff.2 hwidth, within_eq_some_iff.2 ⟨hle, rfl⟩⟩

/-- Digits do not begin with a sign. -/
theorem zeroPadded_ne_sign (width n : Nat) (rest : List Char) :
    (zeroPadded width n).toList ≠ '+' :: rest := by
  intro heq
  obtain ⟨c, digits, hdigits, hdigit⟩ := zeroPadded_eq_cons width n
  rw [hdigits] at heq
  cases heq
  cases hdigit

/-- A natural number is read exactly where it is written in one of these ways. -/
theorem natural?_eq_some_iff {limit n : Nat} {chars : List Char} :
    natural? limit chars = some n ↔ Spells limit chars n := by
  unfold natural?
  split
  case h_1 rest =>
    rw [digits?_within_eq_some_iff]
    constructor
    · rintro ⟨hle, width, hrest⟩
      exact ⟨hle, ['+'], width, .inr rfl, congrArg (List.cons '+') hrest⟩
    · rintro ⟨hle, sign, width, rfl | rfl, hchars⟩
      · rw [List.nil_append] at hchars
        exact absurd hchars.symm (zeroPadded_ne_sign width n rest)
      · exact ⟨hle, width, (List.cons.inj hchars).2⟩
  case h_2 hsign =>
    rw [digits?_within_eq_some_iff]
    constructor
    · rintro ⟨hle, width, hchars⟩
      exact ⟨hle, [], width, .inl rfl, by rw [List.nil_append, hchars]⟩
    · rintro ⟨hle, sign, width, rfl | rfl, hchars⟩
      · exact ⟨hle, width, by rw [hchars, List.nil_append]⟩
      · exact absurd hchars (hsign (zeroPadded width n).toList)

/-! ### Texts without white space at their ends -/

/-- `core` is what white space in front and behind leaves of a text. -/
def Trimmed (chars core : List Char) : Prop :=
  ∃ front back, chars = front ++ (core ++ back) ∧
    (∀ c ∈ front, isBlank c = true) ∧ (∀ c ∈ back, isBlank c = true) ∧
    (∀ c ∈ core.head?, isBlank c = false) ∧ ∀ c ∈ core.getLast?, isBlank c = false

theorem trimStart_append {front rest : List Char} (h : ∀ c ∈ front, isBlank c = true)
    (hrest : ∀ c ∈ rest.head?, isBlank c = false) : trimStart (front ++ rest) = rest := by
  rw [trimStart, List.dropWhile_append_of_pos h]
  cases rest with
  | nil => rfl
  | cons c rest => exact trimStart_cons (hrest c rfl) rest

theorem head?_trimStart (chars : List Char) : ∀ c ∈ (trimStart chars).head?, isBlank c = false := by
  intro c hc
  have hnot := List.head?_dropWhile_not isBlank chars
  rw [← trimStart, hc] at hnot
  exact hnot

/-- A text with no white space in front of it stands behind some. -/
theorem eq_append_trimStart (chars : List Char) :
    ∃ front, chars = front ++ trimStart chars ∧ ∀ c ∈ front, isBlank c = true :=
  ⟨chars.takeWhile isBlank, List.takeWhile_append_dropWhile.symm,
    List.all_eq_true.1 List.all_takeWhile⟩

/-- The end of a text is the start of it read backwards. -/
theorem trimEnd_append {core back : List Char} (h : ∀ c ∈ back, isBlank c = true)
    (hcore : ∀ c ∈ core.getLast?, isBlank c = false) : trimEnd (core ++ back) = core := by
  have hback : trimStart (back.reverse ++ core.reverse) = core.reverse :=
    trimStart_append (fun c hc => h c (List.mem_reverse.1 hc)) (by rwa [List.head?_reverse])
  rw [trimEnd, List.reverse_append, ← trimStart, hback, List.reverse_reverse]

theorem trimmed_trim (chars : List Char) : Trimmed chars (trim chars) := by
  obtain ⟨front, hchars, hfront⟩ := eq_append_trimStart chars
  obtain ⟨back, hback, hblank⟩ := eq_append_trimStart (trimStart chars).reverse
  have hcore : trimStart chars = trim chars ++ back.reverse := by
    rw [trim, trimEnd, ← trimStart, ← List.reverse_append, ← hback, List.reverse_reverse]
  refine ⟨front, back.reverse, ?_, hfront, fun c hc => hblank c (List.mem_reverse.1 hc), ?_, ?_⟩
  · rw [← hcore]
    exact hchars
  · intro c hc
    have hfirst := head?_trimStart chars
    rw [hcore, List.head?_append] at hfirst
    apply hfirst c
    rw [hc]
    rfl
  · intro c hc
    apply head?_trimStart (trimStart chars).reverse c
    rwa [trim, trimEnd, List.getLast?_reverse] at hc

/-- The core of a text is what trimming finds. -/
theorem trim_eq_iff {chars core : List Char} : trim chars = core ↔ Trimmed chars core := by
  constructor
  · rintro rfl
    exact trimmed_trim chars
  · rintro ⟨front, back, rfl, hfront, hback, hfirst, hlast⟩
    cases core with
    | nil =>
        have hblank : ∀ c ∈ front ++ back, isBlank c = true := by
          intro c hc
          rcases List.mem_append.1 hc with h | h
          · exact hfront c h
          · exact hback c h
        rw [trim, List.nil_append, trimStart, List.dropWhile_eq_nil_iff.2 hblank]
        rfl
    | cons c rest =>
        have hstart : trimStart (front ++ (c :: rest ++ back)) = c :: rest ++ back :=
          trimStart_append hfront hfirst
        rw [trim, hstart, trimEnd_append hback hlast]

end MeterRadio.Text
