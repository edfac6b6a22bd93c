/-
Module: MeterRadio.Proofs.JsonText
Purpose: Reading undoes writing: the compact text of a value whose texts are readable and whose
  numbers are natural is read as that value again, and it is one line.
Main exports: Json.isPlain, Json.value?_chars, Json.parse?_render, Json.printable_chars
-/
import MeterRadio.Json.Reader
import MeterRadio.Proofs.Numerals

namespace MeterRadio.Json

/-! ### Strings -/

/-- A character in a string is written in one of three ways. -/
theorem escape_cases (c : Char) :
    (∃ e, escape c = ['\\', e] ∧ shortEscape? e = some c) ∨
      (c.toNat < 32 ∧ escape c =
        ['\\', 'u', '0', '0'] ++ Bytes.hexByte Bytes.lowerDigits (UInt8.ofNat c.toNat)) ∨
      (c ≠ '"' ∧ c ≠ '\\' ∧ ¬ c.toNat < 32 ∧ escape c = [c]) := by
  unfold escape
  split
  · next h => exact .inl ⟨'"', rfl, by rw [h]; rfl⟩
  next hquote =>
  split
  · next h => exact .inl ⟨'\\', rfl, by rw [h]; rfl⟩
  next hslash =>
  split
  · next h => exact .inl ⟨'b', rfl, by rw [h]; rfl⟩
  split
  · next h => exact .inl ⟨'t', rfl, by rw [h]; rfl⟩
  split
  · next h => exact .inl ⟨'n', rfl, by rw [h]; rfl⟩
  split
  · next h => exact .inl ⟨'f', rfl, by rw [h]; rfl⟩
  split
  · next h => exact .inl ⟨'r', rfl, by rw [h]; rfl⟩
  split
  · next h => exact .inr (.inl ⟨h, rfl⟩)
  · next h => exact .inr (.inr ⟨hquote, hslash, h, rfl⟩)

theorem pieces?_short {c e : Char} (he : shortEscape? e = some c) (rest : List Char) :
    pieces? ('\\' :: e :: rest) = (pieces? rest).map fun read => (.char c :: read.1, read.2) := by
  have hu : e ≠ 'u' := by
    intro h
    subst h
    cases he
  rw [pieces?, he]
  · cases pieces? rest <;> rfl
  · intro a b c d more h
    exact absurd h hu

theorem digitValue?_lowerDigits : ∀ n < 16,
    Bytes.digitValue? (Bytes.lowerDigits.getD n '0') = some n := by
  decide

theorem codeUnit?_hexByte (b : UInt8) :
    codeUnit? '0' '0' (Bytes.lowerDigits.getD (b.toNat / 16) '0')
      (Bytes.lowerDigits.getD (b.toNat % 16) '0') = some b.toNat := by
  have hlt := b.toNat_lt
  have hhigh := digitValue?_lowerDigits (b.toNat / 16) (by omega)
  have hlow := digitValue?_lowerDigits (b.toNat % 16) (by omega)
  have hzero : Bytes.digitValue? '0' = some 0 := rfl
  have hsum : ((0 * 16 + 0) * 16 + b.toNat / 16) * 16 + b.toNat % 16 = b.toNat := by omega
  rw [codeUnit?, hzero, hhigh, hlow]
  change some (((0 * 16 + 0) * 16 + b.toNat / 16) * 16 + b.toNat % 16) = some b.toNat
  rw [hsum]

theorem pieces?_unit (b : UInt8) (rest : List Char) :
    pieces? (['\\', 'u', '0', '0'] ++ Bytes.hexByte Bytes.lowerDigits b ++ rest) =
      (pieces? rest).map fun read => (.unit b.toNat :: read.1, read.2) := by
  rw [Bytes.hexByte]
  simp only [List.cons_append, List.nil_append]
  rw [pieces?, codeUnit?_hexByte]
  cases pieces? rest <;> rfl

theorem pieces?_plain {c : Char} (hquote : c ≠ '"') (hslash : c ≠ '\\') (hlow : ¬ c.toNat < 32)
    (rest : List Char) :
    pieces? (c :: rest) = (pieces? rest).map fun read => (.char c :: read.1, read.2) := by
  rw [pieces?]
  · exact if_neg (not_or.2 ⟨hlow, hslash⟩)
  · intro h
    exact absurd h hquote
  · intro a b c d more h
    exact absurd h hslash
  · intro e more h
    exact absurd h hslash

/-- A control character is no half of a surrogate pair, whatever follows it. -/
theorem join?_unit {code : Nat} (h : code < 32) (more : List Piece) :
    join? (.unit code :: more) = (join? more).map (Char.ofNat code :: ·) := by
  have hleading : isLeading code = false := by
    unfold isLeading
    rw [decide_eq_false (by omega), Bool.false_and]
  have htrailing : isTrailing code = false := by
    unfold isTrailing
    rw [decide_eq_false (by omega), Bool.false_and]
  cases more with
  | nil => simp only [join?, hleading, htrailing, Bool.or_self, Bool.false_eq_true, if_false]
  | cons piece more =>
      cases piece with
      | char c => simp only [join?, hleading, htrailing, Bool.or_self, Bool.false_eq_true, if_false]
      | unit low => simp only [join?, hleading, htrailing, Bool.false_eq_true, if_false]

/-- What is written for a character is read as one part, and that part is the character. -/
theorem pieces?_escape (c : Char) :
    ∃ piece, (∀ rest, pieces? (escape c ++ rest) =
        (pieces? rest).map fun read => (piece :: read.1, read.2)) ∧
      ∀ more, join? (piece :: more) = (join? more).map (c :: ·) := by
  rcases escape_cases c with ⟨e, hescape, he⟩ | ⟨hlow, hescape⟩ | ⟨hquote, hslash, hlow, hescape⟩
  · rw [hescape]
    exact ⟨.char c, pieces?_short he, fun more => rfl⟩
  · have hcode : (UInt8.ofNat c.toNat).toNat = c.toNat :=
      UInt8.toNat_ofNat_of_lt' (Nat.lt_trans hlow (by decide))
    refine ⟨.unit c.toNat, fun rest => ?_, fun more => ?_⟩
    · rw [hescape, pieces?_unit, hcode]
    · rw [join?_unit hlow, Char.ofNat_toNat]
  · rw [hescape]
    exact ⟨.char c, pieces?_plain hquote hslash hlow, fun more => rfl⟩

theorem pieces?_flatMap_escape (text rest : List Char) :
    ∃ pieces, pieces? (text.flatMap escape ++ '"' :: rest) = some (pieces, rest) ∧
      join? pieces = some text := by
  induction text with
  | nil => exact ⟨[], rfl, rfl⟩
  | cons c text ih =>
      rcases ih with ⟨pieces, hpieces, hjoin⟩
      rcases pieces?_escape c with ⟨piece, hpiece, hchar⟩
      refine ⟨piece :: pieces, ?_, ?_⟩
      · rw [List.flatMap_cons, List.append_assoc, hpiece, hpieces]
        rfl
      · rw [hchar, hjoin]
        rfl

theorem quote_append (s : String) (rest : List Char) :
    quote s ++ rest = '"' :: (s.toList.flatMap escape ++ '"' :: rest) := by
  rw [quote, List.append_assoc]
  rfl

/-- Every text is read from between its quotes. -/
theorem string?_quote (s : String) (rest : List Char) :
    string? (s.toList.flatMap escape ++ '"' :: rest) = some (some s, rest) := by
  rcases pieces?_flatMap_escape s.toList rest with ⟨pieces, hpieces, hjoin⟩
  rw [string?, hpieces]
  change some ((join? pieces).map String.ofList, rest) = _
  rw [hjoin, Option.map_some, String.ofList_toList]

/-! ### Numbers -/

/-- What may follow a number: nothing that would go on with it. -/
def Ends (rest : List Char) : Prop :=
  ∀ c ∈ rest.head?, c.isDigit = false ∧ c ≠ '.' ∧ c ≠ 'e' ∧ c ≠ 'E'

theorem ends_nil : Ends [] := by
  intro c hc
  cases hc

theorem ends_cons {c : Char} (h : c.isDigit = false ∧ c ≠ '.' ∧ c ≠ 'e' ∧ c ≠ 'E')
    (rest : List Char) : Ends (c :: rest) := by
  intro d hd
  cases hd
  exact h

theorem fractionLength?_of_ends {rest : List Char} (h : Ends rest) :
    fractionLength? rest = some 0 := by
  unfold fractionLength?
  split
  · exact absurd rfl (h _ rfl).2.1
  · rfl

theorem exponentLength?_of_ends {rest : List Char} (h : Ends rest) :
    exponentLength? rest = some 0 := by
  cases rest with
  | nil => rfl
  | cons c rest =>
      have hletter := (h c rfl).2.2
      exact if_neg (not_or.2 hletter)

theorem wholeLength?_toDigits (n : Nat) {rest : List Char} (h : Ends rest) :
    wholeLength? (Nat.toDigits 10 n ++ rest) = some (Nat.toDigits 10 n).length := by
  have htake : (Nat.toDigits 10 n ++ rest).takeWhile Char.isDigit = Nat.toDigits 10 n :=
    Text.takeWhile_isDigit_append (Text.isDigit_of_mem_toDigits n) fun c hc => (h c hc).1
  have hpos : ¬ (Nat.toDigits 10 n).length = 0 := Nat.pos_iff_ne_zero.1 Nat.length_toDigits_pos
  rcases Nat.eq_zero_or_pos n with hzero | hn
  · rw [hzero, Nat.toDigits_zero]
    rfl
  · rcases Text.toDigits_eq_cons n with ⟨c, digits, hchars, -, hfirst⟩
    unfold wholeLength?
    split
    · next heq =>
        rw [hchars] at heq
        cases heq
        exact absurd rfl (hfirst hn)
    · rw [htake]
      exact if_neg hpos

/-- Decimal text is a natural number and nothing of what follows it. -/
theorem number?_toDigits (n : Nat) {rest : List Char} (h : Ends rest) :
    number? (Nat.toDigits 10 n ++ rest) = some (.natural n, rest) := by
  have hwhole := wholeLength?_toDigits n h
  unfold number?
  split
  · next heq =>
      rcases Text.toDigits_eq_cons n with ⟨c, digits, hchars, hdigit, -⟩
      rw [hchars] at heq
      cases heq
      cases hdigit
  · dsimp only
    rw [List.drop_zero, hwhole]
    simp only [Option.bind_eq_bind, Option.bind_some, Nat.zero_add, List.drop_left,
      fractionLength?_of_ends h, Nat.add_zero, exponentLength?_of_ends h, List.take_left, if_true,
      Text.digitsValue_toDigits]
    rfl

/-! ### Values

The reader goes by fuel, and the writer by the structure of a value. The induction is on the value,
for any text behind it and as much fuel as its own text is long. -/

mutual
/-- Whether every text is readable and every number a natural one. -/
def isPlain : Json → Bool
  | .null => true
  | .bool _ => true
  | .natural _ => true
  | .number _ => false
  | .string text => text.isSome
  | .array items => itemsPlain items
  | .object members => membersPlain members

/-- All items are plain. -/
def itemsPlain : List Json → Bool
  | [] => true
  | item :: rest => isPlain item && itemsPlain rest

/-- All names are readable and all values plain. -/
def membersPlain : List (Option String × Json) → Bool
  | [] => true
  | (name, value) :: rest => name.isSome && isPlain value && membersPlain rest
end

theorem skip_cons {c : Char} (h : isSpace c = false) (rest : List Char) :
    skip (c :: rest) = c :: rest := by
  rw [skip, List.dropWhile_cons_of_neg]
  rw [h]
  exact Bool.false_ne_true

theorem isSpace_of_isDigit {c : Char} (h : c.isDigit = true) : isSpace c = false := by
  cases hspace : isSpace c with
  | false => rfl
  | true =>
      simp only [isSpace, Bool.or_eq_true, beq_iff_eq] at hspace
      rcases hspace with ((rfl | rfl) | rfl) | rfl <;> cases h

/-- The text of a value begins neither with white space nor as the end of an array. -/
theorem chars_eq_cons {j : Json} (h : j.isPlain = true) :
    ∃ c rest, chars j = c :: rest ∧ isSpace c = false ∧ c ≠ ']' := by
  cases j with
  | null => exact ⟨'n', _, rfl, rfl, by decide⟩
  | bool value =>
      cases value with
      | false => exact ⟨'f', _, rfl, rfl, by decide⟩
      | true => exact ⟨'t', _, rfl, rfl, by decide⟩
  | natural value =>
      rcases Text.toDigits_eq_cons value with ⟨c, rest, hchars, hdigit, -⟩
      refine ⟨c, rest, hchars, isSpace_of_isDigit hdigit, ?_⟩
      intro hbracket
      subst hbracket
      cases hdigit
  | number literal => cases h
  | string text => exact ⟨'"', _, rfl, rfl, by decide⟩
  | array items => exact ⟨'[', _, rfl, rfl, by decide⟩
  | object members => exact ⟨'\x7b', _, rfl, rfl, by decide⟩

/-! One value, one item and one member are read where they stand. -/

section Reading

variable {fuel : Nat} {rest : List Char}

theorem value?_natural (n : Nat) (h : Ends rest) :
    value? (fuel + 1) (Nat.toDigits 10 n ++ rest) = some (.natural n, rest) := by
  have hread := number?_toDigits n h
  rcases Text.toDigits_eq_cons n with ⟨c, digits, hchars, hdigit, -⟩
  rw [hchars, List.cons_append] at hread ⊢
  rw [value?, skip_cons (isSpace_of_isDigit hdigit)]
  -- a digit opens nothing but a number
  split
  · next heq => cases heq
  · next heq => cases heq; cases hdigit
  · next heq => cases heq; cases hdigit
  · next heq => cases heq; cases hdigit
  · next heq => cases heq; cases hdigit
  · next heq => cases heq; cases hdigit
  · next heq => cases heq; cases hdigit
  · exact hread

theorem value?_string (s : String) :
    value? (fuel + 1) (quote s ++ rest) = some (.text s, rest) := by
  have hread := string?_quote s rest
  rw [quote_append, value?, skip_cons rfl]
  change (string? _).map _ = _
  rw [hread]
  rfl

theorem value?_array {c : Char} {more : List Char} (hspace : isSpace c = false)
    (hbracket : c ≠ ']') :
    value? (fuel + 1) ('[' :: c :: more) =
      (items fuel (c :: more)).map fun read => (.array read.1, read.2) := by
  rw [value?, skip_cons rfl]
  simp only [skip_cons hspace]
  split
  · next heq =>
      cases heq
      exact absurd rfl hbracket
  · rfl

theorem value?_object {more : List Char} :
    value? (fuel + 1) ('\x7b' :: '"' :: more) =
      (members fuel ('"' :: more)).map fun read => (.object read.1, read.2) := by
  rw [value?, skip_cons rfl]
  simp only [skip_cons (c := '"') rfl]
  rfl

theorem items_last {chars : List Char} {item : Json}
    (h : value? fuel chars = some (item, ']' :: rest)) :
    items (fuel + 1) chars = some ([item], rest) := by
  rw [items, h]
  rfl

theorem items_next {chars : List Char} {item : Json}
    (h : value? fuel chars = some (item, ',' :: rest)) :
    items (fuel + 1) chars =
      (items fuel rest).map fun read => (item :: read.1, read.2) := by
  rw [items, h]
  rfl

variable {name : String} {value : Json} {more : List Char}

theorem members_last (h : value? fuel more = some (value, '\x7d' :: rest)) :
    members (fuel + 1) (quote name ++ ':' :: more) = some ([(some name, value)], rest) := by
  have hname := string?_quote name (':' :: more)
  rw [quote_append, members, skip_cons rfl]
  refine Option.bind_eq_some_iff.2 ⟨_, hname, ?_⟩
  refine Option.bind_eq_some_iff.2 ⟨more, rfl, ?_⟩
  refine Option.bind_eq_some_iff.2 ⟨_, h, ?_⟩
  rfl

theorem members_next (h : value? fuel more = some (value, ',' :: rest)) :
    members (fuel + 1) (quote name ++ ':' :: more) =
      (members fuel rest).map fun read => ((some name, value) :: read.1, read.2) := by
  have hname := string?_quote name (':' :: more)
  rw [quote_append, members, skip_cons rfl]
  change (string? _).bind _ = _
  rw [hname, Option.bind_some]
  change (value? _ _).bind _ = _
  rw [h, Option.bind_some]
  rfl

end Reading

theorem length_chars_pos {j : Json} (h : j.isPlain = true) : 0 < (chars j).length := by
  rcases chars_eq_cons h with ⟨c, rest, hchars, -, -⟩
  rw [hchars]
  exact Nat.succ_pos _

theorem itemChars_eq_cons {item : Json} {more : List Json} (h : item.isPlain = true) :
    ∃ c rest, itemChars (item :: more) = c :: rest ∧ isSpace c = false ∧ c ≠ ']' := by
  rcases chars_eq_cons h with ⟨c, rest, hchars, hfirst⟩
  cases more with
  | nil => exact ⟨c, rest, by rw [itemChars, hchars], hfirst⟩
  | cons next more => exact ⟨c, _, by rw [itemChars, hchars]; rfl, hfirst⟩

theorem memberChars_eq_cons (name : String) (value : Json)
    (more : List (Option String × Json)) :
    ∃ rest, memberChars ((some name, value) :: more) = '"' :: rest := by
  cases more with
  | nil => exact ⟨_, rfl⟩
  | cons next more => exact ⟨_, rfl⟩

mutual

/-- A plain value is read from its text, whatever comes after it, with as much fuel as the text is
long. -/
theorem value?_chars :
    ∀ (j : Json) (fuel : Nat) (rest : List Char), j.isPlain = true → (chars j).length ≤ fuel →
      Ends rest → value? fuel (chars j ++ rest) = some (j, rest)
  | j, 0, _rest, hplain, hfuel, _hends =>
      absurd hfuel (Nat.not_le_of_lt (length_chars_pos hplain))
  | .null, _fuel + 1, _rest, _hplain, _hfuel, _hends => rfl
  | .bool value, _fuel + 1, _rest, _hplain, _hfuel, _hends => by
      cases value <;> rfl
  | .natural value, _fuel + 1, _rest, _hplain, _hfuel, hends => value?_natural value hends
  | .string (some text), _fuel + 1, _rest, _hplain, _hfuel, _hends => value?_string text
  | .array [], _fuel + 1, _rest, _hplain, _hfuel, _hends => rfl
  | .array (item :: more), fuel + 1, rest, hplain, hfuel, _hends => by
      have hitem : item.isPlain = true := (Bool.and_eq_true_iff.1 hplain).1
      simp only [chars, List.length_append, List.length_cons, List.length_nil] at hfuel
      have hread := items_itemChars item more fuel rest hplain (by omega)
      rcases itemChars_eq_cons hitem with ⟨c, text, hchars, hspace, hbracket⟩
      rw [hchars] at hread
      rw [chars, hchars, List.append_assoc]
      change value? (fuel + 1) ('[' :: c :: (text ++ ']' :: rest)) = _
      rw [value?_array hspace hbracket]
      change (items fuel (c :: text ++ ']' :: rest)).map _ = _
      rw [hread]
      rfl
  | .object [], _fuel + 1, _rest, _hplain, _hfuel, _hends => rfl
  | .object ((some name, value) :: more), fuel + 1, rest, hplain, hfuel, _hends => by
      simp only [chars, List.length_append, List.length_cons, List.length_nil] at hfuel
      have hread := members_memberChars name value more fuel rest hplain (by omega)
      rcases memberChars_eq_cons name value more with ⟨text, hchars⟩
      rw [hchars] at hread
      rw [chars, hchars, List.append_assoc]
      change value? (fuel + 1) ('\x7b' :: '"' :: (text ++ '\x7d' :: rest)) = _
      rw [value?_object]
      change (members fuel ('"' :: text ++ '\x7d' :: rest)).map _ = _
      rw [hread]
      rfl

theorem items_itemChars :
    ∀ (item : Json) (more : List Json) (fuel : Nat) (rest : List Char),
      itemsPlain (item :: more) = true → (itemChars (item :: more)).length < fuel →
        items fuel (itemChars (item :: more) ++ ']' :: rest) = some (item :: more, rest)
  | _item, _more, 0, _rest, _hplain, hfuel => absurd hfuel (Nat.not_lt_zero _)
  | item, [], fuel + 1, rest, hplain, hfuel => by
      have hitem : item.isPlain = true := (Bool.and_eq_true_iff.1 hplain).1
      exact items_last
        (value?_chars item fuel _ hitem (Nat.le_of_lt_succ hfuel) (ends_cons (by decide) rest))
  | item, next :: more, fuel + 1, rest, hplain, hfuel => by
      have hboth := Bool.and_eq_true_iff.1 hplain
      simp only [itemChars, List.length_append, List.length_cons] at hfuel
      have hmore := items_itemChars next more fuel rest hboth.2 (by omega)
      rw [itemChars, List.append_assoc, List.cons_append, items_next
        (value?_chars item fuel _ hboth.1 (by omega) (ends_cons (by decide) _)), hmore]
      rfl

theorem members_memberChars :
    ∀ (name : String) (value : Json) (more : List (Option String × Json)) (fuel : Nat)
      (rest : List Char), membersPlain ((some name, value) :: more) = true →
        (memberChars ((some name, value) :: more)).length < fuel →
        members fuel (memberChars ((some name, value) :: more) ++ '\x7d' :: rest) =
          some ((some name, value) :: more, rest)
  | _name, _value, _more, 0, _rest, _hplain, hfuel => absurd hfuel (Nat.not_lt_zero _)
  | name, value, [], fuel + 1, rest, hplain, hfuel => by
      have hvalue : value.isPlain = true := (Bool.and_eq_true_iff.1 hplain).1
      simp only [memberChars, List.length_append, List.length_cons] at hfuel
      rw [memberChars, List.append_assoc]
      exact members_last
        (value?_chars value fuel _ hvalue (by omega) (ends_cons (by decide) rest))
  | name, value, (some next, value') :: more, fuel + 1, rest, hplain, hfuel => by
      have hboth := Bool.and_eq_true_iff.1 hplain
      simp only [memberChars, List.length_append, List.length_cons] at hfuel
      have hmore := members_memberChars next value' more fuel rest hboth.2 (by omega)
      rw [memberChars, List.append_assoc, List.append_assoc, List.cons_append, List.cons_append,
        Option.getD_some, members_next
          (value?_chars value fuel _ hboth.1 (by omega) (ends_cons (by decide) _)), hmore]
      rfl
  | _name, _value, (none, _) :: _more, _fuel + 1, _rest, hplain, _hfuel => by
      have hnext := (Bool.and_eq_true_iff.1 hplain).2
      cases hnext

end

/-- Reading undoes writing. -/
theorem parse?_render {j : Json} (h : j.isPlain = true) : parse? j.render = some j := by
  have hread := value?_chars j ((chars j).length + 1) [] h (Nat.le_succ _) ends_nil
  rw [List.append_nil] at hread
  rw [parse?, render, String.toList_ofList]
  refine Option.bind_eq_some_iff.2 ⟨_, hread, ?_⟩
  rfl

/-! ### One line -/

/-- A text without control characters, so without line breaks. -/
def Printable (text : List Char) : Prop := ∀ c ∈ text, 32 ≤ c.toNat

theorem printable_nil : Printable [] := by
  intro c hc
  cases hc

theorem printable_cons {c : Char} {text : List Char} (hc : 32 ≤ c.toNat) (h : Printable text) :
    Printable (c :: text) := by
  intro d hd
  rcases List.mem_cons.1 hd with rfl | hd
  · exact hc
  · exact h d hd

theorem printable_append {a b : List Char} (ha : Printable a) (hb : Printable b) :
    Printable (a ++ b) := by
  intro c hc
  rcases List.mem_append.1 hc with hc | hc
  · exact ha c hc
  · exact hb c hc

theorem printable_of_all {text : List Char} (h : text.all (fun c => 32 ≤ c.toNat) = true) :
    Printable text :=
  fun c hc => of_decide_eq_true (List.all_eq_true.1 h c hc)

theorem printable_append_iff {a b : List Char} :
    Printable (a ++ b) ↔ Printable a ∧ Printable b := by
  constructor
  · intro h
    exact ⟨fun c hc => h c (List.mem_append_left b hc),
      fun c hc => h c (List.mem_append_right a hc)⟩
  · rintro ⟨ha, hb⟩
    exact printable_append ha hb

theorem printable_flatMap {α : Type} {f : α → List Char} {xs : List α}
    (h : ∀ x ∈ xs, Printable (f x)) : Printable (xs.flatMap f) := by
  intro c hc
  obtain ⟨x, hx, hc⟩ := List.mem_flatMap.1 hc
  exact h x hx c hc

/-- A text is printable if its characters are of a class without control characters. -/
theorem printable_of_class {p : Char → Bool} (hp : ∀ n < 32, p (Char.ofNat n) = false)
    {text : List Char} (h : ∀ c ∈ text, p c = true) : Printable text := by
  intro c hc
  refine Nat.le_of_not_lt fun hlow => ?_
  have hclass := h c hc
  rw [← Char.ofNat_toNat c, hp c.toNat hlow] at hclass
  cases hclass

theorem printable_of_isDigit {text : List Char} (h : ∀ c ∈ text, c.isDigit = true) :
    Printable text :=
  printable_of_class (by decide) h

theorem printable_of_isAlpha {text : List Char} (h : ∀ c ∈ text, c.isAlpha = true) :
    Printable text :=
  printable_of_class (by decide) h

theorem Printable.not_mem_newline {text : List Char} (h : Printable text) : '\n' ∉ text :=
  fun hc => absurd (h '\n' hc) (by decide)

theorem Printable.not_mem_return {text : List Char} (h : Printable text) : '\r' ∉ text :=
  fun hc => absurd (h '\r' hc) (by decide)

theorem printable_of_shortEscape {c e : Char} (h : shortEscape? e = some c) : 32 ≤ e.toNat := by
  unfold shortEscape? at h
  split at h
  · next he => rcases he with rfl | rfl | rfl <;> decide
  split at h
  · next he => rw [he]; decide
  split at h
  · next he => rw [he]; decide
  split at h
  · next he => rw [he]; decide
  split at h
  · next he => rw [he]; decide
  split at h
  · next he => rw [he]; decide
  · cases h

theorem printable_hexByte {digits : Array Char}
    (hdigits : ∀ n < 16, 32 ≤ (digits.getD n '0').toNat) (b : UInt8) :
    Printable (Bytes.hexByte digits b) := by
  have hlt := b.toNat_lt
  exact printable_cons (hdigits _ (by omega))
    (printable_cons (hdigits _ (by omega)) printable_nil)

theorem printable_escape (c : Char) : Printable (escape c) := by
  rcases escape_cases c with ⟨e, hescape, he⟩ | ⟨-, hescape⟩ | ⟨-, -, hlow, hescape⟩
  · rw [hescape]
    exact printable_cons (by decide) (printable_cons (printable_of_shortEscape he) printable_nil)
  · rw [hescape]
    exact printable_append (printable_of_all rfl) (printable_hexByte (by decide) _)
  · rw [hescape]
    exact printable_cons (Nat.le_of_not_lt hlow) printable_nil

theorem printable_quote (s : String) : Printable (quote s) := by
  refine printable_cons (by decide) (printable_append ?_ (printable_cons (by decide) printable_nil))
  exact printable_flatMap fun c _ => printable_escape c

mutual

/-- The text of a plain value has no control characters: those of its strings are escaped. -/
theorem printable_chars : ∀ (j : Json), j.isPlain = true → Printable (chars j)
  | .null, _ => printable_of_all rfl
  | .bool true, _ => printable_of_all rfl
  | .bool false, _ => printable_of_all rfl
  | .natural value, _ => printable_of_isDigit (Text.isDigit_of_mem_toDigits value)
  | .string text, _ => printable_quote _
  | .array items, h =>
      printable_cons (by decide) (printable_append (printable_itemChars items h)
        (printable_cons (by decide) printable_nil))
  | .object members, h =>
      printable_cons (by decide) (printable_append (printable_memberChars members h)
        (printable_cons (by decide) printable_nil))

theorem printable_itemChars : ∀ (items : List Json), itemsPlain items = true →
    Printable (itemChars items)
  | [], _ => printable_nil
  | [item], h => printable_chars item (Bool.and_eq_true_iff.1 h).1
  | item :: next :: rest, h =>
      printable_append (printable_chars item (Bool.and_eq_true_iff.1 h).1)
        (printable_cons (by decide)
          (printable_itemChars (next :: rest) (Bool.and_eq_true_iff.1 h).2))

theorem printable_memberChars : ∀ (members : List (Option String × Json)),
    membersPlain members = true → Printable (memberChars members)
  | [], _ => printable_nil
  | [(_name, value)], h => by
      have hmember := (Bool.and_eq_true_iff.1 h).1
      exact printable_append (printable_quote _) (printable_cons (by decide)
        (printable_chars value (Bool.and_eq_true_iff.1 hmember).2))
  | (_name, value) :: next :: rest, h => by
      have hboth := Bool.and_eq_true_iff.1 h
      have hvalue := printable_chars value (Bool.and_eq_true_iff.1 hboth.1).2
      have hrest := printable_memberChars (next :: rest) hboth.2
      exact printable_append (printable_append (printable_quote _)
        (printable_cons (by decide) hvalue)) (printable_cons (by decide) hrest)

end

end MeterRadio.Json
