/-
Module: MeterRadio.Proofs.BufferBounds
Purpose: The decoder in checked buffers always has an answer, and it is that of the decoder in
  windows: no difference falls below zero and no place lies outside its buffer, for every profile
  whose preamble is not longer than its packet.
Main exports: Decoder.table?_eq, Decoder.prefixSums_succ, Decoder.packetAt?_eq,
  Decoder.search?_eq, Decoder.Buffers.Hold, Decoder.Buffers.Hold.exists_decode?,
  Decoder.Buffers.Contained, Decoder.Buffers.decoder_within_buffers
-/
import MeterRadio.Proofs.BitReading
import MeterRadio.Proofs.BufferWrites
import MeterRadio.Proofs.ProfileSizes

namespace MeterRadio

namespace Decoder

theorem getElem?_eq_getD {α : Type} {items : Array α} {i : Nat} (h : i < items.size) (d : α) :
    items[i]? = some (items.getD i d) := by
  rw [Array.getD_eq_getD_getElem?, Array.getElem?_eq_getElem h, Option.getD_some]

/-! ### The table of strengths -/

theorem tablePlace_eq (i : Nat) {q : Nat} (hq : q < 256) : tablePlace i q = i * 256 + q := by
  have hplace := Nat.shiftLeft_add_eq_or_of_lt (i := 8) hq i
  rw [tablePlace, ← hplace, Nat.shiftLeft_eq]

theorem size_tableOf (mode : Envelope.Mode) : (Envelope.tableOf mode).size = 256 * 256 := by
  cases mode with
  | exact => exact Array.size_ofFn
  | fast => exact Array.size_ofFn

/-- Every sample has its place in the table. -/
theorem getElem?_tableOf (mode : Envelope.Mode) (i q : UInt8) :
    (Envelope.tableOf mode)[tablePlace i.toNat q.toNat]? =
      some (Envelope.magnitude mode i q) := by
  have hi : i.toNat < 256 := i.toNat_lt
  have hq : q.toNat < 256 := q.toNat_lt
  have hinside : i.toNat * 256 + q.toNat < (Envelope.tableOf mode).size := by
    rw [size_tableOf]
    omega
  rw [tablePlace_eq _ hq, getElem?_eq_getD hinside 0]
  exact congrArg some (Envelope.lookup_tableOf mode i q)

/-- The rows written so far are those of the table. -/
structure Tabled (mode : Envelope.Mode) (rows : Nat) (current : Array Nat) : Prop where
  size_eq : current.size = 256 * 256
  written : ∀ place < rows * 256, current[place]? = (Envelope.tableOf mode)[place]?

/-- One more row is written inside the table, and the rows before it are left alone. -/
theorem Tabled.row {mode : Envelope.Mode} {i : Nat} {current : Array Nat}
    (h : Tabled mode i current) (hi : i < 256) :
    ∃ next, fill? (tablePlace i)
        (fun _ q => some (Envelope.magnitude mode (UInt8.ofNat i) (UInt8.ofNat q))) 256 current =
          some next ∧ Tabled mode (i + 1) next := by
  have hplace : ∀ q < 256, tablePlace i q < current.size ∧
      tablePlace i q < (Envelope.tableOf mode).size := by
    intro q hq
    rw [tablePlace_eq i hq, h.size_eq, size_tableOf]
    omega
  have hvalue : ∀ q < 256, ∀ buffer : Array Nat,
      Filled (tablePlace i) (Envelope.tableOf mode) current q buffer →
        some (Envelope.magnitude mode (UInt8.ofNat i) (UInt8.ofNat q)) =
          (Envelope.tableOf mode)[tablePlace i q]? := by
    intro q hq _ _
    have hsample := getElem?_tableOf mode (UInt8.ofNat i) (UInt8.ofNat q)
    rw [UInt8.toNat_ofNat_of_lt' hi, UInt8.toNat_ofNat_of_lt' hq] at hsample
    exact hsample.symm
  obtain ⟨next, hfill, hfilled⟩ := exists_fill? hplace hvalue
  refine ⟨next, hfill, hfilled.size_eq.trans h.size_eq, ?_⟩
  intro place hlt
  rcases Nat.lt_or_ge place (i * 256) with hbefore | hrow
  · have hother : ∀ q < 256, tablePlace i q ≠ place := by
      intro q hq
      rw [tablePlace_eq i hq]
      omega
    rw [hfilled.kept place hother]
    exact h.written place hbefore
  · have hq : place - i * 256 < 256 := by omega
    have hsame : tablePlace i (place - i * 256) = place := by
      rw [tablePlace_eq i hq]
      omega
    have hwritten := hfilled.written (place - i * 256) hq
    rw [hsame] at hwritten
    exact hwritten

/-- The table is built inside its buffer. -/
theorem table?_eq (mode : Envelope.Mode) : table? mode = some (Envelope.tableOf mode) := by
  have hstart : Tabled mode 0 (Array.replicate (256 * 256) 0) := by
    refine ⟨Array.size_replicate, ?_⟩
    intro place hplace
    omega
  obtain ⟨table, htable, htabled⟩ := exists_loop? (Tabled mode) hstart
    (fun i hi current hcurrent => hcurrent.row hi)
  rw [table?, htable, Option.some_inj]
  apply Array.ext_getElem?
  intro place
  rcases Nat.lt_or_ge place (256 * 256) with hlt | hge
  · exact htabled.written place hlt
  · rw [Array.getElem?_eq_none (by rw [htabled.size_eq]; exact hge),
      Array.getElem?_eq_none (by rw [size_tableOf]; exact hge)]

/-! ### Strengths -/

/-- A sample of a block is looked up inside the block and inside the table. -/
theorem strength?_eq (mode : Envelope.Mode) (block : Bytes) :
    ∀ j < block.length / 2,
      strength? (Envelope.tableOf mode) block j = (Envelope.magnitudes mode block)[j]? := by
  induction block using Envelope.magnitudes.induct with
  | case1 i q rest ih =>
      intro j hj
      cases j with
      | zero => exact getElem?_tableOf mode i q
      | succ j =>
          have hrest : j < rest.length / 2 := by
            simp only [List.length_cons] at hj
            omega
          rw [Envelope.magnitudes_cons, List.getElem?_cons_succ, ← ih j hrest]
          rfl
  | case2 block hshort =>
      intro j hj
      have hlength := Envelope.length_magnitudes mode block
      rw [Envelope.magnitudes, List.length_nil] at hlength
      · omega
      · exact hshort

theorem length_magnitudes_block {p : Profile} (mode : Envelope.Mode) {block : Bytes}
    (hblock : block.length = p.blockBytes) :
    (Envelope.magnitudes mode block).length = p.blockSize := by
  rw [Envelope.length_magnitudes, hblock]
  exact Nat.mul_div_cancel_left _ Nat.zero_lt_two

/-- The strengths of a whole block are written over the end of the window. -/
theorem strengths?_eq {p : Profile} (mode : Envelope.Mode) {block : Bytes} {signal : Array Nat}
    (hblock : block.length = p.blockBytes) (hsignal : p.blockSize ≤ signal.size) :
    strengths? (Envelope.tableOf mode) block p.blockSize signal =
      some (overwriteEnd signal.toList (Envelope.magnitudes mode block)).toArray := by
  have hlength := length_magnitudes_block mode hblock
  have hhalf : block.length / 2 = p.blockSize := by
    rw [← hlength, Envelope.length_magnitudes]
  have hroom : signal.size - (Envelope.magnitudes mode block).length +
      (Envelope.magnitudes mode block).length = signal.size := by
    rw [hlength]
    exact Nat.sub_add_cancel hsignal
  have hlookup : ∀ j < (Envelope.magnitudes mode block).length, ∀ _ : Array Nat,
      strength? (Envelope.tableOf mode) block j = (Envelope.magnitudes mode block)[j]? := by
    intro j hj _
    rw [hlength, ← hhalf] at hj
    exact strength?_eq mode block j hj
  rw [strengths?, difference?_of_le hsignal, hhalf, Nat.min_self, ← hlength]
  exact fill?_end hroom hlookup

/-- The window of strengths is moved on in its buffer by a whole block. -/
theorem slideStrengths?_eq {p : Profile} (mode : Envelope.Mode) {block : Bytes}
    {signal : Array Nat} (hblock : block.length = p.blockBytes)
    (hsignal : p.blockSize ≤ signal.size) :
    slideStrengths? (Envelope.tableOf mode) block p.blockSize signal =
      some (slide signal.toList (Envelope.magnitudes mode block)).toArray := by
  have hlength := length_magnitudes_block mode hblock
  have hmoved := size_moveDown hsignal
  have hslide : slide signal.toList (Envelope.magnitudes mode block) =
      overwriteEnd (moveDown p.blockSize signal.toList) (Envelope.magnitudes mode block) := by
    rw [← hlength]
    exact slide_eq_moveDown (by simpa [hlength] using hsignal)
  rw [slideStrengths?, moveDown?_eq hsignal, hslide]
  exact strengths?_eq mode hblock (hmoved ▸ hsignal)

/-! ### Prefix sums -/

/-- How sums go on: what was there stays, and each new sum adds one strength to the sum before. -/
theorem getElem?_foldl_add (signal : List Nat) :
    ∀ (n : Nat) (sums : Array Nat × Nat), sums.1.size = n + 1 → sums.1[n]? = some sums.2 →
      let later := (signal.foldl (fun (sums : Array Nat × Nat) m =>
        let total := add sums.2 m
        (sums.1.push total, total)) sums).1
      (∀ i ≤ n, later[i]? = sums.1[i]?) ∧
        ∀ i m, signal[i]? = some m → later[n + i + 1]? = later[n + i]?.map (add · m) := by
  induction signal with
  | nil =>
      intro n sums _ _
      exact ⟨fun i _ => rfl, fun i m hm => absurd hm (by simp)⟩
  | cons first rest ih =>
      intro n sums hsize htotal
      have hpush : (sums.1.push (add sums.2 first))[n + 1]? = some (add sums.2 first) := by
        rw [← hsize, Array.getElem?_push_size]
      have hstay : ∀ i ≤ n, (sums.1.push (add sums.2 first))[i]? = sums.1[i]? := by
        intro i hi
        have hbefore : i < sums.1.size := by omega
        rw [Array.getElem?_push_lt hbefore, Array.getElem?_eq_getElem hbefore]
      obtain ⟨hkept, hsums⟩ := ih (n + 1) (sums.1.push (add sums.2 first), add sums.2 first)
        (by rw [Array.size_push, hsize]) hpush
      constructor
      · intro i hi
        rw [List.foldl_cons, hkept i (Nat.le_succ_of_le hi), hstay i hi]
      · intro i m hm
        rw [List.foldl_cons]
        cases i with
        | zero =>
            obtain rfl : first = m := by simpa using hm
            have hnow := (hkept (n + 1) (Nat.le_refl _)).trans hpush
            have hbefore := (hkept n (Nat.le_succ n)).trans ((hstay n (Nat.le_refl n)).trans htotal)
            exact hnow.trans (congrArg (Option.map (add · first)) hbefore).symm
        | succ i =>
            have hnext := hsums i m (by simpa using hm)
            rw [Nat.add_right_comm n 1 i] at hnext
            exact hnext

theorem prefixSums_zero (signal : List Nat) : (prefixSums signal)[0]? = some 0 :=
  (getElem?_foldl_add signal 0 (#[0], 0) rfl rfl).1 0 (Nat.le_refl 0)

/-- Each sum adds one strength to the sum before, whatever is rounded. -/
theorem prefixSums_succ {signal : List Nat} {i m : Nat} (h : signal[i]? = some m) :
    (prefixSums signal)[i + 1]? = (prefixSums signal)[i]?.map (add · m) := by
  have hsums := (getElem?_foldl_add signal 0 (#[0], 0) rfl rfl).2 i m h
  rw [Nat.zero_add] at hsums
  exact hsums

/-- Adding up stays inside a buffer with one place more than there are strengths. -/
theorem sumUp?_eq {signal sums : Array Nat} (hsize : sums.size = signal.size + 1)
    (hzero : sums[0]? = some 0) :
    sumUp? signal sums = some (prefixSums signal.toList) := by
  have htarget : (prefixSums signal.toList).size = sums.size := by
    rw [size_prefixSums, Array.length_toList, hsize]
  refine fill?_eq htarget ?place ?value ?rest
  case place =>
    intro i hi
    omega
  case value =>
    intro i hi current hfilled
    have hsum : current[i]? = (prefixSums signal.toList)[i]? := by
      cases i with
      | zero =>
          rw [hfilled.kept 0 fun j hj => absurd hj (Nat.not_lt_zero j), hzero, prefixSums_zero]
      | succ i => exact hfilled.written i (Nat.lt_succ_self i)
    have hstrength : signal.toList[i]? = some signal[i] := by
      rw [Array.getElem?_toList, Array.getElem?_eq_getElem hi]
    rw [prefixSums_succ hstrength, hsum, Array.getElem?_eq_getElem hi]
    cases (prefixSums signal.toList)[i]? <;> rfl
  case rest =>
    intro i hi
    cases i with
    | zero => rw [hzero, prefixSums_zero]
    | succ i =>
        have hend : signal.size ≤ i := Nat.le_of_not_lt fun hlt => hi i hlt rfl
        rw [Array.getElem?_eq_none (by omega), Array.getElem?_eq_none (by omega)]

/-! ### Decisions -/

theorem decision?_eq {n i : Nat} {sums : Array Nat} (h : i + 2 * n < sums.size) :
    decision? n sums i = some (decision n sums i) := by
  rw [decision?, getElem?_eq_getD h 0, getElem?_eq_getD (by omega : i + n < sums.size) 0,
    getElem?_eq_getD (by omega : i < sums.size) 0]
  rfl

/-- The filter at every place of the decisions stays inside the sums. -/
theorem decisions?_eq {p : Profile} {signal : List Nat} {bits : Array Bool}
    (hbit : p.bitLength ≤ p.bufferLength) (hsignal : signal.length = p.bufferLength)
    (hbits : bits.size = p.bufferLength - p.bitLength + 1) :
    decisions? p.symbolLength (prefixSums signal) bits = some (decisions p signal) := by
  have hsize : (decisions p signal).size = bits.size := by
    rw [size_decisions hbit, hbits]
  have hlength : p.bitLength = 2 * p.symbolLength := rfl
  refine fill?_eq hsize (fun i hi => hi) ?value ?rest
  case value =>
    intro i hi current _
    have hplace : i + 2 * p.symbolLength < (prefixSums signal).size := by
      rw [size_prefixSums, hsignal]
      omega
    have hinside : i < p.bufferLength + 1 - p.bitLength := by omega
    rw [decision?_eq hplace, decisions, Array.getElem?_ofFn, id, dif_pos hinside]
  case rest =>
    intro i hi
    have hend : bits.size ≤ i := Nat.le_of_not_lt fun hlt => hi i hlt rfl
    rw [Array.getElem?_eq_none (hsize ▸ hend), Array.getElem?_eq_none hend]

/-! ### Preambles and packets -/

theorem getElem?_eq_bitAt {bits : Array Bool} {i : Nat} (h : i < bits.size) :
    bits[i]? = some (bitAt bits i) :=
  getElem?_eq_getD h false

theorem matchesFrom?_eq {p : Profile} {bits : Array Bool} {offset : Nat} (wanted : List Bool) :
    ∀ k, (∀ i < k + wanted.length, position p offset i < bits.size) →
      matchesFrom? p bits offset k wanted = some (matchesFrom p bits offset k wanted) := by
  induction wanted with
  | nil => intro k _; rfl
  | cons b rest ih =>
      intro k hplaces
      rw [List.length_cons] at hplaces
      have hrest := ih (k + 1) fun i hi => hplaces i (by omega)
      have hfound := getElem?_eq_bitAt (hplaces k (by omega))
      rw [matchesFrom?, hfound, matchesFrom]
      show (if bitAt bits (position p offset k) == b then matchesFrom? p bits offset (k + 1) rest
        else some false) = _
      rw [hrest]
      cases bitAt bits (position p offset k) == b <;> rfl

/-- A preamble is compared inside the decisions, if the places of all bits of a packet are. -/
theorem preambleAt?_eq {p : Profile} {bits : Array Bool} {offset : Nat}
    (hpreamble : p.preambleSymbols ≤ p.packetSymbols)
    (hplaces : ∀ k < p.packetSymbols, position p offset k < bits.size) :
    matchesFrom? p bits offset 0 p.preambleBits =
      some (preambleAt p p.preambleBits bits offset) := by
  refine matchesFrom?_eq p.preambleBits 0 fun k hk => ?_
  rw [Nat.zero_add, Profile.length_preambleBits] at hk
  exact hplaces k (Nat.lt_of_lt_of_le hk hpreamble)

theorem toNat_oneShifted {shift : Nat} (h : shift < 8) :
    ((1 : UInt8) <<< UInt8.ofNat shift).toNat = 2 ^ shift := by
  have hall : ∀ s : Fin 8, ((1 : UInt8) <<< UInt8.ofNat s.val).toNat = 2 ^ s.val := by decide
  exact hall ⟨shift, h⟩

/-- A set bit is set, and every other bit is left alone. -/
theorem setBit?_eq {k : Nat} {bytes : Array UInt8} (h : k / 8 < bytes.size) :
    ∃ next, setBit? k bytes = some next ∧ next.size = bytes.size ∧
      ∀ i, Bits.bit next.toList i = (decide (i = k) || Bits.bit bytes.toList i) := by
  have hshift : k % 8 ≤ 7 := by omega
  refine ⟨bytes.set (k / 8) (bytes[k / 8] ||| (1 <<< UInt8.ofNat (7 - k % 8))) h, ?set,
    Array.size_set h, ?bits⟩
  case set =>
    rw [setBit?, difference?_of_le hshift, Array.getElem?_eq_getElem h]
    exact write?_of_lt h _
  case bits =>
    intro i
    rw [Bits.bit, Bits.bit, List.getD_eq_getElem?_getD, List.getD_eq_getElem?_getD,
      Array.getElem?_toList, Array.getElem?_toList, Array.getElem?_set]
    by_cases hbyte : k / 8 = i / 8
    · have hplace : (7 - k % 8 = 7 - i % 8) ↔ i = k := by omega
      rw [if_pos hbyte, Option.getD_some, UInt8.toNat_or, toNat_oneShifted (by omega),
        Nat.testBit_or, Nat.testBit_two_pow, ← hbyte, Array.getElem?_eq_getElem h,
        Option.getD_some, Bool.or_comm, decide_eq_decide.2 hplace]
    · have hother : ¬ i = k := by
        rintro rfl
        exact hbyte rfl
      rw [if_neg hbyte, decide_eq_false hother, Bool.false_or]

/-- The bytes of a packet under way: the bits before `k` are there, and those after them clear. -/
structure Sliced (p : Profile) (bits : Array Bool) (offset k : Nat) (bytes : Array UInt8) :
    Prop where
  size_eq : bytes.size = p.packetBytes
  bit_eq : ∀ i, Bits.bit bytes.toList i = (decide (i < k) && bitAt bits (position p offset i))

theorem Sliced.start (p : Profile) (bits : Array Bool) (offset : Nat) :
    Sliced p bits offset 0 (Array.replicate p.packetBytes 0) where
  size_eq := Array.size_replicate
  bit_eq i := by
    have hclear : (List.replicate p.packetBytes (0 : UInt8)).getD (i / 8) 0 = 0 := by
      rw [List.getD_eq_getElem?_getD, List.getElem?_replicate]
      split <;> rfl
    rw [Array.toList_replicate, Bits.bit, hclear, decide_eq_false (Nat.not_lt_zero i),
      Bool.false_and]
    exact Nat.zero_testBit _

/-- The next bit of a packet is read inside the decisions and written inside the bytes. -/
theorem Sliced.step {p : Profile} {bits : Array Bool} {offset k : Nat} {bytes : Array UInt8}
    (h : Sliced p bits offset k bytes) (hk : k < p.packetSymbols)
    (hplace : position p offset k < bits.size) :
    ∃ next, slice? p bits offset k bytes = some next ∧ Sliced p bits offset (k + 1) next := by
  have hbyte : k / 8 < bytes.size := by
    rw [h.size_eq, Profile.packetBytes]
    omega
  have hbefore : ∀ i, i ≠ k → decide (i < k + 1) = decide (i < k) := by
    intro i hi
    exact decide_eq_decide.2 (by omega)
  rw [slice?, getElem?_eq_bitAt hplace]
  cases hbit : bitAt bits (position p offset k) with
  | false =>
      refine ⟨bytes, rfl, h.size_eq, ?_⟩
      intro i
      rw [h.bit_eq]
      by_cases hi : i = k
      · rw [hi, hbit, Bool.and_false, Bool.and_false]
      · rw [hbefore i hi]
  | true =>
      obtain ⟨next, hset, hsize, hbits⟩ := setBit?_eq hbyte
      refine ⟨next, hset, hsize.trans h.size_eq, ?_⟩
      intro i
      rw [hbits, h.bit_eq]
      by_cases hi : i = k
      · rw [hi, hbit]
        simp
      · rw [hbefore i hi, decide_eq_false hi, Bool.false_or]

/-- A packet is read inside the decisions and written inside its bytes, bit by bit. -/
theorem packetAt?_eq {p : Profile} {bits : Array Bool} {offset : Nat}
    (hplaces : ∀ k < p.packetSymbols, position p offset k < bits.size) :
    packetAt? p bits offset = some (packetAt p bits offset) := by
  obtain ⟨bytes, hloop, hsliced⟩ := exists_loop? (Sliced p bits offset) (.start p bits offset)
    (fun k hk _ hbytes => hbytes.step hk (hplaces k hk))
  have hlength : (packetAt p bits offset).length = bytes.toList.length := by
    rw [packetAt, Bits.length_pack, List.length_map, List.length_range, Array.length_toList,
      hsliced.size_eq, Profile.packetBytes]
  have hbits : ∀ i, Bits.bit bytes.toList i = Bits.bit (packetAt p bits offset) i := by
    intro i
    rw [hsliced.bit_eq, packetAt, Bits.bit_pack, List.getD_eq_getElem?_getD, List.getElem?_map]
    rcases Nat.lt_or_ge i p.packetSymbols with hlt | hge
    · rw [List.getElem?_range hlt, decide_eq_true hlt, Bool.true_and, Option.map_some,
        Option.getD_some]
    · rw [List.getElem?_eq_none (by simpa using hge), decide_eq_false (Nat.not_lt.2 hge),
        Bool.false_and, Option.map_none, Option.getD_none]
  have hbytes : bytes.toList = packetAt p bits offset := by
    apply List.ext_getElem hlength.symm
    intro j hj hj'
    have hget := Bits.getD_eq_of_bits (k := j) fun i _ _ => hbits i
    rw [List.getD_eq_getElem?_getD, List.getElem?_eq_getElem hj, List.getD_eq_getElem?_getD,
      List.getElem?_eq_getElem hj'] at hget
    exact hget
  rw [packetAt?, hloop]
  exact congrArg some hbytes

/-! ### Searching -/

/-- Looking at a position stays inside the decisions, if the places of all its bits do. -/
theorem visit?_eq {p : Profile} {bits : Array Bool} {recent : List Bytes} {offset : Nat}
    (hpreamble : p.preambleSymbols ≤ p.packetSymbols)
    (hplaces : ∀ k < p.packetSymbols, position p offset k < bits.size) (s : Search) :
    visit? p p.preambleBits bits recent offset s =
      some (if preambleAt p p.preambleBits bits offset then
        s.visit recent ⟨offset, packetAt p bits offset⟩ else s) := by
  rw [visit?, preambleAt?_eq hpreamble hplaces, packetAt?_eq hplaces, preambleAt]
  cases matchesFrom p bits offset 0 p.preambleBits <;> rfl

/-- The packets at positions below `n`, in order. -/
def hitsBelow (p : Profile) (bits : Array Bool) (n : Nat) : List Hit :=
  (List.range n).filterMap fun offset =>
    if preambleAt p p.preambleBits bits offset then some ⟨offset, packetAt p bits offset⟩ else none

theorem search_hitsBelow_succ (p : Profile) (bits : Array Bool) (recent : List Bytes) (n : Nat) :
    search recent (hitsBelow p bits (n + 1)) =
      if preambleAt p p.preambleBits bits n then
        (search recent (hitsBelow p bits n)).visit recent ⟨n, packetAt p bits n⟩
      else search recent (hitsBelow p bits n) := by
  rw [hitsBelow, List.range_succ, List.filterMap_append, search, List.foldl_append]
  by_cases hmatch : preambleAt p p.preambleBits bits n
  · rw [if_pos hmatch, List.filterMap_cons, if_pos hmatch]
    rfl
  · rw [if_neg hmatch, List.filterMap_cons, if_neg hmatch]
    rfl

/-- Looking at all searched positions one after the other is looking at the hits. -/
theorem search?_eq {p : Profile} {bits : Array Bool} (recent : List Bytes)
    (hpreamble : p.preambleSymbols ≤ p.packetSymbols)
    (hplaces : ∀ offset < p.blockSize, ∀ k < p.packetSymbols,
      position p offset k < bits.size) :
    loop? (visit? p p.preambleBits bits recent) p.blockSize .empty =
      some (search recent (hits p bits)) := by
  have hstep : ∀ n < p.blockSize, ∀ s, s = search recent (hitsBelow p bits n) →
      ∃ next, visit? p p.preambleBits bits recent n s = some next ∧
        next = search recent (hitsBelow p bits (n + 1)) := by
    rintro n hn s rfl
    exact ⟨_, visit?_eq hpreamble (hplaces n hn) _, (search_hitsBelow_succ p bits recent n).symm⟩
  have hstart : Search.empty = search recent (hitsBelow p bits 0) := rfl
  obtain ⟨s, hloop, hs⟩ :=
    exists_loop? (fun n s => s = search recent (hitsBelow p bits n)) hstart hstep
  rw [hloop, hs]
  rfl

namespace Buffers

/-! ### The decoder

`Hold` carries the whole proof. Fresh buffers have it and every block preserves it. The loops take
their bounds from it, so the same induction gives each step an answer. -/

/-- Buffers hold what a decoder holds, and beside it the table of its mode, the sums of its
strengths and its decisions. -/
structure Hold (b : Buffers) (d : Decoder) : Prop where
  profile_eq : b.profile = d.profile
  table_eq : b.table = Envelope.tableOf d.mode
  preamble_eq : b.preamble = d.profile.preambleBits
  iq_eq : b.iq.toList = d.iq
  signal_eq : b.signal.toList = d.signal
  sums_eq : b.sums = prefixSums d.signal
  bits_eq : b.bits = decisions d.profile d.signal
  recent_eq : b.recent = d.recent
  size_iq : b.iq.size = 2 * d.profile.bufferLength
  size_signal : b.signal.size = d.profile.bufferLength

/-! ### Building -/

/-- Silence adds up to zero everywhere. -/
theorem prefixSums_silence (n : Nat) :
    prefixSums (List.replicate n 0) = Array.replicate (n + 1) 0 := by
  have hzero : ∀ i ≤ n, (prefixSums (List.replicate n 0))[i]? = some 0 := by
    intro i
    induction i with
    | zero => intro _; exact prefixSums_zero _
    | succ i ih =>
        intro hi
        have hsilent : (List.replicate n 0)[i]? = some 0 := by
          rw [List.getElem?_replicate, if_pos (Nat.lt_of_succ_le hi)]
        rw [prefixSums_succ hsilent, ih (Nat.le_of_succ_le hi)]
        rfl
  have hsize : (prefixSums (List.replicate n 0)).size = n + 1 := by
    rw [size_prefixSums, List.length_replicate]
  apply Array.ext_getElem?
  intro i
  rw [Array.getElem?_replicate]
  split
  case isTrue hi => exact hzero i (Nat.le_of_lt_succ hi)
  case isFalse hi => exact Array.getElem?_eq_none (hsize ▸ Nat.le_of_not_lt hi)

/-- In silence every decision is a clear bit. -/
theorem decisions_silence {p : Profile} (h : p.bitLength ≤ p.bufferLength) :
    decisions p (List.replicate p.bufferLength 0) =
      Array.replicate (p.bufferLength - p.bitLength + 1) false := by
  have hget : ∀ i, (Array.replicate (p.bufferLength + 1) 0).getD i 0 = 0 := by
    intro i
    rw [Array.getD_eq_getD_getElem?, Array.getElem?_replicate]
    split <;> rfl
  apply Array.ext_getElem?
  intro i
  rw [decisions, Array.getElem?_ofFn, Array.getElem?_replicate, Nat.sub_add_comm h]
  split
  case isTrue =>
    rw [decision, prefixSums_silence, hget, hget, hget]
    rfl
  case isFalse => rfl

/-- The buffers of a fresh decoder are built if its packets have a bit. -/
theorem exists_build? {p : Profile} (mode : Envelope.Mode) (h : p.bitLength ≤ p.bufferLength) :
    ∃ b, build? p mode = some b ∧ b.Hold (fresh p mode) := by
  rw [build?, table?_eq, difference?_of_le h]
  refine ⟨_, rfl, rfl, rfl, rfl, ?iq, ?signal, ?sums, ?bits, rfl, ?sizeIq, ?sizeSignal⟩
  case iq => exact Array.toList_replicate
  case signal => exact Array.toList_replicate
  case sums => exact (prefixSums_silence p.bufferLength).symm
  case bits => exact (decisions_silence h).symm
  case sizeIq => exact Array.size_replicate
  case sizeSignal => exact Array.size_replicate

/-! ### Taking in a block

The steps of a call in their order, each under what the ones before it have left. Together they
make the answer of the call and the buffers for the next one. -/

/-- The bits of a packet at a searched position are among the decisions. -/
theorem position_lt_size_decisions {p : Profile} (signal : List Nat) {offset k : Nat}
    (hoffset : offset < p.blockSize) (hk : k < p.packetSymbols) :
    position p offset k < (decisions p signal).size := by
  have hinside := Profile.position_le hoffset hk
  rw [size_decisions (Nat.le_trans (Nat.le_add_left _ _) hinside)]
  omega

/-- The window of strengths after a block. -/
theorem signal_decode (d : Decoder) (block : Bytes) :
    (d.decode block).1.signal = slide d.signal (Envelope.magnitudes d.mode block) := by
  rw [decode, Envelope.lookupAll_tableOf]
  rfl

section Block

variable {b : Buffers} {d : Decoder} {block : Bytes}

theorem Hold.length_signal (h : b.Hold d) : d.signal.length = d.profile.bufferLength := by
  rw [← h.signal_eq, Array.length_toList, h.size_signal]

theorem Hold.length_signal_decode (h : b.Hold d) :
    (d.decode block).1.signal.length = d.profile.bufferLength := by
  rw [signal_decode, length_slide, h.length_signal]

theorem Hold.slide_iq (h : b.Hold d) (hblock : block.length = d.profile.blockBytes) :
    slide? d.profile.blockBytes block b.iq = some (d.decode block).1.iq.toArray := by
  have hroom : d.profile.blockBytes ≤ b.iq.size := by
    rw [h.size_iq]
    exact Nat.mul_le_mul_left 2 (Nat.le_add_left _ _)
  rw [slide?_eq hroom hblock, h.iq_eq]
  rfl

theorem Hold.slide_signal (h : b.Hold d) (hblock : block.length = d.profile.blockBytes) :
    slideStrengths? b.table block d.profile.blockSize b.signal =
      some (d.decode block).1.signal.toArray := by
  have hroom : d.profile.blockSize ≤ b.signal.size := by
    rw [h.size_signal]
    exact Nat.le_add_left _ _
  rw [h.table_eq, slideStrengths?_eq d.mode hblock hroom, h.signal_eq, signal_decode]

theorem Hold.sumUp (h : b.Hold d) :
    sumUp? (d.decode block).1.signal.toArray b.sums =
      some (prefixSums (d.decode block).1.signal) := by
  have hsize : b.sums.size = (d.decode block).1.signal.toArray.size + 1 := by
    rw [h.sums_eq, size_prefixSums, h.length_signal, List.size_toArray, h.length_signal_decode]
  have hzero : b.sums[0]? = some 0 := by
    rw [h.sums_eq, prefixSums_zero]
  exact sumUp?_eq hsize hzero

theorem Hold.decide_all (h : b.Hold d) (hbit : d.profile.bitLength ≤ d.profile.bufferLength) :
    decisions? d.profile.symbolLength (prefixSums (d.decode block).1.signal) b.bits =
      some (decisions d.profile (d.decode block).1.signal) := by
  have hsize : b.bits.size = d.profile.bufferLength - d.profile.bitLength + 1 := by
    rw [h.bits_eq, size_decisions hbit]
  exact decisions?_eq hbit h.length_signal_decode hsize

theorem Hold.search_all (h : b.Hold d)
    (hpreamble : d.profile.preambleSymbols ≤ d.profile.packetSymbols) (signal : List Nat) :
    loop? (visit? d.profile b.preamble (decisions d.profile signal) b.recent)
      d.profile.blockSize .empty =
        some (search d.recent (hits d.profile (decisions d.profile signal))) := by
  rw [h.preamble_eq, h.recent_eq]
  exact search?_eq d.recent hpreamble fun offset hoffset k hk =>
    position_lt_size_decisions signal hoffset hk

/-- A whole block is taken in without leaving a buffer, and gives what the decoder gives. -/
theorem Hold.exists_decode? (h : b.Hold d) (hp : d.profile.WellFormed)
    (hblock : block.length = d.profile.blockBytes) :
    ∃ next, b.decode? block = some (next, (d.decode block).2) ∧ next.Hold (d.decode block).1 := by
  have hbit : d.profile.bitLength ≤ d.profile.bufferLength :=
    bitLength_le_bufferLength (Nat.le_trans hp.preamble hp.packet)
  refine ⟨{ b with
      iq := (d.decode block).1.iq.toArray
      signal := (d.decode block).1.signal.toArray
      sums := prefixSums (d.decode block).1.signal
      bits := decisions d.profile (d.decode block).1.signal
      recent := (d.decode block).1.recent }, ?answer, ?hold⟩
  case answer =>
    rw [decode?]
    simp only [h.profile_eq, h.slide_iq hblock, h.slide_signal hblock, h.sumUp, h.decide_all hbit,
      h.search_all hp.packet, Option.bind_eq_bind, Option.bind_some]
    rfl
  case hold =>
    have hiq : (slide d.iq block).length = 2 * d.profile.bufferLength := by
      rw [length_slide, ← h.iq_eq, Array.length_toList, h.size_iq]
    exact ⟨h.profile_eq, h.table_eq, h.preamble_eq, rfl, rfl, rfl, rfl, rfl, hiq,
      h.length_signal_decode⟩

end Block

/-- Blocks are taken in one after the other, each by the buffers that the blocks before it leave. -/
theorem Hold.exists_decodeAll? {p : Profile} (hp : p.WellFormed) {blocks : List Bytes}
    (hblocks : ∀ block ∈ blocks, block.length = p.blockBytes) :
    ∀ {b : Buffers} {d : Decoder}, b.Hold d → d.profile = p →
      ∃ steps, b.decodeAll? blocks = some steps ∧
        List.Forall₂ (fun step plain => step.1.Hold plain.1 ∧ step.2 = plain.2) steps
          (decodeAll d blocks) := by
  induction blocks with
  | nil => exact fun _ _ => ⟨[], rfl, .nil⟩
  | cons block rest ih =>
      rintro b d h rfl
      obtain ⟨next, hnext, hhold⟩ := h.exists_decode? hp (hblocks block List.mem_cons_self)
      have hrest : ∀ later ∈ rest, later.length = d.profile.blockBytes := fun later hlater =>
        hblocks later (List.mem_cons_of_mem block hlater)
      obtain ⟨steps, hsteps, hagree⟩ := ih hrest hhold rfl
      refine ⟨(next, (d.decode block).2) :: steps, ?_, .cons ⟨hhold, rfl⟩ hagree⟩
      rw [decodeAll?, hnext]
      exact congrArg (Option.map ((next, (d.decode block).2) :: ·)) hsteps

/-! ### Every well-formed profile -/

/-- A decoder stays in its buffers while it takes in blocks. -/
structure Contained (p : Profile) (mode : Envelope.Mode) (blocks : List Bytes) : Prop where
  /-- The buffers are built and every block is taken in. Call by call they hold what the decoder in
  windows holds, and the hits are its hits. -/
  answers : ∃ b steps, build? p mode = some b ∧ b.decodeAll? blocks = some steps ∧
    List.Forall₂ (fun step plain => step.1.Hold plain.1 ∧ step.2 = plain.2) steps
      (decodeAll (fresh p mode) blocks)
  /-- At every searched position every bit of a packet has a place among the decisions and among the
  bytes of the packet, and so has the filter there among the sums. -/
  places : ∀ offset < p.blockSize, ∀ k < p.packetSymbols,
    position p offset k < p.bufferLength - p.bitLength + 1 ∧
      position p offset k + 2 * p.symbolLength < p.bufferLength + 1 ∧ k / 8 < p.packetBytes
  /-- Whatever was decided, a preamble can be looked for and a packet be read at every searched
  position. -/
  slices : ∀ bits : Array Bool, bits.size = p.bufferLength - p.bitLength + 1 →
    ∀ offset < p.blockSize,
      matchesFrom? p bits offset 0 p.preambleBits =
          some (preambleAt p p.preambleBits bits offset) ∧
        packetAt? p bits offset = some (packetAt p bits offset)

/-- Every well-formed profile is enough for that, if the blocks are whole. -/
theorem contained {p : Profile} (mode : Envelope.Mode) {blocks : List Bytes} (hp : p.WellFormed)
    (hblocks : ∀ block ∈ blocks, block.length = p.blockBytes) : Contained p mode blocks := by
  have hbit : p.bitLength ≤ p.bufferLength :=
    bitLength_le_bufferLength (Nat.le_trans hp.preamble hp.packet)
  have hlength : p.bitLength = 2 * p.symbolLength := rfl
  have hplaces : ∀ offset < p.blockSize, ∀ k < p.packetSymbols,
      position p offset k < p.bufferLength - p.bitLength + 1 := by
    intro offset hoffset k hk
    have hinside := Profile.position_le hoffset hk
    omega
  refine ⟨?answers, ?places, ?slices⟩
  case answers =>
    obtain ⟨b, hbuild, hhold⟩ := exists_build? mode hbit
    obtain ⟨steps, hsteps, hagree⟩ := Hold.exists_decodeAll? hp hblocks hhold rfl
    exact ⟨b, steps, hbuild, hsteps, hagree⟩
  case places =>
    intro offset hoffset k hk
    have hinside := Profile.position_le hoffset hk
    refine ⟨hplaces offset hoffset k hk, by omega, ?_⟩
    rw [Profile.packetBytes]
    omega
  case slices =>
    intro bits hbits offset hoffset
    have hinside : ∀ k < p.packetSymbols, position p offset k < bits.size := fun k hk =>
      hbits ▸ hplaces offset hoffset k hk
    exact ⟨preambleAt?_eq hp.packet hinside, packetAt?_eq hinside⟩

-- A preamble longer than its packet is compared beyond the last decision.
example : matchesFrom? ⟨"short", 1, 1, 1, "00"⟩ (Array.replicate 5 false) 3 0 [false, false] =
    none := by
  decide

/-- The decoder never leaves its buffers, whatever its profile, if that is well-formed, and whatever
whole blocks it is given. Both protocols have such profiles at every symbol length up to 131071,
with sizes that fit into 32 bits, and no other symbol length is accepted. -/
theorem decoder_within_buffers (mode : Envelope.Mode) (blocks : List Bytes) :
    (∀ p : Profile, p.WellFormed → (∀ block ∈ blocks, block.length = p.blockBytes) →
        Contained p mode blocks) ∧
      (∀ (protocol : Protocol) (n : Nat), 1 ≤ n → n ≤ 131071 →
        (protocol.profile n).WellFormed ∧ (protocol.profile n).SizesWithin (2 ^ 32) ∧
          (protocol.profile n).sizes = (protocol.profile n).exactSizes) ∧
        ∀ (arguments : CommandLine.Arguments) (config : Config),
          Config.ofArguments arguments = .ok config →
            1 ≤ config.symbolLength ∧ config.symbolLength ≤ 131071 := by
  refine ⟨fun p hp hblocks => contained mode hp hblocks, ?protocols, ?configurations⟩
  case protocols =>
    intro protocol n hlow hhigh
    have hsizes := protocol.sizesWithin_profile hhigh
    exact ⟨protocol.wellFormed_profile hlow, hsizes, hsizes.sizes_eq⟩
  case configurations =>
    intro arguments config h
    exact Config.symbolLength_of_ofArguments h

/-- The buffers of a chirp's decoder, and those of the usual configuration. -/
theorem chirp_within_buffers :
    chirp.WellFormed ∧ (∀ block ∈ chirpBlocks, block.length = chirp.blockBytes) ∧
      Contained chirp .exact chirpBlocks ∧ (Protocol.scm.profile 72).SizesWithin (2 ^ 32) := by
  have hp : chirp.WellFormed := ⟨by decide, by decide, by decide⟩
  have hblocks : ∀ block ∈ chirpBlocks, block.length = chirp.blockBytes := by decide
  have hwithin := decoder_within_buffers .exact chirpBlocks
  have husual := hwithin.2.1 .scm 72 (by decide) (by decide)
  exact ⟨hp, hblocks, hwithin.1 chirp hp hblocks, husual.2.1⟩

end Buffers
end Decoder
end MeterRadio
