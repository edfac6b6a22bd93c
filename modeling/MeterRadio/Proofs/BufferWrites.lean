/-
Module: MeterRadio.Proofs.BufferWrites
Purpose: Loops of checked steps have an answer if every step keeps an invariant, and loops that fill
  a buffer leave in it what they are to write there and the rest as it was.
Main exports: Decoder.exists_loop?, Decoder.Filled, Decoder.exists_fill?, Decoder.fill?_eq,
  Decoder.moveDown?_eq, Decoder.overwriteEnd?_eq, Decoder.slide?_eq
-/
import MeterRadio.Decoder.Checked
import MeterRadio.Proofs.WindowContents

namespace MeterRadio.Decoder

theorem difference?_of_le {a b : Nat} (h : b ≤ a) : difference? a b = some (a - b) :=
  if_pos h

/-- A loop has an answer, and keeps an invariant, if each of its steps does. -/
theorem exists_loop? {σ : Type} {body : Nat → σ → Option σ} {start : σ} (inv : Nat → σ → Prop)
    (hstart : inv 0 start) {count : Nat}
    (hstep : ∀ k < count, ∀ state, inv k state →
      ∃ next, body k state = some next ∧ inv (k + 1) next) :
    ∃ last, loop? body count start = some last ∧ inv count last := by
  induction count with
  | zero => exact ⟨start, rfl, hstart⟩
  | succ count ih =>
      have hearlier : ∀ k < count, ∀ state, inv k state →
          ∃ next, body k state = some next ∧ inv (k + 1) next :=
        fun k hk => hstep k (Nat.lt_succ_of_lt hk)
      obtain ⟨state, hloop, hinv⟩ := ih hearlier
      obtain ⟨last, hlast, hnext⟩ := hstep count (Nat.lt_succ_self count) state hinv
      exact ⟨last, by rw [loop?, hloop]; exact hlast, hnext⟩

section Buffer

variable {α : Type}

/-! ### Writing to a buffer

While a loop fills a buffer, so many places hold their new values and the others are untouched. One
step moves that on by a place, and at the end nothing else is left. -/

theorem write?_of_lt {buffer : Array α} {place : Nat} (h : place < buffer.size) (value : α) :
    write? buffer place value = some (buffer.set place value h) :=
  dif_pos h

/-- How a buffer stands when `count` places have been written to: these hold what the target holds
there, and the others what they held before. -/
structure Filled (place : Nat → Nat) (target buffer : Array α) (count : Nat)
    (current : Array α) : Prop where
  size_eq : current.size = buffer.size
  written : ∀ j < count, current[place j]? = target[place j]?
  kept : ∀ i, (∀ j < count, place j ≠ i) → current[i]? = buffer[i]?

variable {place : Nat → Nat} {target buffer current : Array α} {count : Nat}

theorem Filled.start (place : Nat → Nat) (target buffer : Array α) :
    Filled place target buffer 0 buffer where
  size_eq := rfl
  written j hj := absurd hj (Nat.not_lt_zero j)
  kept _ _ := rfl

/-- The next value is written to its place, and every other place is left alone. -/
theorem Filled.step {value : α} (h : Filled place target buffer count current)
    (hplace : place count < current.size) (hvalue : target[place count]? = some value) :
    Filled place target buffer (count + 1) (current.set (place count) value hplace) where
  size_eq := by rw [Array.size_set, h.size_eq]
  written j hj := by
    rw [Array.getElem?_set]
    by_cases hsame : place count = place j
    · rw [if_pos hsame, ← hsame, hvalue]
    · have hearlier : j < count := by
        rcases Nat.lt_succ_iff_lt_or_eq.1 hj with hlt | rfl
        · exact hlt
        · exact absurd rfl hsame
      rw [if_neg hsame]
      exact h.written j hearlier
  kept i hi := by
    have hother : place count ≠ i := hi count (Nat.lt_succ_self count)
    rw [Array.getElem?_set, if_neg hother]
    exact h.kept i fun j hj => hi j (Nat.lt_succ_of_lt hj)

/-- A loop that fills a buffer has an answer if its places are in the buffer and its values are
those of the target. -/
theorem exists_fill? {value? : Array α → Nat → Option α}
    (hplace : ∀ j < count, place j < buffer.size ∧ place j < target.size)
    (hvalue : ∀ j < count, ∀ current, Filled place target buffer j current →
      value? current j = target[place j]?) :
    ∃ filled, fill? place value? count buffer = some filled ∧
      Filled place target buffer count filled := by
  refine exists_loop? (Filled place target buffer) (.start place target buffer) ?_
  intro k hk state hfilled
  obtain ⟨hbuffer, htarget⟩ := hplace k hk
  have hinside : place k < state.size := by
    rw [hfilled.size_eq]
    exact hbuffer
  have hget : target[place k]? = some target[place k] := Array.getElem?_eq_getElem htarget
  refine ⟨state.set (place k) target[place k] hinside, ?_, hfilled.step hinside hget⟩
  rw [hvalue k hk state hfilled, hget]
  exact write?_of_lt hinside _

/-- It ends with the target if that differs from the buffer at the written places only. -/
theorem fill?_eq {value? : Array α → Nat → Option α} (hsize : target.size = buffer.size)
    (hplace : ∀ j < count, place j < buffer.size)
    (hvalue : ∀ j < count, ∀ current, Filled place target buffer j current →
      value? current j = target[place j]?)
    (hrest : ∀ i, (∀ j < count, place j ≠ i) → target[i]? = buffer[i]?) :
    fill? place value? count buffer = some target := by
  have hboth : ∀ j < count, place j < buffer.size ∧ place j < target.size := fun j hj =>
    ⟨hplace j hj, hsize ▸ hplace j hj⟩
  obtain ⟨filled, hfill, hfilled⟩ := exists_fill? hboth hvalue
  rw [hfill, Option.some_inj]
  apply Array.ext_getElem?
  intro i
  by_cases hwritten : ∃ j, j < count ∧ place j = i
  · obtain ⟨j, hj, rfl⟩ := hwritten
    exact hfilled.written j hj
  · have hothers : ∀ j < count, place j ≠ i := fun j hj hi => hwritten ⟨j, hj, hi⟩
    rw [hfilled.kept i hothers, hrest i hothers]

/-! ### Moving a window in its buffer -/

theorem size_moveDown {n : Nat} (h : n ≤ buffer.size) :
    (moveDown n buffer.toList).toArray.size = buffer.size := by
  rw [List.size_toArray, length_moveDown (by simpa using h), Array.length_toList]

/-- Copying down reads each item before its place is written to. -/
theorem moveDown?_eq {n : Nat} (h : n ≤ buffer.size) :
    moveDown? n buffer = some (moveDown n buffer.toList).toArray := by
  have hfront : ∀ j < buffer.size - n, (moveDown n buffer.toList).toArray[j]? = buffer[n + j]? := by
    intro j hj
    rw [List.getElem?_toArray, moveDown, List.getElem?_append_left (by simpa using hj),
      List.getElem?_drop, Array.getElem?_toList]
  have hback : ∀ i, buffer.size - n ≤ i →
      (moveDown n buffer.toList).toArray[i]? = buffer[i]? := by
    intro i hi
    rw [List.getElem?_toArray, moveDown, List.getElem?_append_right (by simpa using hi),
      List.getElem?_drop, List.length_drop, Array.length_toList, Array.getElem?_toList,
      Nat.add_sub_cancel' hi]
  rw [moveDown?, difference?_of_le h]
  refine fill?_eq (size_moveDown h) ?place ?value ?rest
  case place =>
    intro j hj
    exact Nat.lt_of_lt_of_le hj (Nat.sub_le _ _)
  case value =>
    intro j hj current hfilled
    rw [id, hfront j hj]
    refine hfilled.kept (n + j) fun i hi => ?_
    exact Nat.ne_of_lt (Nat.lt_of_lt_of_le hi (Nat.le_add_left j n))
  case rest =>
    intro i hi
    refine hback i (Nat.le_of_not_lt fun hlt => hi i hlt rfl)

/-- Values written over the end of a buffer, one after the other. -/
theorem fill?_end {start : Nat} {block : List α} {value? : Array α → Nat → Option α}
    (hstart : start + block.length = buffer.size)
    (hvalue : ∀ j < block.length, ∀ current, value? current j = block[j]?) :
    fill? (start + ·) value? block.length buffer =
      some (overwriteEnd buffer.toList block).toArray := by
  have hkept : buffer.toList.length - block.length = start := by
    rw [Array.length_toList]
    omega
  have hfront : (buffer.toList.take start).length = start := by
    rw [List.length_take, Array.length_toList]
    omega
  rw [overwriteEnd, hkept]
  refine fill?_eq ?size ?place ?value ?rest
  case size =>
    rw [List.size_toArray, List.length_append, hfront, hstart]
  case place =>
    intro j hj
    omega
  case value =>
    intro j hj current _
    rw [hvalue j hj current, List.getElem?_toArray, List.getElem?_append_right (by omega), hfront,
      Nat.add_sub_cancel_left]
  case rest =>
    intro i hi
    rw [List.getElem?_toArray]
    rcases Nat.lt_or_ge i start with hlt | hge
    · rw [List.getElem?_append_left (by omega), List.getElem?_take_of_lt hlt,
        Array.getElem?_toList]
    · have hend : start + block.length ≤ i := by
        refine Nat.le_of_not_lt fun hlt => hi (i - start) (by omega) ?_
        exact Nat.add_sub_cancel' hge
      rw [List.getElem?_eq_none (by rw [List.length_append, hfront]; exact hend),
        Array.getElem?_eq_none (by omega)]

/-- A block of the right length is written over the end of a window that it fits into. -/
theorem overwriteEnd?_eq {n : Nat} {block : List α} (h : n ≤ buffer.size)
    (hblock : block.length = n) :
    overwriteEnd? n block buffer = some (overwriteEnd buffer.toList block).toArray := by
  subst hblock
  rw [overwriteEnd?, difference?_of_le h]
  exact (if_pos rfl).trans (fill?_end (Nat.sub_add_cancel h) fun _ _ _ => rfl)

/-- A window is moved on in its buffer by a block of the right length, if that fits into it. -/
theorem slide?_eq {n : Nat} {block : List α} (h : n ≤ buffer.size) (hblock : block.length = n) :
    slide? n block buffer = some (slide buffer.toList block).toArray := by
  have hmoved := size_moveDown h
  have hslide : slide buffer.toList block = overwriteEnd (moveDown n buffer.toList) block := by
    subst hblock
    exact slide_eq_moveDown (by simpa using h)
  rw [slide?, moveDown?_eq h, hslide]
  exact overwriteEnd?_eq (hmoved ▸ h) hblock

end Buffer

end MeterRadio.Decoder
