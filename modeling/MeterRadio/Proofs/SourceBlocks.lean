/-
Module: MeterRadio.Proofs.SourceBlocks
Purpose: A source in which nothing fails is read as the whole blocks of its bytes, and then it is at
  its end. What is left over behind the last whole block is never seen.
Main exports: Source.length_blocks, Source.flatten_blocks, Source.blocks_flatten,
  Source.drain_ofBytes
-/
import MeterRadio.Source

namespace MeterRadio.Source

variable {n : Nat}

/-! ### Whole blocks -/

theorem blocksFrom_spec (n : Nat) :
    ∀ (fuel : Nat) (bytes : Bytes), fuel * n ≤ bytes.length →
      (blocksFrom n fuel bytes).length = fuel ∧
        (blocksFrom n fuel bytes).flatten = bytes.take (fuel * n) ∧
        ∀ block ∈ blocksFrom n fuel bytes, block.length = n := by
  intro fuel
  induction fuel with
  | zero =>
      intro bytes _
      simp [blocksFrom]
  | succ fuel ih =>
      intro bytes h
      rw [Nat.succ_mul] at h ⊢
      have hwhole : ¬ bytes.length < n := by omega
      obtain ⟨hlength, hflatten, hsizes⟩ := ih (bytes.drop n) (by rw [List.length_drop]; omega)
      rw [blocksFrom, if_neg hwhole]
      refine ⟨by rw [List.length_cons, hlength], ?_, ?_⟩
      · rw [List.flatten_cons, hflatten, Nat.add_comm, List.take_add]
      · intro block hblock
        rcases List.mem_cons.1 hblock with rfl | hrest
        · rw [List.length_take]
          omega
        · exact hsizes block hrest

section Blocks

variable (hn : 0 < n) (bytes : Bytes)

include hn

/-- As many whole blocks are cut off as there are, and together they are the front of the bytes. -/
theorem blocks_spec :
    (blocks n bytes).length = bytes.length / n ∧
      (blocks n bytes).flatten = bytes.take (bytes.length / n * n) ∧
      ∀ block ∈ blocks n bytes, block.length = n := by
  rw [blocks, if_neg (Nat.ne_of_gt hn)]
  exact blocksFrom_spec n _ bytes (Nat.div_mul_le_self bytes.length n)

theorem length_blocks : (blocks n bytes).length = bytes.length / n := (blocks_spec hn bytes).1

theorem flatten_blocks : (blocks n bytes).flatten = bytes.take (bytes.length / n * n) :=
  (blocks_spec hn bytes).2.1

theorem length_of_mem_blocks {block : Bytes} (h : block ∈ blocks n bytes) : block.length = n :=
  (blocks_spec hn bytes).2.2 block h

end Blocks

/-- What consists of blocks falls into these. -/
theorem blocks_flatten (hn : 0 < n) {pieces : List Bytes} (h : ∀ piece ∈ pieces, piece.length = n) :
    blocks n pieces.flatten = pieces := by
  rw [blocks, if_neg (Nat.ne_of_gt hn)]
  induction pieces with
  | nil => rw [List.flatten_nil, List.length_nil, Nat.zero_div]; rfl
  | cons piece pieces ih =>
      have hpiece : piece.length = n := h piece List.mem_cons_self
      have hcount : (piece :: pieces).flatten.length / n = pieces.flatten.length / n + 1 := by
        rw [List.flatten_cons, List.length_append, hpiece, Nat.add_div_left _ hn]
      have hwhole : ¬ (piece :: pieces).flatten.length < n := by
        rw [List.flatten_cons, List.length_append]
        omega
      rw [hcount, blocksFrom, if_neg hwhole, List.flatten_cons, List.take_left' hpiece,
        List.drop_left' hpiece, ih fun p hp => h p (List.mem_cons_of_mem piece hp)]

/-! ### Reading them -/

/-- Nothing fails in a source, and the given bytes are still in it. -/
def Holds (source : Source) (bytes : Bytes) : Prop :=
  source = ofBytes bytes ∨ (source = [] ∧ bytes = [])

section Reads

variable {source : Source} {bytes : Bytes}

theorem Holds.read_short (h : Holds source bytes) (hshort : bytes.length < n) :
    (source.read n).1 = .error .endOfStream := by
  obtain ⟨m, rfl⟩ := Nat.exists_eq_add_one_of_ne_zero (Nat.ne_of_gt (Nat.zero_lt_of_lt hshort))
  rcases h with rfl | ⟨rfl, rfl⟩
  · cases bytes with
    | nil => rfl
    | cons b rest =>
        have hmore : ¬ m + 1 < (b :: rest).length := Nat.not_lt.2 (Nat.le_of_lt hshort)
        obtain ⟨k, hk⟩ := Nat.exists_eq_add_one_of_ne_zero (Nat.sub_ne_zero_of_lt hshort)
        rw [ofBytes, read, readAfter, if_neg hmore, hk]
        · rfl
        · exact List.cons_ne_nil b rest
  · rfl

theorem Holds.read_whole (h : Holds source bytes) (hn : 0 < n) (hwhole : n ≤ bytes.length) :
    ∃ rest, source.read n = (.ok (bytes.take n), rest) ∧ Holds rest (bytes.drop n) := by
  obtain ⟨m, rfl⟩ := Nat.exists_eq_add_one_of_ne_zero (Nat.ne_of_gt hn)
  rcases h with rfl | ⟨rfl, rfl⟩
  · cases bytes with
    | nil => cases hwhole
    | cons b rest =>
        rw [ofBytes, read, readAfter]
        · rcases Nat.lt_or_eq_of_le hwhole with hmore | hall
          · rw [if_pos hmore]
            exact ⟨_, rfl, .inl rfl⟩
          · rw [if_neg (Nat.not_lt.2 (Nat.le_of_eq hall.symm)), ← hall, Nat.sub_self, readAfter]
            refine ⟨[], ?_, .inr ⟨rfl, ?_⟩⟩
            · rw [hall, List.take_length, List.append_nil, List.reverse_reverse]
            · rw [hall, List.drop_length]
        · exact List.cons_ne_nil b rest
  · cases hwhole

end Reads

theorem drainFrom_of_holds (hn : 0 < n) :
    ∀ (fuel : Nat) (source : Source) (bytes : Bytes), Holds source bytes →
      bytes.length / n < fuel →
        drainFrom n fuel source = (blocksFrom n (bytes.length / n) bytes, .endOfStream) := by
  intro fuel
  induction fuel with
  | zero =>
      intro source bytes _ hfuel
      cases hfuel
  | succ fuel ih =>
      intro source bytes h hfuel
      rw [drainFrom]
      rcases Nat.lt_or_ge bytes.length n with hshort | hwhole
      · have hread := h.read_short hshort
        rw [Nat.div_eq_of_lt hshort]
        cases hresult : source.read n with
        | mk result rest =>
            rw [hresult] at hread
            obtain rfl : result = .error .endOfStream := hread
            rfl
      · obtain ⟨rest, hread, hrest⟩ := h.read_whole hn hwhole
        have hmore : bytes.length / n = (bytes.drop n).length / n + 1 := by
          rw [List.length_drop]
          exact Nat.div_eq_sub_div hn hwhole
        rw [hmore] at hfuel ⊢
        rw [hread, blocksFrom, if_neg (Nat.not_lt.2 hwhole)]
        dsimp only
        rw [ih rest (bytes.drop n) hrest (Nat.lt_of_succ_lt_succ hfuel)]

/-- A byte string that is replayed arrives as its whole blocks. -/
theorem drain_ofBytes (hn : 0 < n) (bytes : Bytes) :
    drain n (ofBytes bytes) = (blocks n bytes, .endOfStream) := by
  have hvolume : (ofBytes bytes).volume = bytes.length := Nat.zero_add _
  rw [drain, hvolume, blocks, if_neg (Nat.ne_of_gt hn)]
  refine drainFrom_of_holds hn _ _ bytes (.inl rfl) ?_
  exact Nat.lt_succ_of_le (Nat.div_le_self _ _)

end MeterRadio.Source
