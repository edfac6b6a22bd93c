/-
Module: MeterRadio.Proofs.DuplicateSuppression
Purpose: Which packets a call of a decoder returns, and in which order: the packets at the offsets
  where the preamble stands, each at its first one, except for those that the call before returned.
  What a call only saw, and did not return, is not left out by the next one.
Main exports: Decoder.PlacedAt, Decoder.Visited.mem_found_iff, Decoder.CallLaw,
  Decoder.call_returns_unreturned
-/
import MeterRadio.Proofs.StreamScan

namespace MeterRadio.Decoder

variable {p : Profile} {signal : List Nat}

/-! ### Packets in a window -/

/-- A packet stands at a searched offset of a window with the given decisions: those at a bit's
distance from each other are the preamble's bits, and packed they are the packet. All of them are
there. -/
structure PlacedAt (p : Profile) (bits : Array Bool) (packet : Bytes) (offset : Nat) : Prop where
  searched : offset < p.blockSize
  preamble : ∀ k, (h : k < p.preambleBits.length) →
    bits[position p offset k]? = some p.preambleBits[k]
  sliced : ∃ decided : List Bool, decided.length = p.packetSymbols ∧
    (∀ k, k < p.packetSymbols → bits[position p offset k]? = decided[k]?) ∧
      packet = Bits.pack decided

/-- The bits of a packet at a searched offset have been decided. -/
theorem getElem?_decisions {offset k : Nat} (hoffset : offset < p.blockSize)
    (hk : k < p.packetSymbols) :
    (decisions p signal)[position p offset k]? =
      some (bitAt (decisions p signal) (position p offset k)) := by
  have hplace := Profile.position_le hoffset hk
  have hsize : position p offset k < (decisions p signal).size := by
    rw [decisions, Array.size_ofFn]
    exact Nat.lt_sub_of_add_lt (Nat.lt_succ_of_le hplace)
  rw [bitAt, Array.getD_eq_getD_getElem?, Array.getElem?_eq_getElem hsize, Option.getD_some]

/-- The hits of a window are the packets that stand in it. -/
theorem mem_hits_iff_placedAt (hpacket : p.preambleSymbols ≤ p.packetSymbols) (hit : Hit) :
    hit ∈ hits p (decisions p signal) ↔
      PlacedAt p (decisions p signal) hit.packet hit.offset := by
  have hbits : ∀ k, hit.offset < p.blockSize → k < p.preambleBits.length →
      (decisions p signal)[position p hit.offset k]? =
        some (bitAt (decisions p signal) (position p hit.offset k)) := by
    intro k hoffset hk
    rw [Profile.length_preambleBits] at hk
    exact getElem?_decisions hoffset (Nat.lt_of_lt_of_le hk hpacket)
  rw [mem_hits, preambleAt, matchesFrom_iff]
  constructor
  · rintro ⟨hoffset, hpreamble, hslice⟩
    refine ⟨hoffset, fun k hk => ?_, _, ?_, fun k hk => ?_, hslice⟩
    · have hbit := hpreamble k hk
      rw [Nat.zero_add] at hbit
      rw [hbits k hoffset hk, hbit]
    · rw [List.length_map, List.length_range]
    · rw [getElem?_decisions hoffset hk, List.getElem?_map, List.getElem?_range hk]
      rfl
  · rintro ⟨hoffset, hpreamble, decided, hlength, hdecided, hslice⟩
    refine ⟨hoffset, fun k hk => ?_, ?_⟩
    · have hbit := hpreamble k hk
      rw [hbits k hoffset hk] at hbit
      rw [Nat.zero_add]
      exact Option.some.inj hbit
    · rw [hslice, packetAt]
      congr 1
      apply List.ext_getElem?
      intro k
      rw [List.getElem?_map]
      by_cases hk : k < p.packetSymbols
      · rw [← hdecided k hk, getElem?_decisions hoffset hk, List.getElem?_range hk]
        rfl
      · have hdone : p.packetSymbols ≤ k := Nat.le_of_not_lt hk
        rw [List.getElem?_eq_none (hlength.trans_le hdone),
          List.getElem?_eq_none (List.length_range.trans_le hdone)]
        rfl

/-- Hits are found from the front of the window on. -/
theorem hits_pairwise (p : Profile) (bits : Array Bool) :
    (hits p bits).Pairwise fun a b => a.offset < b.offset := by
  apply List.Pairwise.filterMap _ _ List.pairwise_lt_range
  intro a b hless hitA hA hitB hB
  split at hA
  case isTrue =>
    split at hB
    case isTrue =>
      cases hA
      cases hB
      exact hless
    case isFalse => cases hB
  case isFalse => cases hA

/-! ### First hits

A packet is entered at its first hit and passed over at every later one. `Visited` says so of the
hits up to any place, and the law of a call takes it for all of them. -/

section First

variable {recent : List Bytes} {done : List Hit} {s : Search} {hit : Hit}

/-- What a search has found is the first hit of each packet, except for those that the last call
returned. -/
theorem Visited.first_of_mem (h : Visited recent done s)
    (hsorted : done.Pairwise fun a b => a.offset < b.offset) (hfound : hit ∈ s.found) :
    hit ∈ done ∧ (∀ other ∈ done, other.packet = hit.packet → hit.offset ≤ other.offset) ∧
      hit.packet ∉ recent := by
  have hseen : hit.packet ∈ s.seen := by
    rw [h.seen_eq]
    exact List.mem_map_of_mem hfound
  refine ⟨h.sublist.subset (List.mem_reverse.2 hfound), fun other hother hsame => ?_,
    ((h.mem_seen _).1 hseen).2⟩
  obtain ⟨before, later, rfl, hfirst⟩ := h.first hit hfound
  obtain ⟨-, hfrom, -⟩ := List.pairwise_append.1 hsorted
  rcases List.mem_append.1 hother with hbefore | hlater
  · exact absurd (List.mem_map.2 ⟨other, hbefore, hsame⟩) hfirst
  · rcases List.mem_cons.1 hlater with rfl | hlater
    · exact Nat.le_refl _
    · exact Nat.le_of_lt ((List.pairwise_cons.1 hfrom).1 other hlater)

/-- A hit is found if it is the first one of its packet and the last call did not return that. -/
theorem Visited.mem_found_iff (h : Visited recent done s)
    (hsorted : done.Pairwise fun a b => a.offset < b.offset) :
    hit ∈ s.found ↔
      hit ∈ done ∧ (∀ other ∈ done, other.packet = hit.packet → hit.offset ≤ other.offset) ∧
        hit.packet ∉ recent := by
  constructor
  · exact h.first_of_mem hsorted
  · rintro ⟨hdone, hfirst, hnew⟩
    have hseen := (h.mem_seen hit.packet).2 ⟨List.mem_map_of_mem hdone, hnew⟩
    rw [h.seen_eq] at hseen
    obtain ⟨kept, hkept, hsame⟩ := List.mem_map.1 hseen
    obtain ⟨hkeptDone, hkeptFirst, -⟩ := h.first_of_mem hsorted hkept
    -- Both are the first hit of the packet, so they lie at one offset.
    have hoffset : kept.offset = hit.offset :=
      Nat.le_antisymm (hkeptFirst hit hdone hsame.symm) (hfirst kept hkeptDone hsame)
    have hhit : kept = hit := by
      cases kept
      cases hit
      cases hoffset
      cases hsame
      rfl
    rwa [hhit] at hkept

end First

/-! ### Calls -/

/-- The packets that the last call on the blocks returned; none if there was no call. -/
def returnedLast (p : Profile) (mode : Envelope.Mode) (blocks : List Bytes) : List Bytes :=
  match (decodeAll (fresh p mode) blocks).getLast? with
  | none => []
  | some call => call.2.map Hit.packet

theorem mem_returnedLast_iff {mode : Envelope.Mode} {blocks : List Bytes} {packet : Bytes} :
    packet ∈ returnedLast p mode blocks ↔ packet ∈ ((fresh p mode).after blocks).recent := by
  rcases List.eq_nil_or_concat blocks with rfl | ⟨before, block, rfl⟩
  · exact Iff.rfl
  · have hlast : (decodeAll (fresh p mode) (before ++ [block])).getLast? =
        some (((fresh p mode).after before).decode block) := by
      rw [List.getLast?_eq_getElem?, length_decodeAll, List.length_append, List.length_singleton,
        Nat.add_sub_cancel, getElem?_decodeAll, List.getElem?_concat_length, List.take_left]
      rfl
    rw [List.concat_eq_append, returnedLast, hlast, after_concat]
    exact mem_recent_decode.symm

/-- What a call returns on a window with the given decisions, if the call before it returned the
packets `previous`. -/
structure CallLaw (p : Profile) (bits : Array Bool) (previous : List Bytes) (found : List Hit) :
    Prop where
  ordered : found.Pairwise fun a b => a.offset < b.offset
  /-- A packet is returned at the first offset where it stands, if it was not returned before. -/
  returned : ∀ hit, hit ∈ found ↔ PlacedAt p bits hit.packet hit.offset ∧
    (∀ offset, PlacedAt p bits hit.packet offset → hit.offset ≤ offset) ∧ hit.packet ∉ previous
  nodup : (found.map Hit.packet).Nodup
  disjoint : (found.map Hit.packet).Disjoint previous
  /-- A packet in the window is left out exactly if the call before returned it. -/
  kept : ∀ packet offset, PlacedAt p bits packet offset →
    (packet ∈ found.map Hit.packet ↔ packet ∉ previous)

/-- Whatever blocks a decoder was given, the next call returns the packets in its window that the
last call did not return, in the order of the offsets where they first stand. -/
theorem call_returns_unreturned (p : Profile) (mode : Envelope.Mode) (blocks : List Bytes)
    (block : Bytes) (hpacket : p.preambleSymbols ≤ p.packetSymbols) :
    let call := ((fresh p mode).after blocks).decode block
    CallLaw p (decisions p call.1.signal) (returnedLast p mode blocks) call.2 := by
  intro call
  obtain ⟨s, hvisited, -, hfound⟩ := decode_eq_search ((fresh p mode).after blocks) block
  rw [profile_after, profile_fresh] at hvisited
  change Visited _ (hits p (decisions p call.1.signal)) s at hvisited
  change call.2 = s.found.reverse at hfound
  have hsorted := hits_pairwise p (decisions p call.1.signal)
  have hpackets : call.2.map Hit.packet = s.seen.reverse := by
    rw [hfound, hvisited.seen_eq, List.map_reverse]
  have hmem : ∀ packet, packet ∈ call.2.map Hit.packet ↔
      packet ∈ (hits p (decisions p call.1.signal)).map Hit.packet ∧
        packet ∉ returnedLast p mode blocks := by
    intro packet
    rw [hpackets, List.mem_reverse, hvisited.mem_seen, mem_returnedLast_iff]
  refine ⟨?ordered, ?returned, ?nodup, ?disjoint, ?kept⟩
  case ordered =>
    rw [hfound]
    exact hsorted.sublist hvisited.sublist
  case returned =>
    intro hit
    rw [hfound, List.mem_reverse, hvisited.mem_found_iff hsorted, mem_returnedLast_iff,
      mem_hits_iff_placedAt hpacket]
    refine and_congr_right fun _ => and_congr_left fun _ => ⟨fun hfirst => ?_, fun hfirst => ?_⟩
    · intro offset hplaced
      exact hfirst ⟨offset, hit.packet⟩ ((mem_hits_iff_placedAt hpacket _).2 hplaced) rfl
    · intro other hother hsame
      have hplaced := (mem_hits_iff_placedAt hpacket other).1 hother
      rw [hsame] at hplaced
      exact hfirst other.offset hplaced
  case nodup =>
    rw [hpackets]
    exact List.pairwise_reverse.2 (hvisited.nodup.imp Ne.symm)
  case disjoint =>
    intro packet hreturned hprevious
    exact ((hmem packet).1 hreturned).2 hprevious
  case kept =>
    intro packet offset hplaced
    have hhit := (mem_hits_iff_placedAt hpacket ⟨offset, packet⟩).2 hplaced
    rw [hmem]
    exact and_iff_right (List.mem_map_of_mem hhit)

/-- Packets of two bits that begin with a clear one, at one sample per chip. -/
def hush : Profile := ⟨"hush", 1, 1, 2, "0"⟩

/-- Two samples of one strength. -/
def evenBlock : Bytes := [0, 0, 0, 0]

/-- Where the strength never falls, only clear bits are decided. -/
theorem decisions_hush : ∀ n, n < 3 →
    decisions hush (slide (fresh hush .exact).signal
      (Envelope.magnitudes (fresh hush .exact).mode
        (List.replicate n evenBlock ++ [evenBlock]).flatten)) =
      #[false, false, false, false, false] := by
  decide

theorem placedAt_hush (n : Nat) (hn : n < 3) :
    PlacedAt hush (decisions hush
      (((fresh hush .exact).after (List.replicate n evenBlock)).decode evenBlock).1.signal)
        [0] 0 := by
  have heven : ∀ block ∈ List.replicate n evenBlock ++ [evenBlock], block.length % 2 = 0 := by
    intro block hblock
    rcases List.mem_append.1 hblock with hbefore | hlast
    · rw [List.eq_of_mem_replicate hbefore]
      rfl
    · rw [List.mem_singleton.1 hlast]
      rfl
  rw [← after_concat, signal_after (fresh hush .exact) heven, decisions_hush n hn]
  refine ⟨by decide, ?_, [false, false], rfl, by decide, by decide⟩
  rw [Profile.preambleBits_eq]
  decide

/-- A packet that stands in three windows in a row, twice in each, is returned by the first call and
by the third. -/
theorem hush_returned_twice :
    hush.preambleSymbols ≤ hush.packetSymbols ∧
      ([0] : Bytes) ∈ (((fresh hush .exact).after []).decode evenBlock).2.map Hit.packet ∧
      ([0] : Bytes) ∉ (((fresh hush .exact).after [evenBlock]).decode evenBlock).2.map Hit.packet ∧
      ([0] : Bytes) ∈
        (((fresh hush .exact).after [evenBlock, evenBlock]).decode evenBlock).2.map Hit.packet := by
  have hpacket : hush.preambleSymbols ≤ hush.packetSymbols := by decide
  have hfirst := (call_returns_unreturned hush .exact [] evenBlock hpacket).kept [0] 0
    (placedAt_hush 0 (by decide))
  have hsecond := (call_returns_unreturned hush .exact [evenBlock] evenBlock hpacket).kept [0] 0
    (placedAt_hush 1 (by decide))
  have hthird := (call_returns_unreturned hush .exact [evenBlock, evenBlock] evenBlock
    hpacket).kept [0] 0 (placedAt_hush 2 (by decide))
  have hone := hfirst.2 List.not_mem_nil
  have htwo := mt hsecond.1 (not_not_intro hone)
  exact ⟨hpacket, hone, htwo, hthird.2 htwo⟩

end MeterRadio.Decoder
