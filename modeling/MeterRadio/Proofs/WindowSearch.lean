/-
Module: MeterRadio.Proofs.WindowSearch
Purpose: What one call of a decoder finds: a window that shows a stretch of a stream has a hit where
  a scan of the stream finds the preamble, and what the call before returned is left out.
Main exports: Profile.length_preambleBits, Profile.blockSize_pos, Decoder.mem_hits,
  Decoder.decode_eq_search, Decoder.mem_recent_iff, Decoder.Exact, Decoder.Shows.mem_hits
-/
import MeterRadio.Proofs.DecoderWindow

namespace MeterRadio

/-! ### Profiles -/

/-- An array of bytes is listed in order. -/
theorem Bytes.toList_eq (bytes : ByteArray) : bytes.toList = bytes.data.toList := by
  have hloop : ∀ n i (done : List UInt8), bytes.size - i = n →
      ByteArray.toList.loop bytes i done = done.reverse ++ bytes.data.toList.drop i := by
    intro n
    induction n with
    | zero =>
        intro i done hn
        have hend : ¬ i < bytes.size := by omega
        have hdrop : bytes.data.toList.drop i = [] :=
          List.drop_eq_nil_of_le (by simpa using hend)
        rw [ByteArray.toList.loop, if_neg hend, hdrop, List.append_nil]
    | succ n ih =>
        intro i done hn
        have hi : i < bytes.size := by omega
        have hplace : i < bytes.data.toList.length := by simpa using hi
        have hget : bytes.get! i = bytes.data.toList[i] := by
          rw [Array.getElem_toList]
          exact getElem!_pos bytes.data i hi
        rw [ByteArray.toList.loop, if_pos hi, ih (i + 1) _ (by omega), hget, List.reverse_cons,
          List.append_assoc, List.singleton_append, ← List.drop_eq_getElem_cons]
  exact hloop bytes.size 0 [] rfl

namespace Profile

theorem preambleBits_eq (p : Profile) :
    p.preambleBits = p.preamble.toUTF8.data.toList.map (· == '1'.toNat.toUInt8) := by
  rw [preambleBits, Bytes.toList_eq]

theorem length_preambleBits (p : Profile) : p.preambleBits.length = p.preambleSymbols := by
  rw [preambleBits_eq, List.length_map]
  rfl

theorem powerOfTwoFrom_pos (fuel n power : Nat) (h : 0 < power) :
    0 < powerOfTwoFrom fuel n power := by
  induction fuel generalizing power with
  | zero => exact h
  | succ fuel ih =>
      unfold powerOfTwoFrom
      split
      · exact h
      · exact ih (2 * power) (by omega)

theorem blockSize_pos (p : Profile) : 0 < p.blockSize :=
  powerOfTwoFrom_pos _ _ _ (by decide)

/-- The bits of a packet that starts at a searched position lie in the window. -/
theorem position_le {p : Profile} {offset k : Nat} (hoffset : offset < p.blockSize)
    (hk : k < p.packetSymbols) :
    Decoder.position p offset k + p.bitLength ≤ p.bufferLength := by
  have hbits : (k + 1) * p.bitLength ≤ p.packetSymbols * p.bitLength :=
    Nat.mul_le_mul_right _ hk
  rw [Nat.succ_mul] at hbits
  unfold Decoder.position bufferLength packetLength
  omega

end Profile

namespace Decoder

/-! ### Searching a window -/

theorem matchesFrom_iff (p : Profile) (bits : Array Bool) (offset : Nat) (wanted : List Bool) :
    ∀ k : Nat, matchesFrom p bits offset k wanted = true ↔
      ∀ i, (h : i < wanted.length) → bitAt bits (position p offset (k + i)) = wanted[i] := by
  induction wanted with
  | nil => intro k; simp [matchesFrom]
  | cons b rest ih =>
      intro k
      rw [matchesFrom, Bool.and_eq_true, beq_iff_eq, ih]
      constructor
      · rintro ⟨hfirst, hrest⟩ i hi
        cases i with
        | zero => exact hfirst
        | succ i =>
            have hplace : k + (i + 1) = k + 1 + i := by omega
            rw [hplace, List.getElem_cons_succ]
            exact hrest i (by simpa using hi)
      · intro hall
        refine ⟨hall 0 (by simp), ?_⟩
        intro i hi
        have hplace : k + 1 + i = k + (i + 1) := by omega
        rw [hplace]
        exact hall (i + 1) (by simpa using hi)

/-- A hit lies at a searched position where the preamble stands, with the packet that starts
there. -/
theorem mem_hits {p : Profile} {bits : Array Bool} {hit : Hit} :
    hit ∈ hits p bits ↔
      hit.offset < p.blockSize ∧ preambleAt p p.preambleBits bits hit.offset = true ∧
        hit.packet = packetAt p bits hit.offset := by
  unfold hits
  rw [List.mem_filterMap]
  constructor
  · rintro ⟨offset, hoffset, hhit⟩
    rw [List.mem_range] at hoffset
    split at hhit
    case isTrue hpreamble =>
        obtain rfl := Option.some.inj hhit
        exact ⟨hoffset, hpreamble, rfl⟩
    case isFalse => cases hhit
  · rintro ⟨hoffset, hpreamble, hpacket⟩
    refine ⟨hit.offset, List.mem_range.2 hoffset, ?_⟩
    rw [if_pos hpreamble, ← hpacket]

/-! ### Leaving out what was returned

A search goes over the hits from the front of the window. `Visited` is its invariant: it has entered
each packet of the hits so far once, unless the last call had returned it. -/

/-- How a search stands after hits, if the last call returned the packets `recent`. The packets
entered are those to be returned, and not all that were seen. -/
structure Visited (recent : List Bytes) (done : List Hit) (s : Search) : Prop where
  seen_eq : s.seen = s.found.map Hit.packet
  mem_seen : ∀ packet, packet ∈ s.seen ↔ packet ∈ done.map Hit.packet ∧ packet ∉ recent
  nodup : s.seen.Nodup
  sublist : s.found.reverse.Sublist done
  /-- No hit before one that is returned has its packet. -/
  first : ∀ hit ∈ s.found, ∃ before later, done = before ++ hit :: later ∧
    hit.packet ∉ before.map Hit.packet

section Visiting

variable {recent : List Bytes} {done : List Hit} {s : Search} {hit : Hit}

theorem Visited.empty (recent : List Bytes) : Visited recent [] .empty where
  seen_eq := rfl
  mem_seen packet := by simp [Search.empty]
  nodup := .nil
  sublist := .slnil
  first hit h := by cases h

/-- A hit that is passed over brings no packet that would have to be entered. -/
theorem Visited.pass (h : Visited recent done s)
    (hold : hit.packet ∈ recent ∨ hit.packet ∈ s.seen) :
    Visited recent (done ++ [hit]) s where
  seen_eq := h.seen_eq
  mem_seen packet := by
    rw [h.mem_seen, List.map_append, List.mem_append, List.map_singleton, List.mem_singleton]
    constructor
    · rintro ⟨hdone, hnew⟩
      exact ⟨.inl hdone, hnew⟩
    · rintro ⟨hdone | rfl, hnew⟩
      · exact ⟨hdone, hnew⟩
      · exact (h.mem_seen _).1 (hold.resolve_left hnew)
  nodup := h.nodup
  sublist := h.sublist.trans (List.sublist_append_left done [hit])
  first other hother := by
    obtain ⟨before, later, rfl, hfirst⟩ := h.first other hother
    exact ⟨before, later ++ [hit], by rw [List.append_assoc, List.cons_append], hfirst⟩

/-- A hit with a new packet is entered and returned. -/
theorem Visited.enter (h : Visited recent done s) (hrecent : hit.packet ∉ recent)
    (hseen : hit.packet ∉ s.seen) :
    Visited recent (done ++ [hit]) ⟨hit.packet :: s.seen, hit :: s.found⟩ where
  seen_eq := by rw [h.seen_eq, List.map_cons]
  mem_seen packet := by
    rw [List.mem_cons, h.mem_seen, List.map_append, List.mem_append, List.map_singleton,
      List.mem_singleton]
    constructor
    · rintro (rfl | ⟨hdone, hnew⟩)
      · exact ⟨.inr rfl, hrecent⟩
      · exact ⟨.inl hdone, hnew⟩
    · rintro ⟨hdone | rfl, hnew⟩
      · exact .inr ⟨hdone, hnew⟩
      · exact .inl rfl
  nodup := List.nodup_cons.2 ⟨hseen, h.nodup⟩
  sublist := by
    rw [List.reverse_cons]
    exact h.sublist.append_right [hit]
  first other hother := by
    rcases List.mem_cons.1 hother with rfl | hbefore
    · refine ⟨done, [], rfl, fun hdone => hseen ?_⟩
      exact (h.mem_seen _).2 ⟨hdone, hrecent⟩
    · obtain ⟨before, later, rfl, hfirst⟩ := h.first other hbefore
      exact ⟨before, later ++ [hit], by rw [List.append_assoc, List.cons_append], hfirst⟩

theorem Visited.visit (h : Visited recent done s) (hit : Hit) :
    Visited recent (done ++ [hit]) (s.visit recent hit) := by
  unfold Search.visit
  by_cases hrecent : hit.packet ∈ recent
  · rw [if_pos (List.contains_iff_mem.2 hrecent)]
    exact h.pass (.inl hrecent)
  · rw [if_neg (mt List.contains_iff_mem.1 hrecent)]
    by_cases hseen : hit.packet ∈ s.seen
    · rw [if_pos (List.contains_iff_mem.2 hseen)]
      exact h.pass (.inr hseen)
    · rw [if_neg (mt List.contains_iff_mem.1 hseen)]
      exact h.enter hrecent hseen

theorem Visited.foldl (todo : List Hit) : ∀ {done : List Hit} {s : Search},
    Visited recent done s →
      Visited recent (done ++ todo) (todo.foldl (Search.visit recent) s) := by
  induction todo with
  | nil =>
      intro done s h
      rw [List.append_nil]
      exact h
  | cons hit rest ih =>
      intro done s h
      have hnext := ih (h.visit hit)
      rw [List.append_assoc, List.singleton_append] at hnext
      exact hnext

/-- A whole search has visited all hits. -/
theorem visited_search (recent : List Bytes) (found : List Hit) :
    Visited recent found (search recent found) :=
  (Visited.empty recent).foldl found

end Visiting

/-- A call searches the hits of the window that it leaves. It remembers what the search entered and
returns what it found. -/
theorem decode_eq_search (d : Decoder) (block : Bytes) :
    ∃ s, Visited d.recent (hits d.profile (decisions d.profile (d.decode block).1.signal)) s ∧
      (d.decode block).1.recent = s.seen ∧ (d.decode block).2 = s.found.reverse :=
  ⟨_, visited_search _ _, rfl, rfl⟩

/-- A decoder remembers the packets that its last call returned. -/
theorem mem_recent_decode {d : Decoder} {block packet : Bytes} :
    packet ∈ (d.decode block).1.recent ↔ packet ∈ (d.decode block).2.map Hit.packet := by
  obtain ⟨s, hvisited, hrecent, hfound⟩ := decode_eq_search d block
  rw [hrecent, hfound, hvisited.seen_eq, List.map_reverse, List.mem_reverse]

/-- It remembers the packets that were hit, except for those that it remembered before. -/
theorem mem_recent_iff {d : Decoder} {block packet : Bytes} :
    packet ∈ (d.decode block).1.recent ↔
      packet ∈ (hits d.profile (decisions d.profile (d.decode block).1.signal)).map Hit.packet ∧
        packet ∉ d.recent := by
  obtain ⟨s, hvisited, hrecent, -⟩ := decode_eq_search d block
  rw [hrecent]
  exact hvisited.mem_seen packet

/-! ### A window on a stream -/

section Window

variable {p : Profile} {window : List Nat} {strengths : Array Nat} {base : Int}

/-- A window that may be searched exactly: it has the length of the profile's window, and its sums
are not rounded. -/
structure Exact (p : Profile) (window : List Nat) : Prop where
  length_eq : window.length = p.bufferLength
  sum_lt : window.sum < 2 ^ 53

/-- The bits of a packet at a searched position are those of the stream. -/
theorem Shows.bitAt_eq (h : Shows window strengths base) (hexact : Exact p window)
    {offset k : Nat} (hoffset : offset < p.blockSize) (hk : k < p.packetSymbols) :
    bitAt (decisions p window) (position p offset k) = Scan.bit p strengths (base + offset) k := by
  have hplace := Profile.position_le hoffset hk
  have hfits : position p offset k + 2 * p.symbolLength ≤ window.length := by
    rw [hexact.length_eq]
    exact hplace
  have hstart : base + (position p offset k : Nat) = base + offset + (k * p.bitLength : Nat) := by
    unfold position
    omega
  rw [bitAt_decisions hexact.length_eq hexact.sum_lt hplace, h.plainDecision_eq hfits, hstart]
  rfl

/-- The preamble stands in the window where it stands in the stream. -/
theorem Shows.preambleAt_iff (h : Shows window strengths base) (hexact : Exact p window)
    (hpreamble : p.preambleSymbols ≤ p.packetSymbols) {offset : Nat}
    (hoffset : offset < p.blockSize) :
    preambleAt p p.preambleBits (decisions p window) offset = true ↔
      Scan.Matching p strengths (base + offset) := by
  rw [preambleAt, matchesFrom_iff]
  unfold Scan.Matching
  have hbits : ∀ k, k < p.preambleBits.length →
      bitAt (decisions p window) (position p offset (0 + k)) =
        Scan.bit p strengths (base + offset) k := by
    intro k hk
    rw [Profile.length_preambleBits] at hk
    rw [Nat.zero_add]
    exact h.bitAt_eq hexact hoffset (Nat.lt_of_lt_of_le hk hpreamble)
  constructor
  · intro hall k hk
    rw [← hbits k hk]
    exact hall k hk
  · intro hall k hk
    rw [hbits k hk]
    exact hall k hk

/-- The packet at a searched position is that of the stream. -/
theorem Shows.packetAt_eq (h : Shows window strengths base) (hexact : Exact p window)
    {offset : Nat} (hoffset : offset < p.blockSize) :
    packetAt p (decisions p window) offset = Scan.packet p strengths (base + offset) := by
  unfold packetAt Scan.packet
  congr 1
  apply List.map_congr_left
  intro k hk
  exact h.bitAt_eq hexact hoffset (List.mem_range.1 hk)

/-- The hits of a window are the packets that a scan finds at the searched positions. -/
theorem Shows.mem_hits (h : Shows window strengths base) (hexact : Exact p window)
    (hpreamble : p.preambleSymbols ≤ p.packetSymbols) {hit : Hit} :
    hit ∈ hits p (decisions p window) ↔
      hit.offset < p.blockSize ∧ Scan.Matching p strengths (base + hit.offset) ∧
        hit.packet = Scan.packet p strengths (base + hit.offset) := by
  rw [Decoder.mem_hits]
  constructor
  · rintro ⟨hoffset, hmatch, hpacket⟩
    rw [h.packetAt_eq hexact hoffset] at hpacket
    exact ⟨hoffset, (h.preambleAt_iff hexact hpreamble hoffset).1 hmatch, hpacket⟩
  · rintro ⟨hoffset, hmatch, hpacket⟩
    rw [← h.packetAt_eq hexact hoffset] at hpacket
    exact ⟨hoffset, (h.preambleAt_iff hexact hpreamble hoffset).2 hmatch, hpacket⟩

end Window

end Decoder
end MeterRadio
