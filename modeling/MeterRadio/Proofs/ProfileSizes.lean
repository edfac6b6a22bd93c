/-
Module: MeterRadio.Proofs.ProfileSizes
Purpose: The sizes that follow from a profile: those of both protocols fit into 32 bits at every
  symbol length that a configuration may have, so they are computed in words without loss.
Main exports: Profile.WellFormed, Profile.SizesWithin, Profile.nextPowerOfTwo_le,
  Profile.SizesWithin.sizes_eq, Protocol.wellFormed_profile, Protocol.sizesWithin_profile,
  Config.symbolLength_of_ofArguments
-/
import MeterRadio.Proofs.ConfigChecks
import MeterRadio.Proofs.PacketRecovery

namespace MeterRadio

namespace Profile

/-! ### Sizes of a profile -/

/-- A profile with samples in a chip and a preamble that is not longer than its packet. -/
structure WellFormed (p : Profile) : Prop where
  symbol : 1 ≤ p.symbolLength
  preamble : 1 ≤ p.preambleSymbols
  packet : p.preambleSymbols ≤ p.packetSymbols

/-- All sizes that follow from a profile are within a limit, and so are the lengths of the buffers
made for it. -/
structure SizesWithin (p : Profile) (limit : Nat) : Prop where
  bitLength : p.bitLength ≤ limit
  sampleRate : p.sampleRate ≤ limit
  preambleLength : p.preambleLength ≤ limit
  packetLength : p.packetLength ≤ limit
  blockSize : p.blockSize ≤ limit
  blockBytes : p.blockBytes ≤ limit
  bufferLength : p.bufferLength ≤ limit
  /-- Bytes of the window. -/
  windowBytes : 2 * p.bufferLength ≤ limit
  /-- Sums of the window. -/
  sums : p.bufferLength + 1 ≤ limit

theorem powerOfTwoFrom_le {n k : Nat} (hn : n ≤ 2 ^ k) :
    ∀ fuel j, j ≤ k → powerOfTwoFrom fuel n (2 ^ j) ≤ 2 ^ k := by
  intro fuel
  induction fuel with
  | zero =>
      intro j hj
      exact Nat.pow_le_pow_right Nat.zero_lt_two hj
  | succ fuel ih =>
      intro j hj
      rw [powerOfTwoFrom]
      split
      case isTrue => exact Nat.pow_le_pow_right Nat.zero_lt_two hj
      case isFalse hless =>
        have hlt : 2 ^ j < 2 ^ k := Nat.lt_of_lt_of_le (Nat.lt_of_not_le hless) hn
        have hnext : j + 1 ≤ k := (Nat.pow_lt_pow_iff_right (by decide)).1 hlt
        rw [Nat.mul_comm, ← Nat.pow_succ]
        exact ih (j + 1) hnext

/-- A power of two that bounds a number bounds its next power of two. -/
theorem nextPowerOfTwo_le {n k : Nat} (h : n ≤ 2 ^ k) : nextPowerOfTwo n ≤ 2 ^ k :=
  powerOfTwoFrom_le h n 0 (Nat.zero_le k)

/-- A preamble of at most 32 bits and a packet of at most 1024 have sizes below two to the 32 at
each symbol length that leaves their sample rate there. -/
theorem sizesWithin {p : Profile} (hsymbol : p.symbolLength ≤ 131071)
    (hrate : p.dataRate ≤ 32768) (hpreamble : p.preambleSymbols ≤ 32)
    (hpacket : p.packetSymbols ≤ 1024) : p.SizesWithin (2 ^ 32) := by
  have hbit : p.bitLength ≤ 262142 := Nat.mul_le_mul_left 2 hsymbol
  have hsample : p.sampleRate ≤ 32768 * 131071 := Nat.mul_le_mul hrate hsymbol
  have hlead : p.preambleLength ≤ 32 * 262142 := Nat.mul_le_mul hpreamble hbit
  have hlong : p.packetLength ≤ 1024 * 262142 := Nat.mul_le_mul hpacket hbit
  have hblock : p.blockSize ≤ 2 ^ 23 := nextPowerOfTwo_le (by omega)
  have hbytes : p.blockBytes = 2 * p.blockSize := rfl
  have hbuffer : p.bufferLength = p.packetLength + p.blockSize := rfl
  constructor <;> omega

/-- The sizes of a profile as words, each rounded on its own. -/
def exactSizes (p : Profile) : Sizes where
  bitLength := UInt64.ofNat p.bitLength
  sampleRate := UInt64.ofNat p.sampleRate
  preambleLength := UInt64.ofNat p.preambleLength
  packetLength := UInt64.ofNat p.packetLength
  blockSize := UInt64.ofNat p.blockSize
  blockBytes := UInt64.ofNat p.blockBytes
  bufferLength := UInt64.ofNat p.bufferLength

/-- Within 32 bits the sizes computed from words are the exact sizes. -/
theorem SizesWithin.sizes_eq {p : Profile} (h : p.SizesWithin (2 ^ 32)) :
    p.sizes = p.exactSizes := by
  have hlead : UInt64.ofNat p.preambleSymbols * UInt64.ofNat p.bitLength =
      UInt64.ofNat p.preambleLength := (UInt64.ofNat_mul _ _).symm
  have hlong : UInt64.ofNat p.packetSymbols * UInt64.ofNat p.bitLength =
      UInt64.ofNat p.packetLength := (UInt64.ofNat_mul _ _).symm
  have hword : (UInt64.ofNat p.preambleLength).toNat = p.preambleLength :=
    UInt64.toNat_ofNat_of_lt' (Nat.lt_of_le_of_lt h.preambleLength (by decide))
  have hbytes : UInt64.ofNat p.blockBytes = 2 * UInt64.ofNat p.blockSize := UInt64.ofNat_mul _ _
  have hbuffer : UInt64.ofNat p.bufferLength =
      UInt64.ofNat p.packetLength + UInt64.ofNat p.blockSize := UInt64.ofNat_add _ _
  rw [sizes, hlead, hlong, hword, exactSizes, hbytes, hbuffer]
  rfl

end Profile

/-! ### Protocols and configurations -/

namespace Protocol

/-- Both protocols have well-formed profiles at every symbol length. -/
theorem wellFormed_profile (protocol : Protocol) {n : Nat} (h : 1 ≤ n) :
    (protocol.profile n).WellFormed where
  symbol := by
    rw [Decoder.symbolLength_profile]
    exact h
  preamble := by
    cases protocol with
    | scm => exact (show 1 ≤ Scm.preamble.utf8ByteSize by decide)
    | idm => exact (show 1 ≤ Idm.preamble.utf8ByteSize by decide)
  packet := Decoder.preambleSymbols_profile_le protocol n

/-- The sizes of both protocols fit into 32 bits at every symbol length with a sample rate. -/
theorem sizesWithin_profile (protocol : Protocol) {n : Nat} (h : n ≤ 131071) :
    (protocol.profile n).SizesWithin (2 ^ 32) := by
  cases protocol with
  | scm =>
      exact Profile.sizesWithin h (Nat.le_refl 32768)
        (show Scm.preamble.utf8ByteSize ≤ 32 by decide) (show Scm.packetBits ≤ 1024 by decide)
  | idm =>
      exact Profile.sizesWithin h (Nat.le_refl 32768)
        (show Idm.preamble.utf8ByteSize ≤ 32 by decide) (show Idm.packetBits ≤ 1024 by decide)

end Protocol

namespace Config

theorem checkedSymbolLength_ok_iff {length n : Nat} :
    checkedSymbolLength length = .ok n ↔ length = n ∧ 1 ≤ n ∧ n ≤ 131071 := by
  have hmax : maxSymbolLength = 131071 := by decide
  rw [checkedSymbolLength, hmax]
  split
  case isTrue hrange =>
    constructor
    · intro h
      cases h
      exact ⟨rfl, hrange⟩
    · rintro ⟨rfl, -⟩
      rfl
  case isFalse hrange =>
    constructor
    · intro h
      cases h
    · rintro ⟨rfl, h⟩
      exact absurd h hrange

/-- A configuration that was accepted has a symbol length with a sample rate. -/
theorem symbolLength_of_ofArguments {arguments : CommandLine.Arguments} {config : Config}
    (h : ofArguments arguments = .ok config) :
    1 ≤ config.symbolLength ∧ config.symbolLength ≤ 131071 :=
  (checkedSymbolLength_ok_iff.1 (checked_of_ofArguments h).symbolLength).2

end Config

end MeterRadio
