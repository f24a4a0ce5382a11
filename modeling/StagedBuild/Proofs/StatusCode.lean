import StagedBuild.Status

/-! The code of a status, as the thirty-two bits give it. The bits are read here with the operations on
signed numbers that the system's own macros use. -/
namespace StagedBuild.Status

theorem maskedInt (v : BitVec 32) {k : Nat} (small : k < 31) :
    (v &&& BitVec.ofNat 32 (Nat.pow 2 k - 1)).toInt = (v.toNat % Nat.pow 2 k : Nat) := by
  have pow : Nat.pow 2 k = 2 ^ k := rfl
  have power : 2 ^ k < 2 ^ 31 := Nat.pow_lt_pow_right (by decide) small
  have fits : (2 ^ k - 1) % 2 ^ 32 = 2 ^ k - 1 := Nat.mod_eq_of_lt (by omega)
  have unsigned : (v &&& BitVec.ofNat 32 (2 ^ k - 1)).toNat = v.toNat % 2 ^ k := by
    rw [BitVec.toNat_and, BitVec.toNat_ofNat, fits, Nat.and_two_pow_sub_one_eq_mod]
  have bound : v.toNat % 2 ^ k < 2 ^ k := Nat.mod_lt _ (by omega)
  rw [pow, BitVec.toInt_eq_toNat_of_lt (by omega), unsigned]

theorem signalBitsMask (s : Status) : (s.raw &&& 127).toInt = s.signalBits :=
  maskedInt s.raw.toBitVec (k := 7) (by decide)

theorem shiftMasked (v : BitVec 32) : v.sshiftRight 8 &&& 255#32 = (v >>> 8) &&& 255#32 := by
  apply BitVec.eq_of_getLsbD_eq
  intro i inside
  rw [BitVec.getLsbD_and, BitVec.getLsbD_and]
  -- The mask takes away the bits that the shift of a negative number fills in.
  by_cases low : i < 8
  · have room : 8 + i < 32 := by omega
    have bit : (v.sshiftRight 8).getLsbD i = (v >>> 8).getLsbD i := by
      rw [BitVec.getLsbD_sshiftRight, BitVec.getLsbD_ushiftRight, if_pos room]
      simp [inside]
    rw [bit]
  · have bound : 255 < 2 ^ i :=
      Nat.lt_of_lt_of_le (by decide : 255 < 2 ^ 8) (Nat.pow_le_pow_right (by decide) (by omega))
    have high : (255#32).getLsbD i = false := by
      rw [BitVec.getLsbD_ofNat, Nat.testBit_lt_two_pow bound, Bool.and_false]
    rw [high, Bool.and_false, Bool.and_false]

theorem exitBitsMask (s : Status) : ((s.raw >>> 8) &&& 255).toInt = s.exitBits := by
  have shifted : ((s.raw >>> 8) &&& 255).toBitVec = (s.raw.toBitVec >>> 8) &&& 255#32 := by
    rw [← shiftMasked, Int32.toBitVec_and, Int32.toBitVec_shiftRight]
    rfl
  have unsigned : (s.raw.toBitVec >>> 8).toNat % 2 ^ 8 = s.exitBits := by
    rw [BitVec.toNat_ushiftRight, Nat.shiftRight_eq_div_pow]
    rfl
  rw [← Int32.toInt_toBitVec, shifted, ← unsigned]
  exact maskedInt _ (k := 8) (by decide)

theorem codeExited {s : Status} (exited : s.signalBits = 0) : s.code = s.exitBits := by
  simp [code, exitCode?, exited]

theorem codeKilled {s : Status} (killed : s.signalBits ≠ 0) (known : s.signalBits ≠ 127) :
    s.code = 128 + s.signalBits := by
  simp [code, exitCode?, signal?, killed, known]

theorem codeOther {s : Status} (other : s.signalBits = 127) : s.code = 1 := by
  simp [code, exitCode?, signal?, other]

theorem codeNotFound (s : Status) : s.code = 127 ↔ s.exitCode? = some 127 := by
  by_cases exited : s.signalBits = 0
  · simp [codeExited exited, exitCode?, exited]
  · have none : s.exitCode? = none := by simp [exitCode?, exited]
    have code : s.code ≠ 127 := by
      by_cases other : s.signalBits = 127
      · rw [codeOther other]
        decide
      · rw [codeKilled exited other]
        omega
    simp [none, code]

structure CodeRule (s : Status) : Prop where
  byte : s.code ≤ 255
  exited : s.raw &&& 127 = 0 → (s.code : Int) = ((s.raw >>> 8) &&& 255).toInt
  killed : 1 ≤ (s.raw &&& 127).toInt → (s.raw &&& 127).toInt ≤ 126 →
    (s.code : Int) = (128 + (s.raw &&& 127)).toInt ∧
      (128 + (s.raw &&& 127)).toInt = 128 + (s.raw &&& 127).toInt
  other : s.raw &&& 127 = 127 → s.code = 1
  notFound : s.code = 127 ↔ s.exitCode? = some 127

theorem signalSum {signal : Int32} (low : 0 ≤ signal.toInt) (high : signal.toInt ≤ 126) :
    (128 + signal).toInt = 128 + signal.toInt := by
  have small : (128 : Int32).toInt = 128 := by decide
  rw [Int32.toInt_add, small]
  exact Int.bmod_eq_of_le (by omega) (by omega)

theorem codeRule (s : Status) : CodeRule s := by
  have mask := signalBitsMask s
  have signal : s.signalBits < 128 := Nat.mod_lt _ (by decide)
  have exit : s.exitBits < 256 := Nat.mod_lt _ (by decide)
  refine ⟨?_, ?_, ?_, ?_, codeNotFound s⟩
  · by_cases exited : s.signalBits = 0
    · rw [codeExited exited]
      omega
    · by_cases other : s.signalBits = 127
      · rw [codeOther other]
        decide
      · rw [codeKilled exited other]
        omega
  · intro none
    rw [none] at mask
    have exited : s.signalBits = 0 := by simpa using mask.symm
    rw [exitBitsMask, codeExited exited]
  · intro low high
    have sum := signalSum (Int.le_trans (by decide) low) high
    have code : s.code = 128 + s.signalBits := codeKilled (by omega) (by omega)
    exact ⟨by omega, sum⟩
  · intro all
    rw [all] at mask
    have other : s.signalBits = 127 := by
      have value : (127 : Int32).toInt = 127 := by decide
      omega
    exact codeOther other

theorem bitsOfNat {n : Nat} (small : n < 4294967296) : (ofInt n).bits = n := by
  have raw : (Int32.ofInt n).toBitVec = BitVec.ofNat 32 n := by
    rw [Int32.toBitVec_ofInt, BitVec.ofInt_natCast]
  have same : (ofInt n).bits = (Int32.ofInt n).toBitVec.toNat := rfl
  rw [same, raw, BitVec.toNat_ofNat]
  exact Nat.mod_eq_of_lt small

def Terminated (s : Status) : Prop :=
  (∃ code : UInt8, s = exited code) ∨
    ∃ signal, 1 ≤ signal ∧ signal ≤ 126 ∧ (s = killed signal ∨ s = killed (signal + 128))

theorem terminatedCode {s : Status} (terminated : s.Terminated) :
    s.code = 0 ↔ s.succeeded = true := by
  have zero : s.succeeded = true ↔ s.bits = 0 := by simp [succeeded]
  rw [zero]
  rcases terminated with ⟨code, rfl⟩ | ⟨signal, low, high, how⟩
  · have bound := code.toNat_lt
    have bits : (exited code).bits = code.toNat * 256 := bitsOfNat (n := code.toNat * 256) (by omega)
    have none : (exited code).signalBits = 0 := by
      rw [signalBits]
      omega
    have exit : (exited code).exitBits = code.toNat := by
      rw [exitBits]
      omega
    rw [codeExited none]
    omega
  · have bits : s.bits = signal ∨ s.bits = signal + 128 := by
      rcases how with rfl | rfl
      · exact .inl (bitsOfNat (by omega))
      · exact .inr (bitsOfNat (n := signal + 128) (by omega))
    have same : s.signalBits = signal := by
      rw [signalBits]
      omega
    rw [codeKilled (by omega) (by omega)]
    omega

end StagedBuild.Status
