import AdvisoryGate.Outcome

/-!
# The exit code after every end of a child

The system reports the end of a child as a word of 32 bits. Here this word
is taken apart by masks and shifts, as its layout is documented: seven bits
for the manner of the end (`manner`), one bit that tells of a core, eight
bits for the code of an exit (`code`). `ChildExit.ofStatus` reads the word
as a number; `ofStatus_of_exited`, `ofStatus_of_suspended` and
`ofStatus_of_killed` say what it makes of each manner, and after these no
proof looks at bits again.

The headline is `exitCode_mirrors`: whatever the system answers, the code of
the gate survives the end of its process unchanged, and it is 0 only for a
child that exited with 0.

Mirroring has a price. The codes of exits are all the codes there are
(`exitCode_ofCode`), so the one for a program that was not started is also
the code of an exit; `spawn_failure_shares_one_exit` says that it is the
code of nothing else.
-/

namespace AdvisoryGate

/-! ## The layout of a wait status -/

/-- A raw wait status; as a number it is read in two's complement. -/
abbrev WaitStatus := BitVec 32

namespace WaitStatus

/-- Bits 0 to 6, the manner of the end: 0 is an exit, 127 a stop or a
continuation, anything else the signal that ended the child. -/
def manner (s : WaitStatus) : BitVec 32 := s &&& 0x7f#32

/-- Bits 8 to 15: the code of an exit. -/
def code (s : WaitStatus) : BitVec 32 := s.sshiftRight 8 &&& 0xff#32

def Exited (s : WaitStatus) : Prop := s.manner = 0#32

/-- Stopped or continued. -/
def Suspended (s : WaitStatus) : Prop := s.manner = 0x7f#32

/-- Ended by a signal. -/
def Killed (s : WaitStatus) : Prop := ¬ s.Exited ∧ ¬ s.Suspended

/-- The same status with bit 7, which tells of a core, turned over. -/
def withOtherCore (s : WaitStatus) : WaitStatus := s ^^^ 0x80#32

theorem and_mask_xor {x y m : BitVec 32} (h : y &&& m = 0#32) : (x ^^^ y) &&& m = x &&& m := by
  have hdistrib : (x ^^^ y) &&& m = (x &&& m) ^^^ (y &&& m) := by
    ext i hi
    simp [Bool.and_xor_distrib_right]
  rw [hdistrib, h, BitVec.xor_zero]

theorem manner_withOtherCore (s : WaitStatus) : s.withOtherCore.manner = s.manner :=
  and_mask_xor (by decide)

theorem code_withOtherCore (s : WaitStatus) : s.withOtherCore.code = s.code := by
  rw [code, withOtherCore, BitVec.sshiftRight_xor_distrib]
  exact and_mask_xor (by decide)

/-! ## Masks and shifts as arithmetic -/

/-- The sign of a word does not matter to its low bits. -/
theorem toInt_emod (w : BitVec 32) {m : Nat} (hm : m ∣ 0x100000000) :
    w.toInt % m = (w.toNat % m : Nat) := by
  have hdvd : (m : Int) ∣ (0x100000000 : Nat) := Int.natCast_dvd_natCast.mpr hm
  have hword : w.toInt % (0x100000000 : Nat) = w.toNat := by
    rw [BitVec.toInt_eq_toNat_cond]
    split <;> omega
  rw [← Int.emod_emod_of_dvd _ hdvd, hword, Int.natCast_emod]

theorem toNat_manner (s : WaitStatus) : (s.manner.toNat : Int) = s.toInt % 128 := by
  have hmask : s.manner.toNat = s.toNat % 128 := by
    rw [manner, BitVec.toNat_and]
    exact Nat.and_two_pow_sub_one_eq_mod s.toNat 7
  rw [hmask]
  exact (toInt_emod s (m := 128) (by decide)).symm

theorem toNat_code (s : WaitStatus) : (s.code.toNat : Int) = s.toInt / 256 % 256 := by
  have hmask : s.code.toNat = (s.sshiftRight 8).toNat % 256 := by
    rw [code, BitVec.toNat_and]
    exact Nat.and_two_pow_sub_one_eq_mod _ 8
  have hshift : (s.sshiftRight 8).toInt = s.toInt / 256 := by
    rw [BitVec.toInt_sshiftRight, Int.shiftRight_eq_div_pow]
    rfl
  rw [hmask, ← hshift]
  exact (toInt_emod _ (m := 256) (by decide)).symm

theorem exited_iff {s : WaitStatus} : s.Exited ↔ s.toInt % 128 = 0 := by
  have hzero : (0#32).toNat = 0 := rfl
  rw [← toNat_manner, Exited, ← BitVec.toNat_inj, hzero]
  omega

theorem suspended_iff {s : WaitStatus} : s.Suspended ↔ s.toInt % 128 = 127 := by
  have hall : (0x7f#32).toNat = 127 := rfl
  rw [← toNat_manner, Suspended, ← BitVec.toNat_inj, hall]
  omega

/-! ## How a child ended -/

theorem ofStatus_of_exited {s : WaitStatus} (h : s.Exited) :
    ChildExit.ofStatus s.toInt = .code s.code.toNat := by
  rw [ChildExit.ofStatus, if_pos (exited_iff.mp h), toNat_code]

theorem ofStatus_of_suspended {s : WaitStatus} (h : s.Suspended) :
    ChildExit.ofStatus s.toInt = .unknown := by
  have hmanner := suspended_iff.mp h
  rw [ChildExit.ofStatus, if_neg (by omega), if_pos hmanner]

theorem ofStatus_of_killed {s : WaitStatus} (h : s.Killed) :
    ChildExit.ofStatus s.toInt = .signal s.manner.toNat := by
  obtain ⟨hexited, hsuspended⟩ := h
  rw [exited_iff] at hexited
  rw [suspended_iff] at hsuspended
  rw [ChildExit.ofStatus, if_neg hexited, if_neg hsuspended, toNat_manner]

/-- The number of a signal is none of the two that stand for other ends. -/
theorem Killed.bounds {s : WaitStatus} (h : s.Killed) :
    1 ≤ s.manner.toNat ∧ s.manner.toNat ≤ 126 := by
  obtain ⟨hexited, hsuspended⟩ := h
  rw [exited_iff] at hexited
  rw [suspended_iff] at hsuspended
  have hmanner := toNat_manner s
  omega

theorem toNat_code_le (s : WaitStatus) : s.code.toNat ≤ 255 := by
  have hcode := toNat_code s
  omega

theorem exited_or_suspended_or_killed (s : WaitStatus) : s.Exited ∨ s.Suspended ∨ s.Killed := by
  by_cases hexited : s.Exited
  · exact Or.inl hexited
  · by_cases hsuspended : s.Suspended
    · exact Or.inr (Or.inl hsuspended)
    · exact Or.inr (Or.inr ⟨hexited, hsuspended⟩)

end WaitStatus

/-! ## The exit code of the gate -/

/-- What came of a run, given what the system answered to starting the
program and to waiting for it. -/
def Outcome.ofAnswer (answer : Except RunError WaitStatus) : Outcome :=
  answer.map fun s => .ofStatus s.toInt

/-- What is left of an exit code behind the end of a process: its low eight
bits. -/
def exitByte (code : Int) : BitVec 32 := BitVec.ofInt 32 code &&& 0xff#32

/-- How an exit code mirrors an answer of the system. -/
structure Mirrors (answer : Except RunError WaitStatus) (code : Int) : Prop where
  /-- It is a code that the end of a process does not change. -/
  bounds : 0 ≤ code ∧ code ≤ 255
  unchanged : (exitByte code).toInt = code
  /-- Success means an exit with 0, and nothing else does. -/
  zero : code = 0 ↔ ∃ s, answer = .ok s ∧ s.Exited ∧ s.code = 0#32
  exited : ∀ s, answer = .ok s → s.Exited → code = s.code.toInt
  /-- The sum is the same on words of 32 bits: it does not overflow. -/
  killed : ∀ s, answer = .ok s → s.Killed →
    code = 128 + s.manner.toInt ∧ 129 ≤ code ∧ code ≤ 254
      ∧ (128#32 + s.manner).toInt = 128 + s.manner.toInt
  core : ∀ s, answer = .ok s → (Outcome.ofAnswer (.ok s.withOtherCore)).exitCode = code
  suspended : ∀ s, answer = .ok s → s.Suspended → code = 1
  spawn : ∀ program cause, answer = .error (.spawn program cause) → code = 127
  wait : ∀ program cause, answer = .error (.wait program cause) → code = 1

theorem toInt_of_small {w : BitVec 32} (h : w.toNat ≤ 255) : w.toInt = w.toNat :=
  BitVec.toInt_eq_toNat_of_lt (by omega)

theorem toInt_exitByte {code : Int} (hnonneg : 0 ≤ code) (hle : code ≤ 255) :
    (exitByte code).toInt = code := by
  have hword : (BitVec.ofInt 32 code).toNat = code.toNat := by
    rw [BitVec.toNat_ofInt, Int.emod_eq_of_lt hnonneg (by omega)]
  have hbyte : (exitByte code).toNat = code.toNat := by
    rw [exitByte, BitVec.toNat_and, hword]
    exact (Nat.and_two_pow_sub_one_eq_mod code.toNat 8).trans (Nat.mod_eq_of_lt (by omega))
  rw [toInt_of_small (by omega), hbyte]
  exact Int.toNat_of_nonneg hnonneg

section ExitCode

variable {s : WaitStatus}

theorem exitCode_of_spawn (program : String) (cause : SystemError) :
    (Outcome.ofAnswer (.error (.spawn program cause))).exitCode = 127 := rfl

theorem exitCode_of_wait (program : String) (cause : SystemError) :
    (Outcome.ofAnswer (.error (.wait program cause))).exitCode = 1 := rfl

theorem exitCode_of_exited (h : s.Exited) :
    (Outcome.ofAnswer (.ok s)).exitCode = s.code.toNat := by
  simp only [Outcome.ofAnswer, Except.map, WaitStatus.ofStatus_of_exited h]
  rfl

theorem exitCode_of_suspended (h : s.Suspended) : (Outcome.ofAnswer (.ok s)).exitCode = 1 := by
  simp only [Outcome.ofAnswer, Except.map, WaitStatus.ofStatus_of_suspended h]
  rfl

theorem exitCode_of_killed (h : s.Killed) :
    (Outcome.ofAnswer (.ok s)).exitCode = 128 + s.manner.toNat := by
  simp only [Outcome.ofAnswer, Except.map, WaitStatus.ofStatus_of_killed h]
  rfl

/-- Manner and code decide, so the core bit does not. -/
theorem exitCode_withOtherCore (s : WaitStatus) :
    (Outcome.ofAnswer (.ok s.withOtherCore)).exitCode = (Outcome.ofAnswer (.ok s)).exitCode := by
  have hmanner := s.manner_withOtherCore
  rcases s.exited_or_suspended_or_killed with h | h | h
  · have h' : s.withOtherCore.Exited := hmanner.trans h
    rw [exitCode_of_exited h, exitCode_of_exited h', s.code_withOtherCore]
  · have h' : s.withOtherCore.Suspended := hmanner.trans h
    rw [exitCode_of_suspended h, exitCode_of_suspended h']
  · have h' : s.withOtherCore.Killed := by
      rw [WaitStatus.Killed, WaitStatus.Exited, WaitStatus.Suspended, hmanner]
      exact h
    rw [exitCode_of_killed h, exitCode_of_killed h', hmanner]

theorem exitCode_bounds (answer : Except RunError WaitStatus) :
    0 ≤ (Outcome.ofAnswer answer).exitCode ∧ (Outcome.ofAnswer answer).exitCode ≤ 255 := by
  cases answer with
  | error e =>
      cases e with
      | spawn program cause =>
          rw [exitCode_of_spawn]
          omega
      | wait program cause =>
          rw [exitCode_of_wait]
          omega
  | ok s =>
      rcases s.exited_or_suspended_or_killed with h | h | h
      · rw [exitCode_of_exited h]
        have hcode := s.toNat_code_le
        omega
      · rw [exitCode_of_suspended h]
        omega
      · rw [exitCode_of_killed h]
        have hsignal := h.bounds
        omega

theorem exitCode_eq_zero_iff (answer : Except RunError WaitStatus) :
    (Outcome.ofAnswer answer).exitCode = 0 ↔ ∃ s, answer = .ok s ∧ s.Exited ∧ s.code = 0#32 := by
  constructor
  · intro hzero
    cases answer with
    | error e =>
        cases e with
        | spawn program cause => cases hzero
        | wait program cause => cases hzero
    | ok s =>
        rcases s.exited_or_suspended_or_killed with h | h | h
        · rw [exitCode_of_exited h] at hzero
          exact ⟨s, rfl, h, BitVec.eq_of_toNat_eq (Int.natCast_eq_zero.mp hzero)⟩
        · rw [exitCode_of_suspended h] at hzero
          cases hzero
        · rw [exitCode_of_killed h] at hzero
          omega
  · rintro ⟨s, rfl, hexited, hcode⟩
    rw [exitCode_of_exited hexited, hcode]
    rfl

end ExitCode

/-- **The gate never passes a failed audit.** Its exit code mirrors what the
system answered: an exit by its code, a signal by 128 and its number, what
is neither and a lost child by 1, a program that was not started by 127. -/
theorem exitCode_mirrors (answer : Except RunError WaitStatus) :
    Mirrors answer (Outcome.ofAnswer answer).exitCode where
  bounds := exitCode_bounds answer
  unchanged := toInt_exitByte (exitCode_bounds answer).1 (exitCode_bounds answer).2
  zero := exitCode_eq_zero_iff answer
  exited := by
    rintro s rfl h
    rw [exitCode_of_exited h, toInt_of_small s.toNat_code_le]
  killed := by
    rintro s rfl h
    have hsignal := h.bounds
    have hmanner : s.manner.toInt = s.manner.toNat := toInt_of_small (by omega)
    have hsum : (128#32 + s.manner).toNat = 128 + s.manner.toNat := by
      rw [BitVec.toNat_add]
      exact Nat.mod_eq_of_lt (by simp only [BitVec.toNat_ofNat]; omega)
    have hword : (128#32 + s.manner).toInt = 128 + s.manner.toNat := by
      rw [toInt_of_small (by omega), hsum]
      rfl
    rw [exitCode_of_killed h, hmanner, hword]
    omega
  core := by
    rintro s rfl
    exact exitCode_withOtherCore s
  suspended := by
    rintro s rfl h
    exact exitCode_of_suspended h
  spawn := by
    rintro program cause rfl
    exact exitCode_of_spawn program cause
  wait := by
    rintro program cause rfl
    exact exitCode_of_wait program cause

/-- A core dumped on `SIGSEGV`, as the system reports it. -/
example : (Outcome.ofAnswer (.ok 0x8b#32)).exitCode = 139 := by decide

/-! ## Programs that were not started -/

/-- The status of an exit with a code. -/
def WaitStatus.ofCode (code : BitVec 8) : WaitStatus := code.setWidth 32 <<< 8

namespace WaitStatus

variable (code : BitVec 8)

theorem toInt_ofCode : (ofCode code).toInt = 256 * code.toNat := by
  have hcode := code.isLt
  have hnat : (ofCode code).toNat = 256 * code.toNat := by
    simp only [ofCode, BitVec.toNat_shiftLeft, BitVec.toNat_setWidth, Nat.shiftLeft_eq]
    omega
  rw [BitVec.toInt_eq_toNat_of_lt (by omega), hnat]
  omega

theorem exited_ofCode : (ofCode code).Exited := by
  rw [exited_iff, toInt_ofCode]
  omega

theorem toNat_code_ofCode : (ofCode code).code.toNat = code.toNat := by
  have hcode := toNat_code (ofCode code)
  rw [toInt_ofCode] at hcode
  have hlt := code.isLt
  omega

end WaitStatus

theorem exitCode_ofCode (code : BitVec 8) :
    (Outcome.ofAnswer (.ok (WaitStatus.ofCode code))).exitCode = code.toNat := by
  rw [exitCode_of_exited (WaitStatus.exited_ofCode code), WaitStatus.toNat_code_ofCode]

theorem exitCode_eq_spawnFailureCode_iff (answer : Except RunError WaitStatus) :
    (Outcome.ofAnswer answer).exitCode = Outcome.spawnFailureCode
      ↔ (∃ program cause, answer = .error (.spawn program cause))
        ∨ ∃ s, answer = .ok s ∧ s.Exited ∧ s.code = 127#32 := by
  have hspawn : Outcome.spawnFailureCode = 127 := rfl
  constructor
  · intro h
    cases answer with
    | error e =>
        cases e with
        | spawn program cause => exact .inl ⟨program, cause, rfl⟩
        | wait program cause => cases h
    | ok s =>
        refine .inr ⟨s, rfl, ?_⟩
        rcases s.exited_or_suspended_or_killed with hend | hend | hend
        · rw [exitCode_of_exited hend, hspawn] at h
          exact ⟨hend, BitVec.eq_of_toNat_eq (Int.natCast_inj.mp h)⟩
        · rw [exitCode_of_suspended hend] at h
          cases h
        · -- The number of a signal is at least 1.
          rw [exitCode_of_killed hend, hspawn] at h
          have hsignal := hend.bounds
          omega
  · rintro (⟨program, cause, rfl⟩ | ⟨s, rfl, hexited, hcode⟩)
    · exact exitCode_of_spawn program cause
    · rw [exitCode_of_exited hexited, hcode]
      rfl

/-- **A program that was not started shares its code with one exit.** The
code for it is answered, besides, for a child that exited with this very
code, and for no other end of a child and no lost child. Some exit there had
to be: whatever code a process can end with is the code of an exit. -/
theorem spawn_failure_shares_one_exit (answer : Except RunError WaitStatus) :
    ((Outcome.ofAnswer answer).exitCode = Outcome.spawnFailureCode
        ↔ (∃ program cause, answer = .error (.spawn program cause))
          ∨ ∃ s, answer = .ok s ∧ s.Exited ∧ s.code = 127#32)
      ∧ ∀ code : BitVec 8, ∃ s : WaitStatus, s.Exited
          ∧ (Outcome.ofAnswer (.ok s)).exitCode = code.toNat :=
  ⟨exitCode_eq_spawnFailureCode_iff answer,
    fun code => ⟨.ofCode code, WaitStatus.exited_ofCode code, exitCode_ofCode code⟩⟩

/-- A child that ran and exited with 127 is not told from one that was never
started. -/
theorem exit_with_spawn_failure_code :
    let answer : Except RunError WaitStatus := .ok 0x7f00#32
    let unstarted : Except RunError WaitStatus := .error (.spawn "cargo" .noEntry)
    (Outcome.ofAnswer answer).exitCode = (Outcome.ofAnswer unstarted).exitCode
      ∧ ¬ ((Outcome.ofAnswer answer).exitCode = Outcome.spawnFailureCode
        ↔ ∃ program cause, answer = .error (.spawn program cause)) := by
  intro answer unstarted
  refine ⟨by decide, fun hiff => ?_⟩
  obtain ⟨program, cause, hspawn⟩ := hiff.mp (by decide)
  simp [answer] at hspawn

end AdvisoryGate
