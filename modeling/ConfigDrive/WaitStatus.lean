/-
# ConfigDrive.WaitStatus — how a process ended.

The system packs the end of a process into one number.  A process that exited has a code, one that was
killed has the number of a signal; a status that is neither belongs to a process that is only stopped.
The exit status that a run passes on is the code, or 128 more than the signal.
-/

namespace ConfigDrive

/-- How a process ended. -/
inductive WaitStatus
  | exited (code : Nat)
  | killed (signal : Nat)
  | other
  deriving DecidableEq, Repr

namespace WaitStatus

/-- The status that a number packs; of a negative or a larger one the low 32 bits count. -/
def ofRaw (raw : Int) : WaitStatus :=
  let bits := (raw % 0x100000000).toNat
  let low := bits % 0x80
  if low = 0 then .exited (bits / 0x100 % 0x100)
  else if low = 0x7F then .other
  else .killed low

/-- The exit code, if the process exited. -/
def code? : WaitStatus → Option Nat
  | .exited code => some code
  | _ => none

/-- The process exited with code zero. -/
def isSuccess : WaitStatus → Bool
  | .exited code => code == 0
  | _ => false

/-- The exit status to pass on, as a byte. -/
def exitCode : WaitStatus → Nat
  | .exited code => code % 0x100
  | .killed signal => min (128 + signal) 255
  | .other => 1

/-- The code of a process that exited is passed on unchanged. -/
theorem exitCode_exited {code : Nat} (h : code < 256) : (exited code).exitCode = code := by
  simp [exitCode, Nat.mod_eq_of_lt h]

/-- An exit status is a byte. -/
theorem exitCode_lt (s : WaitStatus) : s.exitCode < 256 := by
  cases s with
  | exited code => exact Nat.mod_lt _ (by decide)
  | killed signal =>
    simp only [exitCode]
    omega
  | other => decide

end WaitStatus

/-- What is left of a process that has ended: how it ended and what it wrote. -/
structure Completion where
  status : WaitStatus
  stdout : List UInt8
  stderr : List UInt8
  deriving DecidableEq, Repr

end ConfigDrive
