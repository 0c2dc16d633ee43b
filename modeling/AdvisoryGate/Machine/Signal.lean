import AdvisoryGate.Machine.Condition

/-!
# Signals

The names and numbers of signals, which of them end a process, and what is
said of one that has been ended.
-/

namespace AdvisoryGate.Machine.Signal

/-- One more than the last signal. -/
def count : Nat := 65

/-- The names of signals, from 1 on. -/
def names : List String :=
  ["HUP", "INT", "QUIT", "ILL", "TRAP", "ABRT", "BUS", "FPE", "KILL", "USR1", "SEGV", "USR2",
    "PIPE", "ALRM", "TERM", "STKFLT", "CHLD", "CONT", "STOP", "TSTP", "TTIN", "TTOU", "URG",
    "XCPU", "XFSZ", "VTALRM", "PROF", "WINCH", "IO", "PWR", "SYS"]

/-- The signal with a number or a name. Names are read without regard to
case. -/
def ofText? (s : String) : Option Nat :=
  if !s.isEmpty && s.toList.all Char.isDigit then
    (Condition.natural? s).bind fun n => if n < count then some n else none
  else (names.findIdx? (· = s.toUpper)).map (· + 1)

/-- Signals that do not end a process. -/
def isHarmless (n : Nat) : Bool := [0, 17, 18, 19, 20, 21, 22, 23, 28].contains n

/-- What a shell says of a program that a signal has ended, if anything. -/
def obituary? (n : Nat) : Option String :=
  if 34 ≤ n then some ("Real-time signal " ++ toString (n - 34))
  else
    [(1, "Hangup"), (3, "Quit"), (4, "Illegal instruction"), (5, "Trace/breakpoint trap"),
      (6, "Aborted"), (7, "Bus error"), (8, "Floating point exception"), (9, "Killed"),
      (10, "User defined signal 1"), (11, "Segmentation fault"), (12, "User defined signal 2"),
      (14, "Alarm clock"), (15, "Terminated"), (16, "Stack fault"),
      (24, "CPU time limit exceeded"), (25, "File size limit exceeded"),
      (26, "Virtual timer expired"), (27, "Profiling timer expired"), (29, "I/O possible"),
      (30, "Power failure"), (31, "Bad system call")].lookup n

end AdvisoryGate.Machine.Signal
