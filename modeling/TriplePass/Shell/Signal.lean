import TriplePass.Shell.State

/-! # Signals

A shell can send signals to itself and have actions for them. A signal without an action ends the
process, unless it is one of those that do nothing; signals that would stop the process are taken
for these too.
-/
namespace TriplePass.Shell.Signal

/-- The names of the signals from number 1 on; one of them is known by its number alone. -/
def early : List String :=
  ["HUP", "INT", "QUIT", "ILL", "TRAP", "ABRT", "BUS", "FPE", "KILL", "USR1", "SEGV", "USR2",
    "PIPE", "ALRM", "TERM", "16", "CHLD", "CONT", "STOP", "TSTP", "TTIN", "TTOU", "URG", "XCPU",
    "XFSZ", "VTALRM", "PROF", "WINCH", "IO", "PWR", "SYS", "32", "33"]

def realTime : List String :=
  "RTMIN" :: ((List.range 15).map fun n => s!"RTMIN+{n + 1}") ++
    ((List.range 14).map fun n => s!"RTMAX-{14 - n}") ++ ["RTMAX"]

/-- All names, each at its number; the first one stands for the end of the shell. -/
def names : List String :=
  "EXIT" :: early ++ realTime

def count : Nat := 65

def name (n : Nat) : String :=
  names[n]?.getD (toString n)

/-- The number of a signal that is given by number or by name. -/
def number? (least : Nat) (text : Octets) : Option Nat :=
  if !text.isEmpty && text.all Char.isDigit then
    (String.ofList text).toNat?.filter (· < count)
  else
    (names.findIdx? (· == (String.ofList text).toUpper)).filter (least ≤ ·)

/-- The signals that do nothing to a process that has no action for them. -/
def isIdle (n : Nat) : Bool :=
  ["CHLD", "CONT", "URG", "WINCH", "STOP", "TSTP", "TTIN", "TTOU"].contains (name n) || n = 0

/-- How the end of a process by a signal is reported; for two signals it is not. -/
def report? (n : Nat) : Option String :=
  match n with
  | 1 => some "Hangup"
  | 3 => some "Quit"
  | 4 => some "Illegal instruction"
  | 5 => some "Trace/breakpoint trap"
  | 6 => some "Aborted"
  | 7 => some "Bus error"
  | 8 => some "Floating point exception"
  | 9 => some "Killed"
  | 10 => some "User defined signal 1"
  | 11 => some "Segmentation fault"
  | 12 => some "User defined signal 2"
  | 14 => some "Alarm clock"
  | 15 => some "Terminated"
  | 16 => some "Stack fault"
  | 24 => some "CPU time limit exceeded"
  | 25 => some "File size limit exceeded"
  | 26 => some "Virtual timer expired"
  | 27 => some "Profiling timer expired"
  | 29 => some "I/O possible"
  | 30 => some "Power failure"
  | 31 => some "Bad system call"
  | _ => if n = 2 || n = 13 then none else some s!"Unknown signal {n}"

/-- Sends a signal to the process of the whole shell. Without an action it ends at once, though a
subshell that has sent the signal goes on; an action waits until that shell comes to it. -/
def send (n : Nat) : Action Unit := do
  let s ← get
  let action := if s.deaf.contains n then some [] else s.mainTraps.lookup n
  match if name n = "KILL" then none else action with
  | some [] => return
  | some _ => set { s with pending := n :: s.pending.filter (· != n) }
  | none =>
    if isIdle n then return
    else if s.depth = 0 then throw (.gone (-n))
    else set { s with doomed := some n }

end TriplePass.Shell.Signal
