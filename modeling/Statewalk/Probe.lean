/-! # Probes

Flags that ask for a progress event, handles to them, and timers that set them again and again.
Time passes only while somebody waits.
-/

namespace Statewalk

/-- A timer that sets a flag once a period. -/
structure Timer where
  flag : Nat
  /-- Its period in milliseconds. -/
  period : Nat
  running : Bool := true
deriving DecidableEq, Repr

/-- Flags, handles and timers, each known by its number. -/
structure ProbeBoard where
  flags : List Bool := []
  /-- The flag that each handle stands for. -/
  handles : List Nat := []
  timers : List Timer := []
deriving DecidableEq, Repr

namespace ProbeBoard

/-- A board with one flag and one handle to it. -/
def single : ProbeBoard :=
  { flags := [false], handles := [0] }

/-- The flag that a handle stands for. -/
def flagOf (b : ProbeBoard) (handle : Nat) : Nat :=
  b.handles[handle]?.getD 0

/-- A new flag with a handle; answers the number of the handle. -/
def addFlag (b : ProbeBoard) : Nat × ProbeBoard :=
  (b.handles.length,
    { b with flags := b.flags ++ [false], handles := b.handles ++ [b.flags.length] })

/-- Another handle to the same flag; answers its number. -/
def addHandle (handle : Nat) (b : ProbeBoard) : Nat × ProbeBoard :=
  (b.handles.length, { b with handles := b.handles ++ [b.flagOf handle] })

/-- The flag of a handle is set. -/
def isRequested (b : ProbeBoard) (handle : Nat) : Bool :=
  b.flags[b.flagOf handle]?.getD false

/-- Sets the flag of a handle. -/
def request (handle : Nat) (b : ProbeBoard) : ProbeBoard :=
  { b with flags := b.flags.set (b.flagOf handle) true }

/-- Reads the flag of a handle and takes it away. -/
def take (handle : Nat) (b : ProbeBoard) : Bool × ProbeBoard :=
  (b.isRequested handle, { b with flags := b.flags.set (b.flagOf handle) false })

/-- Starts a timer for the flag of a handle; answers its number. -/
def startTimer (handle period : Nat) (b : ProbeBoard) : Nat × ProbeBoard :=
  (b.timers.length, { b with timers := b.timers ++ [{ flag := b.flagOf handle, period }] })

/-- Stops a timer. -/
def stopTimer (timer : Nat) (b : ProbeBoard) : ProbeBoard :=
  { b with timers := b.timers.modify timer fun t => { t with running := false } }

/-- Lets time pass: every running timer whose period is over sets its flag. -/
def elapse (milliseconds : Nat) (b : ProbeBoard) : ProbeBoard :=
  { b with
    flags := b.timers.foldl
      (fun flags t => if t.running && t.period ≤ milliseconds then flags.set t.flag true else flags)
      b.flags }

/-- The shortest period of the running timers of a flag. -/
def shortestPeriod? (flag : Nat) (b : ProbeBoard) : Option Nat :=
  ((b.timers.filter fun t => t.running && t.flag = flag).map (·.period)).min?

/-- The longest time that somebody waits, in milliseconds. -/
def patience : Nat := 1000

/-- Waits until the flag of a handle is set and takes it away; answers whether that came to
    pass. -/
def await (handle : Nat) (b : ProbeBoard) : Bool × ProbeBoard :=
  if b.isRequested handle then b.take handle
  else
    let time := ((b.shortestPeriod? (b.flagOf handle)).filter (· ≤ patience)).getD patience
    (b.elapse time).take handle

end ProbeBoard

end Statewalk
