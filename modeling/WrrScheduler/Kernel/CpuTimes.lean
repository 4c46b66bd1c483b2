/-
The user and system times `core.c` reports.

A `cputime_t` is an `unsigned long` of 32 bits.  The ticks say how a task's time is
split, its precise run time how much of it there is.  `nsecs_to_cputime` and
`thread_group_cputime` are not in the repository.
-/
import Mathlib.Algebra.Group.Nat.Defs
import WrrScheduler.Lib.Run

namespace WrrScheduler

/-- `nsecs_to_cputime`: with more nanoseconds there are no fewer jiffies, up to the most that a
`cputime_t` can count. -/
structure NsecsToCputime where
  call : BitVec 64 → BitVec 32
  limit : BitVec 64
  mono : ∀ a b, a ≤ b → b ≤ limit → call a ≤ call b

/-- `struct task_cputime`. -/
structure TaskCputime where
  utime : BitVec 32
  stime : BitVec 32
  sumExecRuntime : BitVec 64

/-- The times that were reported last. -/
structure PrevTimes where
  prevUtime : BitVec 32
  prevStime : BitVec 32

/-- The times in `task_struct`. -/
structure TaskTimes where
  cputime : TaskCputime
  prev : PrevTimes

/-- `scale_utime`. -/
def scaleUtime (utime rtime total : BitVec 32) : BitVec 32 :=
  let temp := rtime.setWidth 64 * utime.setWidth 64
  (temp / total.setWidth 64).setWidth 32

/-- `max`. -/
def maxCputime (x y : BitVec 32) : BitVec 32 := if y < x then x else y

/-- The user time `task_times` and `thread_group_times` compare with the one before. -/
def scaledUtime (n : NsecsToCputime) (c : TaskCputime) : BitVec 32 :=
  let rtime := n.call c.sumExecRuntime
  let total := c.utime + c.stime
  if total ≠ 0 then scaleUtime c.utime rtime total else rtime

/-- The comparison with the times before. -/
def nextTimes (n : NsecsToCputime) (c : TaskCputime) (prev : PrevTimes) : PrevTimes :=
  let prevUtime := maxCputime prev.prevUtime (scaledUtime n c)
  { prevUtime := prevUtime
    prevStime := maxCputime prev.prevStime (n.call c.sumExecRuntime - prevUtime) }

/-- `task_times`: the user and the system time, and the task after it. -/
def taskTimes (n : NsecsToCputime) (p : TaskTimes) : (BitVec 32 × BitVec 32) × TaskTimes :=
  let prev := nextTimes n p.cputime p.prev
  ((prev.prevUtime, prev.prevStime), { p with prev := prev })

/-- `thread_group_times`, of what `thread_group_cputime` found and the `signal_struct`. -/
def threadGroupTimes (n : NsecsToCputime) (cputime : TaskCputime) (sig : PrevTimes) :
    (BitVec 32 × BitVec 32) × PrevTimes :=
  let sig := nextTimes n cputime sig
  ((sig.prevUtime, sig.prevStime), sig)

/-! ### The system -/

/-- The two functions. -/
inductive Reporter
  | taskTimes
  | threadGroupTimes
  deriving DecidableEq, Repr

/-- Call one of them: what it reports, and what it keeps. -/
def Reporter.call (r : Reporter) (n : NsecsToCputime) (c : TaskCputime) (prev : PrevTimes) :
    (BitVec 32 × BitVec 32) × PrevTimes :=
  match r with
  | .taskTimes =>
    let result := WrrScheduler.taskTimes n { cputime := c, prev := prev }
    (result.1, result.2.prev)
  | .threadGroupTimes => WrrScheduler.threadGroupTimes n c prev

/-- What the last call found, and what it kept. -/
structure Reported where
  seen : TaskCputime
  prev : PrevTimes

/-- The counters never run backwards, and their types hold them. -/
def countsOn (n : NsecsToCputime) (seen c : TaskCputime) : Prop :=
  (seen.utime ≤ c.utime ∧ seen.stime ≤ c.stime ∧ seen.sumExecRuntime ≤ c.sumExecRuntime) ∧
    c.utime.toNat + c.stime.toNat < 2 ^ 32 ∧ c.sumExecRuntime ≤ n.limit

instance (n : NsecsToCputime) (seen c : TaskCputime) : Decidable (countsOn n seen c) :=
  inferInstanceAs (Decidable ((_ ∧ _ ∧ _) ∧ _ ∧ _))

/-- One call, with what it finds. -/
def reportStep (r : Reporter) (n : NsecsToCputime) (s : Reported) (c : TaskCputime) :
    Option Reported :=
  if countsOn n s.seen c then some { seen := c, prev := (r.call n c s.prev).2 } else none

/-- A new task, or a new thread group. -/
def reportedNone : Reported where
  seen := { utime := 0, stime := 0, sumExecRuntime := 0 }
  prev := { prevUtime := 0, prevStime := 0 }

end WrrScheduler
