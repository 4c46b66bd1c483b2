/-
Completions, of `core.c`.

A step is what one call does under the lock of the wait queue.  A wait that goes to
sleep keeps its locals and takes its next step when `schedule_timeout` returns; what
that returns, and which signals are pending then, comes in with the step.  The
counter is a natural number, because the callers never let it overflow.
-/
import Mathlib.Algebra.Group.Int.Defs
import WrrScheduler.Kernel.Core
import WrrScheduler.Lib.Run

namespace WrrScheduler

/-- `ERESTARTSYS`. -/
def eRestartsys : Int := 512

/-- `MAX_SCHEDULE_TIMEOUT`. -/
def maxScheduleTimeout : Int := 2 ^ 31 - 1

/-- `TASK_KILLABLE`. -/
def taskKillable : Nat := taskWakekill ||| taskUninterruptible

/-- `struct completion`.  Every waiter of one is exclusive. -/
structure Completion where
  done : Nat
  wait : List Pid

/-- The functions that wait for a completion. -/
inductive WaitFn
  | waitForCompletion
  | waitForCompletionTimeout
  | waitForCompletionInterruptible
  | waitForCompletionInterruptibleTimeout
  | waitForCompletionKillable
  | waitForCompletionKillableTimeout
  deriving DecidableEq, Repr

namespace WaitFn

/-- The task state a function passes on. -/
def state : WaitFn → Nat
  | waitForCompletion | waitForCompletionTimeout => taskUninterruptible
  | waitForCompletionInterruptible | waitForCompletionInterruptibleTimeout => taskInterruptible
  | waitForCompletionKillable | waitForCompletionKillableTimeout => taskKillable

/-- Whether a function takes a timeout. -/
def takesTimeout : WaitFn → Bool
  | waitForCompletionTimeout | waitForCompletionInterruptibleTimeout
  | waitForCompletionKillableTimeout => true
  | waitForCompletion | waitForCompletionInterruptible | waitForCompletionKillable => false

/-- The timeout a function passes on. -/
def timeout (fn : WaitFn) (timeout : Int) : Int :=
  if fn.takesTimeout then timeout else maxScheduleTimeout

/-- What a function returns, from what `wait_for_common` returned. -/
def result (t : Int) : WaitFn → Option Int
  | waitForCompletion => none
  | waitForCompletionTimeout | waitForCompletionInterruptibleTimeout
  | waitForCompletionKillableTimeout => some t
  | waitForCompletionInterruptible | waitForCompletionKillable =>
    some (if t = -eRestartsys then t else 0)

end WaitFn

/-- `try_to_wake_up`, as far as it concerns the state of the task. -/
def wakeWaiter (mode : Nat) (p : Pid) (taskState : Pid → Nat) : Bool × (Pid → Nat) :=
  if taskState p &&& mode = 0 then (false, taskState)
  else (true, Function.update taskState p taskRunning)

/-- `__wake_up_common`, over exclusive waiters. -/
def wakeUpCommon (mode : Nat) : List Pid → Int → (Pid → Nat) → Pid → Nat
  | [], _, taskState => taskState
  | p :: ps, nrExclusive, taskState =>
    match wakeWaiter mode p taskState with
    | (false, taskState) => wakeUpCommon mode ps nrExclusive taskState
    | (true, taskState) =>
      if nrExclusive - 1 = 0 then taskState
      else wakeUpCommon mode ps (nrExclusive - 1) taskState

/-- The end of `do_wait_for_common`: take a token, if there is one. -/
def takeToken (timeout : Int) (x : Completion) : Int × Completion :=
  if x.done = 0 then (timeout, x)
  else (if timeout ≠ 0 then timeout else 1, { x with done := x.done - 1 })

/-- What a call returned, and whether it took a token: for a wait, the value is that of
`wait_for_common`. -/
inductive Returned
  | wait (fn : WaitFn) (ret : Int) (consumed : Bool)
  | tryWait (ret : Bool) (consumed : Bool)
  deriving DecidableEq, Repr

/-- One completion, the tasks that wait for it with their locals, and its history. -/
structure CompletionSys extends Completion where
  taskState : Pid → Nat
  fn : Pid → WaitFn
  timeout : Pid → Int
  /-- History: the calls of `complete`. -/
  completes : Nat
  /-- History: the calls that have returned. -/
  returned : List Returned

namespace CompletionSys

/-- `complete`. -/
def complete (s : CompletionSys) : CompletionSys :=
  { s with done := s.done + 1
           taskState := wakeUpCommon taskNormal s.wait 1 s.taskState
           completes := s.completes + 1 }

/-- `try_wait_for_completion`. -/
def tryWaitForCompletion (s : CompletionSys) : CompletionSys :=
  let (ret, x) :=
    if s.done = 0 then (false, s.toCompletion)
    else (true, { s.toCompletion with done := s.done - 1 })
  { s with toCompletion := x, returned := .tryWait ret (x.done < s.done) :: s.returned }

/-- A wait returns. -/
def finishWait (fn : WaitFn) (timeout : Int) (s : CompletionSys) : CompletionSys :=
  let (ret, x) := takeToken timeout s.toCompletion
  { s with toCompletion := x, returned := .wait fn ret (x.done < s.done) :: s.returned }

/-- `__remove_wait_queue`. -/
def removeWaitQueue (p : Pid) (s : CompletionSys) : CompletionSys :=
  { s with wait := Sequence.del p s.wait }

/-- The loop of `do_wait_for_common`, from its top to `schedule_timeout` or out. -/
def turn (p : Pid) (fn : WaitFn) (timeout : Int) (current : Attr) (s : CompletionSys) :
    CompletionSys :=
  if signalPendingState fn.state current then (s.removeWaitQueue p).finishWait fn (-eRestartsys)
  else
    { s with taskState := Function.update s.taskState p fn.state
             fn := Function.update s.fn p fn
             timeout := Function.update s.timeout p timeout }

/-- `do_wait_for_common`, up to its first `schedule_timeout`. -/
def doWaitForCommon (p : Pid) (fn : WaitFn) (timeout : Int) (current : Attr) (s : CompletionSys) :
    CompletionSys :=
  if s.done = 0 then
    { s with wait := Sequence.addTail p s.wait }.turn p fn timeout current
  else s.finishWait fn timeout

/-- `do_wait_for_common`, from a `schedule_timeout` that returned on. -/
def resume (p : Pid) (timeout : Int) (current : Attr) (s : CompletionSys) : CompletionSys :=
  if s.done = 0 && timeout ≠ 0 then s.turn p (s.fn p) timeout current
  else (s.removeWaitQueue p).finishWait (s.fn p) timeout

end CompletionSys

/-- What can happen next: a call under the lock, or a waiter that is woken by its timer, a signal
or anything else. -/
inductive CompletionOp
  | complete
  | tryWaitForCompletion
  | wait (p : Pid) (fn : WaitFn) (timeout : Int) (current : Attr)
  | wake (p : Pid)
  | resume (p : Pid) (timeout : Int) (current : Attr)

/-- One step.  A task that waits makes no other call, and one that goes on is awake.  What
`schedule_timeout` returns is not negative, and without a bound it returns what it was given. -/
def completionStep (s : CompletionSys) : CompletionOp → Option CompletionSys
  | .complete => some s.complete
  | .tryWaitForCompletion => some s.tryWaitForCompletion
  | .wait p fn timeout current =>
    if p ∉ s.wait ∧ 0 ≤ timeout then some (s.doWaitForCommon p fn (fn.timeout timeout) current)
    else none
  | .wake p => some { s with taskState := Function.update s.taskState p taskRunning }
  | .resume p timeout current =>
    if p ∈ s.wait ∧ s.taskState p = taskRunning ∧ 0 ≤ timeout ∧
        (s.timeout p = maxScheduleTimeout → timeout = maxScheduleTimeout) then
      some (s.resume p timeout current)
    else none

end WrrScheduler
