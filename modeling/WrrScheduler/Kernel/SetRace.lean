/-
One call of `__sched_setscheduler` among everything else that happens.

The call checks its arguments without the lock and then takes it, and whatever it
read may have changed in between; if the policy has, it starts over.  So it is three
places and two kinds of step, and any other operation may run between two of them.
Its unlocked reads need not be of one moment, so what a check sees is its own.
-/
import WrrScheduler.Kernel.Step

namespace WrrScheduler

/-- Where a call of `__sched_setscheduler` is. -/
inductive SetPc
  /-- At the label `recheck`, with the value of `policy`. -/
  | recheck (policy : BitVec 32)
  /-- Before `task_rq_lock`. -/
  | lock (c : Checked)
  | returned (ret : Int)

/-- The scheduler and the call. -/
structure SetRace where
  sched : State
  pc : SetPc

/-- What can happen next: another operation, or a step of the call. -/
inductive SetRaceOp
  | other (o : Op)
  | validate (seen : Attr) (who : Caller)
  | takeLock

/-- Whether a step is the call's own. -/
def SetRaceOp.own : SetRaceOp → Bool
  | other _ => false
  | validate _ _ => true
  | takeLock => true

/-- One step, for a call on `p` that asks for the priority `prio`. -/
def setRaceStep (m : Machine) (p : Pid) (prio : Int) (user : Bool) (r : SetRace) :
    SetRaceOp → Option SetRace
  | .other o => (step m r.sched o).map fun s => { r with sched := s }
  | .validate seen who =>
    match r.pc with
    | .recheck policy =>
      match check seen policy prio user who with
      | .error e => some { r with pc := .returned e }
      | .ok c => some { r with pc := .lock c }
    | _ => none
  | .takeLock =>
    match r.pc with
    | .lock c =>
      match locked m p c prio user r.sched with
      | .done ret s => some { sched := s, pc := .returned ret }
      | .recheck => some { r with pc := .recheck (-1) }
    | _ => none

end WrrScheduler
