/-
Updates of the machine, and the few functions every class shares: the clock, the
count of runnable tasks, and the request to reschedule.

`History` fields are kept up here and read by no function of the model.
-/
import WrrScheduler.Kernel.Types

namespace WrrScheduler

namespace State

/-- Change one task. -/
def modTask (s : State) (p : Pid) (f : Task → Task) : State :=
  { s with tasks := Function.update s.tasks p (f (s.tasks p)) }

/-- Change the attributes of one task. -/
def modAttr (s : State) (p : Pid) (f : Attr → Attr) : State :=
  s.modTask p fun t => { t with toAttr := f t.toAttr }

/-- Change what accounting knows about one task. -/
def modAcct (s : State) (p : Pid) (f : Acct → Acct) : State :=
  { s with acct := Function.update s.acct p (f (s.acct p)) }

/-- Change the run queue. -/
def modRq (s : State) (f : Rq → Rq) : State := { s with rq := f s.rq }

/-- The running task. -/
def current (s : State) : Task := s.tasks s.rq.curr

/-- `need_resched()`. -/
def needResched (s : State) : Bool := (s.acct s.rq.curr).needResched

end State

/-- `inc_nr_running`. -/
def incNrRunning (s : State) : State := s.modRq fun r => { r with nrRunning := r.nrRunning + 1 }

/-- `dec_nr_running`. -/
def decNrRunning (s : State) : State := s.modRq fun r => { r with nrRunning := r.nrRunning - 1 }

/-- `resched_task`, on a uniprocessor. -/
def reschedTask (p : Pid) (s : State) : State :=
  s.modAcct p fun a => { a with needResched := true }

/-- `resched_task` under a condition. -/
def reschedTaskIf (b : Bool) (p : Pid) (s : State) : State := if b then reschedTask p s else s

/-- `task_running`, which is `task_current` on a uniprocessor. -/
def taskCurrent (s : State) (p : Pid) : Bool := s.rq.curr = p

/-- `update_rq_clock`, with `update_rq_clock_task`.  What the running task of the WRR class gains
goes down in history. -/
def updateRqClock (m : Machine) (s : State) : State :=
  if 0 < s.rq.skipClockUpdate then s
  else
    let delta := m.schedClockCpu s.now - s.rq.clock
    let ran :=
      if s.current.schedClass = .wrr then
        Function.update s.wrrRan s.rq.curr (s.wrrRan s.rq.curr + delta.toNat)
      else s.wrrRan
    { s.modRq fun r => { r with clock := r.clock + delta, clockTask := r.clockTask + delta } with
      now := s.now + 1
      wrrRan := ran }

/-- `delta_exec` of `update_curr_rt` and `update_curr_wrr`: the time since the running task was
last charged. -/
def deltaExec (s : State) : BitVec 64 :=
  let delta := s.rq.clockTask - (s.acct s.rq.curr).se.execStart
  if delta.toInt < 0 then 0 else delta

/-- Charge the running task, as `update_curr_rt` and `update_curr_wrr` both do. -/
def chargeCurr (s : State) : State :=
  s.modAcct s.rq.curr fun a =>
    { a with se := { a.se with sumExecRuntime := a.se.sumExecRuntime + deltaExec s
                               execStart := s.rq.clockTask } }

/-- `p->se.exec_start = rq->clock_task`. -/
def stampExecStart (p : Pid) (s : State) : State :=
  s.modAcct p fun a => { a with se := { a.se with execStart := s.rq.clockTask } }

/-- `USEC_PER_SEC`. -/
def usecPerSec : Nat := 1000000

/-- `RLIM_INFINITY`. -/
def rlimInfinity : BitVec 32 := BitVec.allOnes 32

/-- The `next` of the two watchdogs: the ticks a task may run before its limit. -/
def watchdogNext (m : Machine) (rlim : Rlimits) : BitVec 32 :=
  let d := BitVec.ofNat 32 (usecPerSec / m.HZ)
  ((if rlim.rttimeCur ≤ rlim.rttimeMax then rlim.rttimeCur else rlim.rttimeMax) + (d - 1)) / d

/-- The expiry both watchdogs set once a timeout is past the limit. -/
def expireSched (m : Machine) (p : Pid) (timeout : BitVec 32) (s : State) : State :=
  if watchdogNext m (s.tasks p).rlim < timeout then
    s.modAcct p fun a => { a with schedExp := a.se.sumExecRuntime }
  else s

end WrrScheduler
