/-
The scheduling classes, as `core.c` calls them.

First the real-time class: `kernel/sched/rt.c` on a uniprocessor, over the run
queues of `Kernel/Rt.lean`.  Then the three classes whose files are not in the
repository, which do what a `Machine` lets them do.  Last the dispatch through
`p->sched_class`.
-/
import WrrScheduler.Kernel.Rt
import WrrScheduler.Kernel.Wrr

namespace WrrScheduler

/-! ### The real-time class -/

/-- What `rt.c` reads of a state. -/
def State.rtView (m : Machine) (s : State) : RtView where
  prio p := (s.tasks p).prio
  normalPrio p := (s.tasks p).normalPrio
  group p := (s.tasks p).schedTaskGroup
  curr := s.rq.curr
  tg := m.tg
  rtBandwidth := m.rtBandwidth

/-- Change the RT run queues. -/
def State.modRt (s : State) (f : Rt → Rt) : State := s.modRq fun r => { r with rt := f r.rt }

/-- Change the RT entity of a task. -/
def State.modRtEntity (s : State) (p : Pid) (f : SchedRtEntity → SchedRtEntity) : State :=
  s.modAcct p fun a => { a with rt := f a.rt }

/-- `RR_TIMESLICE`. -/
def rrTimeslice (m : Machine) : BitVec 32 := BitVec.ofNat 32 (100 * m.HZ / 1000)

/-- `rt_bandwidth_enabled`. -/
def rtBandwidthEnabled (m : Machine) : Bool := 0 ≤ m.sysctlSchedRtRuntime

/-- `update_curr_rt`. -/
def updateCurrRt (m : Machine) (s : State) : State :=
  if s.current.schedClass ≠ .rt then s
  else if !rtBandwidthEnabled m then chargeCurr s
  else
    let charged := Rt.chargeRt (s.rtView m) (deltaExec s) s.rq.rt
    reschedTaskIf charged.2 s.rq.curr ((chargeCurr s).modRt fun _ => charged.1)

/-- `enqueue_task_rt`. -/
def enqueueTaskRt (m : Machine) (flags : EnqueueFlags) (p : Pid) (s : State) : State :=
  let s := if flags.wakeup then s.modRtEntity p fun e => { e with timeout := 0 } else s
  incNrRunning (s.modRt fun r => Rt.enqueueRtEntity (s.rtView m) flags.head r (.task p))

/-- `dequeue_task_rt`. -/
def dequeueTaskRt (m : Machine) (p : Pid) (s : State) : State :=
  let s := updateCurrRt m s
  decNrRunning (s.modRt fun r => Rt.dequeueRtEntity (s.rtView m) r (.task p))

/-- `yield_task_rt`. -/
def yieldTaskRt (m : Machine) (s : State) : State :=
  s.modRt fun r => Rt.requeueTaskRt (s.rtView m) false r s.rq.curr

/-- `check_preempt_curr_rt`. -/
def checkPreemptCurrRt (p : Pid) (s : State) : State :=
  reschedTaskIf ((s.tasks p).prio < s.current.prio) s.rq.curr s

/-- `pick_next_task_rt`. -/
def pickNextTaskRt (m : Machine) (s : State) : Except Bug (Option Pid × State) :=
  match Rt.pickNextTask m.tg s.rq.rt with
  | .error b => .error b
  | .ok none => .ok (none, s)
  | .ok (some p) => .ok (some p, stampExecStart p s)

/-- `put_prev_task_rt`. -/
def putPrevTaskRt (m : Machine) (s : State) : State := updateCurrRt m s

/-- `set_curr_task_rt`. -/
def setCurrTaskRt (s : State) : State := stampExecStart s.rq.curr s

/-- `switched_to_rt`. -/
def switchedToRt (p : Pid) (s : State) : State :=
  if (s.tasks p).onRq && s.rq.curr ≠ p then
    reschedTaskIf ((s.tasks p).prio < s.current.prio) s.rq.curr s
  else s

/-- `prio_changed_rt`. -/
def prioChangedRt (p : Pid) (oldprio : Int) (s : State) : State :=
  if !(s.tasks p).onRq then s
  else if s.rq.curr = p then reschedTaskIf (oldprio < (s.tasks p).prio) p s
  else reschedTaskIf ((s.tasks p).prio < s.current.prio) s.rq.curr s

/-- `watchdog` of `rt.c`. -/
def watchdogRt (m : Machine) (p : Pid) (s : State) : State :=
  if (s.tasks p).rlim.rttimeCur = rlimInfinity then s
  else
    let timeout := (s.acct p).rt.timeout + 1
    expireSched m p timeout (s.modRtEntity p fun e => { e with timeout := timeout })

/-- `task_tick_rt`. -/
def taskTickRt (m : Machine) (p : Pid) (s : State) : State :=
  let s := watchdogRt m p (updateCurrRt m s)
  if (s.tasks p).policy ≠ .rr then s
  else
    let s := s.modRtEntity p fun e => { e with timeSlice := e.timeSlice - 1 }
    if (s.acct p).rt.timeSlice ≠ 0 then s
    else
      let s := s.modRtEntity p fun e => { e with timeSlice := rrTimeslice m }
      let v := s.rtView m
      if (Rt.schedRtEntities v (.task p)).any (s.rq.rt.sharesQueue v) then
        reschedTask p (s.modRt fun r => Rt.requeueTaskRt v false r p)
      else s

/-- `get_rr_interval_rt`. -/
def getRrIntervalRt (m : Machine) (p : Pid) (s : State) : BitVec 32 :=
  if (s.tasks p).policy = .rr then rrTimeslice m else 0

/-! ### The classes outside the repository -/

/-- What such a class writes: the `sched_entity` of its tasks. -/
def writeEntities (m : Machine) (c : SchedClass) (f : ClassFn) (s : State) : State :=
  { s with acct := fun q =>
      if (s.tasks q).schedClass = c then { s.acct q with se := m.writesSe c f s q } else s.acct q }

/-- A call of a function of a class whose source is elsewhere. -/
def outsideCall (m : Machine) (c : SchedClass) (f : ClassFn) (p : Pid) (s : State) : State :=
  let s := if m.updatesClock c f s p then updateRqClock m s else s
  reschedTaskIf (m.asksResched c f s p) s.rq.curr (writeEntities m c f s)

/-- `enqueue_task` of such a class: stop and fair count the task, fair in `h_nr_running` too. -/
def enqueueTaskOutside (m : Machine) (c : SchedClass) (p : Pid) (s : State) : State :=
  let s := outsideCall m c .enqueueTask p s
  match c with
  | .stop => incNrRunning s
  | .fair => (incNrRunning s).modRq fun r =>
      { r with cfs := { r.cfs with hNrRunning := r.cfs.hNrRunning + 1 } }
  | _ => s

/-- `dequeue_task` of such a class. -/
def dequeueTaskOutside (m : Machine) (c : SchedClass) (p : Pid) (s : State) : State :=
  let s := outsideCall m c .dequeueTask p s
  match c with
  | .stop => decNrRunning s
  | .fair => (decNrRunning s).modRq fun r =>
      { r with cfs := { r.cfs with hNrRunning := r.cfs.hNrRunning - 1 } }
  | _ => s

/-- `pick_next_task` of such a class. -/
def pickNextTaskOutside (m : Machine) (c : SchedClass) (s : State) : Option Pid × State :=
  match m.pickNextTask c s with
  | none => (none, s)
  | some p => (some p.1, outsideCall m c .pickNextTask p.1 s)

/-- `pick_next_task` of the idle class, which always has the idle task. -/
def pickNextTaskIdle (m : Machine) (s : State) : Option Pid × State :=
  (some s.rq.idle, outsideCall m .idle .pickNextTask s.rq.idle s)

/-! ### Dispatch -/

namespace SchedClass

/-- `class->enqueue_task`. -/
def enqueueTask (m : Machine) (flags : EnqueueFlags) (p : Pid) (s : State) : SchedClass → State
  | rt => enqueueTaskRt m flags p s
  | wrr => enqueueTaskWrr flags p s
  | c => enqueueTaskOutside m c p s

/-- `class->dequeue_task`. -/
def dequeueTask (m : Machine) (p : Pid) (s : State) : SchedClass → State
  | rt => dequeueTaskRt m p s
  | wrr => dequeueTaskWrr p s
  | c => dequeueTaskOutside m c p s

/-- `class->yield_task`. -/
def yieldTask (m : Machine) (s : State) : SchedClass → State
  | rt => yieldTaskRt m s
  | wrr => yieldTaskWrr s
  | c => outsideCall m c .yieldTask s.rq.curr s

/-- `class->check_preempt_curr`. -/
def checkPreemptCurr (m : Machine) (p : Pid) (s : State) : SchedClass → State
  | rt => checkPreemptCurrRt p s
  | wrr => s
  | c => outsideCall m c .checkPreemptCurr p s

/-- `class->pick_next_task`. -/
def pickNextTask (m : Machine) (s : State) : SchedClass → Except Bug (Option Pid × State)
  | rt => pickNextTaskRt m s
  | wrr => pickNextTaskWrr s
  | idle => .ok (pickNextTaskIdle m s)
  | c => .ok (pickNextTaskOutside m c s)

/-- `class->put_prev_task`. -/
def putPrevTask (m : Machine) (p : Pid) (s : State) : SchedClass → State
  | rt => putPrevTaskRt m s
  | wrr => putPrevTaskWrr p s
  | c => outsideCall m c .putPrevTask p s

/-- `class->set_curr_task`. -/
def setCurrTask (m : Machine) (s : State) : SchedClass → State
  | rt => setCurrTaskRt s
  | wrr => setCurrTaskWrr s
  | c => outsideCall m c .setCurrTask s.rq.curr s

/-- `class->task_tick`. -/
def taskTick (m : Machine) (p : Pid) (s : State) : SchedClass → State
  | rt => taskTickRt m p s
  | wrr => taskTickWrr m p s
  | c => outsideCall m c .taskTick p s

/-- `class->task_fork`, which the real-time class does not have. -/
def taskFork (m : Machine) (p : Pid) (s : State) : SchedClass → Except Bug State
  | rt => .ok s
  | wrr => taskForkWrr p s
  | c => .ok (outsideCall m c .taskFork p s)

/-- `class->switched_from`: nothing for the real-time class, and an empty function for WRR. -/
def switchedFrom (m : Machine) (p : Pid) (s : State) : SchedClass → State
  | rt => s
  | wrr => s
  | c => outsideCall m c .switchedFrom p s

/-- `class->switched_to`. -/
def switchedTo (m : Machine) (p : Pid) (s : State) : SchedClass → State
  | rt => switchedToRt p s
  | wrr => switchedToWrr p s
  | c => outsideCall m c .switchedTo p s

/-- `class->prio_changed`, an empty function for WRR. -/
def prioChanged (m : Machine) (p : Pid) (oldprio : Int) (s : State) : SchedClass → State
  | rt => prioChangedRt p oldprio s
  | wrr => s
  | c => outsideCall m c .prioChanged p s

/-- `class->get_rr_interval`. -/
def getRrInterval (m : Machine) (p : Pid) (s : State) : SchedClass → BitVec 32 × State
  | rt => (getRrIntervalRt m p s, s)
  | wrr => getRrIntervalWrr m p s
  | c => (m.getRrInterval c s p, s)

/-- `class->task_move_group`, which the classes of the repository do not have. -/
def taskMoveGroup (m : Machine) (p : Pid) (s : State) : SchedClass → State
  | rt => s
  | wrr => s
  | c => outsideCall m c .taskMoveGroup p s

end SchedClass

end WrrScheduler
