/-
`kernel/sched/core.c`: the functions that put tasks on the run queue, take them
off, and change what class they are in.

Each is what runs under the run-queue lock.  Reads made before the lock is taken
come in as arguments, because another operation may have run in between.
-/
import WrrScheduler.Kernel.Classes

namespace WrrScheduler

/-! ### Priorities and weights -/

/-- `normal_prio`. -/
def normalPrio (t : Attr) : Int :=
  if rtPolicy t.policy then maxRtPrio - 1 - t.rtPriority else t.staticPrio

/-- `rt_mutex_getprio`: the lower of `normal_prio` and the top waiter's priority. -/
def rtMutexGetprio (t : Attr) : Int :=
  match t.topWaiter with
  | none => t.normalPrio
  | some w => min w t.normalPrio

/-- `prio_to_weight`. -/
def prioToWeight : List Nat :=
  [88761, 71755, 56483, 46273, 36291, 29154, 23254, 18705, 14949, 11916,
   9548, 7620, 6100, 4904, 3906, 3121, 2501, 1991, 1586, 1277,
   1024, 820, 655, 526, 423, 335, 272, 215, 172, 137,
   110, 87, 70, 56, 45, 36, 29, 23, 18, 15]

/-- `prio_to_wmult`. -/
def prioToWmult : List Nat :=
  [48388, 59856, 76040, 92818, 118348, 147320, 184698, 229616, 287308, 360437,
   449829, 563644, 704093, 875809, 1099582, 1376151, 1717300, 2157191, 2708050, 3363326,
   4194304, 5237765, 6557202, 8165337, 10153587, 12820798, 15790321, 19976592, 24970740, 31350126,
   39045157, 49367440, 61356676, 76695844, 95443717, 119304647, 148102320, 186737708, 238609294,
   286331153]

/-- `set_load_weight`. -/
def setLoadWeight (p : Pid) (s : State) : State :=
  let prio := ((s.tasks p).staticPrio - maxRtPrio).toNat
  s.modAcct p fun a =>
    if (s.tasks p).policy = .idle then
      { a with se := { a.se with weight := 3, invWeight := 1431655765 } }
    else
      { a with se := { a.se with weight := prioToWeight.getD prio 0
                                 invWeight := prioToWmult.getD prio 0 } }

/-! ### Enqueueing and dequeueing -/

/-- `TASK_RUNNING`. -/
def taskRunning : Nat := 0

/-- `TASK_INTERRUPTIBLE`. -/
def taskInterruptible : Nat := 1

/-- `TASK_UNINTERRUPTIBLE`. -/
def taskUninterruptible : Nat := 2

/-- `TASK_DEAD`. -/
def taskDead : Nat := 64

/-- `TASK_WAKEKILL`. -/
def taskWakekill : Nat := 128

/-- `TASK_NORMAL`. -/
def taskNormal : Nat := taskInterruptible ||| taskUninterruptible

/-- `task_contributes_to_load`. -/
def taskContributesToLoad (t : Attr) : Bool := t.state &&& taskUninterruptible ≠ 0 && !t.frozen

/-- `enqueue_task`. -/
def enqueueTask (m : Machine) (flags : EnqueueFlags) (p : Pid) (s : State) : State :=
  let s := updateRqClock m s
  (s.tasks p).schedClass.enqueueTask m flags p s

/-- `dequeue_task`. -/
def dequeueTask (m : Machine) (p : Pid) (s : State) : State :=
  let s := updateRqClock m s
  (s.tasks p).schedClass.dequeueTask m p s

/-- Add to `nr_uninterruptible` if a task contributes to the load. -/
def countUninterruptible (n : Int) (p : Pid) (s : State) : State :=
  if taskContributesToLoad (s.tasks p).toAttr then
    s.modRq fun r => { r with nrUninterruptible := r.nrUninterruptible + n }
  else s

/-- `activate_task`. -/
def activateTask (m : Machine) (flags : EnqueueFlags) (p : Pid) (s : State) : State :=
  enqueueTask m flags p (countUninterruptible (-1) p s)

/-- `deactivate_task`. -/
def deactivateTask (m : Machine) (p : Pid) (s : State) : State :=
  dequeueTask m p (countUninterruptible 1 p s)

/-- `p->on_rq = b`. -/
def setOnRq (b : Bool) (p : Pid) (s : State) : State := s.modAttr p fun t => { t with onRq := b }

/-- `p->state = state`. -/
def setTaskState (state : Nat) (p : Pid) (s : State) : State :=
  s.modAttr p fun t => { t with state := state }

/-! ### Preemption -/

/-- The loop of `check_preempt_curr`: whether the second class is met before the first. -/
def preempts (curr new : SchedClass) : List SchedClass → Bool
  | [] => false
  | c :: cs => if c = curr then false else if c = new then true else preempts curr new cs

/-- `check_preempt_curr`. -/
def checkPreemptCurr (m : Machine) (p : Pid) (s : State) : State :=
  let s :=
    if (s.tasks p).schedClass = s.current.schedClass then
      s.current.schedClass.checkPreemptCurr m p s
    else
      reschedTaskIf (preempts s.current.schedClass (s.tasks p).schedClass forEachClass) s.rq.curr s
  if s.current.onRq && s.needResched then s.modRq fun r => { r with skipClockUpdate := 1 } else s

/-- `check_class_changed`. -/
def checkClassChanged (m : Machine) (p : Pid) (prevClass : SchedClass) (oldprio : Int)
    (s : State) : State :=
  if prevClass ≠ (s.tasks p).schedClass then
    let s := prevClass.switchedFrom m p s
    (s.tasks p).schedClass.switchedTo m p s
  else if oldprio ≠ (s.tasks p).prio then (s.tasks p).schedClass.prioChanged m p oldprio s
  else s

/-! ### Waking up -/

/-- `ttwu_activate`. -/
def ttwuActivate (m : Machine) (p : Pid) (s : State) : State :=
  setOnRq true p (activateTask m { wakeup := true } p s)

/-- `ttwu_do_wakeup`. -/
def ttwuDoWakeup (m : Machine) (p : Pid) (s : State) : State :=
  setTaskState taskRunning p (checkPreemptCurr m p s)

/-- `try_to_wake_up`, with `ttwu_remote` and `ttwu_queue`. -/
def tryToWakeUp (m : Machine) (p : Pid) (state : Nat) (s : State) : Bool × State :=
  if (s.tasks p).state &&& state = 0 then (false, s)
  else if (s.tasks p).onRq then (true, ttwuDoWakeup m p s)
  else (true, ttwuDoWakeup m p (ttwuActivate m p s))

/-- `try_to_wake_up_local`. -/
def tryToWakeUpLocal (m : Machine) (p : Pid) (s : State) : State :=
  if p = s.rq.curr then s
  else if (s.tasks p).state &&& taskNormal = 0 then s
  else ttwuDoWakeup m p (if (s.tasks p).onRq then s else ttwuActivate m p s)

/-- `wake_up_new_task`. -/
def wakeUpNewTask (m : Machine) (p : Pid) (s : State) : State :=
  checkPreemptCurr m p (setOnRq true p (activateTask m {} p s))

/-! ### Fork -/

/-- `dup_task_struct`: the child starts as a copy of the running task.  What the rest of
`copy_process` does to it is `f`. -/
def dupTaskStruct (child : Pid) (f : Foreign) (s : State) : State :=
  let s := s.modTask child fun _ => { s.current with toForeign := f }
  s.modAcct child fun _ => { s.acct s.rq.curr with needResched := false }

/-- `__sched_fork`. -/
def basicSchedFork (p : Pid) (s : State) : State :=
  let s := (setOnRq false p s).modWrrEntity p fun w => { w with runList := .self }
  let s := s.modAcct p fun a => { a with se := { a.se with execStart := 0, sumExecRuntime := 0 } }
  s.modRt fun r => { r with runList := Function.update r.runList (.task p) .self }

/-- What `sched_fork` does for `sched_reset_on_fork`, less the weight. -/
def resetOnFork (t : Attr) : Attr :=
  let t :=
    if rtPolicy t.policy then
      { t with policy := .normal, staticPrio := niceToPrio 0, rtPriority := 0 }
    else if prioToNice t.staticPrio < 0 then { t with staticPrio := niceToPrio 0 }
    else t
  { t with prio := t.staticPrio, normalPrio := t.staticPrio, schedResetOnFork := false }

/-- The part of `sched_fork` under `sched_reset_on_fork`. -/
def forkReset (p : Pid) (s : State) : State :=
  if (s.tasks p).schedResetOnFork then setLoadWeight p (s.modAttr p resetOnFork) else s

/-- The part of `sched_fork` that sets the class. -/
def forkClass (p : Pid) (s : State) : State :=
  if !rtPrio (s.tasks p).prio then s.modAttr p fun t => { t with schedClass := .fair } else s

/-- The part of `sched_fork` before `task_fork`. -/
def setUpFork (p : Pid) (s : State) : State :=
  let s := setTaskState taskRunning p (basicSchedFork p s)
  let s := s.modAttr p fun t => { t with prio := s.current.normalPrio }
  forkClass p (forkReset p s)

/-- `sched_fork`, for a child that is a copy of the running task. -/
def schedFork (m : Machine) (p : Pid) (s : State) : Except Bug State :=
  let s := setUpFork p s
  (s.tasks p).schedClass.taskFork m p s

/-! ### Switching -/

/-- `signal_pending_state`. -/
def signalPendingState (state : Nat) (t : Attr) : Bool :=
  if state &&& (taskInterruptible ||| taskWakekill) = 0 then false
  else if !t.sigPending then false
  else state &&& taskInterruptible ≠ 0 || t.fatalPending

/-- `put_prev_task`. -/
def putPrevTask (m : Machine) (p : Pid) (s : State) : State :=
  let s := if (s.tasks p).onRq || s.rq.skipClockUpdate < 0 then updateRqClock m s else s
  (s.tasks p).schedClass.putPrevTask m p s

/-- The loop of `pick_next_task`. -/
def pickFromClasses (m : Machine) (s : State) : List SchedClass → Except Bug (Pid × State)
  | [] => .error .noTask
  | c :: cs =>
    match c.pickNextTask m s with
    | .error b => .error b
    | .ok (some p, s) => .ok (p, s)
    | .ok (none, s) => pickFromClasses m s cs

/-- `pick_next_task`. -/
def pickNextTask (m : Machine) (s : State) : Except Bug (Pid × State) :=
  if s.rq.nrRunning = s.rq.cfs.hNrRunning then
    match SchedClass.fair.pickNextTask m s with
    | .error b => .error b
    | .ok (some p, s) => .ok (p, s)
    | .ok (none, s) => pickFromClasses m s forEachClass
  else pickFromClasses m s forEachClass

/-- The running task leaves the run queue, and a worker wakes another. -/
def goToSleep (m : Machine) (s : State) : State :=
  let prev := s.rq.curr
  let s := setOnRq false prev (deactivateTask m prev s)
  match if (s.tasks prev).wqWorker then m.wqWorkerSleeping s prev else none with
  | none => s
  | some p => tryToWakeUpLocal m p.1 s

/-- What `__schedule` does with a running task that wants to sleep. -/
def putToSleep (m : Machine) (preemptActive : Bool) (s : State) : State :=
  if s.current.state ≠ taskRunning && !preemptActive then
    if signalPendingState s.current.state s.current.toAttr then setTaskState taskRunning s.rq.curr s
    else goToSleep m s
  else s

/-- The end of `__schedule`: the switch itself. -/
def switchTo (next : Pid) (s : State) : State :=
  let prev := s.rq.curr
  let s := s.modAcct prev fun a => { a with needResched := false }
  s.modRq fun r =>
    if prev = next then { r with skipClockUpdate := 0 }
    else { r with skipClockUpdate := 0, nrSwitches := r.nrSwitches + 1, curr := next }

/-- `__schedule`, once round.  Its `goto need_resched` is another operation. -/
def schedule (m : Machine) (preemptActive : Bool) (s : State) : Except Bug State :=
  match pickNextTask m (putPrevTask m s.rq.curr (putToSleep m preemptActive s)) with
  | .error b => .error b
  | .ok (next, s) => .ok (switchTo next s)

/-- `sched_yield`, up to its call of `schedule`, which is another operation. -/
def schedYield (m : Machine) (s : State) : State := s.current.schedClass.yieldTask m s

/-- `scheduler_tick`. -/
def schedulerTick (m : Machine) (s : State) : State :=
  let s := updateRqClock m s
  s.current.schedClass.taskTick m s.rq.curr s

/-! ### Changing a task

Five functions take a task out of its class, change it and put it back; three of
them also tell the class when the task is running. -/

/-- Change a task while it is off the queue, and off the CPU as far as its class knows. -/
def withDetached (m : Machine) (running : Bool) (flags : EnqueueFlags) (p : Pid)
    (change : State → State) (s : State) : State :=
  let onRq := (s.tasks p).onRq
  let s := if onRq then dequeueTask m p s else s
  let s := if running then (s.tasks p).schedClass.putPrevTask m p s else s
  let s := change s
  let s := if running then (s.tasks p).schedClass.setCurrTask m s else s
  if onRq then enqueueTask m flags p s else s

/-- The class `rt_mutex_setprio` puts a task in. -/
def setprioClass (prio : Int) : SchedClass := if rtPrio prio then .rt else .fair

/-- `rt_mutex_setprio`. -/
def rtMutexSetprio (m : Machine) (p : Pid) (prio : Int) (s : State) : State :=
  if p = s.rq.idle then s
  else
    let oldprio := (s.tasks p).prio
    let prevClass := (s.tasks p).schedClass
    let s := withDetached m (taskCurrent s p) { head := oldprio < prio } p
      (fun s => s.modAttr p fun t => { t with schedClass := setprioClass prio, prio := prio }) s
    checkClassChanged m p prevClass oldprio s

/-- `p->static_prio = NICE_TO_PRIO(nice)`. -/
def setStaticPrio (nice : Int) (p : Pid) (s : State) : State :=
  s.modAttr p fun t => { t with staticPrio := niceToPrio nice }

/-- `p->prio = effective_prio(p)`. -/
def applyEffectivePrio (t : Attr) : Attr :=
  let t := { t with normalPrio := normalPrio t }
  { t with prio := if !rtPrio t.prio then t.normalPrio else t.prio }

/-- `set_user_nice`. -/
def setUserNice (m : Machine) (p : Pid) (nice : Int) (s : State) : State :=
  if prioToNice (s.tasks p).staticPrio = nice || nice < -20 || 19 < nice then s
  else if rtPolicy (s.tasks p).policy then setStaticPrio nice p s
  else
    let oldPrio := (s.tasks p).prio
    let s := withDetached m false {} p
      (fun s => (setLoadWeight p (setStaticPrio nice p s)).modAttr p applyEffectivePrio) s
    let delta := (s.tasks p).prio - oldPrio
    reschedTaskIf ((s.tasks p).onRq && (delta < 0 || (0 < delta && taskCurrent s p))) s.rq.curr s

/-- The class `__setscheduler` puts a task in. -/
def setschedulerClass (policy : Policy) (prio : Int) : SchedClass :=
  if policy = .wrr then .wrr else if rtPrio prio then .rt else .fair

/-- The assignments of `__setscheduler`. -/
def applyPolicy (policy : Policy) (prio : Int) (t : Attr) : Attr :=
  let t := { t with policy := policy, rtPriority := prio }
  let t := { t with normalPrio := normalPrio t }
  let t := { t with prio := rtMutexGetprio t }
  { t with schedClass := setschedulerClass policy t.prio }

/-- `__setscheduler`. -/
def setscheduler (p : Pid) (policy : Policy) (prio : Int) (s : State) : State :=
  setLoadWeight p (s.modAttr p (applyPolicy policy prio))

/-- `sched_move_task`, into the group the task's cgroup now is. -/
def schedMoveTask (m : Machine) (p : Pid) (tg : Gid) (s : State) : State :=
  withDetached m (taskCurrent s p) {} p
    (fun s =>
      let s := s.modAttr p fun t => { t with schedTaskGroup := tg }
      (s.tasks p).schedClass.taskMoveGroup m p s) s

/-- `normalize_task`. -/
def normalizeTask (m : Machine) (p : Pid) (s : State) : State :=
  let prevClass := (s.tasks p).schedClass
  let oldPrio := (s.tasks p).prio
  let s := withDetached m false {} p (setscheduler p .normal 0) s
  let s := reschedTaskIf (s.tasks p).onRq s.rq.curr s
  checkClassChanged m p prevClass oldPrio s

/-- One turn of the loop of `normalize_rt_tasks`. -/
def normalizeOne (m : Machine) (s : State) (p : Pid) : State :=
  if !(s.tasks p).mm then s
  else
    let s := s.modAcct p fun a => { a with se := { a.se with execStart := 0 } }
    if !rtPrio (s.tasks p).prio then
      if prioToNice (s.tasks p).staticPrio < 0 then setUserNice m p 0 s else s
    else normalizeTask m p s

/-- `normalize_rt_tasks`. -/
def normalizeRtTasks (m : Machine) (s : State) : State := s.tasklist.foldl (normalizeOne m) s

/-! ### The system calls -/

/-- `EPERM`. -/
def ePerm : Int := 1

/-- `EINVAL`. -/
def eInval : Int := 22

/-- `SCHED_RESET_ON_FORK`. -/
def schedResetOnForkFlag : BitVec 32 := 0x40000000

/-- What the checks of `__sched_setscheduler` ask about the caller. -/
structure Caller where
  capSysNice : Bool
  sameOwner : Bool
  securityTaskSetscheduler : Int

/-- What the checks of `__sched_setscheduler` settle. -/
structure Checked where
  policy : Policy
  resetOnFork : Bool
  oldpolicy : Option Policy

/-- The policy and flag a call of `__sched_setscheduler` asks for; a negative number keeps them. -/
def requested (t : Attr) (policy : BitVec 32) : Option Checked :=
  if policy.toInt < 0 then
    some { policy := t.policy, resetOnFork := t.schedResetOnFork, oldpolicy := some t.policy }
  else
    (Policy.ofCode (policy &&& ~~~schedResetOnForkFlag)).map fun pol =>
      { policy := pol, resetOnFork := policy &&& schedResetOnForkFlag ≠ 0, oldpolicy := none }

/-- `can_nice`. -/
def canNice (t : Attr) (nice : Int) (who : Caller) : Bool :=
  20 - nice ≤ (t.rlim.nice.toNat : Int) || who.capSysNice

/-- Whether `__sched_setscheduler` denies an unprivileged caller. -/
def denied (t : Attr) (c : Checked) (prio : Int) (who : Caller) : Bool :=
  (rtPolicy c.policy &&
    ((c.policy ≠ t.policy && t.rlim.rtprio = 0) ||
      (t.rtPriority < prio && (t.rlim.rtprio.toNat : Int) < prio))) ||
  (t.policy = .idle && c.policy ≠ .idle && !canNice t (prioToNice t.staticPrio) who) ||
  !who.sameOwner ||
  (t.schedResetOnFork && !c.resetOnFork)

/-- The checks of `__sched_setscheduler` before the lock, on what they see of the task. -/
def check (t : Attr) (policy : BitVec 32) (prio : Int) (user : Bool) (who : Caller) :
    Except Int Checked :=
  match requested t policy with
  | none => .error (-eInval)
  | some c =>
    if prio < 0 || (t.mm && 99 < prio) || (!t.mm && maxRtPrio - 1 < prio) then .error (-eInval)
    else if rtPolicy c.policy ≠ decide (prio ≠ 0) && wrrPolicy c.policy ≠ decide (prio ≠ 0) then
      .error (-eInval)
    else if user && !who.capSysNice && denied t c prio who then .error (-ePerm)
    else if user && who.securityTaskSetscheduler ≠ 0 then .error who.securityTaskSetscheduler
    else .ok c

/-- How the part of `__sched_setscheduler` under the lock ends. -/
inductive Outcome
  | done (ret : Int) (s : State)
  | recheck

/-- `policy == p->policy` and nothing else a real-time task would change. -/
def nothingToChange (t : Attr) (policy : Policy) (prio : Int) : Bool :=
  policy = t.policy && (!rtPolicy policy || prio = t.rtPriority)

/-- The part of `__sched_setscheduler` that changes the task. -/
def changePolicy (m : Machine) (p : Pid) (c : Checked) (prio : Int) (s : State) : State :=
  let oldprio := (s.tasks p).prio
  let prevClass := (s.tasks p).schedClass
  let s := withDetached m (taskCurrent s p) {} p
    (fun s => setscheduler p c.policy prio
      (s.modAttr p fun t => { t with schedResetOnFork := c.resetOnFork })) s
  checkClassChanged m p prevClass oldprio s

/-- The part of `__sched_setscheduler` under the lock. -/
def locked (m : Machine) (p : Pid) (c : Checked) (prio : Int) (user : Bool) (s : State) : Outcome :=
  let t := s.tasks p
  if some p = s.rq.stop then .done (-eInval) s
  else if nothingToChange t.toAttr c.policy prio then .done 0 s
  else if user && rtBandwidthEnabled m && rtPolicy c.policy &&
      (m.rtBandwidth t.schedTaskGroup).rtRuntime = 0 &&
      !m.taskGroupIsAutogroup t.schedTaskGroup then .done (-ePerm) s
  else if c.oldpolicy ≠ none && c.oldpolicy ≠ some t.policy then .recheck
  else .done 0 (changePolicy m p c prio s)

/-- `__sched_setscheduler`.  The checks of each turn read the task without the lock; what they saw
is the list, one entry a turn. -/
def schedSetscheduler (m : Machine) (p : Pid) (prio : Int) (user : Bool) (who : Caller) :
    List Attr → BitVec 32 → State → Option (Int × State)
  | [], _, _ => none
  | seen :: rest, policy, s =>
    match check seen policy prio user who with
    | .error e => some (e, s)
    | .ok c =>
      match locked m p c prio user s with
      | .done ret s => some (ret, s)
      | .recheck => schedSetscheduler m p prio user who rest (-1) s

/-- `sched_getscheduler`. -/
def schedGetscheduler (p : Pid) (s : State) : BitVec 32 :=
  (s.tasks p).policy.code ||| if (s.tasks p).schedResetOnFork then schedResetOnForkFlag else 0

/-- `sched_getparam`. -/
def schedGetparam (p : Pid) (s : State) : Int := (s.tasks p).rtPriority

/-- `MAX_USER_RT_PRIO`. -/
def maxUserRtPrio : Int := 100

/-- `MAX_USER_WRR_PRIO`. -/
def maxUserWrrPrio : Int := 100

/-- `sched_get_priority_max`. -/
def schedGetPriorityMax (policy : BitVec 32) : Int :=
  match Policy.ofCode policy with
  | some .fifo | some .rr => maxUserRtPrio - 1
  | some .wrr => maxUserWrrPrio - 1
  | some .normal | some .batch | some .idle => 0
  | none => -eInval

/-- `sched_get_priority_min`. -/
def schedGetPriorityMin (policy : BitVec 32) : Int :=
  match Policy.ofCode policy with
  | some .fifo | some .rr | some .wrr => 1
  | some .normal | some .batch | some .idle => 0
  | none => -eInval

/-- `sched_rr_get_interval`, in ticks. -/
def schedRrGetInterval (m : Machine) (p : Pid) (s : State) : BitVec 32 × State :=
  (s.tasks p).schedClass.getRrInterval m p s

/-! ### Boot and bandwidth -/

/-- `sched_set_stop_task` for the new task: `SCHED_FIFO` at the top, then the class of its own. -/
def makeStop (m : Machine) (who : Caller) (seen : List Attr) (p : Pid) (s : State) : Option State :=
  match schedSetscheduler m p (maxRtPrio - 1) false who seen Policy.fifo.code s with
  | none => none
  | some (_, s) => some (s.modAttr p fun t => { t with schedClass := .stop })

/-- `sched_set_stop_task` for the old task: back to a normal class. -/
def resetStop (p : Pid) (s : State) : State := s.modAttr p fun t => { t with schedClass := .rt }

/-- `cpu_rq(cpu)->stop = stop`, and the reset of the old one. -/
def replaceStop (stop : Option Pid) (s : State) : State :=
  match s.rq.stop with
  | none => s.modRq fun r => { r with stop := stop }
  | some old => resetStop old (s.modRq fun r => { r with stop := stop })

/-- `sched_set_stop_task`. -/
def schedSetStopTask (m : Machine) (who : Caller) (seen : List Attr) (stop : Option Pid)
    (s : State) : Option State :=
  match stop with
  | none => some (replaceStop none s)
  | some p => (makeStop m who seen p s).map (replaceStop (some p))

/-- `init_idle_bootup_task`. -/
def initIdleBootupTask (p : Pid) (s : State) : State :=
  s.modAttr p fun t => { t with schedClass := .idle }

/-- The part of `do_sched_rt_period_timer` that changes the run queue of a group, and forces a
clock update if the CPU was idle. -/
def replenishRtRq (g : Gid) (overrun : Nat) (s : State) : State :=
  let q := s.rq.rt.rtRq g
  let q' := (Rt.replenish overrun q).1
  let s := s.modRt fun r => r.modify g fun _ => q'
  if q.rtThrottled && !q'.rtThrottled && q'.rtNrRunning ≠ 0 && s.rq.curr = s.rq.idle then
    s.modRq fun r => { r with skipClockUpdate := -1 }
  else s

/-- `do_sched_rt_period_timer`, for one group. -/
def doSchedRtPeriodTimer (m : Machine) (g : Gid) (overrun : Nat) (s : State) : State :=
  let enqueue := (Rt.replenish overrun (s.rq.rt.rtRq g)).2
  let s := replenishRtRq g overrun s
  if enqueue then
    let queued := Rt.schedRtRqEnqueue (s.rtView m) s.rq.rt g
    reschedTaskIf queued.2 s.rq.curr (s.modRt fun _ => queued.1)
  else s

end WrrScheduler
