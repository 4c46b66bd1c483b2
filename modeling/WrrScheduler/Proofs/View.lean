/-
What the rest of the development sees of a state.

A `View` leaves out the clocks, the accounting and the RT run queues, and keeps the
tasks, the WRR queue and the counters.  Every function of `core.c` either leaves the
view alone or acts on it by one of the operations below, so a fact about tasks and
queues is proved about views, where an enqueue is a few assignments whatever the
class does on the side.

The equations are the only place where the functions of the model are unfolded for
their tasks.  When one of them changes, its equation has to be proved again, and
what was proved about views stays.
-/
import WrrScheduler.Kernel.Step

namespace WrrScheduler

/-- The tasks, the WRR queue, the counters, and who runs. -/
structure View where
  tasks : Pid → Task
  wrr : WrrRq
  nrRunning : Nat
  hNrRunning : Nat
  curr : Pid
  idle : Pid
  stop : Option Pid
  tasklist : List Pid
  groupPath : String

/-- The view of a state. -/
def State.view (s : State) : View where
  tasks := s.tasks
  wrr := s.rq.wrr
  nrRunning := s.rq.nrRunning
  hNrRunning := s.rq.cfs.hNrRunning
  curr := s.rq.curr
  idle := s.rq.idle
  stop := s.rq.stop
  tasklist := s.tasklist
  groupPath := s.groupPath

namespace View

/-- The class of a task. -/
abbrev cls (v : View) (p : Pid) : SchedClass := (v.tasks p).schedClass

/-- Change one task. -/
def modTask (p : Pid) (f : Task → Task) (v : View) : View :=
  { v with tasks := Function.update v.tasks p (f (v.tasks p)) }

theorem modTask_modTask (p : Pid) (f g : Task → Task) (v : View) :
    (v.modTask p f).modTask p g = v.modTask p fun t => g (f t) := by
  simp [modTask]

/-- Change the attributes of one task. -/
def modAttr (p : Pid) (f : Attr → Attr) (v : View) : View :=
  v.modTask p fun t => { t with toAttr := f t.toAttr }

/-- Change the WRR entity of a task. -/
def modEntity (p : Pid) (f : SchedWrrEntity → SchedWrrEntity) (v : View) : View :=
  v.modTask p fun t => { t with wrr := f t.wrr }

/-- The entity of a task that was put on the WRR queue. -/
def linkEntity (flags : EnqueueFlags) (w : SchedWrrEntity) : SchedWrrEntity :=
  { w with runList := .linked, timeout := if flags.wakeup then 0 else w.timeout }

/-- The entity of a task that was taken off the WRR queue. -/
def unlinkEntity (w : SchedWrrEntity) : SchedWrrEntity := { w with runList := .self }

/-- Put a task on the WRR queue. -/
def enqueueWrr (flags : EnqueueFlags) (p : Pid) (v : View) : View :=
  { v.modEntity p (linkEntity flags) with
    wrr :=
      { queue := if flags.head then Sequence.add p v.wrr.queue else Sequence.addTail p v.wrr.queue
        wrrNrRunning := v.wrr.wrrNrRunning + 1 }
    nrRunning := v.nrRunning + 1 }

/-- Take a task off the WRR queue. -/
def dequeueWrr (p : Pid) (v : View) : View :=
  { v.modEntity p unlinkEntity with
    wrr := { queue := Sequence.del p v.wrr.queue, wrrNrRunning := v.wrr.wrrNrRunning - 1 }
    nrRunning := v.nrRunning - 1 }

/-- Move a task to the tail of the WRR queue. -/
def requeueWrr (p : Pid) (v : View) : View :=
  { v.modEntity p (linkEntity {}) with
    wrr := { v.wrr with queue := Sequence.moveTail p v.wrr.queue } }

/-- Put a task on the queue of its class. -/
def enqueue (flags : EnqueueFlags) (p : Pid) (v : View) : View :=
  match v.cls p with
  | .wrr => v.enqueueWrr flags p
  | .fair => { v with nrRunning := v.nrRunning + 1, hNrRunning := v.hNrRunning + 1 }
  | .idle => v
  | _ => { v with nrRunning := v.nrRunning + 1 }

/-- Take a task off the queue of its class. -/
def dequeue (p : Pid) (v : View) : View :=
  match v.cls p with
  | .wrr => v.dequeueWrr p
  | .fair => { v with nrRunning := v.nrRunning - 1, hNrRunning := v.hNrRunning - 1 }
  | .idle => v
  | _ => { v with nrRunning := v.nrRunning - 1 }

theorem dequeue_tasklist {v : View} {p : Pid} : (v.dequeue p).tasklist = v.tasklist := by
  unfold dequeue
  split <;> rfl

/-- Change a task, off the queue if it was on it. -/
def detached (flags : EnqueueFlags) (p : Pid) (f : Attr → Attr) (v : View) : View :=
  if (v.tasks p).onRq then ((v.dequeue p).modAttr p f).enqueue flags p else v.modAttr p f

/-- Make a task runnable, and put it on its queue unless it is there. -/
def wake (p : Pid) (v : View) : View :=
  (if (v.tasks p).onRq then v
    else (v.enqueue { wakeup := true } p).modAttr p fun t => { t with onRq := true }).modAttr p
      fun t => { t with state := taskRunning }

/-- Wake the worker a sleeping worker asked for, if there is one to wake. -/
def wakeWorker : Option Pid → View → View
  | none, v => v
  | some p, v =>
    if p = v.curr then v else if (v.tasks p).state &&& taskNormal = 0 then v else v.wake p

/-- The running task leaves the run queue, and a worker wakes the one in the argument. -/
def goToSleep (worker : Option Pid) (v : View) : View :=
  ((v.dequeue v.curr).modAttr v.curr fun t => { t with onRq := false }).wakeWorker worker

/-- What `__schedule` does first, when the worker asked for is the argument. -/
def putToSleep (preemptActive : Bool) (worker : Option Pid) (v : View) : View :=
  let t := v.tasks v.curr
  if t.state ≠ taskRunning && !preemptActive then
    if signalPendingState t.state t.toAttr then
      v.modAttr v.curr fun t => { t with state := taskRunning }
    else v.goToSleep worker
  else v

/-- What the watchdog does to the timeout. -/
def watchWrr (p : Pid) (v : View) : View :=
  if (v.tasks p).rlim.rttimeCur = rlimInfinity then v
  else v.modEntity p fun w => { w with timeout := w.timeout + 1 }

/-- What happens when a slice is used up: a new slice by the task's path, and the tail unless the
task is alone. -/
def expireWrr (m : Machine) (p : Pid) (v : View) : View :=
  let v := { v with
    groupPath := m.cgroupPath (m.cgroup (v.tasks p).schedTaskGroup) v.groupPath }
  let v := v.modEntity p (refill m v.groupPath)
  if v.wrr.queue.getLast? ≠ v.wrr.queue.head? then v.requeueWrr p else v

/-- One tick of a slice. -/
def spendEntity (w : SchedWrrEntity) : SchedWrrEntity := { w with timeSlice := w.timeSlice - 1 }

/-- What a tick does to a WRR task. -/
def tickWrr (m : Machine) (p : Pid) (v : View) : View :=
  let v := v.watchWrr p
  if (v.tasks p).policy ≠ .wrr then v
  else
    let v := v.modEntity p spendEntity
    if (v.tasks p).wrr.timeSlice ≠ 0 then v else v.expireWrr m p

end View

/-! ### Functions that leave the view alone -/

section Quiet

variable {m : Machine} {s : State} {p : Pid}

theorem tasks_of_view {s s' : State} (h : s.view = s'.view) : s.tasks = s'.tasks :=
  congrArg View.tasks h

theorem curr_of_view {s s' : State} (h : s.view = s'.view) : s.rq.curr = s'.rq.curr :=
  congrArg View.curr h

@[simp] theorem view_modAcct (f : Acct → Acct) : (s.modAcct p f).view = s.view := rfl

@[simp] theorem view_modRt (f : Rt → Rt) : (s.modRt f).view = s.view := rfl

@[simp] theorem view_reschedTask : (reschedTask p s).view = s.view := rfl

@[simp] theorem view_reschedTaskIf (b : Bool) : (reschedTaskIf b p s).view = s.view := by
  cases b <;> rfl

@[simp] theorem view_updateRqClock : (updateRqClock m s).view = s.view := by
  unfold updateRqClock
  split <;> rfl

@[simp] theorem view_chargeCurr : (chargeCurr s).view = s.view := rfl

@[simp] theorem view_stampExecStart : (stampExecStart p s).view = s.view := rfl

@[simp] theorem view_expireSched (timeout : BitVec 32) :
    (expireSched m p timeout s).view = s.view := by
  unfold expireSched
  split <;> rfl

@[simp] theorem view_setLoadWeight : (setLoadWeight p s).view = s.view := rfl

@[simp] theorem view_countUninterruptible (n : Int) :
    (countUninterruptible n p s).view = s.view := by
  unfold countUninterruptible
  split <;> rfl

@[simp] theorem view_updateCurrWrr : (updateCurrWrr s).view = s.view := by
  unfold updateCurrWrr
  split <;> rfl

@[simp] theorem view_updateCurrRt : (updateCurrRt m s).view = s.view := by
  unfold updateCurrRt
  split
  · rfl
  · split <;> simp

@[simp] theorem view_outsideCall (c : SchedClass) (f : ClassFn) :
    (outsideCall m c f p s).view = s.view := by
  have hwrite : ∀ s : State, (writeEntities m c f s).view = s.view := fun _ => rfl
  unfold outsideCall
  rw [view_reschedTaskIf, hwrite]
  split
  · exact view_updateRqClock
  · rfl

end Quiet

/-! ### Functions that act on the view

The classes differ in what they do besides, and on a view they differ in one thing:
the WRR class has its queue there.  Counting is the same for all but the idle class.
-/

section Acts

variable {m : Machine} {s : State} {p : Pid}

@[simp] theorem view_modTask (f : Task → Task) : (s.modTask p f).view = s.view.modTask p f := rfl

@[simp] theorem view_modAttr (f : Attr → Attr) : (s.modAttr p f).view = s.view.modAttr p f := rfl

@[simp] theorem view_modWrrEntity (f : SchedWrrEntity → SchedWrrEntity) :
    (s.modWrrEntity p f).view = s.view.modEntity p f := rfl

@[simp] theorem view_incNrRunning :
    (incNrRunning s).view = { s.view with nrRunning := s.view.nrRunning + 1 } := rfl

@[simp] theorem view_decNrRunning :
    (decNrRunning s).view = { s.view with nrRunning := s.view.nrRunning - 1 } := rfl

theorem view_enqueueTaskWrr (flags : EnqueueFlags) :
    (enqueueTaskWrr flags p s).view = s.view.enqueueWrr flags p := by
  unfold enqueueTaskWrr View.enqueueWrr
  cases hwakeup : flags.wakeup with
  | false =>
      have hlink : View.linkEntity flags = fun w => { w with runList := .linked } := by
        funext w
        simp [View.linkEntity, hwakeup]
      rw [hlink]
      rfl
  | true =>
      have hlink : View.linkEntity flags = fun w => { w with runList := .linked, timeout := 0 } := by
        funext w
        simp [View.linkEntity, hwakeup]
      rw [hlink, if_pos rfl]
      simp [enqueueWrrEntity, incNrRunning, State.modWrr, State.modRq, State.modWrrEntity,
        State.modTask, State.view, View.modEntity, View.modTask]

theorem view_dequeueTaskWrr : (dequeueTaskWrr p s).view = s.view.dequeueWrr p := by
  have hact : ∀ s : State, (decNrRunning (dequeueWrrEntity p s)).view = s.view.dequeueWrr p :=
    fun _ => rfl
  rw [dequeueTaskWrr, hact, view_updateCurrWrr]

theorem view_enqueueTaskRt (flags : EnqueueFlags) :
    (enqueueTaskRt m flags p s).view = { s.view with nrRunning := s.view.nrRunning + 1 } := by
  unfold enqueueTaskRt
  cases flags.wakeup <;> rfl

theorem view_dequeueTaskRt :
    (dequeueTaskRt m p s).view = { s.view with nrRunning := s.view.nrRunning - 1 } := by
  simp [dequeueTaskRt]

/-- **Enqueueing acts on the view**, whatever the class does besides. -/
theorem view_enqueueTask (flags : EnqueueFlags) :
    (enqueueTask m flags p s).view = s.view.enqueue flags p := by
  have hclock : (updateRqClock m s).view = s.view := view_updateRqClock
  have hcls : ((updateRqClock m s).tasks p).schedClass = s.view.cls p := by
    rw [tasks_of_view hclock]
    rfl
  rw [enqueueTask, hcls, ← hclock, View.enqueue, hclock]
  cases s.view.cls p with
  | stop => simp [SchedClass.enqueueTask, enqueueTaskOutside]
  | rt => simp [SchedClass.enqueueTask, view_enqueueTaskRt]
  | wrr => simp [SchedClass.enqueueTask, view_enqueueTaskWrr]
  | fair =>
      have hfair : ∀ t : State, (incNrRunning t |>.modRq fun r =>
          { r with cfs := { r.cfs with hNrRunning := r.cfs.hNrRunning + 1 } }).view =
          { t.view with nrRunning := t.view.nrRunning + 1
                        hNrRunning := t.view.hNrRunning + 1 } := fun _ => rfl
      simp [SchedClass.enqueueTask, enqueueTaskOutside, hfair]
  | idle => simp [SchedClass.enqueueTask, enqueueTaskOutside]

/-- **Dequeueing acts on the view.** -/
theorem view_dequeueTask : (dequeueTask m p s).view = s.view.dequeue p := by
  have hclock : (updateRqClock m s).view = s.view := view_updateRqClock
  have hcls : ((updateRqClock m s).tasks p).schedClass = s.view.cls p := by
    rw [tasks_of_view hclock]
    rfl
  rw [dequeueTask, hcls, ← hclock, View.dequeue, hclock]
  cases s.view.cls p with
  | stop => simp [SchedClass.dequeueTask, dequeueTaskOutside]
  | rt => simp [SchedClass.dequeueTask, view_dequeueTaskRt]
  | wrr => simp [SchedClass.dequeueTask, view_dequeueTaskWrr]
  | fair =>
      have hfair : ∀ t : State, (decNrRunning t |>.modRq fun r =>
          { r with cfs := { r.cfs with hNrRunning := r.cfs.hNrRunning - 1 } }).view =
          { t.view with nrRunning := t.view.nrRunning - 1
                        hNrRunning := t.view.hNrRunning - 1 } := fun _ => rfl
      simp [SchedClass.dequeueTask, dequeueTaskOutside, hfair]
  | idle => simp [SchedClass.dequeueTask, dequeueTaskOutside]

@[simp] theorem view_activateTask (flags : EnqueueFlags) :
    (activateTask m flags p s).view = s.view.enqueue flags p := by
  rw [activateTask, view_enqueueTask, view_countUninterruptible]

@[simp] theorem view_deactivateTask : (deactivateTask m p s).view = s.view.dequeue p := by
  rw [deactivateTask, view_dequeueTask, view_countUninterruptible]

@[simp] theorem view_putPrevTask (c : SchedClass) : (c.putPrevTask m p s).view = s.view := by
  cases c <;> simp [SchedClass.putPrevTask, putPrevTaskRt, putPrevTaskWrr]

@[simp] theorem view_setCurrTask (c : SchedClass) : (c.setCurrTask m s).view = s.view := by
  cases c <;> simp [SchedClass.setCurrTask, setCurrTaskRt, setCurrTaskWrr]

@[simp] theorem view_taskMoveGroup (c : SchedClass) : (c.taskMoveGroup m p s).view = s.view := by
  cases c <;> simp [SchedClass.taskMoveGroup]

@[simp] theorem view_checkPreemptCurr : (checkPreemptCurr m p s).view = s.view := by
  have hskip : ∀ s : State, (s.modRq fun r => { r with skipClockUpdate := 1 }).view = s.view :=
    fun _ => rfl
  unfold checkPreemptCurr
  split
  · rename_i hsame
    have hcall : (s.current.schedClass.checkPreemptCurr m p s).view = s.view := by
      cases s.current.schedClass <;> simp [SchedClass.checkPreemptCurr, checkPreemptCurrRt]
    simp only []
    split <;> simp only [hskip, hcall]
  · simp only []
    split <;> simp only [hskip, view_reschedTaskIf]

@[simp] theorem view_switchedTo (c : SchedClass) : (c.switchedTo m p s).view = s.view := by
  cases c with
  | rt =>
      simp only [SchedClass.switchedTo, switchedToRt]
      split <;> simp
  | wrr =>
      simp only [SchedClass.switchedTo, switchedToWrr]
      split <;> simp
  | _ => simp [SchedClass.switchedTo]

@[simp] theorem view_switchedFrom (c : SchedClass) : (c.switchedFrom m p s).view = s.view := by
  cases c <;> simp [SchedClass.switchedFrom]

@[simp] theorem view_prioChanged (c : SchedClass) (oldprio : Int) :
    (c.prioChanged m p oldprio s).view = s.view := by
  cases c with
  | rt =>
      simp only [SchedClass.prioChanged, prioChangedRt]
      split
      · rfl
      · split <;> simp
  | _ => simp [SchedClass.prioChanged]

@[simp] theorem view_checkClassChanged (c : SchedClass) (oldprio : Int) :
    (checkClassChanged m p c oldprio s).view = s.view := by
  unfold checkClassChanged
  split
  · simp
  · split <;> simp

/-! ### The operations

One equation for each operation of `core.c`, from those above.  Most go through
`withDetached`, whose equation says that a change between a dequeue and an enqueue is
that change on the view, whether or not the task was running or queued.
-/

@[simp] theorem view_setOnRq (b : Bool) :
    (setOnRq b p s).view = s.view.modAttr p fun t => { t with onRq := b } := rfl

@[simp] theorem view_setTaskState (state : Nat) :
    (setTaskState state p s).view = s.view.modAttr p fun t => { t with state := state } := rfl

/-- Take a task out of its class, change it, and put it back: on the view, the change. -/
theorem view_withDetached {running : Bool} {flags : EnqueueFlags} {change : State → State}
    {f : Attr → Attr} (hchange : ∀ s : State, (change s).view = s.view.modAttr p f) :
    (withDetached m running flags p change s).view = s.view.detached flags p f := by
  unfold withDetached View.detached
  have honRq : (s.view.tasks p).onRq = (s.tasks p).onRq := rfl
  rw [honRq]
  cases (s.tasks p).onRq <;> cases running <;>
    simp [hchange, view_enqueueTask, view_dequeueTask]

theorem view_wake :
    (ttwuDoWakeup m p (if (s.tasks p).onRq then s else ttwuActivate m p s)).view =
      s.view.wake p := by
  have honRq : (s.view.tasks p).onRq = (s.tasks p).onRq := rfl
  rw [View.wake, honRq]
  cases (s.tasks p).onRq <;> simp [ttwuDoWakeup, ttwuActivate]

theorem view_tryToWakeUp (state : Nat) :
    (tryToWakeUp m p state s).2.view =
      if (s.view.tasks p).state &&& state = 0 then s.view else s.view.wake p := by
  have hstate : (s.view.tasks p).state = (s.tasks p).state := rfl
  rw [hstate, tryToWakeUp]
  split
  · rfl
  · rw [← @view_wake m s p]
    split <;> rfl

theorem view_tryToWakeUpLocal :
    (tryToWakeUpLocal m p s).view =
      if p = s.view.curr then s.view
      else if (s.view.tasks p).state &&& taskNormal = 0 then s.view
      else s.view.wake p := by
  have hcurr : s.view.curr = s.rq.curr := rfl
  have hstate : (s.view.tasks p).state = (s.tasks p).state := rfl
  rw [hcurr, hstate, tryToWakeUpLocal, ← @view_wake m s p]
  split
  · rfl
  · split <;> rfl

theorem view_wakeUpNewTask :
    (wakeUpNewTask m p s).view =
      (s.view.enqueue {} p).modAttr p fun t => { t with onRq := true } := by
  simp [wakeUpNewTask]

theorem view_rtMutexSetprio (prio : Int) :
    (rtMutexSetprio m p prio s).view =
      if p = s.view.idle then s.view
      else s.view.detached { head := (s.view.tasks p).prio < prio } p fun t =>
        { t with schedClass := setprioClass prio, prio := prio } := by
  have hidle : s.view.idle = s.rq.idle := rfl
  rw [hidle, rtMutexSetprio]
  split
  · rfl
  · rw [view_checkClassChanged, view_withDetached (fun _ => view_modAttr _)]
    rfl

/-- What `set_user_nice` makes of a task outside the real-time policies. -/
def renice (nice : Int) (t : Attr) : Attr :=
  applyEffectivePrio { t with staticPrio := niceToPrio nice }

/-- `set_user_nice` on views. -/
def View.setUserNice (p : Pid) (nice : Int) (v : View) : View :=
  if prioToNice (v.tasks p).staticPrio = nice || nice < -20 || 19 < nice then v
  else if rtPolicy (v.tasks p).policy then
    v.modAttr p fun t => { t with staticPrio := niceToPrio nice }
  else v.detached {} p (renice nice)

theorem view_setUserNice (nice : Int) :
    (setUserNice m p nice s).view = s.view.setUserNice p nice := by
  have htasks : s.view.tasks = s.tasks := rfl
  rw [View.setUserNice, htasks, setUserNice]
  split
  · rfl
  · split
    · rfl
    · rw [view_reschedTaskIf, view_withDetached]
      intro t
      simp [setStaticPrio, View.modAttr, View.modTask, renice]

theorem view_schedMoveTask (tg : Gid) :
    (schedMoveTask m p tg s).view =
      s.view.detached {} p fun t => { t with schedTaskGroup := tg } := by
  rw [schedMoveTask, view_withDetached]
  intro t
  simp

theorem view_setscheduler (policy : Policy) (prio : Int) :
    (setscheduler p policy prio s).view = s.view.modAttr p (applyPolicy policy prio) := by
  simp [setscheduler]

/-- What `__sched_setscheduler` makes of a task. -/
def setPolicy (c : Checked) (prio : Int) (t : Attr) : Attr :=
  applyPolicy c.policy prio { t with schedResetOnFork := c.resetOnFork }

theorem view_setPolicy (c : Checked) (prio : Int) :
    (setscheduler p c.policy prio
      (s.modAttr p fun t => { t with schedResetOnFork := c.resetOnFork })).view =
      s.view.modAttr p (setPolicy c prio) := by
  rw [view_setscheduler, view_modAttr]
  simp [View.modAttr, View.modTask, setPolicy]

theorem view_changePolicy (c : Checked) (prio : Int) :
    (changePolicy m p c prio s).view = s.view.detached {} p (setPolicy c prio) := by
  rw [changePolicy, view_checkClassChanged, view_withDetached fun _ => view_setPolicy c prio]

theorem view_normalizeTask :
    (normalizeTask m p s).view = s.view.detached {} p (applyPolicy .normal 0) := by
  rw [normalizeTask, view_checkClassChanged, view_reschedTaskIf,
    view_withDetached (fun _ => view_setscheduler _ _)]

/-- One turn of `normalize_rt_tasks` on views. -/
def View.normalizeOne (v : View) (p : Pid) : View :=
  if !(v.tasks p).mm then v
  else if !rtPrio (v.tasks p).prio then
    if prioToNice (v.tasks p).staticPrio < 0 then v.setUserNice p 0 else v
  else v.detached {} p (applyPolicy .normal 0)

theorem view_normalizeOne : (normalizeOne m s p).view = s.view.normalizeOne p := by
  have htasks : s.view.tasks = s.tasks := rfl
  rw [View.normalizeOne, htasks, normalizeOne]
  split
  · rfl
  · have hstamp : (s.modAcct p fun a => { a with se := { a.se with execStart := 0 } }).tasks =
        s.tasks := rfl
    simp only [hstamp]
    split
    · split
      · rw [view_setUserNice, view_modAcct]
      · exact view_modAcct _
    · rw [view_normalizeTask, view_modAcct]

/-- The worker that a running worker wakes when it goes to sleep. -/
def wokenWorker (m : Machine) (s : State) : Option Pid :=
  let s' := setOnRq false s.rq.curr (deactivateTask m s.rq.curr s)
  (if (s'.tasks s.rq.curr).wqWorker then m.wqWorkerSleeping s' s.rq.curr else none).map Subtype.val

theorem wokenWorker_listed : ∀ p ∈ wokenWorker m s, p ∈ s.view.tasklist := by
  have hlist : (setOnRq false s.rq.curr (deactivateTask m s.rq.curr s)).tasklist =
      s.view.tasklist := by
    show (setOnRq false s.rq.curr (deactivateTask m s.rq.curr s)).view.tasklist = _
    rw [view_setOnRq, view_deactivateTask]
    exact View.dequeue_tasklist
  intro p hp
  obtain ⟨q, -, rfl⟩ := Option.map_eq_some_iff.mp hp
  rw [← hlist]
  exact q.2

theorem view_goToSleep : (goToSleep m s).view = s.view.goToSleep (wokenWorker m s) := by
  have hoff : (setOnRq false s.rq.curr (deactivateTask m s.rq.curr s)).view =
      (s.view.dequeue s.view.curr).modAttr s.view.curr fun t => { t with onRq := false } := by
    rw [view_setOnRq, view_deactivateTask]
    rfl
  unfold goToSleep View.goToSleep wokenWorker
  simp only [← hoff]
  split
  · rename_i hnone
    rw [hnone]
    rfl
  · rename_i p hsome
    rw [hsome]
    exact view_tryToWakeUpLocal

theorem view_putToSleep (preemptActive : Bool) :
    (putToSleep m preemptActive s).view = s.view.putToSleep preemptActive (wokenWorker m s) := by
  have hcurr : s.view.tasks s.view.curr = s.current := rfl
  rw [putToSleep, View.putToSleep, hcurr, ← view_goToSleep]
  split
  · split <;> rfl
  · rfl

theorem view_corePutPrevTask : (putPrevTask m p s).view = s.view := by
  rw [putPrevTask, view_putPrevTask]
  split <;> simp

theorem view_switchTo (next : Pid) : (switchTo next s).view = { s.view with curr := next } := by
  unfold switchTo
  by_cases h : s.rq.curr = next
  · subst h
    simp [State.view, State.modRq, State.modAcct]
  · simp [State.view, State.modRq, State.modAcct, h]

/-- What picking can do: nothing, a stamp on a task, or a call of a class outside the repository. -/
theorem classPickNextTask_cases {c : SchedClass} {next : Option Pid} {s' : State}
    (h : c.pickNextTask m s = .ok (next, s')) :
    s' = s ∨ (∃ p, s' = stampExecStart p s) ∨ ∃ c p, s' = outsideCall m c .pickNextTask p s := by
  cases c with
  | rt =>
      simp only [SchedClass.pickNextTask, pickNextTaskRt] at h
      split at h
      · cases h
      · cases h
        exact Or.inl rfl
      · cases h
        exact Or.inr (Or.inl ⟨_, rfl⟩)
  | wrr =>
      simp only [SchedClass.pickNextTask, pickNextTaskWrr] at h
      split at h
      · cases h
        exact Or.inl rfl
      · split at h
        · cases h
        · cases h
          exact Or.inr (Or.inl ⟨_, rfl⟩)
  | idle =>
      cases h
      exact Or.inr (Or.inr ⟨_, _, rfl⟩)
  | stop | fair =>
      simp only [SchedClass.pickNextTask, pickNextTaskOutside, Except.ok.injEq] at h
      split at h
      · cases h
        exact Or.inl rfl
      · cases h
        exact Or.inr (Or.inr ⟨_, _, rfl⟩)

/-- A class that picks leaves the view alone. -/
theorem view_classPickNextTask {c : SchedClass} {next : Option Pid} {s' : State}
    (h : c.pickNextTask m s = .ok (next, s')) : s'.view = s.view := by
  rcases classPickNextTask_cases h with rfl | ⟨p, rfl⟩ | ⟨c, p, rfl⟩
  · rfl
  · rfl
  · exact view_outsideCall _ _

/-- A class with nothing to run leaves everything alone. -/
theorem eq_of_declines {c : SchedClass} {s' : State} (h : c.pickNextTask m s = .ok (none, s')) :
    s' = s := by
  cases c with
  | rt =>
      simp only [SchedClass.pickNextTask, pickNextTaskRt] at h
      split at h <;> cases h
      rfl
  | wrr =>
      simp only [SchedClass.pickNextTask, pickNextTaskWrr] at h
      split at h
      · cases h
        rfl
      · split at h <;> cases h
  | idle => cases h
  | stop | fair =>
      simp only [SchedClass.pickNextTask, pickNextTaskOutside, Except.ok.injEq] at h
      split at h <;> cases h
      rfl

/-- **Some class picks the next task**, and those that have none to run leave everything alone. -/
theorem exists_classPickNextTask {next : Pid} {s' : State}
    (h : pickNextTask m s = .ok (next, s')) :
    ∃ c : SchedClass, c.pickNextTask m s = .ok (some next, s') := by
  have hwalk : ∀ cs, pickFromClasses m s cs = .ok (next, s') →
      ∃ c : SchedClass, c.pickNextTask m s = .ok (some next, s') := by
    intro cs
    induction cs with
    | nil => exact fun h => by cases h
    | cons c cs ih =>
        intro h
        simp only [pickFromClasses] at h
        split at h
        · cases h
        · rename_i heq
          cases h
          exact ⟨c, heq⟩
        · rename_i heq
          rw [eq_of_declines heq] at h
          exact ih h
  unfold pickNextTask at h
  split at h
  · split at h
    · cases h
    · rename_i heq
      cases h
      exact ⟨.fair, heq⟩
    · rename_i heq
      rw [eq_of_declines heq] at h
      exact hwalk _ h
  · exact hwalk _ h

theorem view_pickNextTask {next : Pid} {s' : State} (h : pickNextTask m s = .ok (next, s')) :
    s'.view = s.view := by
  obtain ⟨c, hc⟩ := exists_classPickNextTask h
  exact view_classPickNextTask hc

theorem view_schedYield :
    (schedYield m s).view =
      if s.view.cls s.view.curr = .wrr then s.view.requeueWrr s.view.curr else s.view := by
  have hcls : s.view.cls s.view.curr = s.current.schedClass := rfl
  rw [hcls, schedYield]
  cases s.current.schedClass <;> simp [SchedClass.yieldTask, yieldTaskRt]
  rfl

theorem view_watchdogWrr : (watchdogWrr m p s).view = s.view.watchWrr p := by
  have htasks : s.view.tasks = s.tasks := rfl
  rw [View.watchWrr, htasks, watchdogWrr]
  split
  · rfl
  · rw [view_expireSched]
    rfl

theorem view_expireTaskWrr : (expireTaskWrr m p s).view = s.view.expireWrr m p :=
  apply_ite State.view _ _ _

/-- **A tick acts on the view**: the timeout, the slice, and on expiry the refill and the
rotation. -/
theorem view_taskTickWrr : (taskTickWrr m p s).view = s.view.tickWrr m p := by
  have hwatch : (watchdogWrr m p (updateCurrWrr s)).view = s.view.watchWrr p := by
    rw [view_watchdogWrr, view_updateCurrWrr]
  rw [taskTickWrr, View.tickWrr, ← hwatch]
  generalize watchdogWrr m p (updateCurrWrr s) = s'
  refine (apply_ite State.view _ _ _).trans ?_
  refine if_congr Iff.rfl rfl ?_
  refine (apply_ite State.view _ _ _).trans ?_
  exact if_congr Iff.rfl rfl view_expireTaskWrr

theorem view_taskTickRt : (taskTickRt m p s).view = s.view := by
  have hwatch : (watchdogRt m p (updateCurrRt m s)).view = s.view := by
    unfold watchdogRt
    split
    · simp
    · rw [view_expireSched]
      exact view_updateCurrRt
  unfold taskTickRt
  rw [← hwatch]
  generalize watchdogRt m p (updateCurrRt m s) = s'
  simp only []
  split
  · rfl
  · split
    · rfl
    · split <;> rfl

theorem view_schedulerTick :
    (schedulerTick m s).view =
      if s.view.cls s.view.curr = .wrr then s.view.tickWrr m s.view.curr else s.view := by
  have hclock : (updateRqClock m s).view = s.view := view_updateRqClock
  rw [schedulerTick, ← hclock]
  generalize updateRqClock m s = s'
  have hcls : s'.view.cls s'.view.curr = s'.current.schedClass := rfl
  rw [hcls]
  cases s'.current.schedClass <;>
    simp [SchedClass.taskTick, view_taskTickRt, view_taskTickWrr]
  rfl

theorem view_schedRrGetInterval :
    (schedRrGetInterval m p s).2.view =
      if s.view.cls p = .wrr then
        { s.view with
          groupPath := m.cgroupPath (m.cgroup (s.view.tasks p).schedTaskGroup) s.view.groupPath }
      else s.view := by
  have hcls : s.view.cls p = (s.tasks p).schedClass := rfl
  rw [hcls, schedRrGetInterval]
  cases (s.tasks p).schedClass with
  | wrr =>
      simp only [SchedClass.getRrInterval, getRrIntervalWrr, if_true]
      split
      · rfl
      · split <;> rfl
  | _ => simp [SchedClass.getRrInterval]

theorem view_doSchedRtPeriodTimer (g : Gid) (overrun : Nat) :
    (doSchedRtPeriodTimer m g overrun s).view = s.view := by
  have hreplenish : (replenishRtRq g overrun s).view = s.view := by
    unfold replenishRtRq
    simp only []
    split <;> rfl
  unfold doSchedRtPeriodTimer
  simp only []
  split
  · rw [view_reschedTaskIf, view_modRt, hreplenish]
  · exact hreplenish

/-! ### Fork -/

/-- The child after `dup_task_struct` and `__sched_fork`. -/
def copyTask (f : Foreign) (parent : Task) : Task :=
  { parent with
    toForeign := f, onRq := false, wrr := { parent.wrr with runList := .self }
    state := taskRunning }

/-- The priority, the reset and the class `sched_fork` gives a child. -/
def settleAttr (prio : Int) (t : Attr) : Attr :=
  let t := { t with prio := prio }
  let t := if t.schedResetOnFork then resetOnFork t else t
  if !rtPrio t.prio then { t with schedClass := .fair } else t

/-- The task `sched_fork` makes, before `task_fork`. -/
def forkTask (f : Foreign) (parent : Task) : Task :=
  let t := copyTask f parent
  { t with toAttr := settleAttr parent.normalPrio t.toAttr }

/-- A task that was just set, and what changing its attributes does. -/
private theorem forked {s s' : State} {p : Pid} {t : Task}
    (h : s'.view = s.view.modTask p fun _ => t) :
    s'.tasks p = t ∧
      ∀ g, (s'.modAttr p g).view = s.view.modTask p fun _ => { t with toAttr := g t.toAttr } := by
  constructor
  · have htasks : s'.view.tasks p = t := by
      rw [h]
      simp [View.modTask]
    exact htasks
  · intro g
    rw [view_modAttr, h, View.modAttr, View.modTask_modTask]

private theorem forked_forkReset {s s' : State} {p : Pid} {t : Task}
    (h : s'.view = s.view.modTask p fun _ => t) :
    (forkReset p s').view = s.view.modTask p fun _ =>
      { t with toAttr := if t.schedResetOnFork then resetOnFork t.toAttr else t.toAttr } := by
  rw [forkReset, (forked h).1]
  split
  · exact (forked h).2 resetOnFork
  · exact h

private theorem forked_forkClass {s s' : State} {p : Pid} {t : Task}
    (h : s'.view = s.view.modTask p fun _ => t) :
    (forkClass p s').view = s.view.modTask p fun _ =>
      { t with toAttr := if !rtPrio t.prio then { t.toAttr with schedClass := .fair }
                         else t.toAttr } := by
  rw [forkClass, (forked h).1]
  split
  · exact (forked h).2 _
  · exact h

private theorem view_basicSchedFork {child : Pid} {f : Foreign} :
    (setTaskState taskRunning child (basicSchedFork child (dupTaskStruct child f s))).view =
      s.view.modTask child fun _ => copyTask f s.current := by
  simp [basicSchedFork, dupTaskStruct, View.modAttr, View.modEntity, View.modTask_modTask, copyTask]

/-- **Fork adds one task to the view.** -/
theorem view_setUpFork {child : Pid} {f : Foreign} (hchild : child ≠ s.rq.curr) :
    (setUpFork child (dupTaskStruct child f s)).view =
      s.view.modTask child fun _ => forkTask f s.current := by
  have hbasic := @view_basicSchedFork s child f
  unfold setUpFork forkTask
  generalize copyTask f s.current = t at hbasic ⊢
  generalize setTaskState taskRunning child (basicSchedFork child (dupTaskStruct child f s)) = s'
    at hbasic ⊢
  have hcurrent : s'.current = s.current := by
    have hsame : s'.view.tasks s'.view.curr = s.view.tasks s.view.curr := by
      rw [hbasic]
      exact Function.update_of_ne hchild.symm _ _
    exact hsame
  have hprio := (forked hbasic).2 fun t => { t with prio := s.current.normalPrio }
  simp only [hcurrent]
  exact forked_forkClass (forked_forkReset hprio)

/-- The end of fork, unless the child is a WRR one, which has no parent pointer. -/
theorem view_schedFork {child : Pid} {f : Foreign} (hchild : child ≠ s.rq.curr)
    (hcls : (forkTask f s.current).schedClass ≠ .wrr) :
    ∃ s', schedFork m child (dupTaskStruct child f s) = .ok s' ∧
      s'.view = s.view.modTask child fun _ => forkTask f s.current := by
  have hdone := @view_setUpFork s child f hchild
  unfold schedFork
  simp only []
  rw [(forked hdone).1]
  cases hc : (forkTask f s.current).schedClass with
  | wrr => exact absurd hc hcls
  | rt => exact ⟨_, rfl, hdone⟩
  | _ => exact ⟨_, rfl, (view_outsideCall _ _).trans hdone⟩

end Acts

end WrrScheduler
