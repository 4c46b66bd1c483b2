/-
The scheduler as a system: what may happen to it next, and what it does then.

An `Op` is one critical section of the run-queue lock, or a step of the rest of
the kernel the scheduler depends on.  `callable` is what the callers see to;
`step` runs an operation that may be called, and gives no state where the kernel
would stop.  Runs start from `boot`.
-/
import WrrScheduler.Kernel.Core
import WrrScheduler.Lib.Run

namespace WrrScheduler

/-- What can happen next. -/
inductive Op
  | tryToWakeUp (p : Pid) (state : Nat)
  | wakeUpNewTask (p : Pid)
  | schedFork (child : Pid) (f : Foreign)
  | schedule (preemptActive : Bool)
  | schedYield
  | schedulerTick
  | schedSetscheduler (p : Pid) (policy : BitVec 32) (prio : Int) (user : Bool) (who : Caller)
      (seen : List Attr)
  | rtMutexSetprio (p : Pid) (prio : Int)
  | setUserNice (p : Pid) (nice : Int)
  | schedMoveTask (p : Pid) (tg : Gid)
  | normalizeRtTasks
  | schedRrGetInterval (p : Pid)
  | doSchedRtPeriodTimer (g : Gid) (overrun : Nat)
  | schedSetStopTask (stop : Option Pid) (who : Caller) (seen : List Attr)
  | initIdleBootupTask
  | setCurrentState (state : Nat)
  | releaseTask (p : Pid)
  | foreign (p : Pid) (f : Foreign)

/-- What the callers of an operation make sure of. -/
def callable (s : State) : Op → Bool
  | .tryToWakeUp p _ => p ∈ s.tasklist
  | .wakeUpNewTask p => p ∈ s.tasklist && !(s.tasks p).onRq && (s.tasks p).state = taskRunning
  | .schedFork child _ => child ∉ s.tasklist && child ≠ s.rq.idle
  | .schedYield => s.rq.curr ≠ s.rq.idle
  | .schedSetscheduler p _ _ _ _ _ => p ∈ s.tasklist
  | .rtMutexSetprio p prio => (p ∈ s.tasklist || p = s.rq.idle) && 0 ≤ prio && prio ≤ maxPrio
  | .setUserNice p _ => p ∈ s.tasklist
  | .schedMoveTask p _ => p ∈ s.tasklist
  | .schedSetStopTask stop _ _ =>
    stop.all (fun p => p ∈ s.tasklist && !(s.tasks p).onRq) &&
      s.rq.stop.all (fun p => !(s.tasks p).onRq)
  | .initIdleBootupTask => s.rq.curr = s.rq.idle
  | .setCurrentState _ => s.rq.curr ≠ s.rq.idle
  | .releaseTask p => p ∈ s.tasklist && !(s.tasks p).onRq && (s.tasks p).state = taskDead &&
      s.rq.stop ≠ some p
  | _ => true

/-- A result that stops the kernel is no state. -/
def survive : Except Bug State → Option State
  | .error _ => none
  | .ok s => some s

/-- What an operation does. -/
def perform (m : Machine) (s : State) : Op → Option State
  | .tryToWakeUp p state => some (tryToWakeUp m p state s).2
  | .wakeUpNewTask p => some (wakeUpNewTask m p s)
  | .schedFork child f => (survive (schedFork m child (dupTaskStruct child f s))).map fun s =>
      { s with tasklist := child :: s.tasklist }
  | .schedule preemptActive => survive (schedule m preemptActive s)
  | .schedYield => some (schedYield m s)
  | .schedulerTick => some (schedulerTick m s)
  | .schedSetscheduler p policy prio user who seen =>
    (schedSetscheduler m p prio user who seen policy s).map Prod.snd
  | .rtMutexSetprio p prio => some (rtMutexSetprio m p prio s)
  | .setUserNice p nice => some (setUserNice m p nice s)
  | .schedMoveTask p tg => some (schedMoveTask m p tg s)
  | .normalizeRtTasks => some (normalizeRtTasks m s)
  | .schedRrGetInterval p => some (schedRrGetInterval m p s).2
  | .doSchedRtPeriodTimer g overrun => some (doSchedRtPeriodTimer m g overrun s)
  | .schedSetStopTask stop who seen => schedSetStopTask m who seen stop s
  | .initIdleBootupTask => some (initIdleBootupTask s.rq.curr s)
  | .setCurrentState state => some (setTaskState state s.rq.curr s)
  | .releaseTask p => some { s with tasklist := s.tasklist.erase p }
  | .foreign p f => some (s.modAttr p fun t => { t with toForeign := f })

/-- One step of the system. -/
def step (m : Machine) (s : State) (o : Op) : Option State :=
  if callable s o then perform m s o else none

/-! ### Boot -/

/-- The static `init_task`, as the scheduler sees it. -/
def initTask (m : Machine) : Task where
  mm := false
  frozen := false
  wqWorker := false
  sigPending := false
  fatalPending := false
  topWaiter := none
  rlim := { rttimeCur := rlimInfinity, rttimeMax := rlimInfinity, rtprio := 0, nice := 0 }
  state := taskRunning
  onRq := false
  prio := maxPrio - 20
  staticPrio := maxPrio - 20
  normalPrio := maxPrio - 20
  rtPriority := 0
  schedClass := .fair
  policy := .normal
  schedResetOnFork := false
  schedTaskGroup := m.tg.root
  wrr := { runList := .self, timeout := 0, timeSlice := m.initTimeSlice, parent := none }

/-- Accounting that has not begun. -/
def initAcct : Acct where
  se := { execStart := 0, sumExecRuntime := 0, weight := 1024, invWeight := 4194304 }
  rt := { timeout := 0, timeSlice := 0 }
  needResched := false
  schedExp := 0

/-- The state `sched_init` leaves: the boot task runs, as the idle task, and there is no other. -/
def boot (m : Machine) : State where
  tasks _ := initTask m
  acct _ := initAcct
  rq :=
    { nrRunning := 0
      nrUninterruptible := 0
      nrSwitches := 0
      skipClockUpdate := 0
      clock := 0
      clockTask := 0
      cfs := { hNrRunning := 0 }
      rt := { rtRq := fun g => initRtRq (m.rtBandwidth g).rtRuntime, runList := fun _ => .self }
      wrr := initWrrRq
      curr := 0
      idle := 0
      stop := none }
  tasklist := []
  groupPath := ""
  now := 0
  wrrCharged _ := 0
  wrrRan _ := 0

/-! ### A sample machine

One the model can be run on: 100 ticks a second, three groups, a clock that moves a millisecond
at every reading, and a fair class that runs the task listed first. -/

/-- The root group, and the groups right below it. -/
def sampleGroups : GroupTree where
  root := 0
  parent g := if g = 0 then none else some 0
  depth g := if g = 0 then 0 else 1
  height := 1
  parent_root := rfl
  depth_parent g h hgh := by
    by_cases hg : g = 0
    · simp [hg] at hgh
    · simp only [hg, if_false, Option.some.injEq] at hgh
      simp [hg, ← hgh]
  depth_le g := by
    show (if g = 0 then 0 else 1) ≤ 1
    split <;> omega

/-- The queued task of a class that is listed first. -/
def firstListed (c : SchedClass) (s : State) :
    Option {p : Pid // (s.tasks p).schedClass = c ∧ (s.tasks p).onRq = true} :=
  match h : s.tasklist.find? fun p => (s.tasks p).schedClass = c && (s.tasks p).onRq with
  | none => none
  | some p => some ⟨p, by simpa using List.find?_some h⟩

/-- A machine to run the model on, by the slice of its `init_task`. -/
def sampleMachine (initTimeSlice : BitVec 32) : Machine where
  HZ := 100
  hz_pos := by decide
  hz_small := by decide
  schedClockCpu n := BitVec.ofNat 64 (1000000 * min n (2 ^ 40))
  cgroupPath path _ := path
  tg := sampleGroups
  cgroup g := if g = 0 then foregroup else if g = 1 then backgroup else "/apps"
  rtBandwidth _ := { rtPeriod := 1000000000, rtRuntime := 950000000 }
  taskGroupIsAutogroup _ := false
  sysctlSchedRtRuntime := 950000
  initTimeSlice := initTimeSlice
  wqWorkerSleeping _ _ := none
  updatesClock _ _ _ _ := false
  asksResched c f s p := c = .fair && f = .switchedTo && s.rq.curr = p
  writesSe _ _ s p := (s.acct p).se
  getRrInterval _ _ _ := 0
  pickNextTask := firstListed

/-- A task with an address space and no limits. -/
def sampleForeign : Foreign where
  mm := true
  frozen := false
  wqWorker := false
  sigPending := false
  fatalPending := false
  topWaiter := none
  rlim := { rttimeCur := rlimInfinity, rttimeMax := rlimInfinity, rtprio := 0, nice := 0 }

/-- A caller who may do anything. -/
def sampleCaller : Caller where
  capSysNice := true
  sameOwner := true
  securityTaskSetscheduler := 0

/-- A call of `sched_setscheduler` by that caller, who sees the task as it is in `s`. -/
def sampleSetscheduler (p : Pid) (policy : BitVec 32) (prio : Int) (seen : List Attr) : Op :=
  .schedSetscheduler p policy prio true sampleCaller seen

/-- Boot, then two new tasks become `SCHED_WRR`, and the first of them runs. -/
def startTwoWrr : List Op :=
  let seen := [(initTask (sampleMachine 0)).toAttr]
  [.initIdleBootupTask, .schedFork 1 sampleForeign, .wakeUpNewTask 1, .schedFork 2 sampleForeign,
    .wakeUpNewTask 2, sampleSetscheduler 1 Policy.wrr.code 1 seen,
    sampleSetscheduler 2 Policy.wrr.code 1 seen, .schedule false]

/-- What runs of the scheduler can reach. -/
abbrev Reachable (m : Machine) (s : State) : Prop := Run.Reachable (step m) (boot m) s

end WrrScheduler
