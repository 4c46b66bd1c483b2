/-
The data of the scheduler.

`State` is one uniprocessor machine as `kernel/sched/core.c` sees it between two
critical sections of the run-queue lock: the tasks, the run queue, the list of all
tasks and the shared path buffer of `wrr.c`.  A `task_struct` is split by who
writes it.  `Attr` is what decides how a task is scheduled, `SchedWrrEntity` its
place in the weighted round robin, and `Acct` what the accounting code writes on
the side, so that a function that only does accounting leaves `tasks` alone.

Counters are natural numbers: there are fewer than 2^32 tasks, so none wraps.  A
time slice is decremented before it is tested and a timeout is compared with a
rounded-up quotient, so those, and the clocks, are machine words.
-/
import Mathlib.Algebra.Group.Nat.Defs
import Mathlib.Data.Finset.Card
import Mathlib.Logic.Function.Basic

namespace WrrScheduler

/-- A task, by the address of its `task_struct`. -/
abbrev Pid := Nat

/-- A task group, by the address of its `task_group`. -/
abbrev Gid := Nat

/-- `MAX_RT_PRIO`. -/
abbrev maxRtPrio : Int := 100

/-- `MAX_PRIO`. -/
abbrev maxPrio : Int := 140

/-- `NICE_TO_PRIO(nice)`. -/
def niceToPrio (nice : Int) : Int := maxRtPrio + nice + 20

/-- `PRIO_TO_NICE(prio)`. -/
def prioToNice (prio : Int) : Int := prio - maxRtPrio - 20

/-- `rt_prio(prio)`. -/
def rtPrio (prio : Int) : Bool := prio < maxRtPrio

/-- The scheduling policies of `linux/sched.h`. -/
inductive Policy
  | normal
  | fifo
  | rr
  | batch
  | idle
  | wrr
  deriving DecidableEq, Repr

/-- The number a policy has in the system-call interface. -/
def Policy.code : Policy → BitVec 32
  | normal => 0
  | fifo => 1
  | rr => 2
  | batch => 3
  | idle => 5
  | wrr => 6

/-- The policy with a number, if there is one. -/
def Policy.ofCode (c : BitVec 32) : Option Policy :=
  [normal, fifo, rr, batch, idle, wrr].find? fun p => p.code = c

/-- `rt_policy(policy)`. -/
def rtPolicy (p : Policy) : Bool := p = .fifo || p = .rr

/-- `wrr_policy(policy)`. -/
def wrrPolicy (p : Policy) : Bool := p = .wrr

/-- The scheduling classes, highest first. -/
inductive SchedClass
  | stop
  | rt
  | wrr
  | fair
  | idle
  deriving DecidableEq, Repr

/-- The `next` pointers of the classes. -/
def SchedClass.next : SchedClass → Option SchedClass
  | stop => some rt
  | rt => some wrr
  | wrr => some fair
  | fair => some idle
  | idle => none

/-- `for_each_class`: the classes from `sched_class_highest` down. -/
def forEachClass : List SchedClass := [.stop, .rt, .wrr, .fair, .idle]

example : forEachClass = .stop :: forEachClass.filterMap SchedClass.next := rfl

/-- What a `run_list` points at: itself, or its neighbours on a queue. -/
inductive ListHead
  | self
  | linked
  deriving DecidableEq, Repr

/-- `struct sched_wrr_entity`. -/
structure SchedWrrEntity where
  runList : ListHead
  timeout : BitVec 32
  timeSlice : BitVec 32
  parent : Option Pid

/-- The resource limits the scheduler reads. -/
structure Rlimits where
  rttimeCur : BitVec 32
  rttimeMax : BitVec 32
  rtprio : BitVec 32
  nice : BitVec 32

/-- The part of a task that the rest of the kernel writes and the scheduler reads. -/
structure Foreign where
  /-- `p->mm` is set. -/
  mm : Bool
  /-- `PF_FROZEN` in `p->flags`. -/
  frozen : Bool
  /-- `PF_WQ_WORKER` in `p->flags`. -/
  wqWorker : Bool
  /-- `TIF_SIGPENDING`, and whether `SIGKILL` is among the pending signals. -/
  sigPending : Bool
  fatalPending : Bool
  /-- The priority of the task's top rt_mutex waiter. -/
  topWaiter : Option Int
  rlim : Rlimits

/-- The fields of `task_struct` that decide how a task is scheduled. -/
structure Attr extends Foreign where
  state : Nat
  onRq : Bool
  prio : Int
  staticPrio : Int
  normalPrio : Int
  rtPriority : Int
  schedClass : SchedClass
  policy : Policy
  schedResetOnFork : Bool
  schedTaskGroup : Gid

/-- A task, less its accounting. -/
structure Task extends Attr where
  wrr : SchedWrrEntity

/-- `struct sched_entity`, as far as the classes of the repository use it. -/
structure SchedEntity where
  execStart : BitVec 64
  sumExecRuntime : BitVec 64
  weight : Nat
  invWeight : Nat

/-- `struct sched_rt_entity`, less its links. -/
structure SchedRtEntity where
  timeout : BitVec 32
  timeSlice : BitVec 32

/-- What accounting writes about a task. -/
structure Acct where
  se : SchedEntity
  rt : SchedRtEntity
  /-- `TIF_NEED_RESCHED`. -/
  needResched : Bool
  /-- `cputime_expires.sched_exp`. -/
  schedExp : BitVec 64

/-- `struct wrr_rq`. -/
structure WrrRq where
  wrrNrRunning : Nat
  queue : List Pid

/-- The one field of `struct cfs_rq` that `core.c` reads. -/
structure CfsRq where
  hNrRunning : Nat

/-- A `sched_rt_entity`: a task's own, or the one a group is queued by. -/
inductive RtEntity
  | task (p : Pid)
  | group (g : Gid)
  deriving DecidableEq, Repr

/-- `struct rt_rq`, with its priority array. -/
structure RtRq where
  bitmap : Int → Bool
  queue : Int → List RtEntity
  rtNrRunning : Nat
  /-- `highest_prio.curr`. -/
  highestPrio : Int
  rtThrottled : Bool
  rtTime : BitVec 64
  rtRuntime : BitVec 64
  rtNrBoosted : Nat

/-- The RT run queues of all groups, and which entities are linked. -/
structure Rt where
  rtRq : Gid → RtRq
  runList : RtEntity → ListHead

/-- `struct rq`. -/
structure Rq where
  nrRunning : Nat
  nrUninterruptible : Int
  nrSwitches : Nat
  skipClockUpdate : Int
  clock : BitVec 64
  clockTask : BitVec 64
  cfs : CfsRq
  rt : Rt
  wrr : WrrRq
  curr : Pid
  idle : Pid
  stop : Option Pid

/-- The machine. -/
structure State where
  tasks : Pid → Task
  acct : Pid → Acct
  rq : Rq
  /-- The tasks `do_each_thread` walks. -/
  tasklist : List Pid
  /-- The static buffer `group_path` of `wrr.c`. -/
  groupPath : String
  /-- How often the clock has been read. -/
  now : Nat
  /-- History: what `update_curr_wrr` has charged to each task. -/
  wrrCharged : Pid → Nat
  /-- History: the `clock_task` time each task has been current in the WRR class. -/
  wrrRan : Pid → Nat

/-- The flags of `enqueue_task`: `ENQUEUE_WAKEUP` and `ENQUEUE_HEAD`. -/
structure EnqueueFlags where
  wakeup : Bool := false
  head : Bool := false

/-- The functions a class may be asked for. -/
inductive ClassFn
  | enqueueTask
  | dequeueTask
  | yieldTask
  | checkPreemptCurr
  | pickNextTask
  | putPrevTask
  | setCurrTask
  | taskTick
  | taskFork
  | switchedFrom
  | switchedTo
  | prioChanged
  | taskMoveGroup
  deriving DecidableEq, Repr

/-- `struct rt_bandwidth`. -/
structure RtBandwidth where
  rtPeriod : BitVec 64
  rtRuntime : BitVec 64

/-- The tree of task groups.  The height bounds every depth, so the tree is finite upwards. -/
structure GroupTree where
  root : Gid
  parent : Gid → Option Gid
  depth : Gid → Nat
  height : Nat
  parent_root : parent root = none
  depth_parent : ∀ g h, parent g = some h → depth g = depth h + 1
  depth_le : ∀ g, depth g ≤ height

/-- What the repository does not contain: the tick rate, the clock, the cgroup file system,
the task groups, and the classes of `stop_task.c`, `fair.c` and `idle_task.c`.

Of those classes a function may read the clock, ask for a reschedule of the running task and
write the `sched_entity` of its own tasks.  What it picks is a queued task of its own. -/
structure Machine where
  HZ : Nat
  hz_pos : 0 < HZ
  /-- `100 * HZ` is an `int`. -/
  hz_small : 100 * HZ < 2 ^ 31
  /-- What `sched_clock_cpu` returns at each reading. -/
  schedClockCpu : Nat → BitVec 64
  /-- What `cgroup_path` leaves in the buffer, given the path and what was there. -/
  cgroupPath : String → String → String
  tg : GroupTree
  /-- The path of a group's cgroup. -/
  cgroup : Gid → String
  rtBandwidth : Gid → RtBandwidth
  taskGroupIsAutogroup : Gid → Bool
  sysctlSchedRtRuntime : Int
  /-- `wrr.time_slice` of the static `init_task`. -/
  initTimeSlice : BitVec 32
  /-- The worker a sleeping worker asks to wake. -/
  wqWorkerSleeping : (s : State) → Pid → Option {p : Pid // p ∈ s.tasklist}
  updatesClock : SchedClass → ClassFn → State → Pid → Bool
  asksResched : SchedClass → ClassFn → State → Pid → Bool
  writesSe : SchedClass → ClassFn → State → Pid → SchedEntity
  getRrInterval : SchedClass → State → Pid → BitVec 32
  pickNextTask : (c : SchedClass) → (s : State) →
    Option {p : Pid // (s.tasks p).schedClass = c ∧ (s.tasks p).onRq = true}

/-- A `BUG()` or a bad dereference: the kernel stops. -/
inductive Bug
  | noTask
  | rtBitmap
  | wrrQueue
  | nullParent
  deriving DecidableEq, Repr

end WrrScheduler
