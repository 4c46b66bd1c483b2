/-
More than one CPU: `try_to_wake_up`, `__schedule` and the migration of tasks, of
`core.c`, and what `rt.c` does to a task it pushes or pulls.

Every CPU has a program counter, and a step is what one CPU does between two points
at which another could see a difference.  Memory is sequentially consistent.  What
a CPU does under a run-queue lock, from taking it to dropping it, is one step; only
`__schedule` keeps its lock from one step to the next, so whether a run queue is
locked can be read off the program counter of its own CPU.  A `pi_lock` is kept from
step to step by `try_to_wake_up` and so has its holder.

`push_rt_tasks`, which `task_woken_rt` calls at the end of `ttwu_do_wakeup`, may drop
the run-queue lock in the middle of all this.  What it then lets others do is a step of
its own: `sched_ttwu_pending` takes one step for each task of its list.  When a single
task is woken, every write of the wake-up is done by then, and all that is left is to
drop `pi_lock`; the model drops it a little earlier, which only allows more.  With
`CPU_DYING` every other CPU is held, so the list can be one step, and what is pushed
meanwhile is pushed after it.

The queue of a CPU stands for the queues of all classes: it has the tasks that
`enqueue_task` has put there, the running one among them, and which of them a class
picks, pulls or pushes comes in with the step, as does the CPU that its `select_task_rq`
says.  WRR has no such functions of its own (`select_task_rq_wrr` is empty, and
`set_cpus_allowed_wrr` is not defined), so that nothing rests on what a class says.  The
idle thread is never queued, and a CPU whose `curr` is `none` runs it.

`__ARCH_WANT_INTERRUPTS_ON_CTXSW` and `__ARCH_WANT_UNLOCKED_CTXSW` are not defined: a
switch is made with the lock held, and there is no `ttwu_activate_remote`.
-/
import Mathlib.Data.List.Range
import WrrScheduler.Kernel.Core
import WrrScheduler.Lib.Run

namespace WrrScheduler.Smp

/-- `TASK_WAKING`. -/
def taskWaking : Nat := 256

/-- A set of CPUs. -/
abbrev CpuMask := Nat → Bool

/-- What the system is made of. -/
structure Machine where
  /-- `nr_cpu_ids`; every CPU below it is possible. -/
  nrCpus : Nat
  nrCpus_pos : 0 < nrCpus
  /-- `cpu_to_node(cpu)`. -/
  cpuToNode : Nat → Nat
  /-- The scheduling feature `TTWU_QUEUE`. -/
  ttwuQueue : Bool
  /-- `per_cpu(sd_llc_id, cpu)`. -/
  sdLlcId : Nat → Nat
  /-- The mask `cpuset_cpus_allowed_fallback` leaves a task with. -/
  cpusetCpusAllowedFallback : Pid → CpuMask → CpuMask

/-- `cpu_possible_mask`. -/
def Machine.possible (m : Machine) : CpuMask := fun cpu => cpu < m.nrCpus

/-- `cpus_share_cache`. -/
def Machine.cpusShareCache (m : Machine) (thisCpu thatCpu : Nat) : Bool :=
  m.sdLlcId thisCpu = m.sdLlcId thatCpu

/-- The first CPU of a set. -/
def Machine.cpumaskFirst (m : Machine) (mask : CpuMask) : Option Nat :=
  (List.range m.nrCpus).find? mask

/-! ### The state -/

/-- How far a task is in the loop that `linux/sched.h` gives for `set_current_state`. -/
inductive SleepLoop
  | outside
  /-- Its state is set; whether it must sleep is not tested yet. -/
  | stateSet
  /-- The test said that it must. -/
  | mustSleep
  deriving DecidableEq, Repr

/-- `task_struct`. -/
structure Task where
  state : Nat
  onRq : Bool
  onCpu : Bool
  cpu : Nat
  cpusAllowed : CpuMask
  schedContributesToLoad : Bool
  /-- `PF_FROZEN` and `PF_THREAD_BOUND` in `p->flags`. -/
  frozen : Bool
  threadBound : Bool
  /-- The CPU that holds `pi_lock`. -/
  piLock : Option Nat
  /-- `wake_up_new_task` has put it on a run queue. -/
  started : Bool
  /-- What it waits for has happened. -/
  condition : Bool
  sleepLoop : SleepLoop
  /-- How often `finish_task_switch` has dropped the reference for its use as `current`. -/
  puts : Nat

/-- `struct migration_arg`. -/
structure MigrationArg where
  task : Pid
  destCpu : Nat
  deriving DecidableEq, Repr

/-- What a CPU does next. -/
inductive Pc
  /-- Run its task, with interrupts enabled. -/
  | run
  /-- In `try_to_wake_up(p, state)`: take `pi_lock` and look at `p->state`. -/
  | wake (p : Pid) (state : Nat)
  /-- Look at `p->on_rq`. -/
  | readOnRq (p : Pid)
  /-- In `__task_rq_lock`: look at `task_cpu(p)`. -/
  | readRq (p : Pid)
  /-- In `__task_rq_lock`: take the lock of the run queue it saw. -/
  | lockRq (p : Pid) (rq : Nat)
  /-- Wait until `p->on_cpu` is clear. -/
  | waitOnCpu (p : Pid)
  | selectRq (p : Pid)
  /-- In `ttwu_queue`. -/
  | queue (p : Pid) (cpu : Nat)
  /-- In `ttwu_queue_remote`, when the wake list was empty. -/
  | sendReschedule (p : Pid) (cpu : Nat)
  /-- In `sched_ttwu_pending`, with the list it took. -/
  | ttwuPending (llist : List Pid)
  /-- In `__schedule`, under the lock, before a task is picked. -/
  | picking
  /-- The same, but `pre_schedule` or `idle_balance` has dropped the lock for a while. -/
  | balancing
  /-- In `finish_task_switch`: look at `prev->state`. -/
  | switched (prev : Option Pid)
  /-- In `finish_task_switch`, with `prev_state`: clear `prev->on_cpu`. -/
  | finishing (prev : Option Pid) (prevState : Nat)
  /-- In `finish_task_switch`: drop the lock. -/
  | unlocking (prev : Option Pid) (prevState : Nat)
  /-- In `migrate_tasks`. -/
  | dying
  deriving DecidableEq, Repr

/-- `struct rq`, and what its CPU is doing. -/
structure Cpu where
  curr : Option Pid
  queue : List Pid
  wakeList : List Pid
  /-- A word, which wraps. -/
  nrRunning : BitVec 32
  nrUninterruptible : BitVec 32
  online : Bool
  active : Bool
  /-- A reschedule interrupt is on its way. -/
  ipi : Bool
  pc : Pc

structure State where
  tasks : Pid → Task
  cpus : Nat → Cpu
  /-- The tasks below it have been forked. -/
  nextPid : Pid
  /-- The CPU for whose sake `stop_machine` holds the others. -/
  stopMachine : Option Nat
  /-- The calls `stop_one_cpu(cpu, migration_cpu_stop, arg)` that are due: their callers have
  dropped their locks, and may be preempted and moved before they come to it. -/
  stopCalls : List (Nat × MigrationArg)

namespace State

/-- Write a task. -/
def modTask (p : Pid) (f : Task → Task) (s : State) : State :=
  { s with tasks := Function.update s.tasks p (f (s.tasks p)) }

/-- Write a CPU. -/
def modCpu (c : Nat) (f : Cpu → Cpu) (s : State) : State :=
  { s with cpus := Function.update s.cpus c (f (s.cpus c)) }

/-- Go on at another place. -/
def goTo (c : Nat) (pc : Pc) (s : State) : State := s.modCpu c fun r => { r with pc := pc }

end State

/-- Whether a CPU is in `__schedule` with its run queue locked. -/
def Pc.locked : Pc → Bool
  | picking | switched _ | finishing .. | unlocking .. => true
  | _ => false

/-- `cpu_rq(c)->lock` can be taken. -/
def State.rqFree (s : State) (c : Nat) : Bool := !(s.cpus c).pc.locked

/-- `task_contributes_to_load`. -/
def Task.contributesToLoad (t : Task) : Bool := t.state &&& taskUninterruptible ≠ 0 && !t.frozen

/-- `cpu_active_mask`. -/
def State.cpuActive (s : State) : CpuMask := fun c => (s.cpus c).active

/-- `cpu_online(c) && cpu_active(c)`. -/
def State.usable (s : State) : CpuMask := fun c => (s.cpus c).online && (s.cpus c).active

/-! ### Queueing -/

/-- `inc_nr_running`. -/
def incNrRunning (c : Nat) (s : State) : State :=
  s.modCpu c fun r => { r with nrRunning := r.nrRunning + 1 }

/-- `dec_nr_running`. -/
def decNrRunning (c : Nat) (s : State) : State :=
  s.modCpu c fun r => { r with nrRunning := r.nrRunning - 1 }

/-- `enqueue_task`, with what `enqueue_task_rt` and `enqueue_task_wrr` count. -/
def enqueueTask (c : Nat) (p : Pid) (s : State) : State :=
  incNrRunning c (s.modCpu c fun r => { r with queue := p :: r.queue })

/-- `dequeue_task`. -/
def dequeueTask (c : Nat) (p : Pid) (s : State) : State :=
  decNrRunning c (s.modCpu c fun r => { r with queue := r.queue.erase p })

/-- Add to `nr_uninterruptible`. -/
def addUninterruptible (c : Nat) (n : BitVec 32) (s : State) : State :=
  s.modCpu c fun r => { r with nrUninterruptible := r.nrUninterruptible + n }

/-- `if (b) rq->nr_uninterruptible--`. -/
def decUninterruptible (c : Nat) (b : Bool) (s : State) : State :=
  addUninterruptible c (bif b then -1 else 0) s

/-- `if (b) rq->nr_uninterruptible++`. -/
def incUninterruptible (c : Nat) (b : Bool) (s : State) : State :=
  addUninterruptible c (bif b then 1 else 0) s

/-- `activate_task`. -/
def activateTask (c : Nat) (p : Pid) (s : State) : State :=
  enqueueTask c p (decUninterruptible c (s.tasks p).contributesToLoad s)

/-- `deactivate_task`. -/
def deactivateTask (c : Nat) (p : Pid) (s : State) : State :=
  dequeueTask c p (incUninterruptible c (s.tasks p).contributesToLoad s)

/-- `p->on_rq = b`. -/
def setOnRq (b : Bool) (p : Pid) (s : State) : State := s.modTask p fun t => { t with onRq := b }

/-- `p->state = state`. -/
def setState (state : Nat) (p : Pid) (s : State) : State :=
  s.modTask p fun t => { t with state := state }

/-- `set_task_cpu`. -/
def setTaskCpu (cpu : Nat) (p : Pid) (s : State) : State :=
  s.modTask p fun t => { t with cpu := cpu }

/-- `do_set_cpus_allowed`. -/
def doSetCpusAllowed (newMask : CpuMask) (p : Pid) (s : State) : State :=
  s.modTask p fun t => { t with cpusAllowed := newMask }

/-- `ttwu_activate`. -/
def ttwuActivate (c : Nat) (p : Pid) (s : State) : State := setOnRq true p (activateTask c p s)

/-- `ttwu_do_activate`. -/
def ttwuDoActivate (c : Nat) (p : Pid) (s : State) : State :=
  let s := decUninterruptible c (s.tasks p).schedContributesToLoad s
  setState taskRunning p (ttwuActivate c p s)

/-- The loop of `sched_ttwu_pending`, when nothing comes between its rounds. -/
def schedTtwuPending (c : Nat) (llist : List Pid) (s : State) : State :=
  llist.foldl (fun s p => ttwuDoActivate c p s) s

/-! ### Choosing a CPU -/

/-- `select_fallback_rq`: the CPU, and the mask the task is left with.  There is no result where
`BUG()` stops the kernel. -/
def selectFallbackRq (m : Machine) (cpu : Nat) (p : Pid) (s : State) : Option (Nat × State) :=
  let allowed := (s.tasks p).cpusAllowed
  let find (mask : CpuMask) := m.cpumaskFirst fun c => mask c && s.usable c
  match m.cpumaskFirst fun c =>
    m.cpuToNode c = m.cpuToNode cpu && s.usable c && allowed c with
  | some dest => some (dest, s)
  | none =>
    match find allowed with
    | some dest => some (dest, s)
    | none =>
      let cpuset := m.cpusetCpusAllowedFallback p allowed
      match find cpuset with
      | some dest => some (dest, doSetCpusAllowed cpuset p s)
      | none => (find m.possible).map fun dest => (dest, doSetCpusAllowed m.possible p s)

/-- `select_task_rq`, when the class says `cpu`. -/
def selectTaskRq (m : Machine) (cpu : Nat) (p : Pid) (s : State) : Option (Nat × State) :=
  if !(s.tasks p).cpusAllowed cpu || !(s.cpus cpu).online then
    selectFallbackRq m (s.tasks p).cpu p s
  else some (cpu, s)

/-! ### Forking -/

/-- `sched_fork`, on CPU `c`, after the child has become a copy of the running task; the idle thread
is bound to its CPU. -/
def schedFork (c : Nat) (threadBound : Bool) (s : State) : State :=
  let allowed : CpuMask := match (s.cpus c).curr with
    | some p => (s.tasks p).cpusAllowed
    | none => fun cpu => cpu = c
  let child : Task :=
    { state := taskRunning, onRq := false, onCpu := false, cpu := c, cpusAllowed := allowed,
      schedContributesToLoad := false, frozen := false, threadBound := threadBound, piLock := none,
      started := false, condition := false, sleepLoop := .outside, puts := 0 }
  { s with tasks := Function.update s.tasks s.nextPid child, nextPid := s.nextPid + 1 }

/-- `wake_up_new_task`.  Nothing else sees the task, so only the run queue can be locked. -/
def wakeUpNewTask (m : Machine) (choice : Nat) (p : Pid) (s : State) : Option State :=
  match selectTaskRq m choice p s with
  | none => none
  | some (cpu, s) =>
    if s.rqFree cpu then
      let s := setOnRq true p (activateTask cpu p (setTaskCpu cpu p s))
      some (s.modTask p fun t => { t with started := true })
    else none

/-! ### Waking up -/

/-- Take `pi_lock`. -/
def lockPi (c : Nat) (p : Pid) (s : State) : State :=
  s.modTask p fun t => { t with piLock := some c }

/-- Drop `pi_lock`, and return to what was interrupted. -/
def wakeDone (c : Nat) (p : Pid) (s : State) : State :=
  (s.modTask p fun t => { t with piLock := none }).goTo c .run

/-- The next step of the `try_to_wake_up` that CPU `c` is in, with `ttwu_remote` and `ttwu_queue`.
It is `none` where the CPU has to wait. -/
def tryToWakeUp (m : Machine) (c choice : Nat) (s : State) : Option State :=
  match (s.cpus c).pc with
  | .wake p state =>
    if (s.tasks p).piLock = none then
      if (s.tasks p).state &&& state = 0 then some (s.goTo c .run)
      else some ((lockPi c p s).goTo c (.readOnRq p))
    else none
  | .readOnRq p => some (s.goTo c (if (s.tasks p).onRq then .readRq p else .waitOnCpu p))
  | .readRq p => some (s.goTo c (.lockRq p (s.tasks p).cpu))
  | .lockRq p rq =>
    if s.rqFree rq then
      -- the task has moved: `__task_rq_lock` drops this lock and looks again
      if (s.tasks p).cpu ≠ rq then some (s.goTo c (.readRq p))
      else if (s.tasks p).onRq then some (wakeDone c p (setState taskRunning p s))
      else some (s.goTo c (.waitOnCpu p))
    else none
  | .waitOnCpu p =>
    if (s.tasks p).onCpu then none
    else some ((s.modTask p fun t =>
      { t with schedContributesToLoad := t.contributesToLoad, state := taskWaking }).goTo c
        (.selectRq p))
  | .selectRq p =>
    (selectTaskRq m choice p s).map fun r => (setTaskCpu r.1 p r.2).goTo c (.queue p r.1)
  | .queue p cpu =>
    if m.ttwuQueue && !m.cpusShareCache c cpu then
      let first := (s.cpus cpu).wakeList.isEmpty
      let s := s.modCpu cpu fun r => { r with wakeList := p :: r.wakeList }
      some (if first then s.goTo c (.sendReschedule p cpu) else wakeDone c p s)
    else if s.rqFree cpu then some (wakeDone c p (ttwuDoActivate cpu p s))
    else none
  | .sendReschedule p cpu => some (wakeDone c p (s.modCpu cpu fun r => { r with ipi := true }))
  | _ => none

/-- `scheduler_ipi`, as far as `llist_del_all`. -/
def schedulerIpi (c : Nat) (s : State) : State :=
  let llist := (s.cpus c).wakeList
  let s := s.modCpu c fun r => { r with ipi := false, wakeList := [] }
  if llist.isEmpty then s else s.goTo c (.ttwuPending llist)

/-- `try_to_wake_up_local`, from `__schedule` on CPU `c`. -/
def tryToWakeUpLocal (c : Nat) (p : Pid) (s : State) : State :=
  if (s.tasks p).state &&& taskNormal = 0 then s
  else setState taskRunning p (if (s.tasks p).onRq then s else ttwuActivate c p s)

/-! ### Scheduling -/

/-- `signal_pending_state`. -/
def signalPendingState (state : Nat) (pending fatal : Bool) : Bool :=
  state &&& (taskInterruptible ||| taskWakekill) ≠ 0 && pending &&
    (state &&& taskInterruptible ≠ 0 || fatal)

/-- `__schedule`, from taking the lock to `pre_schedule`. -/
def scheduleBegin (c : Nat) (preemptActive pending fatal : Bool) (s : State) : State :=
  match (s.cpus c).curr with
  | none => s.goTo c .picking
  | some prev =>
    if (s.tasks prev).state ≠ taskRunning && !preemptActive then
      if signalPendingState (s.tasks prev).state pending fatal then
        (setState taskRunning prev s).goTo c .picking
      else (setOnRq false prev (deactivateTask c prev s)).goTo c .picking
    else s.goTo c .picking

/-- `__schedule`, from `pick_next_task` to the switch, when the classes say `next`; with
`context_switch` and `prepare_lock_switch`. -/
def pickNext (c : Nat) (next : Option Pid) (s : State) : State :=
  let prev := (s.cpus c).curr
  if prev = next then s.goTo c .run
  else
    let s := s.modCpu c fun r => { r with curr := next, pc := .switched prev }
    match next with
    | none => s
    | some q => s.modTask q fun t => { t with onCpu := true }

/-- The next step of `finish_task_switch` on CPU `c`, with `finish_lock_switch`. -/
def finishTaskSwitch (c : Nat) (s : State) : Option State :=
  match (s.cpus c).pc with
  | .switched prev =>
    some (s.goTo c (.finishing prev (prev.elim taskRunning fun p => (s.tasks p).state)))
  | .finishing prev prevState =>
    let s := s.goTo c (.unlocking prev prevState)
    some (prev.elim s fun p => s.modTask p fun t => { t with onCpu := false })
  | .unlocking prev prevState =>
    let s := s.goTo c .run
    -- nothing another CPU does depends on when the reference goes
    some (prev.elim s fun p =>
      if prevState = taskDead then s.modTask p fun t => { t with puts := t.puts + 1 } else s)
  | _ => none

/-! ### Moving tasks -/

/-- What `pull_rt_task` and `push_rt_task` do to the task they have found. -/
def moveTask (src dest : Nat) (p : Pid) (s : State) : State :=
  activateTask dest p (setTaskCpu dest p (deactivateTask src p s))

/-- `__migrate_task`. -/
def migrateTask (p : Pid) (srcCpu destCpu : Nat) (s : State) : State :=
  if !(s.cpus destCpu).active then s
  else if (s.tasks p).cpu ≠ srcCpu then s
  else if !(s.tasks p).cpusAllowed destCpu then s
  else if (s.tasks p).onRq then
    enqueueTask destCpu p (setTaskCpu destCpu p (dequeueTask srcCpu p s))
  else s

/-- The locks are dropped, and `stop_one_cpu(cpu, migration_cpu_stop, arg)` comes next. -/
def callStopper (cpu : Nat) (arg : MigrationArg) (s : State) : State :=
  { s with stopCalls := (cpu, arg) :: s.stopCalls }

/-- `set_cpus_allowed_ptr`, called on CPU `c`, as far as `stop_one_cpu`: what it returns, and the
state. -/
def setCpusAllowedPtr (m : Machine) (c : Nat) (p : Pid) (newMask : CpuMask) (s : State) :
    Int × State :=
  let all := List.range m.nrCpus
  if all.all fun i => (s.tasks p).cpusAllowed i = newMask i then (0, s)
  else match m.cpumaskFirst fun i => s.cpuActive i && newMask i with
    | none => (-eInval, s)
    | some destCpu =>
      if (s.tasks p).threadBound && (s.cpus c).curr ≠ some p then (-eInval, s)
      else
        let s := doSetCpusAllowed newMask p s
        let cpu := (s.tasks p).cpu
        if newMask cpu then (0, s)
        else if (s.tasks p).onRq then (0, callStopper cpu ⟨p, destCpu⟩ s)
        else (0, s)

/-- `sched_exec`, when the class says `destCpu`.  It reads `task_cpu(p)` for `stop_one_cpu` after it
has dropped the lock; what it reads is `cpu`, which can be any by then. -/
def schedExec (c : Nat) (p : Pid) (destCpu cpu : Nat) (s : State) : State :=
  if destCpu = c then s
  else if (s.cpus destCpu).active then callStopper cpu ⟨p, destCpu⟩ s
  else s

/-- `migrate_nr_uninterruptible`. -/
def migrateNrUninterruptible (src dest : Nat) (s : State) : State :=
  let n := (s.cpus src).nrUninterruptible
  (addUninterruptible dest n s).modCpu src fun r => { r with nrUninterruptible := 0 }

end WrrScheduler.Smp
