/-
Everything the CPUs can do next to each other.

What runs on a CPU, and what interrupts it, is not in this repository, so it may do
any of this at any time.  Two things are taken from `do_exit`: it sets `TASK_DEAD`
when no wake-up that saw an earlier state is still under way, and from then on the
task cannot be preempted and does nothing but call `schedule`.

`stop_machine.c` is not in it either.  Here a stopper may call `migration_cpu_stop` with
any argument whenever it runs; where it matters that it was asked to, what it does with
the calls of `stop_one_cpu` is a parameter.
-/
import WrrScheduler.Kernel.Smp

namespace WrrScheduler.Smp

/-- What a CPU does, with what comes in from the code that is not modelled. -/
inductive Act
  | schedFork (threadBound : Bool)
  | wakeUpNewTask (p : Pid) (choice : Nat)
  /-- The running task: `set_current_state`, then its test whether it must sleep. -/
  | setCurrentState (state : Nat)
  | testCondition
  | setFrozen (frozen : Bool)
  /-- `do_exit`, as far as `tsk->state = TASK_DEAD`. -/
  | doExit
  /-- Whatever a task waits for ceases to be so. -/
  | retract (p : Pid)
  /-- It comes to be so, and `wake_up_process` is called. -/
  | signal (p : Pid)
  | wakeUpState (p : Pid) (state : Nat)
  | tryToWakeUp (choice : Nat)
  | schedulerIpi
  | schedTtwuPending
  | schedule (preemptActive pending fatal : Bool)
  | tryToWakeUpLocal (p : Pid)
  | dropLock
  | retakeLock
  | pickNext (next : Option Pid)
  | finishTaskSwitch
  /-- `pull_rt_task` or `push_rt_task`, with both run queues locked. -/
  | moveTask (p : Pid) (src dest : Nat)
  | setCpusAllowedPtr (p : Pid) (newMask : CpuMask)
  | schedExec (destCpu cpu : Nat)
  /-- A caller of these comes to `stop_one_cpu`. -/
  | stopOneCpu (cpu : Nat) (arg : MigrationArg)
  | migrationCpuStop (arg : MigrationArg)
  | setCpuActive (cpu : Nat) (active : Bool)
  | cpuUp
  /-- `migration_call` with `CPU_DYING`, up to the loop of `migrate_tasks`. -/
  | cpuDying
  /-- A round of that loop, with what `pick_next_task` has picked. -/
  | migrateNext (next : Option Pid)
  | cpuDead

/-- The state of `p` is not `TASK_DEAD`. -/
def State.alive (s : State) (p : Pid) : Bool := (s.tasks p).state ≠ taskDead

/-- The lock of run queue `c` is CPU `self`'s own, or can be taken by it. -/
def State.rqFreeFor (s : State) (self c : Nat) : Bool :=
  s.rqFree c || (self = c && (s.cpus c).pc = .picking)

/-- What CPU `c` does while it runs its task or is interrupted there. -/
def actRun (m : Machine) (c : Nat) (s : State) : Act → Option State
  | .schedFork threadBound => some (schedFork c threadBound s)
  | .wakeUpNewTask p choice =>
    if p < s.nextPid ∧ (s.tasks p).started = false then wakeUpNewTask m choice p s else none
  | .setCurrentState state =>
    match (s.cpus c).curr with
    | some p =>
      if s.alive p ∧ state &&& (taskWaking ||| taskDead) = 0 then
        some (s.modTask p fun t => { t with state := state, sleepLoop := .stateSet })
      else none
    | none => none
  | .testCondition =>
    match (s.cpus c).curr with
    | some p =>
      if s.alive p ∧ (s.tasks p).sleepLoop = .stateSet then
        some (s.modTask p fun t =>
          if t.condition then { t with state := taskRunning, sleepLoop := .outside }
          else { t with sleepLoop := .mustSleep })
      else none
    | none => none
  | .setFrozen frozen =>
    match (s.cpus c).curr with
    | some p => if s.alive p then some (s.modTask p fun t => { t with frozen := frozen }) else none
    | none => none
  | .doExit =>
    match (s.cpus c).curr with
    | some p =>
      if (s.tasks p).state = taskRunning ∧ (s.tasks p).piLock = none then
        some (setState taskDead p s)
      else none
    | none => none
  | .retract p => some (s.modTask p fun t => { t with condition := false })
  | .signal p =>
    if p < s.nextPid then
      some ((s.modTask p fun t => { t with condition := true }).goTo c (.wake p taskNormal))
    else none
  | .wakeUpState p state =>
    if p < s.nextPid ∧ state &&& (taskWaking ||| taskDead) = 0 then some (s.goTo c (.wake p state))
    else none
  | .schedulerIpi => if (s.cpus c).ipi then some (schedulerIpi c s) else none
  | .schedule preemptActive pending fatal =>
    if preemptActive ∧ ¬ (s.cpus c).curr.all s.alive then none
    else some (scheduleBegin c preemptActive pending fatal s)
  | .setCpusAllowedPtr p newMask =>
    if p < s.nextPid ∧ (s.tasks p).piLock = none ∧ s.rqFree (s.tasks p).cpu then
      some (setCpusAllowedPtr m c p newMask s).2
    else none
  | .schedExec destCpu cpu =>
    match (s.cpus c).curr with
    | some p => if (s.tasks p).piLock = none then some (schedExec c p destCpu cpu s) else none
    | none => none
  | .stopOneCpu cpu arg =>
    if (cpu, arg) ∈ s.stopCalls then some { s with stopCalls := s.stopCalls.erase (cpu, arg) }
    else none
  | .migrationCpuStop arg =>
    match (s.cpus c).curr with
    | some stop =>
      -- the stopper runs here, so the task it was asked to move does not
      if stop ≠ arg.task ∧ (s.tasks arg.task).piLock = none ∧ s.rqFree arg.destCpu then
        some (migrateTask arg.task c arg.destCpu s)
      else none
    | none => none
  | .setCpuActive cpu active =>
    -- the last active CPU cannot go down
    if (s.cpus cpu).online ∧ (List.range m.nrCpus).any fun i => i ≠ cpu && s.cpuActive i then
      some (s.modCpu cpu fun r => { r with active := active })
    else none
  | .cpuUp => some (s.modCpu c fun r => { r with online := true, active := true })
  | .cpuDying =>
    if s.stopMachine = none ∧ (s.cpus c).online ∧ (s.cpus c).active = false ∧
        (s.cpus c).curr.isSome ∧ (List.range m.nrCpus).all fun i => (s.cpus i).pc = .run then
      let llist := (s.cpus c).wakeList
      let s := s.modCpu c fun r => { r with online := false, wakeList := [] }
      some ({ schedTtwuPending c llist s with stopMachine := some c }.goTo c .dying)
    else none
  | _ => none

/-- A step of CPU `c`. -/
def act (m : Machine) (c : Nat) (s : State) (a : Act) : Option State :=
  match (s.cpus c).pc, a with
  | .run, a => actRun m c s a
  | .ttwuPending llist, .schedTtwuPending =>
    match llist with
    | [] => some (s.goTo c .run)
    | p :: llist => some ((ttwuDoActivate c p s).goTo c (.ttwuPending llist))
  | .picking, .tryToWakeUpLocal p =>
    -- the worker is bound to this CPU and not the task that goes to sleep
    if (s.tasks p).cpu = c ∧ (s.tasks p).cpusAllowed c ∧ (s.cpus c).curr ≠ some p ∧
        (s.tasks p).piLock = none then
      some (tryToWakeUpLocal c p s)
    else none
  | .picking, .dropLock => some (s.goTo c .balancing)
  | .balancing, .retakeLock => some (s.goTo c .picking)
  | .picking, .pickNext next =>
    if next.all fun q => q ∈ (s.cpus c).queue then some (pickNext c next s) else none
  | .dying, .migrateNext next =>
    match next with
    -- no class has a task to pick, as when the `rt_rq` is throttled, and the idle thread stays
    | none => if (s.cpus c).nrRunning = 1 then none else some s
    | some p =>
      if (s.cpus c).nrRunning ≠ 1 ∧ p ∈ (s.cpus c).queue ∧ (s.cpus c).curr ≠ some p then
        (selectFallbackRq m c p s).map fun r => migrateTask p c r.1 r.2
      else none
  | .dying, .cpuDead =>
    if (s.cpus c).nrRunning = 1 then
      (m.cpumaskFirst s.cpuActive).map fun dest =>
        { migrateNrUninterruptible c dest s with stopMachine := none }.goTo c .run
    else none
  | _, .tryToWakeUp choice => tryToWakeUp m c choice s
  | _, .finishTaskSwitch => finishTaskSwitch c s
  | _, _ => none

/-- A place at which a CPU may push tasks to another, or pull them. -/
def Pc.balances : Pc → Bool
  | run | picking | ttwuPending _ | dying => true
  | _ => false

/-- Moving a queued task that does not run from one run queue to another. -/
def actMove (c : Nat) (s : State) (p : Pid) (src dest : Nat) : Option State :=
  if (s.tasks p).onRq ∧ (s.tasks p).onCpu = false ∧ (s.tasks p).cpu = src ∧ src ≠ dest ∧
      (s.tasks p).cpusAllowed dest ∧ (s.cpus dest).online ∧
      s.rqFreeFor c src ∧ s.rqFreeFor c dest then
    some (moveTask src dest p s)
  else none

/-- A step of the system. -/
def step (m : Machine) (s : State) (e : Nat × Act) : Option State :=
  if e.1 < m.nrCpus ∧ s.stopMachine.all (fun c => c = e.1) then
    match e.2 with
    | .moveTask p src dest =>
      if (s.cpus e.1).pc.balances then
        if src < m.nrCpus ∧ dest < m.nrCpus then actMove e.1 s p src dest else none
      else none
    | a => act m e.1 s a
  else none

/-- The machine when its first CPU has called `init_idle`: it runs its idle thread, and so will the
others when they come up. -/
def boot : State where
  tasks _ :=
    { state := taskRunning, onRq := false, onCpu := false, cpu := 0, cpusAllowed := fun _ => false,
      schedContributesToLoad := false, frozen := false, threadBound := false, piLock := none,
      started := false, condition := false, sleepLoop := .outside, puts := 0 }
  cpus c :=
    { curr := none, queue := [], wakeList := [], nrRunning := 0, nrUninterruptible := 0,
      online := c = 0, active := c = 0, ipi := false, pc := .run }
  nextPid := 0
  stopMachine := none
  stopCalls := []

/-- What the machine can come to. -/
abbrev Reachable (m : Machine) (s : State) : Prop := Run.Reachable (step m) boot s

/-! ### The stoppers

`stop_one_cpu` and the threads that run what it queues are in `stop_machine.c`.  What is relied on is
that a work that has been queued for a CPU stays there until the stopper of that CPU takes it, unless
the CPU has gone down: then it is refused, or dropped when the CPU is dead.
-/

/-- `stop_machine.c`, as far as `migration_cpu_stop` goes. -/
structure Stopper where
  /-- What is queued for the stoppers of all CPUs. -/
  Works : Type
  idle : Works
  /-- `stop_one_cpu(cpu, migration_cpu_stop, arg)`, up to its wait; no result where it is refused. -/
  stopOneCpu : Nat → MigrationArg → Works → Option Works
  /-- What the stopper of a CPU calls `migration_cpu_stop` with next. -/
  next : Nat → Works → Option (MigrationArg × Works)
  /-- The works of a dead CPU are dropped. -/
  drop : Nat → Works → Works
  Pending : Works → Nat → MigrationArg → Prop
  pending_queued : ∀ {w w' cpu arg}, stopOneCpu cpu arg w = some w' → Pending w' cpu arg
  pending_stopOneCpu : ∀ {w w' cpu arg c b}, stopOneCpu cpu arg w = some w' →
    Pending w c b → Pending w' c b
  pending_next : ∀ {w w' cpu arg c b}, next cpu w = some (arg, w') →
    Pending w c b → c = cpu ∧ b = arg ∨ Pending w' c b
  pending_drop : ∀ {w cpu c b}, c ≠ cpu → Pending w c b → Pending (drop cpu w) c b

/-- What can happen next to the machine and its stoppers. -/
inductive Event
  | act (c : Nat) (a : Act)
  | dropWorks (cpu : Nat)

namespace Stopper

/-- A step of the machine and its stoppers. -/
def step (k : Stopper) (m : Machine) (x : State × k.Works) : Event → Option (State × k.Works)
  | .act c (.stopOneCpu cpu arg) => (Smp.step m x.1 (c, .stopOneCpu cpu arg)).map fun s =>
      (s, (k.stopOneCpu cpu arg x.2).getD x.2)
  | .act c (.migrationCpuStop arg) => (k.next c x.2).bind fun work =>
      if work.1 = arg then
        (Smp.step m x.1 (c, .migrationCpuStop arg)).map fun s => (s, work.2)
      else none
  | .act c a => (Smp.step m x.1 (c, a)).map fun s => (s, x.2)
  | .dropWorks cpu =>
    if (x.1.cpus cpu).online then none else some (x.1, k.drop cpu x.2)

end Stopper

end WrrScheduler.Smp
