/-
What a step of a CPU can do.

`step` is a function, so that it can be run; here is the same as a list of cases,
each with all that is known when it is taken: where the CPU is, what it has tested
under which lock, and the state it leaves.  Every invariant is proved by going
through this list, and none of them unfolds `step`.

A case says less than the code where the difference is nothing to any invariant: the
reads of `try_to_wake_up` before it decides are one case, and the CPU that
`select_task_rq` finds is any that the mask it leaves the task with allows.
-/
import WrrScheduler.Proofs.SmpWrites

namespace WrrScheduler.Smp

/-- The states no wake-up asks for and no task sets for itself. -/
def Unwakeable : Nat := taskWaking ||| taskDead

/-- The task that is being woken and whose state is still as it was. -/
def Pc.pursuing : Pc → Option Pid
  | readOnRq p | readRq p | lockRq p _ | waitOnCpu p => some p
  | _ => none

/-- CPU `c` goes on with what it is in the middle of, or takes an interrupt it has been sent. -/
def Act.internal : Act → Bool
  | tryToWakeUp _ | schedulerIpi | schedTtwuPending | retakeLock | pickNext _ | finishTaskSwitch
  | migrateNext _ | cpuDead => true
  | _ => false

/-- A step in which a stopper is asked, or does what it was asked to. -/
def Act.stops : Act → Bool
  | stopOneCpu .. | migrationCpuStop _ => true
  | _ => false

/-- A bound on the steps a CPU has left at a place before it runs its task again, with two more for
a wake list that it may add to. -/
def State.stepsLeft (s : State) : Pc → Nat
  | .run => 0
  | .ttwuPending llist => llist.length + 1
  | .unlocking .. | .dying => 1
  | .finishing .. | .sendReschedule .. => 2
  | .switched _ => 3
  | .picking => 4
  | .balancing => 5
  | .queue .. => 6
  | .selectRq _ => 7
  | .waitOnCpu _ => 8
  -- the run queue it saw may be another by now
  | .lockRq p rq => if (s.tasks p).cpu = rq then 9 else 11
  | .readRq _ => 10
  | .readOnRq _ => 11
  | .wake .. => 12

/-- What CPU `c` can do in state `s`. -/
inductive Effect (m : Machine) (c : Nat) (s : State) : Act → State → Prop
  /-- `try_to_wake_up`, when the state does not match. -/
  | wakeFail {choice : Nat} {p : Pid} {state : Nat} (hpc : (s.cpus c).pc = .wake p state)
      (hstate : (s.tasks p).state &&& state = 0) :
      Effect m c s (.tryToWakeUp choice) (s.goTo c .run)
  | wakeLock {choice : Nat} {p : Pid} {state : Nat} (hpc : (s.cpus c).pc = .wake p state)
      (hpi : (s.tasks p).piLock = none) (hstate : (s.tasks p).state &&& state ≠ 0) :
      Effect m c s (.tryToWakeUp choice) ((lockPi c p s).goTo c (.readOnRq p))
  /-- The reads that decide how to wake the task. -/
  | wakeRead {choice : Nat} {p : Pid} {pc : Pc} (hpc : (s.cpus c).pc.pursuing = some p)
      (hnew : pc.pursuing = some p) (hwait : pc = .waitOnCpu p → (s.tasks p).onRq = false)
      (hleft : s.stepsLeft pc < s.stepsLeft (s.cpus c).pc) :
      Effect m c s (.tryToWakeUp choice) (s.goTo c pc)
  | wakeRemote {choice : Nat} {p : Pid} {rq : Nat} (hpc : (s.cpus c).pc = .lockRq p rq)
      (hfree : s.rqFree rq = true)
      (hcpu : (s.tasks p).cpu = rq) (honRq : (s.tasks p).onRq = true) :
      Effect m c s (.tryToWakeUp choice) (wakeDone c p (setState taskRunning p s))
  | wakePlace {choice : Nat} {p : Pid} (hpc : (s.cpus c).pc = .waitOnCpu p)
      (honCpu : (s.tasks p).onCpu = false) :
      Effect m c s (.tryToWakeUp choice) ((s.modTask p fun t =>
        { t with schedContributesToLoad := t.contributesToLoad, state := taskWaking }).goTo c
          (.selectRq p))
  | wakeSelect {choice : Nat} {p : Pid} {cpu : Nat} {mask : CpuMask}
      (hpc : (s.cpus c).pc = .selectRq p)
      (hmask : mask cpu = true) (honline : (s.cpus cpu).online = true) :
      Effect m c s (.tryToWakeUp choice)
        ((setTaskCpu cpu p (doSetCpusAllowed mask p s)).goTo c (.queue p cpu))
  | wakeListFirst {choice : Nat} {p : Pid} {cpu : Nat} (hpc : (s.cpus c).pc = .queue p cpu)
      (hne : c ≠ cpu) :
      Effect m c s (.tryToWakeUp choice)
        ((s.modCpu cpu fun r => { r with wakeList := p :: r.wakeList }).goTo c
        (.sendReschedule p cpu))
  | wakeList {choice : Nat} {p : Pid} {cpu : Nat} (hpc : (s.cpus c).pc = .queue p cpu)
      (hne : c ≠ cpu)
      (hlist : (s.cpus cpu).wakeList ≠ []) :
      Effect m c s (.tryToWakeUp choice)
        (wakeDone c p (s.modCpu cpu fun r => { r with wakeList := p :: r.wakeList }))
  | wakeDirect {choice : Nat} {p : Pid} {cpu : Nat} (hpc : (s.cpus c).pc = .queue p cpu)
      (hfree : s.rqFree cpu = true) :
      Effect m c s (.tryToWakeUp choice) (wakeDone c p (ttwuDoActivate cpu p s))
  | wakeSend {choice : Nat} {p : Pid} {cpu : Nat} (hpc : (s.cpus c).pc = .sendReschedule p cpu) :
      Effect m c s (.tryToWakeUp choice)
        (wakeDone c p (s.modCpu cpu fun r => { r with ipi := true }))
  | fork {threadBound : Bool} (hpc : (s.cpus c).pc = .run) :
      Effect m c s (.schedFork threadBound) (schedFork c threadBound s)
  | start {choice : Nat} {p : Pid} {cpu : Nat} {mask : CpuMask} (hpc : (s.cpus c).pc = .run)
      (hforked : p < s.nextPid) (hstarted : (s.tasks p).started = false) (hmask : mask cpu = true)
      (honline : (s.cpus cpu).online = true) (hfree : s.rqFree cpu = true) :
      Effect m c s (.wakeUpNewTask p choice) ((setOnRq true p (activateTask cpu p (setTaskCpu cpu p
        (doSetCpusAllowed mask p s)))).modTask p fun t => { t with started := true })
  | setCurrentState {p : Pid} {state : Nat} (hpc : (s.cpus c).pc = .run)
      (hcurr : (s.cpus c).curr = some p) (halive : (s.tasks p).state ≠ taskDead)
      (hstate : state &&& Unwakeable = 0) :
      Effect m c s (.setCurrentState state)
        (s.modTask p fun t => { t with state := state, sleepLoop := .stateSet })
  | testCondition {p : Pid} (hpc : (s.cpus c).pc = .run) (hcurr : (s.cpus c).curr = some p)
      (halive : (s.tasks p).state ≠ taskDead) :
      Effect m c s .testCondition (s.modTask p fun t =>
        if t.condition then { t with state := taskRunning, sleepLoop := .outside }
        else { t with sleepLoop := .mustSleep })
  | setFrozen {p : Pid} {frozen : Bool} (hpc : (s.cpus c).pc = .run)
      (hcurr : (s.cpus c).curr = some p) :
      Effect m c s (.setFrozen frozen) (s.modTask p fun t => { t with frozen := frozen })
  | doExit {p : Pid} (hpc : (s.cpus c).pc = .run) (hcurr : (s.cpus c).curr = some p)
      (hpi : (s.tasks p).piLock = none) : Effect m c s .doExit (setState taskDead p s)
  | retract {p : Pid} (hpc : (s.cpus c).pc = .run) :
      Effect m c s (.retract p) (s.modTask p fun t => { t with condition := false })
  | signal {p : Pid} (hpc : (s.cpus c).pc = .run) (hforked : p < s.nextPid) :
      Effect m c s (.signal p)
        ((s.modTask p fun t => { t with condition := true }).goTo c (.wake p taskNormal))
  | callWake {p : Pid} {state : Nat} (hpc : (s.cpus c).pc = .run) (hforked : p < s.nextPid)
      (hstate : state &&& Unwakeable = 0) :
      Effect m c s (.wakeUpState p state) (s.goTo c (.wake p state))
  | ipi (hpc : (s.cpus c).pc = .run) (hipi : (s.cpus c).ipi = true) :
      Effect m c s .schedulerIpi (schedulerIpi c s)
  | pendingDone (hpc : (s.cpus c).pc = .ttwuPending []) :
      Effect m c s .schedTtwuPending (s.goTo c .run)
  | pending {p : Pid} {llist : List Pid} (hpc : (s.cpus c).pc = .ttwuPending (p :: llist)) :
      Effect m c s .schedTtwuPending ((ttwuDoActivate c p s).goTo c (.ttwuPending llist))
  /-- `__schedule`, when the running task stays on the run queue. -/
  | schedYield {preempt pending fatal : Bool} (hpc : (s.cpus c).pc = .run)
      (halive : ∀ p, (s.cpus c).curr = some p → (s.tasks p).state ≠ taskDead) :
      Effect m c s (.schedule preempt pending fatal) (s.goTo c .picking)
  | schedSignal {preempt pending fatal : Bool} {p : Pid} (hpc : (s.cpus c).pc = .run)
      (hcurr : (s.cpus c).curr = some p) (halive : (s.tasks p).state ≠ taskDead) :
      Effect m c s (.schedule preempt pending fatal) ((setState taskRunning p s).goTo c .picking)
  | schedBlock {preempt pending fatal : Bool} {p : Pid} (hpc : (s.cpus c).pc = .run)
      (hcurr : (s.cpus c).curr = some p)
      (hstate : (s.tasks p).state ≠ taskRunning) :
      Effect m c s (.schedule preempt pending fatal)
        ((setOnRq false p (deactivateTask c p s)).goTo c .picking)
  | wakeLocal {p : Pid} (hpc : (s.cpus c).pc = .picking) (hcpu : (s.tasks p).cpu = c)
      (hallowed : (s.tasks p).cpusAllowed c = true) (hcurr : (s.cpus c).curr ≠ some p)
      (hpi : (s.tasks p).piLock = none) :
      Effect m c s (.tryToWakeUpLocal p) (tryToWakeUpLocal c p s)
  | dropLock (hpc : (s.cpus c).pc = .picking) : Effect m c s .dropLock (s.goTo c .balancing)
  | retakeLock (hpc : (s.cpus c).pc = .balancing) : Effect m c s .retakeLock (s.goTo c .picking)
  | pick {next : Option Pid} (hpc : (s.cpus c).pc = .picking)
      (hnext : ∀ q, next = some q → q ∈ (s.cpus c).queue) :
      Effect m c s (.pickNext next) (pickNext c next s)
  | finishRead {prev : Option Pid} (hpc : (s.cpus c).pc = .switched prev) :
      Effect m c s .finishTaskSwitch
        (s.goTo c (.finishing prev (prev.elim taskRunning fun p => (s.tasks p).state)))
  | finishClear {prev : Option Pid} {prevState : Nat}
      (hpc : (s.cpus c).pc = .finishing prev prevState) :
      Effect m c s .finishTaskSwitch (prev.elim (s.goTo c (.unlocking prev prevState)) fun p =>
        (s.goTo c (.unlocking prev prevState)).modTask p fun t => { t with onCpu := false })
  | finishUnlock {prev : Option Pid} {prevState : Nat}
      (hpc : (s.cpus c).pc = .unlocking prev prevState) :
      Effect m c s .finishTaskSwitch (prev.elim (s.goTo c .run) fun p =>
        if prevState = taskDead then
          (s.goTo c .run).modTask p fun t => { t with puts := t.puts + 1 }
        else s.goTo c .run)
  | move {p : Pid} {src dest : Nat} (hpc : (s.cpus c).pc.balances = true)
      (hsrc : src < m.nrCpus) (hdest : dest < m.nrCpus) (honRq : (s.tasks p).onRq = true)
      (honCpu : (s.tasks p).onCpu = false) (hcpu : (s.tasks p).cpu = src) (hne : src ≠ dest)
      (hallowed : (s.tasks p).cpusAllowed dest = true) (honline : (s.cpus dest).online = true)
      (hfree : s.rqFreeFor c src = true) (hfree' : s.rqFreeFor c dest = true) :
      Effect m c s (.moveTask p src dest) (moveTask src dest p s)
  /-- `set_cpus_allowed_ptr` and `sched_exec`, when they do nothing. -/
  | same {a : Act} (hpc : (s.cpus c).pc = .run) (hint : a.internal = false)
      (hstop : a.stops = false) : Effect m c s a s
  | setAllowed {p : Pid} {newMask : CpuMask} (hpc : (s.cpus c).pc = .run) (hforked : p < s.nextPid)
      (hpi : (s.tasks p).piLock = none) (hfree : s.rqFree (s.tasks p).cpu = true)
      (hstay : newMask (s.tasks p).cpu = true ∨ (s.tasks p).onRq = false) :
      Effect m c s (.setCpusAllowedPtr p newMask) (doSetCpusAllowed newMask p s)
  | setAllowedMove {p : Pid} {newMask : CpuMask} {dest : Nat} (hpc : (s.cpus c).pc = .run)
      (hforked : p < s.nextPid) (hpi : (s.tasks p).piLock = none)
      (hfree : s.rqFree (s.tasks p).cpu = true) (honRq : (s.tasks p).onRq = true)
      (hdest : newMask dest = true) (hactive : (s.cpus dest).active = true) :
      Effect m c s (.setCpusAllowedPtr p newMask)
        (callStopper (s.tasks p).cpu ⟨p, dest⟩ (doSetCpusAllowed newMask p s))
  | exec {p : Pid} {dest cpu : Nat} (hpc : (s.cpus c).pc = .run)
      (hcurr : (s.cpus c).curr = some p) :
      Effect m c s (.schedExec dest cpu) (callStopper cpu ⟨p, dest⟩ s)
  | handOver {cpu : Nat} {arg : MigrationArg} (hpc : (s.cpus c).pc = .run)
      (hcall : (cpu, arg) ∈ s.stopCalls) :
      Effect m c s (.stopOneCpu cpu arg) { s with stopCalls := s.stopCalls.erase (cpu, arg) }
  | stop {stop : Pid} {arg : MigrationArg} (hpc : (s.cpus c).pc = .run)
      (hcurr : (s.cpus c).curr = some stop) (hne : stop ≠ arg.task)
      (hpi : (s.tasks arg.task).piLock = none) (hfree : s.rqFree arg.destCpu = true) :
      Effect m c s (.migrationCpuStop arg) (migrateTask arg.task c arg.destCpu s)
  | setActive {cpu i : Nat} {active : Bool} (hpc : (s.cpus c).pc = .run)
      (honline : (s.cpus cpu).online = true) (hi : i < m.nrCpus) (hne : i ≠ cpu)
      (hactive : (s.cpus i).active = true) :
      Effect m c s (.setCpuActive cpu active) (s.modCpu cpu fun r => { r with active := active })
  | up (hpc : (s.cpus c).pc = .run) :
      Effect m c s .cpuUp (s.modCpu c fun r => { r with online := true, active := true })
  | dying (hpc : (s.cpus c).pc = .run) (hactive : (s.cpus c).active = false)
      (hcurr : (s.cpus c).curr.isSome = true)
      (hall : ∀ i, i < m.nrCpus → (s.cpus i).pc = .run) (hstop : s.stopMachine = none) :
      Effect m c s .cpuDying ({ schedTtwuPending c (s.cpus c).wakeList
        (s.modCpu c fun r => { r with online := false, wakeList := [] }) with
          stopMachine := some c }.goTo c .dying)
  /-- A round of `migrate_tasks` in which no class has a task to pick. -/
  | idleTurn (hpc : (s.cpus c).pc = .dying) : Effect m c s (.migrateNext none) s
  | migrateNext {p : Pid} {mask : CpuMask} {dest : Nat} (hpc : (s.cpus c).pc = .dying)
      (hqueue : p ∈ (s.cpus c).queue) (hcurr : (s.cpus c).curr ≠ some p)
      (hmask : mask dest = true) (husable : s.usable dest = true) :
      Effect m c s (.migrateNext (some p)) (migrateTask p c dest (doSetCpusAllowed mask p s))
  | dead {dest : Nat} (hpc : (s.cpus c).pc = .dying) (hcount : (s.cpus c).nrRunning = 1)
      (hdest : dest < m.nrCpus) (hactive : (s.cpus dest).active = true) :
      Effect m c s .cpuDead
        ({ migrateNrUninterruptible c dest s with stopMachine := none }.goTo c .run)

theorem Pc.of_balances {pc : Pc} (h : pc.balances = true) :
    pc = .run ∨ pc = .picking ∨ pc = .dying ∨ ∃ llist, pc = .ttwuPending llist := by
  cases pc <;> simp_all [Pc.balances]

theorem Pc.not_balances_of_pursuing {pc : Pc} {p : Pid} (h : pc.pursuing = some p) :
    pc.balances = false := by
  cases pc <;> first | rfl | cases h

/-! ### Choosing a run queue

However far `select_fallback_rq` has to go, the CPU it returns is online and active
and in the mask the task has afterwards.  That is all that is used of it.
-/

theorem cpumaskFirst_eq {m : Machine} {mask : CpuMask} {dest : Nat}
    (h : m.cpumaskFirst mask = some dest) : mask dest = true ∧ dest < m.nrCpus :=
  ⟨List.find?_some h, List.mem_range.mp (List.mem_of_find?_eq_some h)⟩

theorem doSetCpusAllowed_self (p : Pid) (s : State) :
    doSetCpusAllowed (s.tasks p).cpusAllowed p s = s := by
  simp [doSetCpusAllowed, State.modTask]

/-- `select_fallback_rq` finds a CPU that can be used and that the mask it leaves the task with
allows. -/
theorem selectFallbackRq_eq {m : Machine} {s : State} {p : Pid} {cpu : Nat} {r : Nat × State}
    (h : selectFallbackRq m cpu p s = some r) :
    ∃ mask : CpuMask, r.2 = doSetCpusAllowed mask p s ∧ mask r.1 = true ∧ r.1 < m.nrCpus ∧
      s.usable r.1 = true := by
  unfold selectFallbackRq at h
  dsimp only at h
  split at h
  · next dest hdest =>
    cases h
    obtain ⟨hmask, hlt⟩ := cpumaskFirst_eq hdest
    simp only [Bool.and_eq_true] at hmask
    exact ⟨_, (doSetCpusAllowed_self p s).symm, hmask.2, hlt, hmask.1.2⟩
  · split at h
    · next dest hdest =>
      cases h
      obtain ⟨hmask, hlt⟩ := cpumaskFirst_eq hdest
      simp only [Bool.and_eq_true] at hmask
      exact ⟨_, (doSetCpusAllowed_self p s).symm, hmask.1, hlt, hmask.2⟩
    · split at h
      · next dest hdest =>
        cases h
        obtain ⟨hmask, hlt⟩ := cpumaskFirst_eq hdest
        simp only [Bool.and_eq_true] at hmask
        exact ⟨_, rfl, hmask.1, hlt, hmask.2⟩
      · obtain ⟨dest, hdest, rfl⟩ := Option.map_eq_some_iff.mp h
        obtain ⟨hmask, hlt⟩ := cpumaskFirst_eq hdest
        simp only [Bool.and_eq_true] at hmask
        exact ⟨_, rfl, hmask.1, hlt, hmask.2⟩

theorem selectTaskRq_eq {m : Machine} {s : State} {p : Pid} {choice : Nat} {r : Nat × State}
    (h : selectTaskRq m choice p s = some r) :
    ∃ mask : CpuMask, r.2 = doSetCpusAllowed mask p s ∧ mask r.1 = true ∧
      (s.cpus r.1).online = true := by
  unfold selectTaskRq at h
  split at h
  · obtain ⟨mask, hr, hmask, -, husable⟩ := selectFallbackRq_eq h
    simp only [State.usable, Bool.and_eq_true] at husable
    exact ⟨mask, hr, hmask, husable.1⟩
  · next hchoice =>
    cases h
    simp only [Bool.or_eq_true, not_or, Bool.not_eq_true, Bool.not_eq_false'] at hchoice
    exact ⟨_, (doSetCpusAllowed_self p s).symm, hchoice.1, hchoice.2⟩

/-! ### Every step is in the list

The functions of the model are taken apart one by one, each along its own branches,
and what is left of `step` is the check that the CPU exists and is not held by
`stop_machine`.
-/

section

variable {m : Machine} {c : Nat} {s t : State}

theorem effect_of_tryToWakeUp {choice : Nat} (h : tryToWakeUp m c choice s = some t) :
    Effect m c s (.tryToWakeUp choice) t := by
  unfold tryToWakeUp at h
  cases hpc : (s.cpus c).pc with
  | wake p state =>
      simp only [hpc, Option.ite_none_right_eq_some] at h
      obtain ⟨hpi, h⟩ := h
      split at h
      · next hstate =>
        cases h
        exact .wakeFail hpc hstate
      · next hstate =>
        cases h
        exact .wakeLock hpc hpi hstate
  | readOnRq p =>
      simp only [hpc, Option.some.injEq] at h
      subst h
      by_cases honRq : (s.tasks p).onRq = true
      · rw [if_pos honRq]
        exact .wakeRead (by rw [hpc]; rfl) rfl (by simp) (by simp [hpc, State.stepsLeft])
      · rw [if_neg honRq]
        exact .wakeRead (by rw [hpc]; rfl) rfl (fun _ => by simpa using honRq)
          (by simp [hpc, State.stepsLeft])
  | readRq p =>
      simp only [hpc, Option.some.injEq] at h
      subst h
      exact .wakeRead (by rw [hpc]; rfl) rfl (by simp) (by simp [hpc, State.stepsLeft])
  | lockRq p rq =>
      simp only [hpc, Option.ite_none_right_eq_some] at h
      obtain ⟨hfree, h⟩ := h
      split at h
      · next hcpu =>
        cases h
        exact .wakeRead (by rw [hpc]; rfl) rfl (by simp) (by simp [hpc, State.stepsLeft, hcpu])
      · next hcpu =>
        split at h
        · next honRq =>
          cases h
          exact .wakeRemote hpc hfree (not_not.mp hcpu) honRq
        · next honRq =>
          cases h
          exact .wakeRead (by rw [hpc]; rfl) rfl (fun _ => by simpa using honRq)
            (by simp [hpc, State.stepsLeft, not_not.mp hcpu])
  | waitOnCpu p =>
      simp only [hpc, Option.ite_none_left_eq_some] at h
      obtain ⟨honCpu, h⟩ := h
      cases h
      exact .wakePlace hpc (by simpa using honCpu)
  | selectRq p =>
      simp only [hpc, Option.map_eq_some_iff] at h
      obtain ⟨r, hr, rfl⟩ := h
      obtain ⟨mask, hr, hmask, honline⟩ := selectTaskRq_eq hr
      rw [hr]
      exact .wakeSelect hpc hmask honline
  | queue p cpu =>
      simp only [hpc] at h
      split at h
      · next hremote =>
        have hne : c ≠ cpu := by
          rintro rfl
          simp [Machine.cpusShareCache] at hremote
        split at h
        · cases h
          exact .wakeListFirst hpc hne
        · next hlist =>
          cases h
          exact .wakeList hpc hne (by simpa using hlist)
      · obtain ⟨hfree, h⟩ := Option.ite_none_right_eq_some.mp h
        cases h
        exact .wakeDirect hpc hfree
  | sendReschedule p cpu =>
      simp only [hpc, Option.some.injEq] at h
      subst h
      exact .wakeSend hpc
  | _ =>
      simp only [hpc] at h
      cases h

theorem effect_of_scheduleBegin {preemptActive pending fatal : Bool} (hpc : (s.cpus c).pc = .run)
    (hpreempt : preemptActive = true → (s.cpus c).curr.all s.alive) :
    Effect m c s (.schedule preemptActive pending fatal)
      (scheduleBegin c preemptActive pending fatal s) := by
  unfold scheduleBegin
  cases hcurr : (s.cpus c).curr with
  | none => exact .schedYield hpc (by simp [hcurr])
  | some prev =>
      simp only
      split
      · next hsleep =>
        simp only [Bool.and_eq_true, decide_eq_true_eq] at hsleep
        split
        · next hsignal =>
          refine .schedSignal hpc hcurr ?_
          intro hdead
          rw [hdead] at hsignal
          simp [signalPendingState, taskDead, taskInterruptible, taskWakekill] at hsignal
        · exact .schedBlock hpc hcurr hsleep.1
      · next hsleep =>
        refine .schedYield hpc fun p hp => ?_
        obtain rfl : prev = p := Option.some.inj (hcurr.symm.trans hp)
        cases hpre : preemptActive with
        | false =>
            simp only [hpre, Bool.not_false, Bool.and_true, decide_eq_true_eq, ne_eq, not_not]
              at hsleep
            rw [hsleep]
            decide
        | true =>
            have hall := hpreempt hpre
            rw [hcurr] at hall
            simpa [State.alive] using hall

theorem effect_of_setCpusAllowedPtr {p : Pid} {newMask : CpuMask} (hpc : (s.cpus c).pc = .run)
    (hforked : p < s.nextPid) (hpi : (s.tasks p).piLock = none)
    (hfree : s.rqFree (s.tasks p).cpu = true) :
    Effect m c s (.setCpusAllowedPtr p newMask) (setCpusAllowedPtr m c p newMask s).2 := by
  unfold setCpusAllowedPtr
  dsimp only
  split
  · exact .same hpc rfl rfl
  split
  · exact .same hpc rfl rfl
  next dest hdest =>
    obtain ⟨hdest, -⟩ := cpumaskFirst_eq hdest
    simp only [Bool.and_eq_true] at hdest
    split
    · exact .same hpc rfl rfl
    have hcpu : ((doSetCpusAllowed newMask p s).tasks p).cpu = (s.tasks p).cpu := by
      simp [doSetCpusAllowed]
    have honRq : ((doSetCpusAllowed newMask p s).tasks p).onRq = (s.tasks p).onRq := by
      simp [doSetCpusAllowed]
    rw [hcpu, honRq]
    split
    · next hstay => exact .setAllowed hpc hforked hpi hfree (.inl hstay)
    split
    · next honRq => exact .setAllowedMove hpc hforked hpi hfree honRq hdest.2 hdest.1
    · next honRq => exact .setAllowed hpc hforked hpi hfree (.inr (by simpa using honRq))

theorem effect_of_actRun {a : Act} (hpc : (s.cpus c).pc = .run) (h : actRun m c s a = some t) :
    Effect m c s a t := by
  cases a with
  | schedFork threadBound =>
      cases h
      exact .fork hpc
  | wakeUpNewTask p choice =>
      obtain ⟨⟨hforked, hstarted⟩, h⟩ := Option.ite_none_right_eq_some.mp h
      unfold wakeUpNewTask at h
      split at h
      · cases h
      · next cpu s₁ hselect =>
        obtain ⟨mask, hs₁, hmask, honline⟩ := selectTaskRq_eq hselect
        obtain ⟨hfree, h⟩ := Option.ite_none_right_eq_some.mp h
        cases hs₁
        cases h
        exact .start hpc hforked hstarted hmask honline hfree
  | setCurrentState state =>
      simp only [actRun] at h
      split at h
      · next p hcurr =>
        obtain ⟨⟨halive, hstate⟩, h⟩ := Option.ite_none_right_eq_some.mp h
        cases h
        exact .setCurrentState hpc hcurr (by simpa [State.alive] using halive) hstate
      · cases h
  | testCondition =>
      simp only [actRun] at h
      split at h
      · next p hcurr =>
        obtain ⟨⟨halive, -⟩, h⟩ := Option.ite_none_right_eq_some.mp h
        cases h
        exact .testCondition hpc hcurr (by simpa [State.alive] using halive)
      · cases h
  | setFrozen frozen =>
      simp only [actRun] at h
      split at h
      · next p hcurr =>
        obtain ⟨-, h⟩ := Option.ite_none_right_eq_some.mp h
        cases h
        exact .setFrozen hpc hcurr
      · cases h
  | doExit =>
      simp only [actRun] at h
      split at h
      · next p hcurr =>
        obtain ⟨⟨-, hpi⟩, h⟩ := Option.ite_none_right_eq_some.mp h
        cases h
        exact .doExit hpc hcurr hpi
      · cases h
  | retract p =>
      cases h
      exact .retract hpc
  | signal p =>
      obtain ⟨hforked, h⟩ := Option.ite_none_right_eq_some.mp h
      cases h
      exact .signal hpc hforked
  | wakeUpState p state =>
      obtain ⟨⟨hforked, hstate⟩, h⟩ := Option.ite_none_right_eq_some.mp h
      cases h
      exact .callWake hpc hforked hstate
  | schedulerIpi =>
      obtain ⟨hipi, h⟩ := Option.ite_none_right_eq_some.mp h
      cases h
      exact .ipi hpc hipi
  | schedule preemptActive pending fatal =>
      obtain ⟨hpreempt, h⟩ := Option.ite_none_left_eq_some.mp h
      cases h
      exact effect_of_scheduleBegin hpc fun hactive => by simpa [hactive] using hpreempt
  | setCpusAllowedPtr p newMask =>
      obtain ⟨⟨hforked, hpi, hfree⟩, h⟩ := Option.ite_none_right_eq_some.mp h
      cases h
      exact effect_of_setCpusAllowedPtr hpc hforked hpi hfree
  | schedExec destCpu cpu =>
      simp only [actRun] at h
      split at h
      · next p hcurr =>
        obtain ⟨-, h⟩ := Option.ite_none_right_eq_some.mp h
        cases h
        unfold schedExec
        split
        · exact .same hpc rfl rfl
        split
        · exact .exec hpc hcurr
        · exact .same hpc rfl rfl
      · cases h
  | stopOneCpu cpu arg =>
      obtain ⟨hcall, h⟩ := Option.ite_none_right_eq_some.mp h
      cases h
      exact .handOver hpc hcall
  | migrationCpuStop arg =>
      simp only [actRun] at h
      split at h
      · next stop hcurr =>
        obtain ⟨⟨hne, hpi, hfree⟩, h⟩ := Option.ite_none_right_eq_some.mp h
        cases h
        exact .stop hpc hcurr hne hpi hfree
      · cases h
  | setCpuActive cpu active =>
      obtain ⟨⟨honline, hother⟩, h⟩ := Option.ite_none_right_eq_some.mp h
      cases h
      simp only [List.any_eq_true, List.mem_range, Bool.and_eq_true, decide_eq_true_eq] at hother
      obtain ⟨i, hi, hne, hactive⟩ := hother
      exact .setActive hpc honline hi hne hactive
  | cpuUp =>
      cases h
      exact .up hpc
  | cpuDying =>
      obtain ⟨⟨hstop, -, hactive, hcurr, hall⟩, h⟩ := Option.ite_none_right_eq_some.mp h
      cases h
      simp only [List.all_eq_true, List.mem_range, decide_eq_true_eq] at hall
      exact .dying hpc hactive hcurr hall hstop
  | _ => cases h

theorem effect_of_act {a : Act} (h : act m c s a = some t) : Effect m c s a t := by
  unfold act at h
  split at h
  · next hpc => exact effect_of_actRun hpc h
  · next llist hpc =>
    cases llist with
    | nil =>
        cases h
        exact .pendingDone hpc
    | cons p llist =>
        cases h
        exact .pending hpc
  · next p hpc =>
    obtain ⟨⟨hcpu, hallowed, hcurr, hpi⟩, h⟩ := Option.ite_none_right_eq_some.mp h
    cases h
    exact .wakeLocal hpc hcpu hallowed hcurr hpi
  · next hpc =>
    cases h
    exact .dropLock hpc
  · next hpc =>
    cases h
    exact .retakeLock hpc
  · next next hpc =>
    obtain ⟨hnext, h⟩ := Option.ite_none_right_eq_some.mp h
    cases h
    exact .pick hpc fun q hq => by simpa [hq] using hnext
  · next next hpc =>
    cases next with
    | none =>
        obtain ⟨-, h⟩ := Option.ite_none_left_eq_some.mp h
        cases h
        exact .idleTurn hpc
    | some p =>
        obtain ⟨⟨-, hqueue, hcurr⟩, h⟩ := Option.ite_none_right_eq_some.mp h
        obtain ⟨r, hr, rfl⟩ := Option.map_eq_some_iff.mp h
        obtain ⟨mask, hr, hmask, -, husable⟩ := selectFallbackRq_eq hr
        rw [hr]
        exact .migrateNext hpc hqueue hcurr hmask husable
  · next hpc =>
    obtain ⟨hcount, h⟩ := Option.ite_none_right_eq_some.mp h
    obtain ⟨dest, hdest, rfl⟩ := Option.map_eq_some_iff.mp h
    obtain ⟨hactive, hlt⟩ := cpumaskFirst_eq hdest
    exact .dead hpc hcount hlt hactive
  · exact effect_of_tryToWakeUp h
  · unfold finishTaskSwitch at h
    cases hpc : (s.cpus c).pc with
    | switched prev =>
        simp only [hpc, Option.some.injEq] at h
        subst h
        exact .finishRead hpc
    | finishing prev prevState =>
        simp only [hpc, Option.some.injEq] at h
        subst h
        exact .finishClear hpc
    | unlocking prev prevState =>
        simp only [hpc, Option.some.injEq] at h
        subst h
        exact .finishUnlock hpc
    | _ =>
        simp only [hpc] at h
        cases h
  · cases h

/-- **Every step is one of the list**, of a CPU that exists and is not held by `stop_machine`. -/
theorem effect_of_step {e : Nat × Act} (h : step m s e = some t) :
    e.1 < m.nrCpus ∧ (∀ d, s.stopMachine = some d → e.1 = d) ∧ Effect m e.1 s e.2 t := by
  obtain ⟨c, a⟩ := e
  obtain ⟨⟨hcpu, hstop⟩, h⟩ := Option.ite_none_right_eq_some.mp h
  refine ⟨hcpu, fun d hd => ?_, ?_⟩
  · rw [hd] at hstop
    simpa [eq_comm] using hstop
  · cases a with
    | moveTask p src dest =>
        obtain ⟨hpc, h⟩ := Option.ite_none_right_eq_some.mp h
        obtain ⟨⟨hsrc, hdest⟩, h⟩ := Option.ite_none_right_eq_some.mp h
        obtain ⟨⟨honRq, honCpu, hhome, hne, hallowed, honline, hfree, hfree'⟩, h⟩ :=
          Option.ite_none_right_eq_some.mp h
        cases h
        exact .move hpc hsrc hdest honRq honCpu hhome hne hallowed honline hfree hfree'
    | _ => exact effect_of_act h

end

end WrrScheduler.Smp
