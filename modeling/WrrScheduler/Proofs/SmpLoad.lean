/-
The counters of the run queues.

`nr_running` counts the tasks of one run queue, so it goes with the queue.
`nr_uninterruptible` is kept per run queue too, but a task adds to that of the run
queue it leaves and takes from that of the one it comes back to, so that the value for
one CPU says nothing, and as a word it can be below zero.  The sum over all run queues
says how many tasks sleep uninterruptibly, also while some of them are being woken or
moved: that is an equation between words, as the counters wrap.

It is about the counters at one moment.  `nr_running()` and `nr_uninterruptible()` read
them one after another without a lock, and may see them at different ones.
-/
import Mathlib.Data.BitVec
import WrrScheduler.Lib.Share
import WrrScheduler.Proofs.SmpSystem

namespace WrrScheduler.Smp

variable {m : Machine} {s t : State} {p q : Pid} {c d : Nat} {a : Act} {l : Place}

/-- The task is off its run queue and counts as uninterruptible; while it is being woken, what it was
before counts. -/
def Task.sleepsUninterruptible (u : Task) : Bool :=
  !u.onRq && if u.state = taskWaking then u.schedContributesToLoad else u.contributesToLoad

/-- One or nothing, as a word. -/
def word (b : Bool) : BitVec 32 := bif b then 1 else 0

/-- What it adds. -/
def Task.share (u : Task) : BitVec 32 := word u.sleepsUninterruptible

/-- By how much the counters of the run queues exceed the number of such tasks. -/
def State.excess (m : Machine) (s : State) : BitVec 32 :=
  (∑ c ∈ Finset.range m.nrCpus, (s.cpus c).nrUninterruptible) -
    ∑ p ∈ Finset.range s.nextPid, (s.tasks p).share

/-! ### What the operations add

A write of one CPU changes one summand of the first sum, and a write of one task one of the second.
An operation that does both cancels out, so that what is left to show of a step is that the task it
takes off a run queue, or puts on one, is counted there for what it is.
-/

theorem neg_word (b : Bool) : (bif b then -1 else 0 : BitVec 32) = -word b := by
  cases b <;> rfl

theorem share_of_onRq {u : Task} (h : u.onRq = true) : u.share = 0 := by
  simp [Task.share, Task.sleepsUninterruptible, h, word]

theorem share_of_waking {u : Task} (honRq : u.onRq = false) (hstate : u.state = taskWaking) :
    u.share = word u.schedContributesToLoad := by
  simp [Task.share, Task.sleepsUninterruptible, honRq, hstate]

theorem share_of_blocked {u : Task} (honRq : u.onRq = false) (hstate : u.state ≠ taskWaking) :
    u.share = word u.contributesToLoad := by
  simp [Task.share, Task.sleepsUninterruptible, honRq, hstate]

theorem contributes_of_waking {u : Task} (h : u.state = taskWaking) :
    u.contributesToLoad = false := by
  simp [Task.contributesToLoad, h, taskWaking, taskUninterruptible]

theorem excess_modCpu {g : Cpu → Cpu} (hg : ∀ r, (g r).nrUninterruptible = r.nrUninterruptible) :
    (s.modCpu c g).excess m = s.excess m := by
  have hsum := Share.sum_write_same (Finset.range m.nrCpus) c Cpu.nrUninterruptible s.cpus
    (hg (s.cpus c))
  unfold State.excess
  rw [← hsum]
  rfl

theorem excess_addUninterruptible {n : BitVec 32} (hc : c < m.nrCpus) :
    (addUninterruptible c n s).excess m = s.excess m + n := by
  have hsum := Share.sum_write (Finset.mem_range.mpr hc) Cpu.nrUninterruptible s.cpus
    { s.cpus c with nrUninterruptible := (s.cpus c).nrUninterruptible + n }
  have heq : (addUninterruptible c n s).excess m =
      (∑ d ∈ Finset.range m.nrCpus, (Function.update s.cpus c
        { s.cpus c with nrUninterruptible := (s.cpus c).nrUninterruptible + n } d).nrUninterruptible) -
      ∑ p ∈ Finset.range s.nextPid, (s.tasks p).share := rfl
  rw [heq, hsum, State.excess]
  dsimp only
  abel

theorem excess_modTask_same {f : Task → Task} (h : (f (s.tasks p)).share = (s.tasks p).share) :
    (s.modTask p f).excess m = s.excess m := by
  have hsum := Share.sum_write_same (Finset.range s.nextPid) p Task.share s.tasks h
  unfold State.excess
  rw [← hsum]
  rfl

theorem excess_modTask {f : Task → Task} (hp : p < s.nextPid) :
    (s.modTask p f).excess m = s.excess m - ((f (s.tasks p)).share - (s.tasks p).share) := by
  have hsum := Share.sum_write (Finset.mem_range.mpr hp) Task.share s.tasks (f (s.tasks p))
  have heq : (s.modTask p f).excess m = (∑ c ∈ Finset.range m.nrCpus, (s.cpus c).nrUninterruptible) -
      ∑ q ∈ Finset.range s.nextPid, (Function.update s.tasks p (f (s.tasks p)) q).share := rfl
  rw [heq, hsum, State.excess]
  abel

@[simp] theorem excess_goTo {pc : Pc} : (s.goTo c pc).excess m = s.excess m :=
  excess_modCpu fun _ => rfl

@[simp] theorem excess_enqueueTask : (enqueueTask c p s).excess m = s.excess m := by
  rw [enqueueTask, incNrRunning, excess_modCpu, excess_modCpu]
  · exact fun _ => rfl
  · exact fun _ => rfl

@[simp] theorem excess_dequeueTask : (dequeueTask c p s).excess m = s.excess m := by
  rw [dequeueTask, decNrRunning, excess_modCpu, excess_modCpu]
  · exact fun _ => rfl
  · exact fun _ => rfl

@[simp] theorem excess_callStopper {arg : MigrationArg} :
    (callStopper c arg s).excess m = s.excess m := rfl

theorem excess_decUninterruptible {b : Bool} (hc : c < m.nrCpus) :
    (decUninterruptible c b s).excess m = s.excess m - word b := by
  rw [decUninterruptible, excess_addUninterruptible hc, neg_word]
  abel

@[simp] theorem excess_setTaskCpu {cpu : Nat} : (setTaskCpu cpu p s).excess m = s.excess m :=
  excess_modTask_same rfl

@[simp] theorem excess_doSetCpusAllowed {mask : CpuMask} :
    (doSetCpusAllowed mask p s).excess m = s.excess m :=
  excess_modTask_same rfl

theorem excess_activateTask (hc : c < m.nrCpus) : (activateTask c p s).excess m =
    s.excess m - word (s.tasks p).contributesToLoad := by
  rw [activateTask, excess_enqueueTask, excess_decUninterruptible hc]

theorem excess_deactivateTask (hc : c < m.nrCpus) : (deactivateTask c p s).excess m =
    s.excess m + word (s.tasks p).contributesToLoad := by
  rw [deactivateTask, excess_dequeueTask, incUninterruptible, excess_addUninterruptible hc, word]

/-! ### What the steps add -/

theorem Fits.forked (hl : Fits s p l) (h : l ≠ .unborn) : p < s.nextPid := hl.task.forked.mpr h

theorem excess_ttwuDoActivate (hc : c < m.nrCpus) (hp : p < s.nextPid)
    (honRq : (s.tasks p).onRq = false) (hstate : (s.tasks p).state = taskWaking) :
    (ttwuDoActivate c p s).excess m = s.excess m := by
  have hshare : ∀ u : Task, Task.share { { u with onRq := true } with state := taskRunning } = 0 :=
    fun u => share_of_onRq rfl
  have hcontributes := contributes_of_waking hstate
  have hold := share_of_waking honRq hstate
  unfold ttwuDoActivate ttwuActivate
  rw [setState, setOnRq, State.modTask_modTask, excess_modTask (by exact hp), excess_activateTask hc,
    excess_decUninterruptible hc]
  simp [share_of_onRq, hcontributes, hold, word]

theorem excess_schedTtwuPending (llist : List Pid) (hc : c < m.nrCpus) (hnodup : llist.Nodup)
    (hall : ∀ p ∈ llist,
      p < s.nextPid ∧ (s.tasks p).onRq = false ∧ (s.tasks p).state = taskWaking) :
    (schedTtwuPending c llist s).excess m = s.excess m := by
  induction llist generalizing s with
  | nil => rfl
  | cons p llist ih =>
      obtain ⟨hp, honRq, hstate⟩ := hall p List.mem_cons_self
      obtain ⟨hnot, hnodup⟩ := List.nodup_cons.mp hnodup
      rw [schedTtwuPending_cons, ih hnodup, excess_ttwuDoActivate hc hp honRq hstate]
      intro q hq
      rw [(Frame.ttwuDoActivate c p s).tasks q (by rintro rfl; exact hnot hq)]
      exact hall q (List.mem_cons_of_mem p hq)

/-- Writing a task that is on a run queue and stays there. -/
theorem excess_modTask_onRq {f : Task → Task} (h : (s.tasks p).onRq = true)
    (hf : (f (s.tasks p)).onRq = true) : (s.modTask p f).excess m = s.excess m :=
  excess_modTask_same ((share_of_onRq hf).trans (share_of_onRq h).symm)

theorem excess_schedulerIpi : (schedulerIpi c s).excess m = s.excess m := by
  unfold schedulerIpi
  dsimp only
  split
  · exact excess_modCpu fun _ => rfl
  · exact excess_goTo.trans (excess_modCpu fun _ => rfl)

theorem excess_pickNext {next : Option Pid} : (pickNext c next s).excess m = s.excess m := by
  unfold pickNext
  dsimp only
  split
  · exact excess_goTo
  · cases next with
    | none => exact excess_modCpu fun _ => rfl
    | some q => exact (excess_modTask_same rfl).trans (excess_modCpu fun _ => rfl)

theorem excess_migrateTask {src dest : Nat} :
    (migrateTask p src dest s).excess m = s.excess m := by
  unfold migrateTask
  split
  · rfl
  split
  · rfl
  split
  · rfl
  split
  · rw [excess_enqueueTask, excess_setTaskCpu, excess_dequeueTask]
  · rfl

/-- What a task adds to the counter of the run queue it leaves, it takes from that of the other. -/
theorem excess_moveTask {src dest : Nat} (hsrc : src < m.nrCpus) (hdest : dest < m.nrCpus) :
    (moveTask src dest p s).excess m = s.excess m := by
  have hsame : ((setTaskCpu dest p (deactivateTask src p s)).tasks p).contributesToLoad =
      (s.tasks p).contributesToLoad := by
    rw [setTaskCpu, State.tasks_modTask_self]
    rfl
  rw [moveTask, excess_activateTask hdest, hsame, excess_setTaskCpu, excess_deactivateTask hsrc]
  abel

theorem excess_migrateNrUninterruptible {dest : Nat} (hc : c < m.nrCpus) (hdest : dest < m.nrCpus)
    (hne : c ≠ dest) : (migrateNrUninterruptible c dest s).excess m = s.excess m := by
  have hzero : ∀ (u : State), (u.modCpu c fun r => { r with nrUninterruptible := 0 }) =
      addUninterruptible c (-(u.cpus c).nrUninterruptible) u := by
    intro u
    simp [addUninterruptible, State.modCpu]
  unfold migrateNrUninterruptible
  dsimp only
  rw [hzero, excess_addUninterruptible hc, excess_addUninterruptible hdest,
    cpus_addUninterruptible_of_ne _ hne]
  abel

/-- A task that leaves its run queue. -/
theorem excess_block (hl : Fits s p (.running c)) (hc : c < m.nrCpus) :
    (setOnRq false p (deactivateTask c p s)).excess m = s.excess m := by
  have hwaking : (s.tasks p).state ≠ taskWaking := fun h => by simpa using hl.task.waking.mp h
  have hold := share_of_onRq (u := s.tasks p) hl.task.onRq
  have hnew : Task.share { s.tasks p with onRq := false } = word (s.tasks p).contributesToLoad :=
    share_of_blocked rfl hwaking
  have hforked : p < (deactivateTask c p s).nextPid := hl.forked (by simp)
  rw [setOnRq, excess_modTask hforked, tasks_deactivateTask, hold, hnew, excess_deactivateTask hc]
  abel

/-- A task that comes back to a run queue from sleep. -/
theorem excess_ttwuActivate (hp : p < s.nextPid) (honRq : (s.tasks p).onRq = false)
    (hwaking : (s.tasks p).state ≠ taskWaking) (hc : c < m.nrCpus) :
    (ttwuActivate c p s).excess m = s.excess m := by
  have hold := share_of_blocked honRq hwaking
  have hnew : Task.share { s.tasks p with onRq := true } = 0 := share_of_onRq rfl
  have hforked : p < (activateTask c p s).nextPid := hp
  rw [ttwuActivate, setOnRq, excess_modTask hforked, tasks_activateTask, hold, hnew,
    excess_activateTask hc]
  abel

theorem excess_tryToWakeUpLocal (hinv : Inv s) (hc : c < m.nrCpus) :
    (tryToWakeUpLocal c p s).excess m = s.excess m := by
  obtain ⟨l, hl⟩ := hinv p
  unfold tryToWakeUpLocal
  split
  · rfl
  next hmatch =>
  by_cases honRq : (s.tasks p).onRq = true
  · rw [if_pos honRq]
    exact excess_modTask_onRq honRq honRq
  · rw [if_neg honRq]
    have hnormal : taskNormal &&& Unwakeable = 0 := by decide
    obtain ⟨hrunning, hwaking, -⟩ := ne_of_matches hnormal hmatch
    have hforked : p < s.nextPid := by
      refine hl.forked ?_
      rintro rfl
      exact hrunning (hl.task.unstarted rfl).1
    have hset : (setState taskRunning p (ttwuActivate c p s)).excess m = _ :=
      excess_modTask_onRq (by simp [ttwuActivate]) (by simp [ttwuActivate])
    rw [hset, excess_ttwuActivate hforked (by simpa using honRq) hwaking hc]

/-- The tasks a CPU has been sent are off every run queue and counted for what they were before. -/
theorem listed_of_inv (hinv : Inv s) {llist : List Pid}
    (hlist : ∀ p, llist.count p ≤ (s.cpus c).wakeList.count p + (s.cpus c).pc.pending.count p) :
    llist.Nodup ∧ ∀ p ∈ llist, p < s.nextPid ∧ (s.tasks p).onRq = false ∧
      (s.tasks p).state = taskWaking := by
  constructor
  · rw [List.nodup_iff_count_le_one]
    intro p
    obtain ⟨l, hl⟩ := hinv p
    have hcount := hlist p
    rw [(hl.cpus c).lists] at hcount
    exact hcount.trans (Bool.toNat_le _)
  · intro p hp
    obtain ⟨l, hl⟩ := hinv p
    have hcount := hlist p
    have hpos := List.count_pos_iff.mpr hp
    obtain rfl : l = .listed c := by
      rw [← hl.mem_lists, ← List.count_pos_iff, ← List.count_pos_iff]
      omega
    exact ⟨hl.forked (by simp), hl.task.onRq, hl.task.waking.mpr rfl⟩

theorem excess_schedFork {threadBound : Bool} :
    (schedFork c threadBound s).excess m = s.excess m := by
  unfold State.excess
  have hnext : (schedFork c threadBound s).nextPid = s.nextPid + 1 := rfl
  rw [hnext, Finset.sum_range_succ]
  have hchild : ((schedFork c threadBound s).tasks s.nextPid).share = 0 := by
    simp [schedFork, Task.share, Task.sleepsUninterruptible, Task.contributesToLoad, taskRunning,
      taskWaking, word]
  have hsum : ∑ p ∈ Finset.range s.nextPid, ((schedFork c threadBound s).tasks p).share =
      ∑ p ∈ Finset.range s.nextPid, (s.tasks p).share := by
    refine Finset.sum_congr rfl fun p hp => ?_
    have hne : p ≠ s.nextPid := (Finset.mem_range.mp hp).ne
    simp [schedFork, hne]
  rw [hchild, hsum, add_zero]
  rfl

/-- `wake_up_new_task`: a new task has not slept. -/
theorem excess_start {cpu : Nat} {mask : CpuMask} (hinv : Inv s) (hcpu : cpu < m.nrCpus)
    (hforked : p < s.nextPid) (hstarted : (s.tasks p).started = false) :
    ((setOnRq true p (activateTask cpu p (setTaskCpu cpu p
      (doSetCpusAllowed mask p s)))).modTask p fun t => { t with started := true }).excess m =
        s.excess m := by
  obtain ⟨l, hl⟩ := hinv p
  have hunstarted : l.started = false := hl.task.started.symm.trans hstarted
  have hstate : (s.tasks p).state = taskRunning := (hl.task.unstarted hunstarted).1
  have honRq : (s.tasks p).onRq = false := by
    rw [hl.task.onRq]
    cases l <;> simp_all
  have hwaking : (s.tasks p).state ≠ taskWaking := by
    rw [hstate]
    decide
  have hsame : (setTaskCpu cpu p (doSetCpusAllowed mask p s)).tasks p =
      { s.tasks p with cpusAllowed := mask, cpu := cpu } := by
    simp [doSetCpusAllowed]
  have hold : ((setTaskCpu cpu p (doSetCpusAllowed mask p s)).excess m) = s.excess m := by
    rw [excess_setTaskCpu, excess_doSetCpusAllowed]
  rw [← hold]
  refine (excess_modTask_same rfl).trans (excess_ttwuActivate hforked ?_ ?_ hcpu)
  · rw [hsame]
    exact honRq
  · rw [hsame]
    exact hwaking

theorem excess_cpuDying (hinv : Inv s) (hc : c < m.nrCpus) :
    ({ schedTtwuPending c (s.cpus c).wakeList
      (s.modCpu c fun r => { r with online := false, wakeList := [] }) with
        stopMachine := some c }.goTo c .dying).excess m = s.excess m := by
  obtain ⟨hnodup, hall⟩ := listed_of_inv (c := c) hinv fun p => Nat.le_add_right _ _
  have hstop : ∀ u : State, { u with stopMachine := some c }.excess m = u.excess m := fun _ => rfl
  rw [excess_goTo, hstop]
  refine Eq.trans (excess_schedTtwuPending _ hc hnodup ?_) ?_
  · exact hall
  · exact excess_modCpu fun _ => rfl

theorem excess_of_effect (hinv : Inv s) (hsys : Sys m s) (hc : c < m.nrCpus)
    (h : Effect m c s a t) : t.excess m = s.excess m := by
  have hrunning : ∀ p, (s.cpus c).pc = .run → (s.cpus c).curr = some p → Fits s p (.running c) := by
    intro p hpc hcurr
    obtain ⟨l, hl⟩ := hinv p
    obtain rfl := hl.running hcurr (by rw [hpc]; rfl)
    exact hl
  cases h with
  | wakeLock => exact excess_goTo.trans (excess_modTask_same rfl)
  | wakeRemote _ _ _ honRq =>
      refine excess_goTo.trans ((excess_modTask_same rfl).trans ?_)
      exact excess_modTask_onRq honRq honRq
  | @wakePlace _ p hpc honCpu =>
      obtain ⟨l, hl⟩ := hinv p
      obtain rfl : l = .asleep := hl.asleep ((hl.cpus c).waiting hpc) honCpu
      have hwaking : (s.tasks p).state ≠ taskWaking := fun h => by simpa using hl.task.waking.mp h
      refine excess_goTo.trans (excess_modTask_same ?_)
      rw [share_of_blocked hl.task.onRq hwaking]
      exact share_of_waking (u := { s.tasks p with
        schedContributesToLoad := (s.tasks p).contributesToLoad, state := taskWaking }) hl.task.onRq rfl
  | wakeSelect =>
      refine excess_goTo.trans ?_
      rw [excess_setTaskCpu, excess_doSetCpusAllowed]
  | wakeListFirst => exact excess_goTo.trans (excess_modCpu fun _ => rfl)
  | wakeList | wakeSend =>
      exact excess_goTo.trans ((excess_modTask_same rfl).trans (excess_modCpu fun _ => rfl))
  | @wakeDirect _ p cpu hpc =>
      obtain ⟨l, hl⟩ := hinv p
      obtain rfl : l = .placed c := hl.placed (by rw [hpc]; rfl)
      refine excess_goTo.trans ((excess_modTask_same rfl).trans ?_)
      exact excess_ttwuDoActivate (hsys.lt_of_online (hsys.target c p cpu (.inl hpc)))
        (hl.forked (by simp)) hl.task.onRq (hl.task.waking.mpr rfl)
  | fork => exact excess_schedFork
  | start _ hforked hstarted _ honline =>
      exact excess_start hinv (hsys.lt_of_online honline) hforked hstarted
  | setCurrentState hpc hcurr =>
      exact excess_modTask_onRq (hrunning _ hpc hcurr).task.onRq (hrunning _ hpc hcurr).task.onRq
  | testCondition hpc hcurr =>
      refine excess_modTask_onRq (hrunning _ hpc hcurr).task.onRq ?_
      split <;> exact (hrunning _ hpc hcurr).task.onRq
  | setFrozen hpc hcurr =>
      exact excess_modTask_onRq (hrunning _ hpc hcurr).task.onRq (hrunning _ hpc hcurr).task.onRq
  | doExit hpc hcurr =>
      exact excess_modTask_onRq (hrunning _ hpc hcurr).task.onRq (hrunning _ hpc hcurr).task.onRq
  | retract => exact excess_modTask_same rfl
  | signal => exact excess_goTo.trans (excess_modTask_same rfl)
  | ipi => exact excess_schedulerIpi
  | pendingDone => exact excess_goTo
  | @pending p llist hpc =>
      obtain ⟨l, hl⟩ := hinv p
      obtain rfl : l = .listed c := hl.mem_lists.mp (.inr (by simp [hpc]))
      refine excess_goTo.trans (excess_ttwuDoActivate hc (hl.forked (by simp)) hl.task.onRq ?_)
      exact hl.task.waking.mpr rfl
  | schedSignal hpc hcurr =>
      refine excess_goTo.trans ?_
      exact excess_modTask_onRq (hrunning _ hpc hcurr).task.onRq (hrunning _ hpc hcurr).task.onRq
  | schedBlock hpc hcurr => exact excess_goTo.trans (excess_block (hrunning _ hpc hcurr) hc)
  | wakeLocal => exact excess_tryToWakeUpLocal hinv hc
  | pick => exact excess_pickNext
  | @finishClear prev =>
      cases prev with
      | none => exact excess_goTo
      | some p =>
          rw [Option.elim_some]
          exact (excess_modTask_same rfl).trans excess_goTo
  | @finishUnlock prev prevState =>
      cases prev with
      | none => exact excess_goTo
      | some p =>
          rw [Option.elim_some]
          split
          · exact (excess_modTask_same rfl).trans excess_goTo
          · exact excess_goTo
  | move _ hsrc hdest => exact excess_moveTask hsrc hdest
  | stop => exact excess_migrateTask
  | setAllowedMove => exact excess_callStopper.trans excess_doSetCpusAllowed
  | handOver => rfl
  | setActive => exact excess_modCpu fun _ => rfl
  | up => exact excess_modCpu fun _ => rfl
  | dying => exact excess_cpuDying hinv hc
  | migrateNext => exact excess_migrateTask.trans excess_doSetCpusAllowed
  | dead hpc _ hdest hactive =>
      have hdying := (hsys.dying c hpc).2
      refine excess_goTo.trans (excess_migrateNrUninterruptible hc hdest ?_)
      rintro rfl
      rw [hsys.online c hactive] at hdying
      cases hdying
  | _ => simp

/-! ### No sleeper is lost -/

/-- How many tasks sleep uninterruptibly. -/
def State.uninterruptible (s : State) : Nat :=
  (List.range s.nextPid).countP fun p => (s.tasks p).sleepsUninterruptible

theorem excess_boot : boot.excess m = 0 := by
  simp [State.excess, boot]

theorem excess_of_reachable (h : Reachable m s) : s.excess m = 0 := by
  have hall := h.invariant (fun u => (Inv u ∧ Sys m u) ∧ u.excess m = 0)
    (fun s e t hs hstep => ?_) ⟨⟨inv_boot, sys_boot⟩, excess_boot⟩
  · exact hall.2
  obtain ⟨hc, -, heffect⟩ := effect_of_step hstep
  exact ⟨inv_and_sys_step hs.1 hstep, (excess_of_effect hs.1.1 hs.1.2 hc heffect).trans hs.2⟩

theorem sum_share (u : Pid → Task) (n : Nat) : ∑ p ∈ Finset.range n, (u p).share =
    BitVec.ofNat 32 ((List.range n).countP fun p => (u p).sleepsUninterruptible) := by
  induction n with
  | zero => rfl
  | succ n ih =>
      rw [Finset.sum_range_succ, ih, List.range_succ, List.countP_append, BitVec.ofNat_add]
      cases hn : (u n).sleepsUninterruptible <;> simp [Task.share, hn, word]

/-- **The counters of the run queues say how many tasks sleep uninterruptibly**: in every state they
add up to that number, as words. -/
theorem nrUninterruptible_sum (h : Reachable m s) :
    ∑ c ∈ Finset.range m.nrCpus, (s.cpus c).nrUninterruptible =
      BitVec.ofNat 32 s.uninterruptible := by
  have hexcess := excess_of_reachable h
  rw [State.excess, sum_share] at hexcess
  exact sub_eq_zero.mp hexcess

/-- The counter of one run queue alone can be below zero. -/
theorem nrUninterruptible_sum_negative :
    ∃ s, Reachable twoCpus s ∧ (s.cpus 1).nrUninterruptible = -1 ∧
      ∑ c ∈ Finset.range twoCpus.nrCpus, (s.cpus c).nrUninterruptible =
        BitVec.ofNat 32 s.uninterruptible := by
  have hexec : ((Run.exec (step twoCpus) boot (firstTask ++
      [(0, .setCpusAllowedPtr 0 fun _ => true), (0, .setCurrentState taskUninterruptible),
        (0, .testCondition), (0, .schedule false false false), (0, .pickNext none),
        (0, .finishTaskSwitch), (0, .finishTaskSwitch), (0, .finishTaskSwitch), (0, .signal 0),
        (0, .tryToWakeUp 1), (0, .tryToWakeUp 1), (0, .tryToWakeUp 1), (0, .tryToWakeUp 1),
        (0, .tryToWakeUp 1), (0, .tryToWakeUp 1), (1, .schedulerIpi), (1, .schedTtwuPending)])).any
      fun s => decide ((s.cpus 1).nrUninterruptible = -1)) = true := by decide +kernel
  obtain ⟨s, hs, hneg⟩ := Run.exists_of_exec hexec
  exact ⟨s, hs, hneg, nrUninterruptible_sum hs⟩

/-! ### The number of running tasks

`enqueue_task` and `dequeue_task` keep the counter with the queue, as long as a task is only taken
off a queue that has it.  That is where the places of tasks come in: a task that blocks or is moved
is on the queue of the CPU that its place names.
-/

/-- The counter of a CPU is the length of its queue. -/
def Cpu.Counted (r : Cpu) : Prop := r.nrRunning = BitVec.ofNat 32 r.queue.length

/-- So are they all. -/
def State.Counted (s : State) : Prop := ∀ c, (s.cpus c).Counted

namespace State.Counted

theorem modCpu {g : Cpu → Cpu} (hs : s.Counted) (hg : (g (s.cpus c)).Counted) :
    (s.modCpu c g).Counted := by
  intro d
  by_cases hd : d = c
  · subst hd
    rwa [State.cpus_modCpu_self]
  · rw [State.cpus_modCpu_of_ne _ _ _ hd]
    exact hs d

/-- Writing neither the queue nor its counter. -/
theorem write {g : Cpu → Cpu} (hs : s.Counted)
    (hg : ∀ r, (g r).queue = r.queue ∧ (g r).nrRunning = r.nrRunning) : (s.modCpu c g).Counted := by
  refine hs.modCpu ?_
  rw [Cpu.Counted, (hg _).1, (hg _).2]
  exact hs c

theorem goTo {pc : Pc} (hs : s.Counted) : (s.goTo c pc).Counted := hs.write fun _ => ⟨rfl, rfl⟩

theorem modTask {f : Task → Task} (hs : s.Counted) : (s.modTask p f).Counted := hs

theorem addUninterruptible {n : BitVec 32} (hs : s.Counted) : (addUninterruptible c n s).Counted :=
  hs.write fun _ => ⟨rfl, rfl⟩

theorem enqueueTask (hs : s.Counted) : (enqueueTask c p s).Counted := by
  rw [Smp.enqueueTask, incNrRunning, State.modCpu_modCpu]
  refine hs.modCpu ?_
  have hc := hs c
  simp only [Cpu.Counted, Function.comp_apply, List.length_cons, BitVec.ofNat_add] at hc ⊢
  rw [hc]
  rfl

theorem dequeueTask (hs : s.Counted) (hp : p ∈ (s.cpus c).queue) : (dequeueTask c p s).Counted := by
  rw [Smp.dequeueTask, decNrRunning, State.modCpu_modCpu]
  refine hs.modCpu ?_
  have hc := hs c
  have hlength : (s.cpus c).queue.length = ((s.cpus c).queue.erase p).length + 1 :=
    (List.length_erase_add_one hp).symm
  simp only [Cpu.Counted, Function.comp_apply] at hc ⊢
  rw [hc, hlength, BitVec.ofNat_add]
  abel

theorem activateTask (hs : s.Counted) : (activateTask c p s).Counted :=
  enqueueTask hs.addUninterruptible

theorem deactivateTask (hs : s.Counted) (hp : p ∈ (s.cpus c).queue) :
    (deactivateTask c p s).Counted :=
  dequeueTask hs.addUninterruptible (by simpa [Smp.addUninterruptible] using hp)

theorem setOnRq {b : Bool} (hs : s.Counted) : (setOnRq b p s).Counted := hs

theorem setState {state : Nat} (hs : s.Counted) : (setState state p s).Counted := hs

theorem ttwuActivate (hs : s.Counted) : (ttwuActivate c p s).Counted := hs.activateTask.setOnRq

theorem ttwuDoActivate (hs : s.Counted) : (ttwuDoActivate c p s).Counted :=
  setState (ttwuActivate hs.addUninterruptible)

theorem schedTtwuPending (llist : List Pid) (hs : s.Counted) :
    (schedTtwuPending c llist s).Counted := by
  induction llist generalizing s with
  | nil => exact hs
  | cons p llist ih => exact ih hs.ttwuDoActivate

theorem schedulerIpi (hs : s.Counted) : (schedulerIpi c s).Counted := by
  unfold Smp.schedulerIpi
  dsimp only
  split
  · exact hs.write fun _ => ⟨rfl, rfl⟩
  · exact goTo (hs.write fun _ => ⟨rfl, rfl⟩)

theorem tryToWakeUpLocal (hs : s.Counted) : (tryToWakeUpLocal c p s).Counted := by
  unfold Smp.tryToWakeUpLocal
  split
  · exact hs
  · refine setState ?_
    split
    · exact hs
    · exact hs.ttwuActivate

theorem pickNext {next : Option Pid} (hs : s.Counted) : (pickNext c next s).Counted := by
  unfold Smp.pickNext
  dsimp only
  split
  · exact hs.goTo
  · cases next with
    | none => exact hs.write fun _ => ⟨rfl, rfl⟩
    | some q => exact modTask (hs.write fun _ => ⟨rfl, rfl⟩)

theorem moveTask {src dest : Nat} (hs : s.Counted) (hp : p ∈ (s.cpus src).queue) :
    (moveTask src dest p s).Counted :=
  activateTask (modTask (hs.deactivateTask hp))

theorem migrateTask {src dest : Nat} (hs : s.Counted)
    (hp : (s.tasks p).onRq = true → (s.tasks p).cpu = src → p ∈ (s.cpus src).queue) :
    (migrateTask p src dest s).Counted := by
  unfold Smp.migrateTask
  split
  · exact hs
  split
  · exact hs
  · next hcpu =>
    split
    · exact hs
    split
    · next honRq => exact enqueueTask (modTask (hs.dequeueTask (hp honRq (not_not.mp hcpu))))
    · exact hs

theorem migrateNrUninterruptible (hs : s.Counted) : (migrateNrUninterruptible c d s).Counted := by
  refine write (c := c) (g := fun r => { r with nrUninterruptible := 0 }) ?_ fun _ => ⟨rfl, rfl⟩
  exact hs.addUninterruptible

end State.Counted

theorem counted_of_effect (hinv : Inv s) (hs : s.Counted) (h : Effect m c s a t) : t.Counted := by
  have hmem : ∀ {q : Pid} {e : Nat}, (s.tasks q).onRq = true → (s.tasks q).cpu = e →
      q ∈ (s.cpus e).queue := by
    intro q e honRq hcpu
    obtain ⟨l, hl⟩ := hinv q
    exact hl.mem_queue_iff.mpr ⟨honRq, hcpu⟩
  cases h with
  | wakeFail | wakeRead | callWake | pendingDone | schedYield | dropLock | retakeLock
  | finishRead =>
      exact hs.goTo
  | wakeLock | wakePlace | signal | schedSignal => exact hs.modTask.goTo
  | wakeRemote | wakeSelect => exact hs.modTask.modTask.goTo
  | wakeListFirst => exact State.Counted.goTo (hs.write fun _ => ⟨rfl, rfl⟩)
  | wakeList | wakeSend =>
      refine State.Counted.goTo (.modTask (hs.write fun _ => ?_))
      exact ⟨rfl, rfl⟩
  | wakeDirect => exact hs.ttwuDoActivate.modTask.goTo
  | start => exact hs.modTask.modTask.activateTask.modTask.modTask
  | ipi => exact hs.schedulerIpi
  | pending => exact State.Counted.goTo hs.ttwuDoActivate
  | @schedBlock _ _ _ p hpc hcurr =>
      obtain ⟨l, hl⟩ := hinv p
      obtain rfl := hl.running hcurr (by rw [hpc]; rfl)
      exact (hs.deactivateTask (hl.mem_queue.mpr rfl)).modTask.goTo
  | wakeLocal => exact hs.tryToWakeUpLocal
  | pick => exact hs.pickNext
  | @finishClear prev =>
      cases prev with
      | none => exact hs.goTo
      | some p => exact hs.goTo
  | @finishUnlock prev prevState =>
      cases prev with
      | none => exact hs.goTo
      | some p =>
          rw [Option.elim_some]
          split
          · exact hs.goTo
          · exact hs.goTo
  | move _ _ _ honRq _ hcpu => exact hs.moveTask (hmem honRq hcpu)
  | stop => exact hs.migrateTask hmem
  | setActive | up => exact hs.write fun _ => ⟨rfl, rfl⟩
  | dying =>
      have hlist : State.Counted (s.modCpu c fun r => { r with online := false, wakeList := [] }) :=
        hs.write fun _ => ⟨rfl, rfl⟩
      exact State.Counted.goTo (hlist.schedTtwuPending _)
  | migrateNext =>
      refine State.Counted.migrateTask hs.modTask ?_
      simpa [doSetCpusAllowed] using hmem
  | @dead dest => exact (hs.migrateNrUninterruptible (c := c) (d := dest)).goTo
  | _ => exact hs

theorem counted_of_reachable (h : Reachable m s) : s.Counted := by
  have hall := h.invariant (fun u => Inv u ∧ u.Counted) (fun s e t hs hstep => ?_)
    ⟨inv_boot, fun _ => rfl⟩
  · exact hall.2
  have heffect := (effect_of_step hstep).2.2
  exact ⟨hs.1.moves (.of_effect heffect), counted_of_effect hs.1 hs.2 heffect⟩

/-- How many tasks say that they are on the run queue of a CPU. -/
def State.runnableOn (s : State) (c : Nat) : Nat :=
  (List.range s.nextPid).countP fun p => (s.tasks p).onRq && (s.tasks p).cpu = c

/-- A run queue has each of them once, and no other. -/
theorem length_queue (hinv : Inv s) (c : Nat) : (s.cpus c).queue.length = s.runnableOn c := by
  have hnodup : (s.cpus c).queue.Nodup := by
    rw [List.nodup_iff_count_le_one]
    intro p
    obtain ⟨l, hl⟩ := hinv p
    rw [(hl.cpus c).queue]
    exact Bool.toNat_le _
  rw [State.runnableOn, List.countP_eq_length_filter]
  refine ((List.perm_ext_iff_of_nodup hnodup (List.nodup_range.filter _)).mpr fun p => ?_).length_eq
  obtain ⟨l, hl⟩ := hinv p
  have honRq := hl.task.onRq
  have hforked := hl.task.forked
  have hhome := hl.task.home
  rw [hl.mem_queue, List.mem_filter, List.mem_range]
  cases l <;> simp_all

/-- **`rq->nr_running` counts the tasks of a run queue**: those that say so, each once, also while
tasks are woken and moved and CPUs come and go. -/
theorem nrRunning_eq (h : Reachable m s) (c : Nat) :
    (s.cpus c).nrRunning = BitVec.ofNat 32 (s.runnableOn c) := by
  rw [counted_of_reachable h c, length_queue (inv_of_reachable h)]

/-- A task that has been moved is counted where it is now. -/
theorem nrRunning_eq_moved :
    ∃ s, Reachable twoCpus s ∧ ((s.cpus 1).nrRunning = 1 ∧ (s.cpus 0).nrRunning = 0) ∧
      (s.cpus 1).nrRunning = BitVec.ofNat 32 (s.runnableOn 1) := by
  have hexec : ((Run.exec (step twoCpus) boot [(0, .schedFork false), (1, .cpuUp),
      (0, .setCpusAllowedPtr 0 fun _ => true), (0, .wakeUpNewTask 0 0), (1, .moveTask 0 0 1)]).any
      fun s => decide ((s.cpus 1).nrRunning = 1 ∧ (s.cpus 0).nrRunning = 0)) = true := by
    decide +kernel
  obtain ⟨s, hs, hmoved⟩ := Run.exists_of_exec hexec
  exact ⟨s, hs, hmoved, nrRunning_eq hs 1⟩

/-! ### A CPU that goes down

The loop of `migrate_tasks` ends when the counter is one.  The thread it runs in is on the run queue,
so that it is the one task left, unless the counter has wrapped.
-/

/-- What `queue` says when the counter is one. -/
theorem Cpu.Counted.length_eq_one {r : Cpu} (h : r.Counted) (hcount : r.nrRunning = 1)
    (hpos : r.queue ≠ []) (hfew : r.queue.length ≤ 2 ^ 32) : r.queue.length = 1 := by
  have hlength : (BitVec.ofNat 32 r.queue.length).toNat = (1 : BitVec 32).toNat := by
    rw [← h, hcount]
  rw [BitVec.toNat_ofNat] at hlength
  have hone : r.queue.length % 2 ^ 32 = 1 := hlength
  have := List.length_pos_iff.mpr hpos
  omega

/-- The running task of a CPU that goes down is on its run queue. -/
theorem mem_queue_of_dying (hinv : Inv s) (hpc : (s.cpus c).pc = .dying)
    (hcurr : (s.cpus c).curr = some p) : p ∈ (s.cpus c).queue := by
  obtain ⟨l, hl⟩ := hinv p
  obtain rfl : l = .running c := hl.running hcurr (by rw [hpc]; rfl)
  exact hl.mem_queue.mpr rfl

/-- **A CPU that has gone down leaves no task behind**: when `migrate_tasks` is done, the thread that
runs there is the only one on its run queue. -/
theorem only_current_left (h : Reachable m s) (hstep : step m s (c, .cpuDead) = some t)
    (hfew : s.runnableOn c ≤ 2 ^ 32) :
    ∃ p, (t.cpus c).curr = some p ∧ (t.cpus c).queue = [p] ∧ (t.cpus c).online = false := by
  have hinv := inv_of_reachable h
  have hsys := sys_of_reachable h
  have heffect := (effect_of_step hstep).2.2
  cases heffect with
  | same _ hint => cases hint
  | dead hpc hcount =>
      obtain ⟨hcurr, honline⟩ := hsys.dying c hpc
      obtain ⟨p, hcurr⟩ := Option.isSome_iff_exists.mp hcurr
      have hmem := mem_queue_of_dying hinv hpc hcurr
      rw [← length_queue hinv] at hfew
      have hone := (counted_of_reachable h c).length_eq_one hcount (List.ne_nil_of_mem hmem) hfew
      obtain ⟨q, hq⟩ := List.length_eq_one_iff.mp hone
      obtain rfl : p = q := by simpa [hq] using hmem
      refine ⟨p, ?_, ?_, ?_⟩ <;> rw [State.cpus_goTo_self]
      · simpa [Steady.curr.migrateNrUninterruptible] using hcurr
      · simpa [migrateNrUninterruptible, addUninterruptible, State.field_modCpu Cpu.queue] using hq
      · simpa [migrateNrUninterruptible, addUninterruptible, State.field_modCpu Cpu.online]
          using honline

/-- The second CPU runs a task and has another, and goes down. -/
def goingDown : List (Nat × Act) :=
  [(0, .schedFork false), (0, .schedFork false), (1, .cpuUp),
    (0, .setCpusAllowedPtr 0 fun _ => true), (0, .setCpusAllowedPtr 1 fun _ => true),
    (0, .wakeUpNewTask 0 1), (0, .wakeUpNewTask 1 1), (1, .schedule false false false),
    (1, .pickNext (some 0)), (1, .finishTaskSwitch), (1, .finishTaskSwitch), (1, .finishTaskSwitch),
    (0, .setCpuActive 1 false), (1, .cpuDying)]

theorem only_current_left_moved :
    ∃ s t, Reachable twoCpus s ∧ step twoCpus s (1, .cpuDead) = some t ∧ 1 ∈ (s.cpus 0).queue ∧
      ∃ p, (t.cpus 1).curr = some p ∧ (t.cpus 1).queue = [p] ∧ (t.cpus 1).online = false := by
  have hexec : ((Run.exec (step twoCpus) boot (goingDown ++ [(1, .migrateNext (some 1))])).any
      fun s => decide ((step twoCpus s (1, .cpuDead)).isSome = true ∧ 1 ∈ (s.cpus 0).queue ∧
        s.runnableOn 1 ≤ 2 ^ 32)) = true := by decide +kernel
  obtain ⟨s, hs, hstep, hmoved, hfew⟩ := Run.exists_of_exec hexec
  obtain ⟨t, ht⟩ := Option.isSome_iff_exists.mp hstep
  exact ⟨s, t, hs, ht, hmoved, only_current_left hs ht hfew⟩

end WrrScheduler.Smp
