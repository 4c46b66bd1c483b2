/-
No wake-up is lost.

A task that goes to sleep sets its state first and tests what it waits for after
that; who makes it so calls `wake_up_process` after that.  So when the task finds
that it must sleep and what it waits for has happened nevertheless, the wake-up is
still under way and has yet to see the state.

The invariant speaks of every task that is owed a wake-up: some CPU is at a place of
`try_to_wake_up` where it is going to look at the state, or has seen it and is going
to write it.  A task comes to be owed one only in the step that makes its condition
true, and that step is the one that enters `try_to_wake_up`.  From there the CPU
cannot give up, because the state it will find is one it was asked to end, until it
has set the task running or waking; and then the task is not owed any more.
-/
import WrrScheduler.Proofs.SmpSafety

namespace WrrScheduler.Smp

variable {m : Machine} {s t : State} {p q : Pid} {c d : Nat} {a : Act}

/-! ### The program counters of the other CPUs -/

/-- **A step moves the program counter of its own CPU only.** -/
theorem Effect.pc_of_ne (h : Effect m c s a t) (hd : d ≠ c) : (t.cpus d).pc = (s.cpus d).pc := by
  cases h with
  | ipi => exact pc_schedulerIpi_of_ne hd
  | pick => exact pc_pickNext_of_ne hd
  | @finishClear prev => cases prev <;> simp [State.pc_goTo_of_ne hd]
  | @finishUnlock prev prevState =>
      cases prev with
      | none => simp [State.pc_goTo_of_ne hd]
      | some p => by_cases hdead : prevState = taskDead <;> simp [hdead, State.pc_goTo_of_ne hd]
  | setActive => exact s.pc_modCpu _ _ fun _ => rfl
  | up => exact s.pc_modCpu c _ fun _ => rfl
  | dying =>
      rw [State.pc_goTo_of_ne hd, pc_schedTtwuPending]
      exact s.pc_modCpu c _ fun _ => rfl
  | dead => rw [State.pc_goTo_of_ne hd, pc_migrateNrUninterruptible]
  | wakeListFirst | wakeList | wakeSend =>
      simp only [wakeDone, State.pc_goTo_of_ne hd, State.cpus_modTask]
      exact s.pc_modCpu _ _ fun _ => rfl
  | _ => simp [State.pc_goTo_of_ne hd, doSetCpusAllowed, schedFork]

/-! ### What leaves a sleeper alone

Of the many steps only six make a difference to how far a task is in its loop, to its
condition, or to its state other than by waking it, and all six are steps of tasks
that run.  For the rest it is enough that they leave three fields alone.
-/

/-- The task is as far in its loop as before, nothing has happened to what it waits for, and its
state is as it was or says that it is being woken. -/
structure Task.Kept (u v : Task) : Prop where
  sleepLoop : v.sleepLoop = u.sleepLoop
  condition : v.condition = u.condition
  state : v.state = u.state ∨ v.state = taskRunning ∨ v.state = taskWaking

/-- Every task is kept. -/
def Keeps (s t : State) : Prop := ∀ q, (s.tasks q).Kept (t.tasks q)

theorem Task.Kept.refl (u : Task) : u.Kept u := ⟨rfl, rfl, .inl rfl⟩

theorem Task.Kept.trans {u v w : Task} (h : u.Kept v) (h' : v.Kept w) : u.Kept w := by
  refine ⟨h'.sleepLoop.trans h.sleepLoop, h'.condition.trans h.condition, ?_⟩
  rcases h'.state with hstate | hstate
  · rw [hstate]
    exact h.state
  · exact .inr hstate

theorem Keeps.refl (s : State) : Keeps s s := fun q => .refl (s.tasks q)

theorem Keeps.trans {u : State} (h : Keeps s t) (h' : Keeps t u) : Keeps s u :=
  fun q => (h q).trans (h' q)

theorem Keeps.modCpu {g : Cpu → Cpu} (h : Keeps s t) : Keeps s (t.modCpu c g) := h

theorem Keeps.goTo {pc : Pc} (h : Keeps s t) : Keeps s (t.goTo c pc) := h

theorem Keeps.modTask {f : Task → Task} (h : Keeps s t) (hf : (t.tasks p).Kept (f (t.tasks p))) :
    Keeps s (t.modTask p f) := by
  intro q
  by_cases hq : q = p
  · subst hq
    rw [State.tasks_modTask_self]
    exact (h q).trans hf
  · rw [State.tasks_modTask_of_ne t p f hq]
    exact h q

/-- Writing what is none of these. -/
theorem Keeps.write {f : Task → Task} (h : Keeps s t)
    (hsleep : (f (t.tasks p)).sleepLoop = (t.tasks p).sleepLoop)
    (hcond : (f (t.tasks p)).condition = (t.tasks p).condition)
    (hstate : (f (t.tasks p)).state = (t.tasks p).state) : Keeps s (t.modTask p f) :=
  h.modTask ⟨hsleep, hcond, .inl hstate⟩

theorem Keeps.setRunning (h : Keeps s t) : Keeps s (setState taskRunning p t) :=
  h.modTask ⟨rfl, rfl, .inr (.inl rfl)⟩

theorem Keeps.decUninterruptible {b : Bool} (h : Keeps s t) :
    Keeps s (decUninterruptible c b t) := h

theorem Keeps.callStopper {arg : MigrationArg} (h : Keeps s t) :
    Keeps s (callStopper c arg t) := h

theorem Keeps.enqueueTask (h : Keeps s t) : Keeps s (enqueueTask c p t) := h

theorem Keeps.dequeueTask (h : Keeps s t) : Keeps s (dequeueTask c p t) := h

theorem Keeps.activateTask (h : Keeps s t) : Keeps s (activateTask c p t) := h

theorem Keeps.deactivateTask (h : Keeps s t) : Keeps s (deactivateTask c p t) := h

theorem Keeps.setOnRq {b : Bool} (h : Keeps s t) : Keeps s (setOnRq b p t) := h.write rfl rfl rfl

theorem Keeps.ttwuActivate (h : Keeps s t) : Keeps s (ttwuActivate c p t) := h.activateTask.setOnRq

theorem Keeps.ttwuDoActivate (h : Keeps s t) : Keeps s (ttwuDoActivate c p t) :=
  .setRunning (.ttwuActivate h.decUninterruptible)

theorem Keeps.schedTtwuPending (llist : List Pid) (h : Keeps s t) :
    Keeps s (schedTtwuPending c llist t) := by
  induction llist generalizing t with
  | nil => exact h
  | cons p llist ih => exact ih h.ttwuDoActivate

theorem Keeps.schedulerIpi : Keeps s (schedulerIpi c s) := by
  unfold Smp.schedulerIpi
  dsimp only
  split
  · exact .modCpu (.refl s)
  · exact .goTo (.modCpu (.refl s))

theorem Keeps.tryToWakeUpLocal : Keeps s (tryToWakeUpLocal c p s) := by
  unfold Smp.tryToWakeUpLocal
  split
  · exact .refl s
  · refine .setRunning ?_
    split
    · exact .refl s
    · exact .ttwuActivate (.refl s)

theorem Keeps.pickNext {next : Option Pid} : Keeps s (pickNext c next s) := by
  unfold Smp.pickNext
  dsimp only
  split
  · exact .goTo (.refl s)
  · cases next with
    | none => exact .modCpu (.refl s)
    | some q => exact .write (.modCpu (.refl s)) rfl rfl rfl

theorem Keeps.migrateTask {src dest : Nat} (h : Keeps s t) : Keeps s (migrateTask p src dest t) := by
  unfold Smp.migrateTask
  split
  · exact h
  split
  · exact h
  split
  · exact h
  split
  · exact .enqueueTask (.write h.dequeueTask rfl rfl rfl)
  · exact h

theorem Keeps.finishClear {prev : Option Pid} {pc : Pc} :
    Keeps s (prev.elim (s.goTo c pc) fun p =>
      (s.goTo c pc).modTask p fun t => { t with onCpu := false }) := by
  cases prev with
  | none => exact .goTo (.refl s)
  | some p =>
      rw [Option.elim_some]
      exact .write (.goTo (.refl s)) rfl rfl rfl

theorem Keeps.finishUnlock {prev : Option Pid} {prevState : Nat} :
    Keeps s (prev.elim (s.goTo c .run) fun p =>
      if prevState = taskDead then (s.goTo c .run).modTask p fun t => { t with puts := t.puts + 1 }
      else s.goTo c .run) := by
  cases prev with
  | none => exact .goTo (.refl s)
  | some p =>
      rw [Option.elim_some]
      split
      · exact .write (.goTo (.refl s)) rfl rfl rfl
      · exact .goTo (.refl s)

/-- What a task does that makes a difference to a sleeper. -/
def Act.own : Act → Bool
  | schedFork _ | setCurrentState _ | testCondition | doExit | retract _ | signal _ => true
  | _ => false

/-- **Only what a task does on purpose** makes a difference to a sleeper. -/
theorem keeps_of_effect (h : Effect m c s a t) (ha : a.own = false) : Keeps s t := by
  have hrefl := Keeps.refl s
  cases h with
  | wakeFail | wakeRead | callWake | pendingDone | schedYield | dropLock | retakeLock
  | finishRead =>
      exact hrefl.goTo
  | wakeLock => exact .goTo (.write hrefl rfl rfl rfl)
  | wakeRemote => exact .goTo (.write hrefl.setRunning rfl rfl rfl)
  | wakePlace => exact .goTo (.modTask hrefl ⟨rfl, rfl, .inr (.inr rfl)⟩)
  | wakeSelect => exact .goTo (.write (.write hrefl rfl rfl rfl) rfl rfl rfl)
  | wakeListFirst => exact .goTo hrefl.modCpu
  | wakeList | wakeSend => exact .goTo (.write hrefl.modCpu rfl rfl rfl)
  | wakeDirect => exact .goTo (.write hrefl.ttwuDoActivate rfl rfl rfl)
  | start =>
      refine .write (.write (.activateTask ?_) rfl rfl rfl) rfl rfl rfl
      exact .write (.write hrefl rfl rfl rfl) rfl rfl rfl
  | ipi => exact .schedulerIpi
  | pending => exact .goTo hrefl.ttwuDoActivate
  | schedSignal => exact .goTo hrefl.setRunning
  | schedBlock => exact .goTo (.write hrefl.deactivateTask rfl rfl rfl)
  | wakeLocal => exact .tryToWakeUpLocal
  | pick => exact .pickNext
  | finishClear => exact .finishClear
  | finishUnlock => exact .finishUnlock
  | move => exact .activateTask (.write hrefl.deactivateTask rfl rfl rfl)
  | same | exec | handOver | idleTurn => exact hrefl
  | setFrozen | setAllowed => exact .write hrefl rfl rfl rfl
  | setAllowedMove => exact .callStopper (.write hrefl rfl rfl rfl)
  | setActive | up => exact hrefl.modCpu
  | stop => exact hrefl.migrateTask
  | dying => exact .goTo (.schedTtwuPending _ hrefl.modCpu)
  | migrateNext => exact .migrateTask (.write hrefl rfl rfl rfl)
  | dead => exact .goTo hrefl
  | _ => cases ha

/-! ### No wake-up is lost

Two lemmas carry the invariant.  A task that is owed a wake-up after a step was owed
one before, or the step was the one that made its condition true; and a CPU that is
going to wake it either does so in a step of its own or is still going to.  A step of
another CPU does not touch its program counter.
-/

/-- The task has found that it must sleep, what it waits for has happened, and it has not been woken
yet. -/
structure Task.Owed (u : Task) : Prop where
  sleepLoop : u.sleepLoop = .mustSleep
  condition : u.condition = true
  state : u.state &&& taskNormal ≠ 0

/-- A CPU at this place is going to see the state of the task and wake it. -/
def Pc.Wakes (p : Pid) (pc : Pc) : Prop := pc = .wake p taskNormal ∨ pc.pursuing = some p

theorem Task.Kept.owed {u v : Task} (h : u.Kept v) (hv : v.Owed) : u.Owed := by
  refine ⟨h.sleepLoop.symm.trans hv.sleepLoop, h.condition.symm.trans hv.condition, ?_⟩
  rcases h.state with hstate | hstate | hstate
  · rw [← hstate]
    exact hv.state
  · exact absurd (by rw [hstate]; rfl) hv.state
  · exact absurd (by rw [hstate]; rfl) hv.state

theorem owed_modTask {f : Task → Task} (hf : (f (s.tasks p)).Owed → (s.tasks p).Owed)
    (h : ((s.modTask p f).tasks q).Owed) : (s.tasks q).Owed := by
  by_cases hq : q = p
  · subst hq
    rw [State.tasks_modTask_self] at h
    exact hf h
  · rwa [State.tasks_modTask_of_ne s p f hq] at h

/-- A task does not come to wait for what has happened, unless it happens just now. -/
theorem owed_of_effect (h : Effect m c s a t) (hq : (t.tasks q).Owed) :
    (s.tasks q).Owed ∨ (t.cpus c).pc.Wakes q := by
  by_cases hown : a.own = false
  · exact .inl ((keeps_of_effect h hown q).owed hq)
  cases h with
  | fork =>
      by_cases hnew : q = s.nextPid
      · subst hnew
        have hchild := hq.sleepLoop
        simp [schedFork] at hchild
      · exact .inl (by simpa [schedFork, hnew] using hq)
  | setCurrentState => exact .inl (owed_modTask (fun h => by cases h.sleepLoop) hq)
  | testCondition =>
      refine .inl (owed_modTask (fun h => ?_) hq)
      split at h
      · cases h.sleepLoop
      · next hcond => exact absurd h.condition hcond
  | doExit =>
      have hnormal : taskDead &&& taskNormal = 0 := by decide
      exact .inl (owed_modTask (fun h => absurd hnormal h.state) hq)
  | retract => exact .inl (owed_modTask (fun h => by cases h.condition) hq)
  | @signal p =>
      by_cases hqp : q = p
      · exact .inr (.inl (by rw [hqp, State.pc_goTo_self]))
      · rw [State.tasks_goTo, State.tasks_modTask_of_ne _ _ _ hqp] at hq
        exact .inl hq
  | same => exact .inl hq
  | _ => exact (hown rfl).elim

/-- A CPU that is going to wake the task does so, or is still going to. -/
theorem wakes_of_effect (h : Effect m c s a t) (hc : (s.cpus c).pc.Wakes q)
    (hq : (t.tasks q).Owed) : (t.cpus c).pc.Wakes q := by
  cases h with
  | @wakeFail _ p state hpc hstate =>
      rw [hpc] at hc
      rcases hc with hc | hc
      · cases hc
        exact absurd hstate hq.state
      · cases hc
  | wakeLock hpc =>
      rw [hpc] at hc
      rcases hc with hc | hc
      · cases hc
        exact .inr (by rw [State.pc_goTo_self]; rfl)
      · cases hc
  | wakeRead hpc hnew =>
      rcases hc with hc | hc
      · rw [hc] at hpc
        cases hpc
      · obtain rfl := Option.some.inj (hpc.symm.trans hc)
        exact .inr (by rw [State.pc_goTo_self, hnew])
  | wakeRemote hpc =>
      rw [hpc] at hc
      rcases hc with hc | hc
      · cases hc
      · cases hc
        exact absurd (by simp; rfl) hq.state
  | wakePlace hpc =>
      rw [hpc] at hc
      rcases hc with hc | hc
      · cases hc
      · cases hc
        exact absurd (by simp; rfl) hq.state
  | move hpc =>
      rcases hc with hc | hc
      · rw [hc] at hpc
        cases hpc
      · rw [Pc.not_balances_of_pursuing hc] at hpc
        cases hpc
  | _ hpc => rw [hpc] at hc; rcases hc with hc | hc <;> cases hc

/-- Every task that is owed a wake-up is being woken. -/
def State.Attended (s : State) : Prop := ∀ q, (s.tasks q).Owed → ∃ d, (s.cpus d).pc.Wakes q

theorem attended_of_effect (hs : s.Attended) (h : Effect m c s a t) : t.Attended := by
  intro q hq
  rcases owed_of_effect h hq with howed | hwakes
  · obtain ⟨d, hd⟩ := hs q howed
    by_cases hdc : d = c
    · subst hdc
      exact ⟨d, wakes_of_effect h hd hq⟩
    · exact ⟨d, by rwa [h.pc_of_ne hdc]⟩
  · exact ⟨c, hwakes⟩

theorem attended_of_reachable (h : Reachable m s) : s.Attended := by
  refine h.invariant _ (fun _ _ _ hs hstep => attended_of_effect hs (effect_of_step hstep).2.2) ?_
  intro q hq
  cases hq.sleepLoop

/-- **No wake-up is lost**: while a task waits in a sleeping state for what has happened, some CPU is
on its way to wake it. -/
theorem no_lost_wakeup (h : Reachable m s) (hsleep : (s.tasks p).sleepLoop = .mustSleep)
    (hcond : (s.tasks p).condition = true) (hstate : (s.tasks p).state &&& taskNormal ≠ 0) :
    ∃ c, (s.cpus c).pc = .wake p taskNormal ∨ (s.cpus c).pc.pursuing = some p :=
  attended_of_reachable h p ⟨hsleep, hcond, hstate⟩

theorem no_lost_wakeup_firstTask :
    ∃ s, Reachable twoCpus s ∧ (s.tasks 0).state = taskInterruptible ∧
      ∃ c, (s.cpus c).pc = .wake 0 taskNormal ∨ (s.cpus c).pc.pursuing = some 0 := by
  have hexec : ((Run.exec (step twoCpus) boot (firstTask ++
      [(0, .setCurrentState taskInterruptible), (0, .testCondition), (1, .signal 0)])).any fun s =>
      decide ((s.tasks 0).sleepLoop = .mustSleep ∧ (s.tasks 0).condition = true ∧
        (s.tasks 0).state = taskInterruptible)) = true := by decide +kernel
  obtain ⟨s, hs, hsleep, hcond, hstate⟩ := Run.exists_of_exec hexec
  exact ⟨s, hs, hstate, no_lost_wakeup hs hsleep hcond (by rw [hstate]; decide)⟩

end WrrScheduler.Smp
