/-
A task is kept to the CPUs it may use.

`set_cpus_allowed_ptr` writes the mask of a task at once and leaves it to a stopper to
move a queued task away; a task that is off the queue chooses its CPU when it is woken.
Between the choice and the queue the mask must not change, the request must reach the
stopper, and the stopper must find its destination active: then a task on a run queue
may be there, or its stopper has been told where to move it, or is going to be.

The stoppers are those of a system that has them beside the machine.  Every step of that
system is one of the machine, so what holds of the machine holds there.
-/
import WrrScheduler.Proofs.SmpSystem

namespace WrrScheduler.Smp

variable {m : Machine} {s t : State} {p q : Pid} {c d : Nat} {a : Act} {l : Place}
  {P P' : Nat → MigrationArg → Prop}

/-- Every task on the run queue of a CPU may be there. -/
def State.settled (s : State) (c : Nat) : Bool :=
  (s.cpus c).queue.all fun p => (s.tasks p).cpusAllowed c

/-! ### What binds a task to a CPU

`P` says what is pending with the stoppers.  A task needs a request as long as it is queued where it
may not be; it gets one from `set_cpus_allowed_ptr`, which keeps it until it is handed over.
-/

/-- The stopper of its CPU has been asked to move a task to a CPU it may use, or is about to be. -/
def State.Asked (s : State) (P : Nat → MigrationArg → Prop) (q : Pid) : Prop :=
  ∃ dest, (s.tasks q).cpusAllowed dest = true ∧
    (((s.tasks q).cpu, ⟨q, dest⟩) ∈ s.stopCalls ∨ P (s.tasks q).cpu ⟨q, dest⟩)

/-- A task on a run queue, or on its way to one, is where it may be or about to be moved. -/
structure Bound (s : State) (P : Nat → MigrationArg → Prop) (q : Pid) : Prop where
  queued : (s.tasks q).onRq = true → (s.tasks q).cpusAllowed (s.tasks q).cpu = true ∨ s.Asked P q
  listed : ∀ c, q ∈ (s.cpus c).wakeList ∨ q ∈ (s.cpus c).pc.pending →
    (s.tasks q).cpusAllowed (s.tasks q).cpu = true
  placed : ∀ b c, (s.cpus b).pc = .queue q c → (s.tasks q).cpusAllowed (s.tasks q).cpu = true

/-- What decides that. -/
def State.binding (s : State) (q : Pid) :
    (Bool × Nat × CpuMask) × List (Nat × MigrationArg) × (Nat → List Pid × Pc) :=
  (((s.tasks q).onRq, (s.tasks q).cpu, (s.tasks q).cpusAllowed), s.stopCalls,
    fun c => ((s.cpus c).wakeList, (s.cpus c).pc))

theorem Bound.of_allowed (h : (s.tasks q).cpusAllowed (s.tasks q).cpu = true) : Bound s P q :=
  ⟨fun _ => .inl h, fun _ _ => h, fun _ _ _ => h⟩

theorem Bound.of_queued (hl : Fits s q l) (honRq : (s.tasks q).onRq = true)
    (h : (s.tasks q).cpusAllowed (s.tasks q).cpu = true ∨ s.Asked P q) : Bound s P q := by
  have hqueued := hl.task.onRq
  refine ⟨fun _ => h, ?_, ?_⟩
  · intro c hlist
    rw [hl.mem_lists.mp hlist, honRq] at hqueued
    cases hqueued
  · intro b c hpc
    rw [hl.placed (by rw [hpc]; rfl), honRq] at hqueued
    cases hqueued

/-- A task that is off the run queue and not being woken may have any mask. -/
theorem Bound.of_idle (hl : Fits s q l) (honRq : (s.tasks q).onRq = false)
    (hstate : (s.tasks q).state ≠ taskWaking) : Bound s P q := by
  have hwaking := mt hl.task.waking.mpr hstate
  refine ⟨fun h => ?_, ?_, ?_⟩
  · rw [honRq] at h
    cases h
  · intro c hlist
    rw [hl.mem_lists.mp hlist] at hwaking
    exact absurd rfl hwaking
  · intro b c hpc
    rw [hl.placed (by rw [hpc]; rfl)] at hwaking
    exact absurd rfl hwaking

/-! ### Steps that leave it as it is -/

theorem Bound.congr (hs : Bound s P q) (h : t.binding q = s.binding q) : Bound t P q := by
  have htask := congrArg Prod.fst h
  have hcalls := congrArg (fun b => b.2.1) h
  have hcpu : ∀ c, ((t.cpus c).wakeList, (t.cpus c).pc) = ((s.cpus c).wakeList, (s.cpus c).pc) :=
    fun c => congrFun (congrArg (fun b => b.2.2) h) c
  simp only [State.binding, Prod.mk.injEq] at htask hcalls hcpu
  obtain ⟨honRq, hhome, hmask⟩ := htask
  obtain ⟨hqueued, hlisted, hplaced⟩ := hs
  refine ⟨?_, ?_, ?_⟩
  · simpa only [State.Asked, honRq, hhome, hmask, hcalls] using hqueued
  · intro c
    rw [hmask, hhome, (hcpu c).1, (hcpu c).2]
    exact hlisted c
  · intro b c
    rw [hmask, hhome, (hcpu b).2]
    exact hplaced b c

theorem binding_modTask_of_ne {f : Task → Task} (hq : q ≠ p) :
    (s.modTask p f).binding q = s.binding q := by
  unfold State.binding
  rw [State.tasks_modTask_of_ne _ _ _ hq, State.cpus_modTask]
  rfl

theorem Bound.modTask {f : Task → Task} (hs : Bound s P q)
    (hf : ∀ u, (f u).onRq = u.onRq ∧ (f u).cpu = u.cpu ∧ (f u).cpusAllowed = u.cpusAllowed) :
    Bound (s.modTask p f) P q := by
  refine hs.congr ?_
  simp only [State.binding, State.field_modTask Task.onRq fun u => (hf u).1,
    State.field_modTask Task.cpu fun u => (hf u).2.1,
    State.field_modTask Task.cpusAllowed fun u => (hf u).2.2, State.cpus_modTask]
  rfl

/-- Another place that does not take a wake list and has not chosen a run queue. -/
theorem Bound.goTo {pc : Pc} (hs : Bound s P q)
    (hpending : q ∈ pc.pending → q ∈ (s.cpus c).pc.pending) (hqueue : ∀ e, pc ≠ .queue q e) :
    Bound (s.goTo c pc) P q := by
  obtain ⟨hqueued, hlisted, hplaced⟩ := hs
  refine ⟨hqueued, ?_, ?_⟩
  · intro d hd
    refine hlisted d ?_
    by_cases hdc : d = c
    · subst hdc
      rw [State.cpus_goTo_self] at hd
      exact hd.imp_right hpending
    · rwa [State.cpus_goTo_of_ne _ _ _ hdc] at hd
  · intro b e hb
    by_cases hbc : b = c
    · subst hbc
      rw [State.pc_goTo_self] at hb
      exact absurd hb (hqueue e)
    · rw [State.pc_goTo_of_ne hbc] at hb
      exact hplaced b e hb

/-- A write to a CPU that lists nobody. -/
theorem Bound.modCpu {g : Cpu → Cpu} (hs : Bound s P q) (hpc : ∀ r, (g r).pc = r.pc)
    (hlist : ∀ r, q ∈ (g r).wakeList → q ∈ r.wakeList) : Bound (s.modCpu c g) P q := by
  obtain ⟨hqueued, hlisted, hplaced⟩ := hs
  refine ⟨hqueued, ?_, ?_⟩
  · intro d hd
    rw [State.field_modCpu Cpu.pc hpc] at hd
    refine hlisted d (hd.imp_left fun hmem => ?_)
    by_cases hdc : d = c
    · subst hdc
      rw [State.cpus_modCpu_self] at hmem
      exact hlist _ hmem
    · rwa [State.cpus_modCpu_of_ne _ _ _ hdc] at hmem
  · intro b e hb
    rw [State.field_modCpu Cpu.pc hpc] at hb
    exact hplaced b e hb

/-- What the operations on the queues leave alone. -/
def Cpu.binding (r : Cpu) : List Pid × Pc := (r.wakeList, r.pc)

theorem Steady.binding : Steady Cpu.binding := ⟨fun _ _ => rfl, fun _ _ => rfl, fun _ _ => rfl⟩

theorem Bound.of_steady (hs : Bound s P q) (hcpus : ∀ c, (t.cpus c).binding = (s.cpus c).binding)
    (hcalls : t.stopCalls = s.stopCalls) (htask : t.tasks q = s.tasks q) : Bound t P q := by
  refine hs.congr ?_
  rw [State.binding, htask, hcalls]
  exact Prod.ext rfl (Prod.ext rfl (funext hcpus))

/-- Another call that is due. -/
theorem Bound.callStopper {cpu : Nat} {arg : MigrationArg} (hs : Bound s P q) :
    Bound (callStopper cpu arg s) P q := by
  obtain ⟨hqueued, hlisted, hplaced⟩ := hs
  refine ⟨fun honRq => (hqueued honRq).imp_right ?_, hlisted, hplaced⟩
  rintro ⟨dest, hdest, hdue⟩
  exact ⟨dest, hdest, hdue.imp_left (List.mem_cons_of_mem _)⟩

/-- Taking the wake list over. -/
theorem Bound.schedulerIpi (hs : Bound s P q) : Bound (schedulerIpi c s) P q := by
  have hlist := hs.modCpu (c := c) (g := fun r => { r with ipi := false, wakeList := [] })
    (fun _ => rfl) (by simp)
  unfold Smp.schedulerIpi
  dsimp only
  split
  · exact hlist
  · by_cases hq : q ∈ (s.cpus c).wakeList
    · exact .of_allowed (by simpa using hs.listed c (.inl hq))
    · exact Bound.goTo hlist (fun hmem => absurd hmem hq) (by simp)

theorem Bound.pickNext {next : Option Pid} (hs : Bound s P q) : Bound (pickNext c next s) P q := by
  unfold Smp.pickNext
  dsimp only
  split
  · exact hs.goTo (by simp) (by simp)
  · have hswitch : Bound ((s.modCpu c fun r => { r with curr := next }).goTo c
        (.switched (s.cpus c).curr)) P q :=
      Bound.goTo (hs.modCpu (fun _ => rfl) fun _ => id) (by simp) (by simp)
    rw [State.goTo, State.modCpu_modCpu] at hswitch
    cases next with
    | none => exact hswitch
    | some p => exact hswitch.modTask fun _ => ⟨rfl, rfl, rfl⟩

theorem stopCalls_tryToWakeUpLocal : (tryToWakeUpLocal c p s).stopCalls = s.stopCalls := by
  unfold tryToWakeUpLocal
  split
  · rfl
  · split <;> rfl

theorem stopCalls_schedTtwuPending (llist : List Pid) (s : State) :
    (schedTtwuPending c llist s).stopCalls = s.stopCalls := by
  induction llist generalizing s with
  | nil => rfl
  | cons p llist ih => exact ih (ttwuDoActivate c p s)

theorem stopCalls_migrateTask {src dest : Nat} :
    (migrateTask p src dest s).stopCalls = s.stopCalls := by
  unfold migrateTask
  split
  · rfl
  split
  · rfl
  split
  · rfl
  split <;> rfl

/-! ### The stoppers

A request goes from the caller to the stopper, and when the stopper has taken it the task is moved,
or did not need it any more.
-/

theorem tasks_migrateTask_of_ne {src dest : Nat} (hq : q ≠ p) :
    (migrateTask p src dest s).tasks q = s.tasks q := by
  unfold migrateTask
  split
  · rfl
  split
  · rfl
  split
  · rfl
  split
  · exact State.tasks_modTask_of_ne (dequeueTask src p s) p (fun t => { t with cpu := dest }) hq
  · rfl

/-- When `__migrate_task` does move the task. -/
theorem migrateTask_eq {src dest : Nat} (hactive : (s.cpus dest).active = true)
    (hcpu : (s.tasks p).cpu = src) (hallowed : (s.tasks p).cpusAllowed dest = true)
    (honRq : (s.tasks p).onRq = true) : migrateTask p src dest s =
      enqueueTask dest p (setTaskCpu dest p (dequeueTask src p s)) := by
  simp [migrateTask, hactive, hcpu, hallowed, honRq]

theorem migrateTask_same {src dest : Nat} (h : (s.tasks p).cpu = src →
    (s.tasks p).cpusAllowed dest = true → (s.tasks p).onRq = false) :
    migrateTask p src dest s = s := by
  unfold migrateTask
  split
  · rfl
  split
  · rfl
  split
  · rfl
  next hcpu hallowed =>
    rw [h (by simpa using hcpu) (by simpa using hallowed)]
    rfl

/-- `stop_one_cpu`, when it queues the request. -/
theorem Bound.handOver {arg : MigrationArg} (hs : Bound s P q) (hP : ∀ d b, P d b → P' d b)
    (hnew : P' c arg) : Bound { s with stopCalls := s.stopCalls.erase (c, arg) } P' q := by
  obtain ⟨hqueued, hlisted, hplaced⟩ := hs
  refine ⟨fun honRq => (hqueued honRq).imp_right ?_, hlisted, hplaced⟩
  rintro ⟨dest, hdest, hdue⟩
  refine ⟨dest, hdest, ?_⟩
  rcases hdue with hcall | hpending
  · by_cases hsame : ((s.tasks q).cpu, (⟨q, dest⟩ : MigrationArg)) = (c, arg)
    · obtain ⟨hcpu, harg⟩ := Prod.mk.inj hsame
      exact .inr (by rw [hcpu, harg]; exact hnew)
    · exact .inl ((List.mem_erase_of_ne hsame).mpr hcall)
  · exact .inr (hP _ _ hpending)

/-- `stop_one_cpu`, when it is refused, and every task that is left there may be. -/
theorem Bound.refuse {arg : MigrationArg} (hl : Fits s q l) (hs : Bound s P q)
    (hsettled : s.settled c = true) :
    Bound { s with stopCalls := s.stopCalls.erase (c, arg) } P q := by
  by_cases hcpu : (s.tasks q).onRq = true ∧ (s.tasks q).cpu = c
  · refine .of_allowed ?_
    rw [hcpu.2]
    exact List.all_eq_true.mp hsettled q (hl.mem_queue_iff.mpr hcpu)
  · obtain ⟨hqueued, hlisted, hplaced⟩ := hs
    refine ⟨fun honRq => (hqueued honRq).imp_right ?_, hlisted, hplaced⟩
    rintro ⟨dest, hdest, hdue⟩
    refine ⟨dest, hdest, hdue.imp_left fun hcall => (List.mem_erase_of_ne ?_).mpr hcall⟩
    intro hsame
    exact hcpu ⟨honRq, (Prod.mk.inj hsame).1⟩

/-- A request that has been taken is only needed while the task is queued there and may be where it
leads. -/
theorem Bound.dropWork {arg : MigrationArg} (hs : Bound s P q)
    (hP : ∀ d b, P d b → d = c ∧ b = arg ∨ P' d b)
    (hdone : arg.task = q → (s.tasks q).onRq = true → (s.tasks q).cpu = c →
      (s.tasks q).cpusAllowed arg.destCpu = true → (s.tasks q).cpusAllowed c = true) :
    Bound s P' q := by
  obtain ⟨hqueued, hlisted, hplaced⟩ := hs
  refine ⟨fun honRq => ?_, hlisted, hplaced⟩
  rcases hqueued honRq with hallowed | ⟨dest, hdest, hcall | hpending⟩
  · exact .inl hallowed
  · exact .inr ⟨dest, hdest, .inl hcall⟩
  · rcases hP _ _ hpending with ⟨hcpu, rfl⟩ | hkept
    · exact .inl (by rw [hcpu]; exact hdone rfl honRq hcpu hdest)
    · exact .inr ⟨dest, hdest, .inr hkept⟩

/-- `migration_cpu_stop`. -/
theorem Bound.migrate {arg : MigrationArg} (hs : Bound s P q)
    (hP : ∀ d b, P d b → d = c ∧ b = arg ∨ P' d b)
    (hactive : (s.cpus arg.destCpu).active = true) :
    Bound (migrateTask arg.task c arg.destCpu s) P' q := by
  by_cases hq : q = arg.task
  · subst hq
    by_cases hmoves : (s.tasks arg.task).cpu = c ∧
        (s.tasks arg.task).cpusAllowed arg.destCpu = true ∧ (s.tasks arg.task).onRq = true
    · obtain ⟨hcpu, hallowed, honRq⟩ := hmoves
      rw [migrateTask_eq hactive hcpu hallowed honRq]
      exact .of_allowed (by simpa using hallowed)
    · have hstay := hs.dropWork hP fun _ honRq hcpu hallowed =>
        absurd ⟨hcpu, hallowed, honRq⟩ hmoves
      rwa [migrateTask_same]
      intro hcpu hallowed
      by_contra honRq
      exact hmoves ⟨hcpu, hallowed, by simpa using honRq⟩
  · have hstay := hs.dropWork hP fun h => absurd h.symm hq
    exact hstay.of_steady (fun _ => Steady.binding.migrateTask) stopCalls_migrateTask
      (tasks_migrateTask_of_ne hq)

/-- The works of a dead CPU are dropped, where every task that is left may be. -/
theorem Bound.dropAll (hl : Fits s q l) (hs : Bound s P q) (hP : ∀ d b, d ≠ c → P d b → P' d b)
    (hsettled : s.settled c = true) : Bound s P' q := by
  obtain ⟨hqueued, hlisted, hplaced⟩ := hs
  refine ⟨fun honRq => ?_, hlisted, hplaced⟩
  by_cases hcpu : (s.tasks q).cpu = c
  · refine .inl ?_
    rw [hcpu]
    exact List.all_eq_true.mp hsettled q (hl.mem_queue_iff.mpr ⟨honRq, hcpu⟩)
  · refine (hqueued honRq).imp_right ?_
    rintro ⟨dest, hdest, hdue⟩
    exact ⟨dest, hdest, hdue.imp_right (hP _ _ hcpu)⟩

/-! ### What a step does

A wake-up chooses a CPU that the mask allows, and a task that is moved goes where it may.  What is
left to the caller is the mask of a task in `TASK_WAKING`, which has chosen and is not queued.
-/

theorem Bound.of_effect (hinv : Inv s) (hs : Bound s P q) (hstops : a.stops = false)
    (hcareful : ∀ p newMask, a = .setCpusAllowedPtr p newMask →
      (s.tasks p).state ≠ taskWaking ∨ newMask (s.tasks p).cpu = true)
    (h : Effect m c s a t) : Bound t P q := by
  obtain ⟨l, hl⟩ := hinv q
  obtain ⟨l', -, hl'⟩ := Moves.of_effect h q l hl
  cases h with
  | wakeFail => exact Bound.goTo hs (by simp) (by simp)
  | wakeLock => exact Bound.goTo (hs.modTask fun _ => ⟨rfl, rfl, rfl⟩) (by simp) (by simp)
  | @wakeRead _ p pc _ hnew =>
      refine Bound.goTo hs ?_ ?_
      · cases pc <;> simp_all
      · rintro e rfl
        cases hnew
  | wakeRemote =>
      refine Bound.goTo (Bound.modTask (Bound.modTask hs ?_) ?_) (by simp) (by simp) <;>
        exact fun _ => ⟨rfl, rfl, rfl⟩
  | wakePlace => exact Bound.goTo (hs.modTask fun _ => ⟨rfl, rfl, rfl⟩) (by simp) (by simp)
  | @wakeSelect _ p cpu mask _ hmask =>
      by_cases hq : q = p
      · subst hq
        exact .of_allowed (by simpa [doSetCpusAllowed] using hmask)
      · refine Bound.goTo (hs.of_steady (fun _ => rfl) rfl ?_) (by simp) (by simp [Ne.symm hq])
        simp [doSetCpusAllowed, State.tasks_modTask_of_ne _ _ _ hq]
  | @wakeListFirst _ p cpu hpc =>
      by_cases hq : q = p
      · subst hq
        exact .of_allowed (by simpa using hs.placed c cpu hpc)
      · refine Bound.goTo (hs.modCpu ?_ (by simp [hq])) (by simp) (by simp)
        exact fun _ => rfl
  | @wakeList _ p cpu hpc =>
      by_cases hq : q = p
      · subst hq
        exact .of_allowed (by simpa using hs.placed c cpu hpc)
      · refine Bound.goTo (Bound.modTask (hs.modCpu ?_ (by simp [hq])) ?_) (by simp) (by simp)
        · exact fun _ => rfl
        · exact fun _ => ⟨rfl, rfl, rfl⟩
  | @wakeDirect _ p cpu hpc =>
      by_cases hq : q = p
      · subst hq
        exact .of_allowed (by simpa using hs.placed c cpu hpc)
      · refine Bound.goTo (Bound.modTask (f := fun u => { u with piLock := none })
          (hs.of_steady ?_ rfl ?_) ?_) (by simp) (by simp)
        · exact fun _ => Steady.binding.ttwuDoActivate
        · exact tasks_ttwuDoActivate_of_ne hq
        · exact fun _ => ⟨rfl, rfl, rfl⟩
  | wakeSend =>
      refine Bound.goTo (Bound.modTask (hs.modCpu ?_ fun _ => id) ?_) (by simp) (by simp)
      · exact fun _ => rfl
      · exact fun _ => ⟨rfl, rfl, rfl⟩
  | fork =>
      by_cases hq : q = s.nextPid
      · subst hq
        exact .of_idle hl' (by simp [schedFork]) (by simp [schedFork, taskRunning, taskWaking])
      · exact hs.of_steady (fun _ => rfl) rfl (by simp [schedFork, hq])
  | @start _ p cpu mask _ _ _ hmask =>
      by_cases hq : q = p
      · subst hq
        exact .of_allowed (by simpa [doSetCpusAllowed] using hmask)
      · refine hs.of_steady (fun _ => Steady.binding.activateTask) rfl ?_
        simp [doSetCpusAllowed, State.tasks_modTask_of_ne _ _ _ hq]
  | setCurrentState => exact hs.modTask fun _ => ⟨rfl, rfl, rfl⟩
  | testCondition => exact hs.modTask fun _ => by split <;> exact ⟨rfl, rfl, rfl⟩
  | setFrozen => exact hs.modTask fun _ => ⟨rfl, rfl, rfl⟩
  | doExit => exact hs.modTask fun _ => ⟨rfl, rfl, rfl⟩
  | retract => exact hs.modTask fun _ => ⟨rfl, rfl, rfl⟩
  | signal => exact Bound.goTo (hs.modTask fun _ => ⟨rfl, rfl, rfl⟩) (by simp) (by simp)
  | callWake => exact Bound.goTo hs (by simp) (by simp)
  | ipi => exact hs.schedulerIpi
  | pendingDone => exact hs.goTo (by simp) (by simp)
  | @pending p llist hpc =>
      by_cases hq : q = p
      · subst hq
        have hallowed := hs.listed c (.inr (by simp [hpc]))
        exact .of_allowed (by simpa using hallowed)
      · refine Bound.goTo (hs.of_steady ?_ rfl (tasks_ttwuDoActivate_of_ne hq)) ?_ (by simp)
        · exact fun _ => Steady.binding.ttwuDoActivate
        · intro hmem
          rw [pc_ttwuDoActivate, hpc]
          exact List.mem_cons_of_mem _ hmem
  | schedYield => exact Bound.goTo hs (by simp) (by simp)
  | schedSignal => exact Bound.goTo (hs.modTask fun _ => ⟨rfl, rfl, rfl⟩) (by simp) (by simp)
  | @schedBlock _ _ _ p hpc hcurr =>
      by_cases hq : q = p
      · subst hq
        rw [hl.running hcurr (by rw [hpc]; rfl)] at hl
        have hwaking : (s.tasks q).state ≠ taskWaking := fun h => by cases hl.task.waking.mp h
        exact .of_idle hl' (by simp) (by simpa using hwaking)
      · refine Bound.goTo (hs.of_steady (fun _ => Steady.binding.deactivateTask) rfl ?_)
          (by simp) (by simp)
        simp [State.tasks_modTask_of_ne _ _ _ hq]
  | @wakeLocal p hpc hcpu hallowed =>
      by_cases hq : q = p
      · subst hq
        refine .of_allowed ?_
        rw [field_tryToWakeUpLocal Task.cpusAllowed (fun _ => rfl) fun _ => rfl,
          field_tryToWakeUpLocal Task.cpu (fun _ => rfl) fun _ => rfl, hcpu]
        exact hallowed
      · refine hs.of_steady (fun _ => Steady.binding.tryToWakeUpLocal) stopCalls_tryToWakeUpLocal ?_
        unfold tryToWakeUpLocal
        split
        · rfl
        · split <;> simp [State.tasks_modTask_of_ne _ _ _ hq, ttwuActivate]
  | dropLock => exact Bound.goTo hs (by simp) (by simp)
  | retakeLock => exact Bound.goTo hs (by simp) (by simp)
  | pick => exact hs.pickNext
  | finishRead => exact Bound.goTo hs (by simp) (by simp)
  | @finishClear prev =>
      have hgo : ∀ prevState, Bound (s.goTo c (.unlocking prev prevState)) P q :=
        fun _ => Bound.goTo hs (by simp) (by simp)
      cases prev with
      | none => exact hgo _
      | some p =>
          rw [Option.elim_some]
          refine Bound.modTask (hgo _) ?_
          exact fun _ => ⟨rfl, rfl, rfl⟩
  | @finishUnlock prev prevState =>
      have hgo : Bound (s.goTo c .run) P q := Bound.goTo hs (by simp) (by simp)
      cases prev with
      | none => exact hgo
      | some p =>
          rw [Option.elim_some]
          split
          · refine Bound.modTask hgo ?_
            exact fun _ => ⟨rfl, rfl, rfl⟩
          · exact hgo
  | @move p src dest _ _ _ _ _ _ _ hallowed =>
      by_cases hq : q = p
      · subst hq
        exact .of_allowed (by simpa [moveTask] using hallowed)
      · refine hs.of_steady (fun _ => Steady.binding.moveTask) rfl ?_
        simp [moveTask, State.tasks_modTask_of_ne _ _ _ hq]
  | same => exact hs
  | @setAllowed p newMask _ _ _ _ hstay =>
      by_cases hq : q = p
      · subst hq
        by_cases hallowed : newMask (s.tasks q).cpu = true
        · exact .of_allowed (by simpa [doSetCpusAllowed] using hallowed)
        · have hwaking := (hcareful q newMask rfl).resolve_right hallowed
          refine .of_idle hl' ?_ (by simpa [doSetCpusAllowed] using hwaking)
          simpa [doSetCpusAllowed] using hstay.resolve_left hallowed
      · exact hs.congr (binding_modTask_of_ne hq)
  | @setAllowedMove p newMask dest _ _ _ _ honRq hdest =>
      by_cases hq : q = p
      · subst hq
        refine .of_queued hl' (by simpa [doSetCpusAllowed] using honRq) (.inr ⟨dest, ?_, .inl ?_⟩)
        · simpa [doSetCpusAllowed] using hdest
        · simp [Smp.callStopper, doSetCpusAllowed]
      · exact (hs.congr (binding_modTask_of_ne hq)).callStopper
  | exec => exact hs.callStopper
  | handOver => cases hstops
  | stop => cases hstops
  | setActive => exact hs.modCpu (fun _ => rfl) fun _ => id
  | up => exact hs.modCpu (fun _ => rfl) fun _ => id
  | dying =>
      by_cases hq : q ∈ (s.cpus c).wakeList
      · exact .of_allowed (by simpa [tasks_schedTtwuPending, hq] using hs.listed c (.inl hq))
      · have hlist := hs.modCpu (c := c) (g := fun r => { r with online := false, wakeList := [] })
          (fun _ => rfl) (by simp)
        refine Bound.goTo (hlist.of_steady ?_ ?_ ?_) (by simp) (by simp)
        · exact fun _ => Steady.binding.schedTtwuPending _ _
        · exact stopCalls_schedTtwuPending _ _
        · exact (tasks_schedTtwuPending _ _ _).trans (if_neg hq)
  | idleTurn => exact hs
  | @migrateNext p mask dest _ hqueue _ hmask husable =>
      by_cases hq : q = p
      · subst hq
        obtain ⟨honRq, hhome⟩ := hl.mem_queue_iff.mp hqueue
        rw [migrateTask_eq]
        · exact .of_allowed (by simpa [doSetCpusAllowed] using hmask)
        · exact (Bool.and_eq_true_iff.mp husable).2
        · simpa [doSetCpusAllowed] using hhome
        · simpa [doSetCpusAllowed] using hmask
        · simpa [doSetCpusAllowed] using honRq
      · refine hs.of_steady (fun _ => Steady.binding.migrateTask) stopCalls_migrateTask ?_
        rw [tasks_migrateTask_of_ne hq]
        exact State.tasks_modTask_of_ne _ _ _ hq
  | dead =>
      refine Bound.goTo (hs.of_steady ?_ rfl rfl) (by simp) (by simp)
      exact fun _ => Steady.binding.migrateNrUninterruptible

theorem bound_boot : Bound boot P q := ⟨nofun, nofun, nofun⟩

/-! ### Runs with the stoppers

The condition on a step of the system is one that the code does not check.  The rest follows from
what the machine does, as a step of the system is one of the machine, or drops works.
-/

namespace Stopper

variable {k : Stopper} {x y : State × k.Works} {e : Event}

/-- What of the steps a task's CPU depends on: the mask leaves a task that has chosen its CPU there,
a request is taken while it can be met, and none is lost on a CPU where it is needed. -/
def careful (k : Stopper) (x : State × k.Works) : Event → Bool
  | .act _ (.setCpusAllowedPtr p newMask) =>
    (x.1.tasks p).state ≠ taskWaking || newMask (x.1.tasks p).cpu
  | .act _ (.stopOneCpu cpu arg) => (k.stopOneCpu cpu arg x.2).isSome || x.1.settled cpu
  | .act _ (.migrationCpuStop arg) => (x.1.cpus arg.destCpu).active
  | .dropWorks cpu => x.1.settled cpu
  | _ => true

/-- What a step of the system is. -/
inductive StepCase (k : Stopper) (m : Machine) (x y : State × k.Works) : Event → Prop
  | act {c : Nat} {a : Act} (hstops : a.stops = false) (hstep : Smp.step m x.1 (c, a) = some y.1)
      (hworks : y.2 = x.2) : StepCase k m x y (.act c a)
  | handOver {c cpu : Nat} {arg : MigrationArg}
      (hstep : y.1 = { x.1 with stopCalls := x.1.stopCalls.erase (cpu, arg) })
      (hworks : y.2 = (k.stopOneCpu cpu arg x.2).getD x.2) :
      StepCase k m x y (.act c (.stopOneCpu cpu arg))
  | migrate {c : Nat} {arg : MigrationArg}
      (hstep : y.1 = migrateTask arg.task c arg.destCpu x.1)
      (hworks : k.next c x.2 = some (arg, y.2)) :
      StepCase k m x y (.act c (.migrationCpuStop arg))
  | drop {cpu : Nat} (hstep : y.1 = x.1) (hworks : y.2 = k.drop cpu x.2) :
      StepCase k m x y (.dropWorks cpu)

/-- A step of the system is one of the machine, or leaves it alone. -/
theorem machine_of_step (h : k.step m x e = some y) :
    y.1 = x.1 ∨ ∃ c a, e = .act c a ∧ Smp.step m x.1 (c, a) = some y.1 := by
  unfold step at h
  split at h
  · obtain ⟨s, hstep, rfl⟩ := Option.map_eq_some_iff.mp h
    exact .inr ⟨_, _, rfl, hstep⟩
  · obtain ⟨work, -, h⟩ := Option.bind_eq_some_iff.mp h
    obtain ⟨-, h⟩ := Option.ite_none_right_eq_some.mp h
    obtain ⟨s, hstep, rfl⟩ := Option.map_eq_some_iff.mp h
    exact .inr ⟨_, _, rfl, hstep⟩
  · obtain ⟨s, hstep, rfl⟩ := Option.map_eq_some_iff.mp h
    exact .inr ⟨_, _, rfl, hstep⟩
  · obtain ⟨-, h⟩ := Option.ite_none_left_eq_some.mp h
    cases h
    exact .inl rfl

theorem step_cases (h : k.step m x e = some y) : StepCase k m x y e := by
  unfold step at h
  split at h
  · obtain ⟨s, hstep, rfl⟩ := Option.map_eq_some_iff.mp h
    refine .handOver ?_ rfl
    cases (effect_of_step hstep).2.2 with
    | same _ _ hstops => cases hstops
    | handOver => rfl
  · obtain ⟨⟨b, w⟩, hnext, h⟩ := Option.bind_eq_some_iff.mp h
    obtain ⟨rfl, h⟩ := Option.ite_none_right_eq_some.mp h
    obtain ⟨s, hstep, rfl⟩ := Option.map_eq_some_iff.mp h
    refine .migrate ?_ hnext
    cases (effect_of_step hstep).2.2 with
    | same _ _ hstops => cases hstops
    | stop => rfl
  · next c a hstop hmigrate =>
    obtain ⟨s, hstep, rfl⟩ := Option.map_eq_some_iff.mp h
    refine .act ?_ hstep rfl
    cases a with
    | stopOneCpu cpu arg => exact absurd rfl (hstop cpu arg)
    | migrationCpuStop arg => exact absurd rfl (hmigrate arg)
    | _ => rfl
  · obtain ⟨-, h⟩ := Option.ite_none_left_eq_some.mp h
    cases h
    exact .drop rfl rfl

/-- What the machine and its stoppers keep. -/
def Sound (k : Stopper) (x : State × k.Works) : Prop :=
  Inv x.1 ∧ ∀ q, Bound x.1 (k.Pending x.2) q

theorem sound_step (hx : k.Sound x) (hcareful : k.careful x e = true) (h : k.step m x e = some y) :
    k.Sound y := by
  obtain ⟨hinv, hs⟩ := hx
  constructor
  · rcases machine_of_step h with heq | ⟨c, a, -, hstep⟩
    · rwa [heq]
    · exact hinv.moves (.of_effect (effect_of_step hstep).2.2)
  intro q
  obtain ⟨l, hl⟩ := hinv q
  cases step_cases h with
  | @act c a hstops hstep hworks =>
      rw [hworks]
      refine (hs q).of_effect hinv hstops ?_ (effect_of_step hstep).2.2
      rintro p newMask rfl
      simpa [careful] using hcareful
  | @handOver c cpu arg hstep hworks =>
      rw [hstep, hworks]
      cases hasked : k.stopOneCpu cpu arg x.2 with
      | none => exact (hs q).refuse hl (by simpa [careful, hasked] using hcareful)
      | some w =>
          refine (hs q).handOver ?_ (k.pending_queued hasked)
          exact fun _ _ => k.pending_stopOneCpu hasked
  | migrate hstep hworks =>
      rw [hstep]
      exact (hs q).migrate (fun _ _ => k.pending_next hworks) hcareful
  | drop hstep hworks =>
      rw [hstep, hworks]
      exact (hs q).dropAll hl (fun _ _ hne => k.pending_drop hne) hcareful

theorem sound_of_run {tr : List ((State × k.Works) × Event)}
    (h : Run (k.step m) (boot, k.idle) tr x) (hcareful : ∀ e ∈ tr, k.careful e.1 e.2 = true) :
    k.Sound x :=
  (h.invariant k.Sound (fun x e => k.careful x e = true) (fun _ _ _ hx ho hstep =>
    sound_step hx ho hstep) ⟨inv_boot, fun _ => bound_boot⟩ hcareful).1

end Stopper

/-- **A task on a run queue may be there, or its stopper has been asked to move it to where it may
be, or is about to be**, in a run whose steps are careful; and no wake list holds a task that may not
be where it is. -/
theorem affinity_kept {k : Stopper} {tr : List ((State × k.Works) × Event)} {x : State × k.Works}
    (h : Run (k.step m) (boot, k.idle) tr x) (hcareful : ∀ e ∈ tr, k.careful e.1 e.2 = true)
    (q : Pid) :
    (∀ c, q ∈ (x.1.cpus c).queue → (x.1.tasks q).cpusAllowed c = true ∨
      ∃ dest, (x.1.tasks q).cpusAllowed dest = true ∧
        ((c, ⟨q, dest⟩) ∈ x.1.stopCalls ∨ k.Pending x.2 c ⟨q, dest⟩)) ∧
    ∀ c, q ∈ (x.1.cpus c).wakeList → (x.1.tasks q).cpusAllowed c = true := by
  obtain ⟨hinv, hbound⟩ := Stopper.sound_of_run h hcareful
  obtain ⟨l, hl⟩ := hinv q
  constructor
  · intro c hqueue
    obtain ⟨honRq, rfl⟩ := hl.mem_queue_iff.mp hqueue
    exact (hbound q).queued honRq
  · intro c hlist
    have hallowed := (hbound q).listed c (.inl hlist)
    rw [hl.mem_lists.mp (.inl hlist)] at hl
    rwa [hl.task.home c rfl] at hallowed

/-- Stoppers with a list of works each, in the order in which they came. -/
def Stopper.fifo : Stopper where
  Works := Nat → List MigrationArg
  idle _ := []
  stopOneCpu cpu arg w := some (Function.update w cpu (w cpu ++ [arg]))
  next cpu w := match w cpu with
    | [] => none
    | arg :: rest => some (arg, Function.update w cpu rest)
  drop cpu w := Function.update w cpu []
  Pending w c b := b ∈ w c
  pending_queued := by
    rintro w w' cpu arg ⟨⟩
    simp
  pending_stopOneCpu := by
    rintro w w' cpu arg c b ⟨⟩ hb
    by_cases hc : c = cpu
    · subst hc
      simp [hb]
    · simpa [hc] using hb
  pending_next := by
    intro w w' cpu arg c b h hb
    split at h
    · cases h
    · next arg' rest hlist =>
      cases h
      by_cases hc : c = cpu
      · subst hc
        rw [hlist] at hb
        exact (List.mem_cons.mp hb).imp (⟨rfl, ·⟩) fun hmem => by simpa using hmem
      · exact .inr (by simpa [hc] using hb)
  pending_drop := by
    intro w cpu c b hc hb
    simpa [hc] using hb

/-- A list of steps of the machine. -/
def events (l : List (Nat × Act)) : List Event := l.map fun e => .act e.1 e.2

/-- The second CPU is to have the first task, and the stopper of the first has been told. -/
theorem affinity_kept_moved :
    ∃ tr x, Run (Stopper.fifo.step twoCpus) (boot, Stopper.fifo.idle) tr x ∧
      ((∀ e ∈ tr, Stopper.fifo.careful e.1 e.2 = true) ∧
        0 ∈ (x.1.cpus 0).queue ∧ (x.1.tasks 0).cpusAllowed 0 = false ∧ x.1.stopCalls = []) ∧
      (∀ c, 0 ∈ (x.1.cpus c).queue → (x.1.tasks 0).cpusAllowed c = true ∨
        ∃ dest, (x.1.tasks 0).cpusAllowed dest = true ∧
          ((c, ⟨0, dest⟩) ∈ x.1.stopCalls ∨ Stopper.fifo.Pending x.2 c ⟨0, dest⟩)) ∧
      ∀ c, 0 ∈ (x.1.cpus c).wakeList → (x.1.tasks 0).cpusAllowed c = true := by
  have htrace : ((Run.trace (Stopper.fifo.step twoCpus) (boot, Stopper.fifo.idle)
      (events (firstTask ++ [(1, .setCpusAllowedPtr 0 fun cpu => cpu = 1),
        (1, .stopOneCpu 0 ⟨0, 1⟩)]))).any fun r =>
      decide ((∀ e ∈ r.1, Stopper.fifo.careful e.1 e.2 = true) ∧ 0 ∈ (r.2.1.cpus 0).queue ∧
        (r.2.1.tasks 0).cpusAllowed 0 = false ∧ r.2.1.stopCalls = [])) = true := by decide +kernel
  obtain ⟨⟨tr, x⟩, hrun, hmoved⟩ := Run.exists_of_trace htrace
  exact ⟨tr, x, hrun, hmoved, affinity_kept hrun hmoved.1 0⟩

/-- **A task on a wake list can be left where it may not be**: `set_cpus_allowed_ptr` finds it off
the run queue and asks nobody, and the list is put on the run queue later. -/
theorem stray_reachable :
    ∃ x, Run.Reachable (Stopper.fifo.step twoCpus) (boot, Stopper.fifo.idle) x ∧
      0 ∈ (x.1.cpus 0).queue ∧ (x.1.tasks 0).cpusAllowed 0 = false ∧
      x.1.stopCalls = [] ∧ ∀ arg, ¬ Stopper.fifo.Pending x.2 0 arg := by
  have hexec : ((Run.exec (Stopper.fifo.step twoCpus) (boot, Stopper.fifo.idle) (events (waking ++
      [(1, .tryToWakeUp 0), (1, .setCpusAllowedPtr 0 fun cpu => cpu = 1), (0, .schedulerIpi),
        (0, .schedTtwuPending)]))).any fun x => decide (0 ∈ (x.1.cpus 0).queue ∧
        (x.1.tasks 0).cpusAllowed 0 = false ∧ x.1.stopCalls = [] ∧ x.2 0 = [])) = true := by
    decide +kernel
  obtain ⟨x, hx, hqueue, hmask, hcalls, hworks⟩ := Run.exists_of_exec hexec
  refine ⟨x, hx, hqueue, hmask, hcalls, fun arg hpending => ?_⟩
  have hmem : arg ∈ x.2 0 := hpending
  rw [hworks] at hmem
  cases hmem

end WrrScheduler.Smp
