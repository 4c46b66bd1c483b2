/-
What the operations write.

A task and a CPU are written one at a time, so that everything else of the state is as
it was; and of a field that an operation does not name nothing changes.
-/
import WrrScheduler.Kernel.SmpStep

namespace WrrScheduler.Smp

/-! ### Writing a task or a CPU -/

namespace State

variable (s : State) (p q : Pid) (c d : Nat) (f : Task → Task) (g : Cpu → Cpu) (pc : Pc)

@[simp] theorem tasks_modCpu : (s.modCpu c g).tasks = s.tasks := rfl
@[simp] theorem cpus_modTask : (s.modTask p f).cpus = s.cpus := rfl
@[simp] theorem nextPid_modCpu : (s.modCpu c g).nextPid = s.nextPid := rfl
@[simp] theorem nextPid_modTask : (s.modTask p f).nextPid = s.nextPid := rfl

@[simp] theorem tasks_modTask_self : (s.modTask p f).tasks p = f (s.tasks p) :=
  Function.update_self ..

@[simp] theorem cpus_modCpu_self : (s.modCpu c g).cpus c = g (s.cpus c) := Function.update_self ..

/-- Writing a task twice. -/
theorem modTask_modTask (f' : Task → Task) :
    (s.modTask p f).modTask p f' = s.modTask p (f' ∘ f) := by
  simp [modTask, Function.update_idem]

/-- Writing a CPU twice. -/
theorem modCpu_modCpu (g' : Cpu → Cpu) :
    (s.modCpu c g).modCpu c g' = s.modCpu c (g' ∘ g) := by
  simp [modCpu, Function.update_idem]

variable {q d}

theorem tasks_modTask_of_ne (h : q ≠ p) : (s.modTask p f).tasks q = s.tasks q :=
  Function.update_of_ne h ..

theorem cpus_modCpu_of_ne (h : d ≠ c) : (s.modCpu c g).cpus d = s.cpus d :=
  Function.update_of_ne h ..

@[simp] theorem tasks_goTo : (s.goTo c pc).tasks = s.tasks := rfl
@[simp] theorem nextPid_goTo : (s.goTo c pc).nextPid = s.nextPid := rfl

@[simp] theorem cpus_goTo_self : (s.goTo c pc).cpus c = { s.cpus c with pc := pc } :=
  cpus_modCpu_self ..

@[simp] theorem goTo_goTo (pc' : Pc) : (s.goTo c pc').goTo c pc = s.goTo c pc := by
  simp [goTo, modCpu, Function.update_idem]

@[simp] theorem modTask_goTo : (s.goTo c pc).modTask p f = (s.modTask p f).goTo c pc := rfl

variable {s c g p f}

/-- What is left alone of a task. -/
theorem field_modTask {β : Type*} (F : Task → β) (hf : ∀ u, F (f u) = F u) :
    F ((s.modTask p f).tasks q) = F (s.tasks q) := by
  by_cases hq : q = p
  · subst hq
    rw [tasks_modTask_self, hf]
  · rw [tasks_modTask_of_ne s p f hq]

/-- What is left alone of a CPU. -/
theorem field_modCpu {β : Type*} (F : Cpu → β) (hg : ∀ r, F (g r) = F r) :
    F ((s.modCpu c g).cpus d) = F (s.cpus d) := by
  by_cases hd : d = c
  · subst hd
    rw [cpus_modCpu_self, hg]
  · rw [cpus_modCpu_of_ne s c g hd]

variable (s c g p f)

theorem pc_modCpu (hg : ∀ r, (g r).pc = r.pc) : ((s.modCpu c g).cpus d).pc = (s.cpus d).pc :=
  field_modCpu Cpu.pc hg

theorem cpus_goTo_of_ne (h : d ≠ c) : (s.goTo c pc).cpus d = s.cpus d := cpus_modCpu_of_ne s c _ h

end State

variable {s : State} {p q : Pid} {c d dest : Nat}

/-! ### What the operations write

Every operation is written with `modTask` and `modCpu`, so these follow from the
lemmas above.  They are stated for the task or CPU an operation is about and,
separately, for all others: no proof below has to look into an operation again.
-/

@[simp] theorem tasks_enqueueTask : (enqueueTask c p s).tasks = s.tasks := rfl
@[simp] theorem tasks_dequeueTask : (dequeueTask c p s).tasks = s.tasks := rfl
@[simp] theorem nextPid_enqueueTask : (enqueueTask c p s).nextPid = s.nextPid := rfl
@[simp] theorem nextPid_dequeueTask : (dequeueTask c p s).nextPid = s.nextPid := rfl
@[simp] theorem tasks_addUninterruptible (n : BitVec 32) :
    (addUninterruptible c n s).tasks = s.tasks := rfl
@[simp] theorem tasks_activateTask : (activateTask c p s).tasks = s.tasks := rfl
@[simp] theorem tasks_deactivateTask : (deactivateTask c p s).tasks = s.tasks := rfl
@[simp] theorem nextPid_activateTask : (activateTask c p s).nextPid = s.nextPid := rfl
@[simp] theorem nextPid_deactivateTask : (deactivateTask c p s).nextPid = s.nextPid := rfl

@[simp] theorem cpus_enqueueTask_self : (enqueueTask c p s).cpus c = { s.cpus c with
    queue := p :: (s.cpus c).queue, nrRunning := (s.cpus c).nrRunning + 1 } := by
  simp [enqueueTask, incNrRunning]

@[simp] theorem cpus_dequeueTask_self : (dequeueTask c p s).cpus c = { s.cpus c with
    queue := (s.cpus c).queue.erase p, nrRunning := (s.cpus c).nrRunning - 1 } := by
  simp [dequeueTask, decNrRunning]

theorem cpus_enqueueTask_of_ne (h : d ≠ c) : (enqueueTask c p s).cpus d = s.cpus d := by
  rw [enqueueTask, incNrRunning, State.cpus_modCpu_of_ne _ _ _ h, State.cpus_modCpu_of_ne _ _ _ h]

theorem cpus_dequeueTask_of_ne (h : d ≠ c) : (dequeueTask c p s).cpus d = s.cpus d := by
  rw [dequeueTask, decNrRunning, State.cpus_modCpu_of_ne _ _ _ h, State.cpus_modCpu_of_ne _ _ _ h]

@[simp] theorem cpus_activateTask_self : (activateTask c p s).cpus c =
    { s.cpus c with
      queue := p :: (s.cpus c).queue
      nrRunning := (s.cpus c).nrRunning + 1
      nrUninterruptible :=
        (s.cpus c).nrUninterruptible + bif (s.tasks p).contributesToLoad then -1 else 0 } := by
  simp [activateTask, decUninterruptible, addUninterruptible]

@[simp] theorem cpus_deactivateTask_self : (deactivateTask c p s).cpus c =
    { s.cpus c with
      queue := (s.cpus c).queue.erase p
      nrRunning := (s.cpus c).nrRunning - 1
      nrUninterruptible :=
        (s.cpus c).nrUninterruptible + bif (s.tasks p).contributesToLoad then 1 else 0 } := by
  simp [deactivateTask, incUninterruptible, addUninterruptible]

theorem cpus_addUninterruptible_of_ne (n : BitVec 32) (h : d ≠ c) :
    (addUninterruptible c n s).cpus d = s.cpus d := s.cpus_modCpu_of_ne c _ h

theorem cpus_activateTask_of_ne (h : d ≠ c) : (activateTask c p s).cpus d = s.cpus d := by
  rw [activateTask, cpus_enqueueTask_of_ne h, decUninterruptible, cpus_addUninterruptible_of_ne _ h]

theorem cpus_deactivateTask_of_ne (h : d ≠ c) : (deactivateTask c p s).cpus d = s.cpus d := by
  rw [deactivateTask, cpus_dequeueTask_of_ne h, incUninterruptible,
    cpus_addUninterruptible_of_ne _ h]

attribute [simp] setOnRq setState setTaskCpu lockPi wakeDone decUninterruptible incUninterruptible

@[simp] theorem nextPid_ttwuDoActivate : (ttwuDoActivate c p s).nextPid = s.nextPid := rfl

@[simp] theorem tasks_ttwuDoActivate_self : (ttwuDoActivate c p s).tasks p =
    { s.tasks p with onRq := true, state := taskRunning } := by
  simp [ttwuDoActivate, ttwuActivate]

theorem tasks_ttwuDoActivate_of_ne (h : q ≠ p) : (ttwuDoActivate c p s).tasks q = s.tasks q := by
  simp [ttwuDoActivate, ttwuActivate, State.tasks_modTask_of_ne _ _ _ h]

@[simp] theorem cpus_ttwuDoActivate_self : (ttwuDoActivate c p s).cpus c =
    { s.cpus c with
      queue := p :: (s.cpus c).queue
      nrRunning := (s.cpus c).nrRunning + 1
      nrUninterruptible := (s.cpus c).nrUninterruptible +
        (bif (s.tasks p).schedContributesToLoad then -1 else 0) +
        bif (s.tasks p).contributesToLoad then -1 else 0 } := by
  simp [ttwuDoActivate, ttwuActivate, addUninterruptible]

theorem cpus_ttwuDoActivate_of_ne (h : d ≠ c) : (ttwuDoActivate c p s).cpus d = s.cpus d := by
  simp [ttwuDoActivate, ttwuActivate, cpus_activateTask_of_ne h, cpus_addUninterruptible_of_ne _ h]

/-! ### The wake list -/

theorem nextPid_schedTtwuPending (llist : List Pid) (s : State) :
    (schedTtwuPending c llist s).nextPid = s.nextPid := by
  induction llist generalizing s with
  | nil => rfl
  | cons p llist ih => exact ih (ttwuDoActivate c p s)

theorem schedTtwuPending_cons (llist : List Pid) : schedTtwuPending c (p :: llist) s =
    schedTtwuPending c llist (ttwuDoActivate c p s) := rfl

/-- What `sched_ttwu_pending` does to a task. -/
theorem tasks_schedTtwuPending (llist : List Pid) (s : State) (q : Pid) :
    (schedTtwuPending c llist s).tasks q =
      if q ∈ llist then { s.tasks q with onRq := true, state := taskRunning } else s.tasks q := by
  induction llist generalizing s with
  | nil => rfl
  | cons p llist ih =>
      rw [schedTtwuPending_cons, ih]
      by_cases hq : q = p
      · subst hq
        simp
      · rw [tasks_ttwuDoActivate_of_ne hq]
        simp [hq]

/-- What it does to its CPU. -/
theorem cpus_schedTtwuPending_self (llist : List Pid) (s : State) :
    ∃ k n, (schedTtwuPending c llist s).cpus c = { s.cpus c with
      queue := llist.reverse ++ (s.cpus c).queue, nrRunning := k, nrUninterruptible := n } := by
  induction llist generalizing s with
  | nil => exact ⟨_, _, rfl⟩
  | cons p llist ih =>
      obtain ⟨k, n, hn⟩ := ih (ttwuDoActivate c p s)
      refine ⟨k, n, ?_⟩
      rw [schedTtwuPending_cons, hn, cpus_ttwuDoActivate_self]
      simp

theorem cpus_schedTtwuPending_of_ne (llist : List Pid) (s : State) (hd : d ≠ c) :
    (schedTtwuPending c llist s).cpus d = s.cpus d := by
  induction llist generalizing s with
  | nil => rfl
  | cons p llist ih => exact (ih (ttwuDoActivate c p s)).trans (cpus_ttwuDoActivate_of_ne hd)

theorem tasks_schedulerIpi : (schedulerIpi c s).tasks = s.tasks := by
  unfold schedulerIpi
  dsimp only
  split <;> rfl

/-! ### What of a task is left alone

A field is a function of a task here, and an operation leaves it alone if the writes
of the operation do. So one lemma for each operation is enough for all fields, and for
whatever a proof makes of several of them.
-/

section

variable {β : Type*}

theorem field_schedTtwuPending (F : Task → β)
    (hF : ∀ u : Task, F { u with onRq := true, state := taskRunning } = F u) (llist : List Pid) :
    F ((schedTtwuPending c llist s).tasks q) = F (s.tasks q) := by
  rw [tasks_schedTtwuPending]
  split
  · exact hF _
  · rfl

theorem field_ttwuDoActivate (F : Task → β)
    (hF : ∀ u : Task, F { u with onRq := true, state := taskRunning } = F u) :
    F ((ttwuDoActivate c p s).tasks q) = F (s.tasks q) :=
  field_schedTtwuPending F hF [p]

theorem field_tryToWakeUpLocal (F : Task → β)
    (honRq : ∀ u : Task, F { u with onRq := true } = F u)
    (hstate : ∀ u : Task, F { u with state := taskRunning } = F u) :
    F ((tryToWakeUpLocal c p s).tasks q) = F (s.tasks q) := by
  unfold tryToWakeUpLocal
  split
  · rfl
  · rw [setState, State.field_modTask F hstate]
    split
    · rfl
    · rw [ttwuActivate, setOnRq, State.field_modTask F honRq, tasks_activateTask]

theorem field_pickNext (F : Task → β) (hF : ∀ u : Task, F { u with onCpu := true } = F u)
    {next : Option Pid} : F ((pickNext c next s).tasks q) = F (s.tasks q) := by
  unfold pickNext
  dsimp only
  split
  · rfl
  · cases next with
    | none => rfl
    | some p => exact State.field_modTask F hF

theorem field_migrateTask (F : Task → β)
    (hF : ∀ (u : Task) (cpu : Nat), F { u with cpu := cpu } = F u) {src : Nat} :
    F ((migrateTask p src dest s).tasks q) = F (s.tasks q) := by
  unfold migrateTask
  split
  · rfl
  split
  · rfl
  split
  · rfl
  split
  · exact State.field_modTask (s := dequeueTask src p s) F fun u => hF u dest
  · rfl

end

/-! ### What of a CPU is left alone -/

/-- It does not depend on the queue, nor on the two counters. -/
structure Steady {β : Type*} (F : Cpu → β) : Prop where
  queue : ∀ (r : Cpu) (l : List Pid), F { r with queue := l } = F r
  nrRunning : ∀ (r : Cpu) (n : BitVec 32), F { r with nrRunning := n } = F r
  nrUninterruptible : ∀ (r : Cpu) (n : BitVec 32), F { r with nrUninterruptible := n } = F r

namespace Steady

theorem pc : Steady Cpu.pc := ⟨fun _ _ => rfl, fun _ _ => rfl, fun _ _ => rfl⟩

theorem curr : Steady Cpu.curr := ⟨fun _ _ => rfl, fun _ _ => rfl, fun _ _ => rfl⟩

variable {β : Type*} {F : Cpu → β} (hF : Steady F)

include hF

theorem enqueueTask : F ((enqueueTask c p s).cpus d) = F (s.cpus d) :=
  (State.field_modCpu F fun r => hF.nrRunning r _).trans
    (State.field_modCpu F fun r => hF.queue r _)

theorem dequeueTask : F ((dequeueTask c p s).cpus d) = F (s.cpus d) :=
  (State.field_modCpu F fun r => hF.nrRunning r _).trans
    (State.field_modCpu F fun r => hF.queue r _)

theorem addUninterruptible {n : BitVec 32} : F ((addUninterruptible c n s).cpus d) = F (s.cpus d) :=
  State.field_modCpu F fun r => hF.nrUninterruptible r _

theorem activateTask : F ((activateTask c p s).cpus d) = F (s.cpus d) :=
  hF.enqueueTask.trans hF.addUninterruptible

theorem deactivateTask : F ((deactivateTask c p s).cpus d) = F (s.cpus d) :=
  hF.dequeueTask.trans hF.addUninterruptible

theorem ttwuActivate : F ((ttwuActivate c p s).cpus d) = F (s.cpus d) := hF.activateTask

theorem ttwuDoActivate : F ((ttwuDoActivate c p s).cpus d) = F (s.cpus d) :=
  hF.ttwuActivate.trans hF.addUninterruptible

theorem schedTtwuPending (llist : List Pid) (s : State) :
    F ((schedTtwuPending c llist s).cpus d) = F (s.cpus d) := by
  induction llist generalizing s with
  | nil => rfl
  | cons p llist ih => exact (ih _).trans hF.ttwuDoActivate

theorem tryToWakeUpLocal : F ((tryToWakeUpLocal c p s).cpus d) = F (s.cpus d) := by
  unfold Smp.tryToWakeUpLocal
  split
  · rfl
  · rw [setState, State.cpus_modTask]
    split
    · rfl
    · exact hF.ttwuActivate

theorem moveTask {src : Nat} : F ((moveTask src dest p s).cpus d) = F (s.cpus d) :=
  hF.activateTask.trans hF.deactivateTask

theorem migrateTask {src : Nat} : F ((migrateTask p src dest s).cpus d) = F (s.cpus d) := by
  unfold Smp.migrateTask
  split
  · rfl
  split
  · rfl
  split
  · rfl
  split
  · exact hF.enqueueTask.trans hF.dequeueTask
  · rfl

theorem migrateNrUninterruptible {src : Nat} :
    F ((migrateNrUninterruptible src dest s).cpus d) = F (s.cpus d) :=
  (State.field_modCpu F fun r => hF.nrUninterruptible r _).trans hF.addUninterruptible

end Steady

/-! ### Program counters -/

namespace State

variable {pc : Pc}

theorem pc_goTo_of_ne (h : d ≠ c) : ((s.goTo c pc).cpus d).pc = (s.cpus d).pc := by
  rw [cpus_goTo_of_ne s c pc h]

@[simp] theorem pc_goTo_self : ((s.goTo c pc).cpus c).pc = pc := by
  rw [cpus_goTo_self]

end State

@[simp] theorem pc_activateTask : ((activateTask c p s).cpus d).pc = (s.cpus d).pc :=
  Steady.pc.activateTask

@[simp] theorem pc_deactivateTask : ((deactivateTask c p s).cpus d).pc = (s.cpus d).pc :=
  Steady.pc.deactivateTask

@[simp] theorem pc_ttwuDoActivate : ((ttwuDoActivate c p s).cpus d).pc = (s.cpus d).pc :=
  Steady.pc.ttwuDoActivate

@[simp] theorem pc_schedTtwuPending (llist : List Pid) :
    ((schedTtwuPending c llist s).cpus d).pc = (s.cpus d).pc :=
  Steady.pc.schedTtwuPending llist s

@[simp] theorem pc_tryToWakeUpLocal : ((tryToWakeUpLocal c p s).cpus d).pc = (s.cpus d).pc :=
  Steady.pc.tryToWakeUpLocal

@[simp] theorem pc_moveTask {src : Nat} : ((moveTask src dest p s).cpus d).pc = (s.cpus d).pc :=
  Steady.pc.moveTask

@[simp] theorem pc_migrateTask {src : Nat} :
    ((migrateTask p src dest s).cpus d).pc = (s.cpus d).pc :=
  Steady.pc.migrateTask

@[simp] theorem pc_migrateNrUninterruptible {src : Nat} :
    ((migrateNrUninterruptible src dest s).cpus d).pc = (s.cpus d).pc :=
  Steady.pc.migrateNrUninterruptible

@[simp] theorem tasks_callStopper {arg : MigrationArg} :
    (callStopper c arg s).tasks = s.tasks := rfl
@[simp] theorem cpus_callStopper {arg : MigrationArg} : (callStopper c arg s).cpus = s.cpus := rfl

theorem pc_schedulerIpi_of_ne (h : d ≠ c) : ((schedulerIpi c s).cpus d).pc = (s.cpus d).pc := by
  unfold schedulerIpi
  dsimp only
  split
  · exact s.pc_modCpu c _ fun _ => rfl
  · rw [State.pc_goTo_of_ne h]
    exact s.pc_modCpu c _ fun _ => rfl

theorem pc_pickNext_of_ne {next : Option Pid} (h : d ≠ c) :
    ((pickNext c next s).cpus d).pc = (s.cpus d).pc := by
  unfold pickNext
  dsimp only
  split
  · exact State.pc_goTo_of_ne h
  · cases next <;> simp [State.cpus_modCpu_of_ne, h]

theorem pc_pickNext (next : Option Pid) : ((pickNext c next s).cpus c).pc = .run ∨
    ((pickNext c next s).cpus c).pc = .switched (s.cpus c).curr := by
  unfold pickNext
  dsimp only
  split
  · exact .inl State.pc_goTo_self
  · cases next <;> simp

end WrrScheduler.Smp
