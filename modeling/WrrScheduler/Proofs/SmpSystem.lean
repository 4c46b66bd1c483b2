/-
What the CPUs owe each other.

A CPU that puts a task on the wake list of another sends it an interrupt; a CPU that
goes down leaves one behind that can be used; and while `stop_machine` holds the
others, none of them is in the middle of anything.

These are facts about the CPUs, not about the tasks, and hardly any step touches
what they speak of: which CPUs are online and active, the wake lists and the
interrupts.  That is the port of a CPU.  A step that leaves all ports alone keeps
the invariant if the CPU that takes it goes to a place where it owes no more than
before, and only the steps of a remote wake-up and of CPU hotplug need more than
that.
-/
import WrrScheduler.Proofs.SmpWakeup

namespace WrrScheduler.Smp

variable {m : Machine} {s t : State} {p : Pid} {c d : Nat} {a : Act}

/-! ### What the CPUs see of each other

The operations on queues and tasks write no port.  Each is shown once, so that `simp`
can tell of most steps that no other CPU sees them.
-/

/-- What other CPUs and the code for CPU hotplug read of a CPU. -/
structure Port where
  online : Bool
  active : Bool
  wakeList : List Pid
  ipi : Bool

/-- The port of a CPU. -/
def Cpu.port (r : Cpu) : Port := ⟨r.online, r.active, r.wakeList, r.ipi⟩

/-- The ports of all CPUs, and whom `stop_machine` works for. -/
def State.ports (s : State) : (Nat → Port) × Option Nat := (fun c => (s.cpus c).port, s.stopMachine)

theorem Steady.port : Steady Cpu.port := ⟨fun _ _ => rfl, fun _ _ => rfl, fun _ _ => rfl⟩

@[simp] theorem stopMachine_modCpu {g : Cpu → Cpu} :
    (s.modCpu c g).stopMachine = s.stopMachine := rfl

theorem ports_eq (hport : ∀ d, (t.cpus d).port = (s.cpus d).port)
    (hstop : t.stopMachine = s.stopMachine) : t.ports = s.ports :=
  Prod.ext (funext hport) hstop

theorem ports_modCpu {g : Cpu → Cpu} (hg : ∀ r, (g r).port = r.port) :
    (s.modCpu c g).ports = s.ports :=
  ports_eq (fun _ => State.field_modCpu Cpu.port hg) rfl

@[simp] theorem ports_modTask {f : Task → Task} : (s.modTask p f).ports = s.ports := rfl

@[simp] theorem ports_goTo {pc : Pc} : (s.goTo c pc).ports = s.ports := ports_modCpu fun _ => rfl

@[simp] theorem ports_activateTask : (activateTask c p s).ports = s.ports :=
  ports_eq (fun _ => Steady.port.activateTask) rfl

@[simp] theorem ports_deactivateTask : (deactivateTask c p s).ports = s.ports :=
  ports_eq (fun _ => Steady.port.deactivateTask) rfl

@[simp] theorem ports_ttwuDoActivate : (ttwuDoActivate c p s).ports = s.ports :=
  ports_eq (fun _ => Steady.port.ttwuDoActivate) rfl

@[simp] theorem ports_tryToWakeUpLocal : (tryToWakeUpLocal c p s).ports = s.ports := by
  refine ports_eq (fun _ => Steady.port.tryToWakeUpLocal) ?_
  unfold tryToWakeUpLocal
  split
  · rfl
  · by_cases honRq : (s.tasks p).onRq = true
    · rw [if_pos honRq]
      rfl
    · rw [if_neg honRq]
      rfl

@[simp] theorem ports_pickNext {next : Option Pid} : (pickNext c next s).ports = s.ports := by
  unfold pickNext
  dsimp only
  split
  · exact ports_goTo
  · cases next with
    | none => exact ports_modCpu fun _ => rfl
    | some q => exact ports_modTask.trans (ports_modCpu fun _ => rfl)

@[simp] theorem cpus_schedFork {threadBound : Bool} :
    (schedFork c threadBound s).cpus = s.cpus := rfl

@[simp] theorem ports_schedFork {threadBound : Bool} :
    (schedFork c threadBound s).ports = s.ports := rfl

@[simp] theorem ports_callStopper {arg : MigrationArg} : (callStopper c arg s).ports = s.ports := rfl

@[simp] theorem ports_moveTask {src dest : Nat} : (moveTask src dest p s).ports = s.ports := by
  simp [moveTask]

@[simp] theorem ports_migrateTask {src dest : Nat} : (migrateTask p src dest s).ports = s.ports := by
  refine ports_eq (fun _ => Steady.port.migrateTask) ?_
  unfold migrateTask
  split
  · rfl
  split
  · rfl
  split
  · rfl
  split <;> rfl

@[simp] theorem ports_migrateNrUninterruptible {src dest : Nat} :
    (migrateNrUninterruptible src dest s).ports = s.ports :=
  ports_eq (fun _ => Steady.port.migrateNrUninterruptible) rfl

/-! ### The invariant

Three lemmas keep it, for steps that write the port of one CPU at most, for those that
write none, and for those that in addition change no program counter.  All three need
that no CPU is going down, or that the step is its own.
-/

/-- What the CPUs can rely on. -/
structure Sys (m : Machine) (s : State) : Prop where
  beyond : ∀ c, m.nrCpus ≤ c → (s.cpus c).pc = .run ∧ (s.cpus c).online = false
  online : ∀ c, (s.cpus c).active = true → (s.cpus c).online = true
  /-- Some CPU can be used. -/
  usable : ∃ c, c < m.nrCpus ∧ (s.cpus c).active = true
  stopped : ∀ c, s.stopMachine = some c ↔ (s.cpus c).pc = .dying
  held : ∀ c, s.stopMachine = some c → ∀ d, d ≠ c → (s.cpus d).pc = .run
  dying : ∀ c, (s.cpus c).pc = .dying → (s.cpus c).curr.isSome ∧ (s.cpus c).online = false
  target : ∀ c p cpu, (s.cpus c).pc = .queue p cpu ∨ (s.cpus c).pc = .sendReschedule p cpu →
    (s.cpus cpu).online = true
  /-- Who has tasks to wake is told. -/
  told : ∀ c, (s.cpus c).wakeList ≠ [] → (s.cpus c).online = true ∧
    ((s.cpus c).ipi = true ∨ ∃ b p, (s.cpus b).pc = .sendReschedule p c)

theorem Sys.lt_of_online (hs : Sys m s) (hd : (s.cpus d).online = true) : d < m.nrCpus := by
  by_contra hge
  rw [(hs.beyond d (Nat.le_of_not_lt hge)).2] at hd
  cases hd

theorem Sys.stopMachine_eq_none (hs : Sys m s) (hstop : ∀ d, s.stopMachine = some d → c = d)
    (hpc : (s.cpus c).pc ≠ .dying) : s.stopMachine = none := by
  by_contra hne
  obtain ⟨d, hd⟩ := Option.ne_none_iff_exists'.mp hne
  obtain rfl := hstop d hd
  exact hpc ((hs.stopped c).mp hd)

/-- A step while no CPU goes down and none comes up, that writes to the port of CPU `cpu` at most. -/
theorem Sys.post (hs : Sys m s) (cpu : Nat) (hc : c < m.nrCpus) (hnone : s.stopMachine = none)
    (hother : ∀ d, d ≠ c → (t.cpus d).pc = (s.cpus d).pc)
    (hport : ∀ d, d ≠ cpu → (t.cpus d).port = (s.cpus d).port)
    (honline : (t.cpus cpu).online = (s.cpus cpu).online)
    (hactive : (t.cpus cpu).active = (s.cpus cpu).active) (hnone' : t.stopMachine = none)
    (hdying : (t.cpus c).pc ≠ .dying)
    (htarget : ∀ p e, (t.cpus c).pc = .queue p e ∨ (t.cpus c).pc = .sendReschedule p e →
      (s.cpus e).online = true)
    (hsend : ∀ p e, e ≠ cpu → (s.cpus c).pc ≠ .sendReschedule p e)
    (htold : (t.cpus cpu).wakeList ≠ [] → (s.cpus cpu).online = true ∧
      ((t.cpus cpu).ipi = true ∨ ∃ b p, (t.cpus b).pc = .sendReschedule p cpu)) : Sys m t := by
  have hon : ∀ d, (t.cpus d).online = (s.cpus d).online := by
    intro d
    by_cases hd : d = cpu
    · rw [hd, honline]
    · exact congrArg Port.online (hport d hd)
  have hact : ∀ d, (t.cpus d).active = (s.cpus d).active := by
    intro d
    by_cases hd : d = cpu
    · rw [hd, hactive]
    · exact congrArg Port.active (hport d hd)
  have hlive : ∀ d, (t.cpus d).pc ≠ .dying := by
    intro d
    by_cases hd : d = c
    · rw [hd]
      exact hdying
    · rw [hother d hd]
      intro hpc
      rw [(hs.stopped d).mpr hpc] at hnone
      cases hnone
  refine ⟨?_, ?_, ?_, ?_, ?_, ?_, ?_, ?_⟩
  · intro d hd
    rw [hother d (by omega), hon]
    exact hs.beyond d hd
  · intro d hd
    rw [hact] at hd
    rw [hon]
    exact hs.online d hd
  · obtain ⟨d, hd, husable⟩ := hs.usable
    exact ⟨d, hd, by rwa [hact]⟩
  · intro d
    rw [hnone']
    exact iff_of_false (fun h => by cases h) (hlive d)
  · intro d hd
    rw [hnone'] at hd
    cases hd
  · exact fun d hd => absurd hd (hlive d)
  · intro d p e hpc
    rw [hon]
    by_cases hd : d = c
    · rw [hd] at hpc
      exact htarget p e hpc
    · rw [hother d hd] at hpc
      exact hs.target d p e hpc
  · intro d hd
    rw [hon]
    by_cases hdcpu : d = cpu
    · rw [hdcpu] at hd ⊢
      exact htold hd
    · have hlist : (t.cpus d).wakeList = (s.cpus d).wakeList :=
        congrArg Port.wakeList (hport d hdcpu)
      have hipi : (t.cpus d).ipi = (s.cpus d).ipi := congrArg Port.ipi (hport d hdcpu)
      rw [hlist] at hd
      rw [hipi]
      refine (hs.told d hd).imp_right fun htold => htold.imp_right ?_
      rintro ⟨b, p, hb⟩
      refine ⟨b, p, ?_⟩
      rw [hother b, hb]
      rintro rfl
      exact hsend p d hdcpu hb

/-- A step that no other CPU can see, but for where it goes. -/
theorem Sys.keep (hs : Sys m s) (hc : c < m.nrCpus) (hports : t.ports = s.ports)
    (hother : ∀ d, d ≠ c → (t.cpus d).pc = (s.cpus d).pc) (hnone : s.stopMachine = none)
    (hdying : (t.cpus c).pc ≠ .dying)
    (htarget : ∀ p e, (t.cpus c).pc = .queue p e ∨ (t.cpus c).pc = .sendReschedule p e →
      (s.cpus e).online = true)
    (hsend : ∀ p e, (s.cpus c).pc ≠ .sendReschedule p e) : Sys m t := by
  have hport : ∀ d, (t.cpus d).port = (s.cpus d).port :=
    fun d => congrFun (congrArg Prod.fst hports) d
  -- no CPU beyond the last one has tasks to wake
  refine hs.post m.nrCpus hc hnone hother (fun d _ => hport d)
    (congrArg Port.online (hport _)) (congrArg Port.active (hport _))
    ((congrArg Prod.snd hports).trans hnone) hdying htarget (fun p e _ => hsend p e) fun hne => ?_
  have hlist : (t.cpus m.nrCpus).wakeList = (s.cpus m.nrCpus).wakeList :=
    congrArg Port.wakeList (hport _)
  have honline := (hs.told m.nrCpus (by rwa [← hlist])).1
  rw [(hs.beyond m.nrCpus (Nat.le_refl _)).2] at honline
  cases honline

/-- A step that only moves tasks between run queues, or writes them. -/
theorem Sys.still (hs : Sys m s) (hports : t.ports = s.ports)
    (hpc : ∀ d, (t.cpus d).pc = (s.cpus d).pc) (hcurr : ∀ d, (t.cpus d).curr = (s.cpus d).curr) :
    Sys m t := by
  have hport : ∀ d, (t.cpus d).port = (s.cpus d).port :=
    fun d => congrFun (congrArg Prod.fst hports) d
  have hstop : t.stopMachine = s.stopMachine := congrArg Prod.snd hports
  have hon : ∀ d, (t.cpus d).online = (s.cpus d).online := fun d => congrArg Port.online (hport d)
  have hact : ∀ d, (t.cpus d).active = (s.cpus d).active := fun d => congrArg Port.active (hport d)
  have hlist : ∀ d, (t.cpus d).wakeList = (s.cpus d).wakeList :=
    fun d => congrArg Port.wakeList (hport d)
  have hipi : ∀ d, (t.cpus d).ipi = (s.cpus d).ipi := fun d => congrArg Port.ipi (hport d)
  obtain ⟨h1, h2, h3, h4, h5, h6, h7, h8⟩ := hs
  constructor <;> simpa only [hpc, hon, hact, hlist, hipi, hstop, hcurr]

@[simp] theorem port_goTo {pc : Pc} : ((s.goTo c pc).cpus d).port = (s.cpus d).port :=
  State.field_modCpu Cpu.port fun _ => rfl

/-! ### CPU hotplug

A CPU can only go down when another is active, which is what leaves one behind that
can be used; and it takes its own wake list with it before it is offline, while all
others stand still, so no interrupt is owed to it afterwards.
-/

theorem Sys.setActive {cpu i : Nat} {active : Bool} (hs : Sys m s)
    (honline : (s.cpus cpu).online = true) (hi : i < m.nrCpus) (hne : i ≠ cpu)
    (hactive : (s.cpus i).active = true) :
    Sys m (s.modCpu cpu fun r => { r with active := active }) := by
  obtain ⟨hbeyond, hon, -, hstopped, hheld, hdying, htarget, htold⟩ := hs
  refine ⟨?_, ?_, ⟨i, hi, ?_⟩, ?_, ?_, ?_, ?_, ?_⟩
  · intro d hd
    simpa only [State.field_modCpu Cpu.pc, State.field_modCpu Cpu.online, implies_true] using
      hbeyond d hd
  · intro d hd
    by_cases hdcpu : d = cpu
    · subst hdcpu
      simpa using honline
    · rw [State.cpus_modCpu_of_ne _ _ _ hdcpu] at hd ⊢
      exact hon d hd
  · rwa [State.cpus_modCpu_of_ne _ _ _ hne]
  · intro d
    simpa [State.field_modCpu Cpu.pc] using hstopped d
  · intro d hd e he
    simpa [State.field_modCpu Cpu.pc] using hheld d hd e he
  · intro d hd
    simpa [State.field_modCpu Cpu.pc, State.field_modCpu Cpu.online, State.field_modCpu Cpu.curr]
      using hdying d (by simpa [State.field_modCpu Cpu.pc] using hd)
  · intro d q e hd
    simpa [State.field_modCpu Cpu.online] using
      htarget d q e (by simpa [State.field_modCpu Cpu.pc] using hd)
  · intro d hd
    simpa [State.field_modCpu Cpu.pc, State.field_modCpu Cpu.online, State.field_modCpu Cpu.ipi]
      using htold d (by simpa [State.field_modCpu Cpu.wakeList] using hd)

theorem Sys.up (hs : Sys m s) (hc : c < m.nrCpus) (hnone : s.stopMachine = none) :
    Sys m (s.modCpu c fun r => { r with online := true, active := true }) := by
  obtain ⟨hbeyond, hon, husable, hstopped, -, -, htarget, htold⟩ := hs
  have hlive : ∀ d, (s.cpus d).pc ≠ .dying := by
    intro d hd
    rw [(hstopped d).mpr hd] at hnone
    cases hnone
  have honline : ∀ d, (s.cpus d).online = true →
      ((s.modCpu c fun r => { r with online := true, active := true }).cpus d).online = true := by
    intro d hd
    by_cases hdc : d = c
    · subst hdc
      simp
    · rwa [State.cpus_modCpu_of_ne _ _ _ hdc]
  refine ⟨?_, ?_, ⟨c, hc, by simp⟩, ?_, ?_, ?_, ?_, ?_⟩
  · intro d hd
    rw [State.cpus_modCpu_of_ne _ _ _ (by omega : d ≠ c)]
    exact hbeyond d hd
  · intro d hd
    by_cases hdc : d = c
    · subst hdc
      simp
    · rw [State.cpus_modCpu_of_ne _ _ _ hdc] at hd ⊢
      exact hon d hd
  · intro d
    simpa [State.field_modCpu Cpu.pc] using hstopped d
  · intro d hd
    rw [stopMachine_modCpu, hnone] at hd
    cases hd
  · intro d hd
    exact absurd (by simpa [State.field_modCpu Cpu.pc] using hd) (hlive d)
  · intro d q e hd
    exact honline e (htarget d q e (by simpa [State.field_modCpu Cpu.pc] using hd))
  · intro d hd
    obtain ⟨hdon, htold⟩ := htold d (by simpa [State.field_modCpu Cpu.wakeList] using hd)
    refine ⟨honline d hdon, ?_⟩
    simpa [State.field_modCpu Cpu.pc, State.field_modCpu Cpu.ipi] using htold

/-- The CPU takes the tasks of its wake list with it, so nobody has to tell it any more. -/
theorem Sys.cpuDying (hs : Sys m s) (hc : c < m.nrCpus) (hactive : (s.cpus c).active = false)
    (hcurr : (s.cpus c).curr.isSome) (hall : ∀ i, i < m.nrCpus → (s.cpus i).pc = .run) :
    Sys m ({ schedTtwuPending c (s.cpus c).wakeList
      (s.modCpu c fun r => { r with online := false, wakeList := [] }) with
        stopMachine := some c }.goTo c .dying) := by
  obtain ⟨hbeyond, hon, ⟨i, hi, husable⟩, -, -, -, -, htold⟩ := hs
  have hrun : ∀ d, (s.cpus d).pc = .run := by
    intro d
    by_cases hd : d < m.nrCpus
    · exact hall d hd
    · exact (hbeyond d (Nat.le_of_not_lt hd)).1
  generalize ht : State.goTo c .dying _ = t
  have hother : ∀ d, d ≠ c → t.cpus d = s.cpus d := by
    intro d hd
    rw [← ht, State.cpus_goTo_of_ne _ _ _ hd]
    exact (cpus_schedTtwuPending_of_ne _ _ hd).trans (State.cpus_modCpu_of_ne _ _ _ hd)
  have hself : (t.cpus c).online = false ∧ (t.cpus c).active = false ∧ (t.cpus c).wakeList = [] ∧
      (t.cpus c).curr = (s.cpus c).curr ∧ (t.cpus c).pc = .dying := by
    obtain ⟨k, n, hn⟩ := cpus_schedTtwuPending_self (c := c) (s.cpus c).wakeList
      (s.modCpu c fun r => { r with online := false, wakeList := [] })
    rw [← ht, State.cpus_goTo_self]
    simp [hn, hactive]
  obtain ⟨honline, hact, hlist, hcurr', hpc⟩ := hself
  have hstop : t.stopMachine = some c := by rw [← ht]; rfl
  have hdead : ∀ d, d ≠ c → (t.cpus d).pc = .run := fun d hd => by rw [hother d hd, hrun]
  refine ⟨?_, ?_, ⟨i, hi, ?_⟩, ?_, ?_, ?_, ?_, ?_⟩
  · intro d hd
    rw [hother d (by omega)]
    exact hbeyond d hd
  · intro d hd
    by_cases hdc : d = c
    · subst hdc
      rw [hact] at hd
      cases hd
    · rw [hother d hdc] at hd ⊢
      exact hon d hd
  · rwa [hother]
    rintro rfl
    rw [hactive] at husable
    cases husable
  · intro d
    rw [hstop]
    by_cases hdc : d = c
    · subst hdc
      exact iff_of_true rfl hpc
    · rw [hdead d hdc]
      exact iff_of_false (fun h => hdc (Option.some.inj h).symm) (by simp)
  · intro d hd e he
    obtain rfl : c = d := Option.some.inj (hstop.symm.trans hd)
    exact hdead e he
  · intro d hd
    obtain rfl : d = c := by
      by_contra hdc
      rw [hdead d hdc] at hd
      cases hd
    exact ⟨by rwa [hcurr'], honline⟩
  · intro d q e hd
    by_cases hdc : d = c
    · subst hdc
      simp [hpc] at hd
    · simp [hdead d hdc] at hd
  · intro d hd
    by_cases hdc : d = c
    · subst hdc
      exact absurd hlist hd
    · rw [hother d hdc] at hd ⊢
      refine (htold d hd).imp_right fun h => .inl (h.resolve_right ?_)
      rintro ⟨b, p, hb⟩
      rw [hrun b] at hb
      cases hb

/-- When the tasks have been moved, the others may go on. -/
theorem Sys.cpuDead {dest : Nat} (hs : Sys m s) (hpc : (s.cpus c).pc = .dying) :
    Sys m ({ migrateNrUninterruptible c dest s with stopMachine := none }.goTo c .run) := by
  have hrun : ∀ d, d ≠ c → (s.cpus d).pc = .run := hs.held c ((hs.stopped c).mpr hpc)
  generalize ht : State.goTo c .run _ = t
  have hports : ∀ d, (t.cpus d).port = (s.cpus d).port := by
    intro d
    rw [← ht, port_goTo]
    exact congrFun (congrArg Prod.fst (ports_migrateNrUninterruptible (s := s))) d
  have hrun' : ∀ d, (t.cpus d).pc = .run := by
    intro d
    by_cases hd : d = c
    · subst hd
      rw [← ht, State.pc_goTo_self]
    · rw [← ht, State.pc_goTo_of_ne hd, pc_migrateNrUninterruptible, hrun d hd]
  have hon : ∀ d, (t.cpus d).online = (s.cpus d).online := fun d => congrArg Port.online (hports d)
  have hact : ∀ d, (t.cpus d).active = (s.cpus d).active := fun d => congrArg Port.active (hports d)
  have hstop : t.stopMachine = none := by rw [← ht]; rfl
  refine ⟨?_, ?_, ?_, ?_, ?_, ?_, ?_, ?_⟩
  · intro d hd
    rw [hon]
    exact ⟨hrun' d, (hs.beyond d hd).2⟩
  · simpa only [hon, hact] using hs.online
  · simpa only [hact] using hs.usable
  · simp [hstop, hrun']
  · simp [hstop]
  · simp [hrun']
  · simp [hrun']
  · intro d hd
    have hlist : (t.cpus d).wakeList = (s.cpus d).wakeList := congrArg Port.wakeList (hports d)
    have hipi : (t.cpus d).ipi = (s.cpus d).ipi := congrArg Port.ipi (hports d)
    rw [hlist] at hd
    rw [hon, hipi]
    refine (hs.told d hd).imp_right fun h => .inl (h.resolve_right ?_)
    rintro ⟨b, p, hb⟩
    by_cases hbc : b = c
    · rw [hbc, hpc] at hb
      cases hb
    · rw [hrun b hbc] at hb
      cases hb

/-! ### Every step -/

theorem Sys.of_effect (hs : Sys m s) (hc : c < m.nrCpus)
    (hstop : ∀ d, s.stopMachine = some d → c = d) (h : Effect m c s a t) : Sys m t := by
  have hother : ∀ d, d ≠ c → (t.cpus d).pc = (s.cpus d).pc := fun d hd => h.pc_of_ne hd
  have hnone := hs.stopMachine_eq_none hstop
  cases h with
  | @wakeListFirst _ p cpu hpc hne =>
      have honline := hs.target c p cpu (.inl hpc)
      refine hs.post cpu hc (hnone (by simp [hpc])) hother
        (fun d hd => by simp [State.cpus_modCpu_of_ne _ _ _ hd]) ?_ ?_
        (hnone (by simp [hpc])) (by simp) ?_ (by simp [hpc]) ?_
      · simp [State.cpus_goTo_of_ne _ _ _ hne.symm]
      · simp [State.cpus_goTo_of_ne _ _ _ hne.symm]
      · intro q e he
        rw [State.pc_goTo_self] at he
        rcases he with he | he <;> cases he
        exact honline
      · exact fun _ => ⟨honline, .inr ⟨c, p, State.pc_goTo_self⟩⟩
  | @wakeList _ p cpu hpc hne hlist =>
      refine hs.post cpu hc (hnone (by simp [hpc])) hother
        (fun d hd => by simp [State.cpus_modCpu_of_ne _ _ _ hd]) ?_ ?_
        (hnone (by simp [hpc])) (by simp) (by simp) (by simp [hpc]) ?_
      · simp [State.cpus_goTo_of_ne _ _ _ hne.symm]
      · simp [State.cpus_goTo_of_ne _ _ _ hne.symm]
      · intro _
        have htold := hs.told cpu hlist
        simp only [wakeDone, State.cpus_goTo_of_ne _ _ _ hne.symm, State.cpus_modTask,
          State.cpus_modCpu_self]
        refine ⟨htold.1, htold.2.imp_right ?_⟩
        rintro ⟨b, q, hb⟩
        refine ⟨b, q, ?_⟩
        have hbc : b ≠ c := by
          rintro rfl
          rw [hpc] at hb
          cases hb
        have hsame := hother b hbc
        rw [hb] at hsame
        exact hsame
  | @wakeSend _ p cpu hpc =>
      have hne : ∀ q e, e ≠ cpu → (s.cpus c).pc ≠ .sendReschedule q e := by
        rintro q e he hsend
        rw [hpc] at hsend
        cases hsend
        exact he rfl
      refine hs.post cpu hc (hnone (by simp [hpc])) hother
        (fun d hd => by simp [State.cpus_modCpu_of_ne _ _ _ hd]) ?_ ?_ (hnone (by simp [hpc]))
        (by simp) (by simp) hne ?_
      · simp [State.goTo, State.field_modCpu Cpu.online]
      · simp [State.goTo, State.field_modCpu Cpu.active]
      · intro _
        refine ⟨hs.target c p cpu (.inr hpc), .inl ?_⟩
        simp [State.goTo, State.field_modCpu Cpu.ipi]
  | ipi hpc =>
      have hself : ((schedulerIpi c s).cpus c).online = (s.cpus c).online ∧
          ((schedulerIpi c s).cpus c).active = (s.cpus c).active ∧
          ((schedulerIpi c s).cpus c).wakeList = [] ∧
          (((schedulerIpi c s).cpus c).pc = .run ∨
            ∃ l, ((schedulerIpi c s).cpus c).pc = .ttwuPending l) := by
        unfold schedulerIpi
        dsimp only
        split <;> simp [hpc]
      obtain ⟨hon, hact, hlist, hgo⟩ := hself
      refine hs.post c hc (hnone (by simp [hpc])) hother ?_ hon hact ?_ ?_ ?_ (by simp [hpc])
        fun h => absurd hlist h
      · intro d hd
        unfold schedulerIpi
        dsimp only
        split <;> simp [State.cpus_modCpu_of_ne _ _ _ hd]
      · have hstop' : (schedulerIpi c s).stopMachine = s.stopMachine := by
          unfold schedulerIpi
          dsimp only
          split <;> rfl
        exact hstop'.trans (hnone (by simp [hpc]))
      · rcases hgo with hgo | ⟨l, hgo⟩ <;> simp [hgo]
      · rcases hgo with hgo | ⟨l, hgo⟩ <;> simp [hgo]
  | setActive _ honline hi hne hactive => exact hs.setActive honline hi hne hactive
  | up hpc => exact hs.up hc (hnone (by simp [hpc]))
  | dying _ hactive hcurr hall => exact hs.cpuDying hc hactive hcurr hall
  | dead hpc => exact hs.cpuDead hpc
  | idleTurn => exact hs
  | migrateNext =>
      refine hs.still ports_migrateTask (fun _ => pc_migrateTask) fun _ => ?_
      exact Steady.curr.migrateTask (s := doSetCpusAllowed _ _ s)
  | wakeRead hpc hnew =>
      refine hs.keep hc ports_goTo hother (hnone ?_) ?_ ?_ ?_
      · intro hdying
        rw [hdying] at hpc
        cases hpc
      · rw [State.pc_goTo_self]
        rintro rfl
        cases hnew
      · intro p cpu hcpu
        rw [State.pc_goTo_self] at hcpu
        rcases hcpu with rfl | rfl <;> cases hnew
      · intro p cpu hsend
        rw [hsend] at hpc
        cases hpc
  | wakeSelect hpc hmask honline =>
      refine hs.keep hc (by simp [doSetCpusAllowed]) hother (hnone (by simp [hpc])) (by simp) ?_
        (by simp [hpc])
      intro p cpu hcpu
      rw [State.pc_goTo_self] at hcpu
      rcases hcpu with hcpu | hcpu
      · cases hcpu
        exact honline
      · cases hcpu
  | stop => exact hs.still ports_migrateTask (fun _ => pc_migrateTask) fun _ => Steady.curr.migrateTask
  | @pick next hpc =>
      have hgo := pc_pickNext (c := c) (s := s) next
      refine hs.keep hc ports_pickNext hother (hnone (by simp [hpc])) ?_ ?_ (by simp [hpc]) <;>
        rcases hgo with hgo | hgo <;> simp [hgo]
  | @finishClear prev prevState hpc =>
      refine hs.keep hc ?_ hother (hnone (by simp [hpc])) ?_ ?_ ?_ <;> cases prev <;> simp [hpc]
  | @finishUnlock prev prevState hpc =>
      refine hs.keep hc ?_ hother (hnone (by simp [hpc])) ?_ ?_ ?_ <;> cases prev <;>
        by_cases hdead : prevState = taskDead <;> simp [hpc, hdead]
  | move => exact hs.still ports_moveTask (fun _ => pc_moveTask) fun _ => Steady.curr.moveTask
  | handOver => exact hs.still rfl (fun _ => rfl) fun _ => rfl
  | _ hpc =>
      refine hs.keep hc ?_ hother (hnone (by simp [hpc])) ?_ ?_ ?_ <;>
        simp [hpc, doSetCpusAllowed]

theorem sys_boot : Sys m boot := by
  refine ⟨?_, ?_, ⟨0, m.nrCpus_pos, rfl⟩, ?_, ?_, ?_, ?_, ?_⟩
  · intro c hc
    have := m.nrCpus_pos
    exact ⟨rfl, decide_eq_false (by omega)⟩
  all_goals simp [boot]

theorem sys_of_reachable (h : Reachable m s) : Sys m s := by
  refine h.invariant _ (fun s e t hs hstep => ?_) sys_boot
  obtain ⟨hc, hstop, heffect⟩ := effect_of_step hstep
  exact hs.of_effect hc hstop heffect

theorem inv_and_sys_step {e : Nat × Act} (hs : Inv s ∧ Sys m s) (h : step m s e = some t) :
    Inv t ∧ Sys m t := by
  obtain ⟨hc, hstop, heffect⟩ := effect_of_step h
  exact ⟨hs.1.moves (.of_effect heffect), hs.2.of_effect hc hstop heffect⟩

/-! ### Tasks between a sleep and a run queue

Between the two a task is in `TASK_WAKING`, and where it is then says who has to queue
it: `placed` names the CPU that is choosing a run queue, and `listed` the one on whose
list it is.  That this one knows of its list is what the CPUs owe each other.
-/

/-- Some CPU has to put the task on a run queue, and knows. -/
def State.Underway (s : State) (p : Pid) : Prop :=
  (∃ b, (s.cpus b).pc.placing = some p) ∨
  (∃ c, p ∈ (s.cpus c).wakeList ∧ (s.cpus c).online = true ∧
    ((s.cpus c).ipi = true ∨ ∃ b q, (s.cpus b).pc = .sendReschedule q c)) ∨
  ∃ c llist, (s.cpus c).pc = .ttwuPending llist ∧ p ∈ llist

theorem Pc.eq_ttwuPending {pc : Pc} (h : p ∈ pc.pending) :
    ∃ llist, pc = .ttwuPending llist ∧ p ∈ llist := by
  cases pc with
  | ttwuPending llist => exact ⟨llist, rfl, h⟩
  | _ => cases h

/-- **A task in `TASK_WAKING` has a CPU that will queue it, and only such a task has**: it is being
placed, or an online CPU has it on its wake list and is being interrupted, or has taken the list. -/
theorem waking_accounted (h : Reachable m s) (p : Pid) :
    (s.tasks p).state = taskWaking ↔ s.Underway p := by
  obtain ⟨l, hl⟩ := inv_of_reachable h p
  have hsys := sys_of_reachable h
  constructor
  · intro hstate
    have hwaking := hl.task.waking.mp hstate
    cases l with
    | placed b => exact .inl ⟨b, (hl.cpus b).placing.mpr rfl⟩
    | listed c =>
        rcases hl.mem_lists.mpr rfl with hlist | hpending
        · obtain ⟨honline, htold⟩ := hsys.told c (List.ne_nil_of_mem hlist)
          exact .inr (.inl ⟨c, hlist, honline, htold⟩)
        · obtain ⟨llist, hpc, hmem⟩ := Pc.eq_ttwuPending hpending
          exact .inr (.inr ⟨c, llist, hpc, hmem⟩)
    | _ => cases hwaking
  · rintro (⟨b, hb⟩ | ⟨c, hlist, -⟩ | ⟨c, llist, hpc, hmem⟩)
    · rw [hl.placed hb] at hl
      exact hl.task.waking.mpr rfl
    · rw [hl.mem_lists.mp (.inl hlist)] at hl
      exact hl.task.waking.mpr rfl
    · rw [hl.mem_lists.mp (.inr (by rwa [hpc]))] at hl
      exact hl.task.waking.mpr rfl

/-- The first task sleeps, the second CPU has put it on the wake list of the first, and has not sent
the interrupt yet. -/
def waking : List (Nat × Act) :=
  firstTask ++ [(0, .setCurrentState taskInterruptible), (0, .schedule false false false),
    (0, .pickNext none), (0, .finishTaskSwitch), (0, .finishTaskSwitch), (0, .finishTaskSwitch),
    (1, .signal 0), (1, .tryToWakeUp 0), (1, .tryToWakeUp 0), (1, .tryToWakeUp 0),
    (1, .tryToWakeUp 0), (1, .tryToWakeUp 0)]

theorem waking_accounted_waking :
    ∃ s, Reachable twoCpus s ∧ ((s.cpus 1).pc = .sendReschedule 0 0 ∧ 0 ∈ (s.cpus 0).wakeList) ∧
      ((s.tasks 0).state = taskWaking ↔ s.Underway 0) := by
  have hexec : ((Run.exec (step twoCpus) boot waking).any fun s =>
      decide ((s.cpus 1).pc = .sendReschedule 0 0 ∧ 0 ∈ (s.cpus 0).wakeList)) = true := by
    decide +kernel
  obtain ⟨s, hs, hlist⟩ := Run.exists_of_exec hexec
  exact ⟨s, hs, hlist, waking_accounted hs 0⟩

end WrrScheduler.Smp
