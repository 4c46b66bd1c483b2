/-
The CPUs come to rest.

When no task does anything new, every CPU finishes what it is in the middle of: a
bound on the steps that are left goes down with each of them, and as long as some CPU
is not at rest one of them can take the next step.  So nobody waits for ever for a
lock, for a task to leave its CPU, or for a run queue to be found.

There is one exception, and the code has it too.  `migrate_tasks` goes on as long as
there is more than one task on the run queue, and takes what `pick_next_task` gives it.
When the tasks that are left are real-time ones and the `rt_rq` is throttled, which
`__disable_runtime` does not change, no class has a task to pick, and a round with the
idle thread moves nothing.
-/
import Mathlib.Algebra.Order.BigOperators.Group.Finset
import WrrScheduler.Lib.Share
import WrrScheduler.Proofs.SmpLoad

namespace WrrScheduler.Smp

variable {m : Machine} {s t : State} {p q : Pid} {c d : Nat} {a : Act}

/-! ### The steps that are left

Every place of a program counter has a bound on the steps from there to `run`.  A CPU can add to the
work of another in one way, by its wake list and the interrupt that goes with it, and it has paid for
that with the step it took; so the sum over all CPUs goes down.
-/

/-- The steps it takes to see to a wake list and to an interrupt. -/
def Cpu.mail (r : Cpu) : Nat := 2 * r.wakeList.length + r.ipi.toNat

/-- The steps CPU `c` has left, with those for its wake list and for the tasks it has to move. -/
def State.cpuLeft (s : State) (c : Nat) : Nat :=
  s.stepsLeft (s.cpus c).pc + (if (s.cpus c).pc = .dying then (s.cpus c).queue.length else 0) +
    (s.cpus c).mail

/-- The same for all CPUs. -/
def State.allLeft (m : Machine) (s : State) : Nat := ∑ c ∈ Finset.range m.nrCpus, s.cpuLeft c

theorem mail_eq (h : (t.cpus d).port = (s.cpus d).port) : (t.cpus d).mail = (s.cpus d).mail := by
  have hlist : (t.cpus d).wakeList = (s.cpus d).wakeList := congrArg Port.wakeList h
  have hipi : (t.cpus d).ipi = (s.cpus d).ipi := congrArg Port.ipi h
  rw [Cpu.mail, hlist, hipi]
  rfl

theorem mail_goTo {pc : Pc} : ((s.goTo c pc).cpus d).mail = (s.cpus d).mail := mail_eq port_goTo

theorem mail_list (p : Pid) (r : Cpu) :
    Cpu.mail { r with wakeList := p :: r.wakeList } ≤ r.mail + 2 := by
  simp only [Cpu.mail, List.length_cons]
  omega

theorem mail_ipi (r : Cpu) : Cpu.mail { r with ipi := true } ≤ r.mail + 1 := by
  simp only [Cpu.mail, Bool.toNat_true]
  omega

theorem cpuLeft_of_live (h : (s.cpus c).pc ≠ .dying) :
    s.cpuLeft c = s.stepsLeft (s.cpus c).pc + (s.cpus c).mail := by
  rw [State.cpuLeft, if_neg h, Nat.add_zero]

/-- Nothing is added to what a CPU that does nothing has left, but by what is sent to it. -/
theorem cpuLeft_elsewhere (hpc : (t.cpus d).pc = (s.cpus d).pc) (hlive : (s.cpus d).pc ≠ .dying)
    (hhome : ∀ q rq, (s.cpus d).pc = .lockRq q rq → (t.tasks q).cpu = (s.tasks q).cpu) :
    t.cpuLeft d = s.stepsLeft (s.cpus d).pc + (t.cpus d).mail := by
  rw [cpuLeft_of_live (by rwa [hpc]), hpc]
  congr 1
  cases hd : (s.cpus d).pc with
  | lockRq q rq => simp only [State.stepsLeft, hhome q rq hd]
  | _ => rfl

/-- Two CPUs together have fewer left, of which one has taken the step. -/
theorem allLeft_lt_pair {cpu : Nat} (hc : c < m.nrCpus) (hcpu : cpu < m.nrCpus) (hne : c ≠ cpu)
    (hport : ∀ d, d ≠ c → d ≠ cpu → (t.cpus d).port = (s.cpus d).port)
    (hother : ∀ d, d ≠ c → (t.cpus d).pc = (s.cpus d).pc) (hlive : ∀ d, (s.cpus d).pc ≠ .dying)
    (hhome : ∀ d q rq, d ≠ c → (s.cpus d).pc = .lockRq q rq → (t.tasks q).cpu = (s.tasks q).cpu)
    (hlt : t.cpuLeft c + (t.cpus cpu).mail < s.cpuLeft c + (s.cpus cpu).mail) :
    t.allLeft m < s.allLeft m := by
  refine Share.sum_lt_of_pair (Finset.mem_range.mpr hc) (Finset.mem_range.mpr hcpu) hne ?_ ?_
  · rw [cpuLeft_elsewhere (hother cpu hne.symm) (hlive cpu) fun q rq => hhome cpu q rq hne.symm,
      cpuLeft_of_live (hlive cpu)]
    omega
  · intro d _ hdc hdcpu
    rw [cpuLeft_elsewhere (hother d hdc) (hlive d) fun q rq => hhome d q rq hdc,
      cpuLeft_of_live (hlive d), mail_eq (hport d hdc hdcpu)]

/-- A step of CPU `c` that no other CPU sees. -/
theorem allLeft_lt_self (hc : c < m.nrCpus) (hport : ∀ d, d ≠ c → (t.cpus d).port = (s.cpus d).port)
    (hother : ∀ d, d ≠ c → (t.cpus d).pc = (s.cpus d).pc) (hlive : ∀ d, (s.cpus d).pc ≠ .dying)
    (hhome : ∀ d q rq, d ≠ c → (s.cpus d).pc = .lockRq q rq → (t.tasks q).cpu = (s.tasks q).cpu)
    (hlt : t.cpuLeft c < s.cpuLeft c) : t.allLeft m < s.allLeft m := by
  refine Finset.sum_lt_sum (fun d _ => ?_) ⟨c, Finset.mem_range.mpr hc, hlt⟩
  by_cases hd : d = c
  · rw [hd]
    exact hlt.le
  · rw [cpuLeft_elsewhere (hother d hd) (hlive d) fun q rq => hhome d q rq hd,
      cpuLeft_of_live (hlive d), mail_eq (hport d hd)]

/-- The same, when its own port does not change either. -/
theorem allLeft_lt (hc : c < m.nrCpus) (hports : t.ports = s.ports)
    (hother : ∀ d, d ≠ c → (t.cpus d).pc = (s.cpus d).pc)
    (hlive : ∀ d, (s.cpus d).pc ≠ .dying) (hdying : (t.cpus c).pc ≠ .dying)
    (hhome : ∀ d q rq, d ≠ c → (s.cpus d).pc = .lockRq q rq → (t.tasks q).cpu = (s.tasks q).cpu)
    (hlt : t.stepsLeft (t.cpus c).pc < s.stepsLeft (s.cpus c).pc) :
    t.allLeft m < s.allLeft m := by
  have hport : ∀ d, (t.cpus d).port = (s.cpus d).port :=
    fun d => congrFun (congrArg Prod.fst hports) d
  refine allLeft_lt_self hc (fun d _ => hport d) hother hlive hhome ?_
  rw [cpuLeft_of_live hdying, cpuLeft_of_live (hlive c), mail_eq (hport c)]
  omega

/-- While a CPU looks for the run queue of a task, no other changes it, unless it holds all others. -/
theorem home_of_effect {rq : Nat} (hinv : Inv s) (h : Effect m c s a t) (ha : a.internal = true)
    (hlive : (s.cpus c).pc ≠ .dying) (hdc : d ≠ c) (hd : (s.cpus d).pc = .lockRq q rq) :
    (t.tasks q).cpu = (s.tasks q).cpu := by
  cases h with
  | @wakeSelect _ p _ _ hpc =>
      have hqp : q ≠ p := by
        rintro rfl
        obtain ⟨l, hl⟩ := hinv q
        have hheld : (s.tasks q).piLock = some d := (hl.cpus d).held.mp (by rw [hd]; rfl)
        have hheld' : (s.tasks q).piLock = some c := (hl.cpus c).held.mp (by rw [hpc]; rfl)
        exact hdc (Option.some.inj (hheld.symm.trans hheld'))
      simp [doSetCpusAllowed, State.tasks_modTask_of_ne _ _ _ hqp]
  | ipi => rw [tasks_schedulerIpi]
  | pick => exact field_pickNext Task.cpu fun _ => rfl
  | @finishClear prev => cases prev <;> simp [State.field_modTask Task.cpu]
  | @finishUnlock prev prevState =>
      cases prev with
      | none => rfl
      | some p =>
          by_cases hdead : prevState = taskDead <;> simp [hdead, State.field_modTask Task.cpu]
  | idleTurn => rfl
  | migrateNext hpc => exact absurd hpc hlive
  | dead hpc => exact absurd hpc hlive
  | same _ hint _ => exact absurd (hint.symm.trans ha) (by decide)
  | wakeFail | wakeLock | wakeRead | wakeRemote | wakePlace | wakeListFirst | wakeList | wakeDirect
  | wakeSend | pendingDone | pending | retakeLock | finishRead =>
      simp [State.field_modTask Task.cpu, field_ttwuDoActivate Task.cpu]
  | _ => cases ha

theorem Sys.live (hs : Sys m s) (hstop : ∀ d, s.stopMachine = some d → c = d)
    (hpc : (s.cpus c).pc ≠ .dying) (d : Nat) : (s.cpus d).pc ≠ .dying := by
  intro hd
  obtain rfl := hstop d ((hs.stopped d).mpr hd)
  exact hpc hd

/-- **Every internal step leaves fewer**, unless it is one of a CPU that goes down. -/
theorem allLeft_lt_of_live (hinv : Inv s) (hsys : Sys m s) (hc : c < m.nrCpus)
    (hstop : ∀ d, s.stopMachine = some d → c = d) (h : Effect m c s a t) (ha : a.internal = true)
    (hpc : (s.cpus c).pc ≠ .dying) : t.allLeft m < s.allLeft m := by
  have hother : ∀ d, d ≠ c → (t.cpus d).pc = (s.cpus d).pc := fun d hd => h.pc_of_ne hd
  have hlive := hsys.live hstop hpc
  have hhome : ∀ d q rq, d ≠ c → (s.cpus d).pc = .lockRq q rq → (t.tasks q).cpu = (s.tasks q).cpu :=
    fun d q rq hdc hd => home_of_effect hinv h ha hpc hdc hd
  cases h with
  | wakeRead hpc' hnew _ hleft =>
      refine allLeft_lt hc ports_goTo hother hlive ?_ hhome ?_
      · rw [State.pc_goTo_self]
        rintro rfl
        cases hnew
      · rw [State.pc_goTo_self]
        exact hleft
  | @wakeListFirst _ p cpu hpc' hne =>
      have honline := hsys.target c p cpu (.inl hpc')
      refine allLeft_lt_pair hc (hsys.lt_of_online honline) hne ?_ hother hlive hhome ?_
      · intro d _ hd
        simp [State.cpus_modCpu_of_ne _ _ _ hd]
      · rw [cpuLeft_of_live (by simp), cpuLeft_of_live (hlive c), State.pc_goTo_self, hpc',
          State.cpus_goTo_of_ne _ _ _ hne.symm, State.cpus_modCpu_self, mail_goTo,
          State.cpus_modCpu_of_ne _ _ _ hne]
        have hmail := mail_list p (s.cpus cpu)
        simp only [State.stepsLeft]
        omega
  | @wakeList _ p cpu hpc' hne hlist =>
      have honline := hsys.target c p cpu (.inl hpc')
      refine allLeft_lt_pair hc (hsys.lt_of_online honline) hne ?_ hother hlive hhome ?_
      · intro d _ hd
        simp [State.cpus_modCpu_of_ne _ _ _ hd]
      · rw [wakeDone, cpuLeft_of_live (by simp), cpuLeft_of_live (hlive c), State.pc_goTo_self, hpc',
          State.cpus_goTo_of_ne _ _ _ hne.symm, mail_goTo, State.cpus_modTask,
          State.cpus_modCpu_self, State.cpus_modCpu_of_ne _ _ _ hne]
        have hmail := mail_list p (s.cpus cpu)
        simp only [State.stepsLeft]
        omega
  | @wakeSend _ p cpu hpc' =>
      have honline := hsys.target c p cpu (.inr hpc')
      have hport : ∀ d, d ≠ cpu → ((wakeDone c p (s.modCpu cpu fun r =>
          { r with ipi := true })).cpus d).port = (s.cpus d).port := by
        intro d hd
        simp [State.cpus_modCpu_of_ne _ _ _ hd]
      by_cases hne : c = cpu
      · subst hne
        refine allLeft_lt_self hc hport hother hlive hhome ?_
        rw [wakeDone, cpuLeft_of_live (by simp), cpuLeft_of_live (hlive c), State.pc_goTo_self, hpc',
          mail_goTo, State.cpus_modTask, State.cpus_modCpu_self]
        have hmail := mail_ipi (s.cpus c)
        simp only [State.stepsLeft]
        omega
      · refine allLeft_lt_pair hc (hsys.lt_of_online honline) hne (fun d _ => hport d) hother hlive
          hhome ?_
        rw [wakeDone, cpuLeft_of_live (by simp), cpuLeft_of_live (hlive c), State.pc_goTo_self, hpc',
          State.cpus_goTo_of_ne _ _ _ (Ne.symm hne), mail_goTo, State.cpus_modTask,
          State.cpus_modCpu_self, State.cpus_modCpu_of_ne _ _ _ hne]
        have hmail := mail_ipi (s.cpus cpu)
        simp only [State.stepsLeft]
        omega
  | ipi hpc' hipi =>
      refine allLeft_lt_self hc ?_ hother hlive hhome ?_
      · intro d hd
        unfold schedulerIpi
        dsimp only
        split <;> simp [State.cpus_modCpu_of_ne _ _ _ hd]
      · rw [cpuLeft_of_live (hlive c), hpc']
        unfold schedulerIpi
        dsimp only
        split
        · next hempty =>
          rw [cpuLeft_of_live (by simp [hpc'])]
          simp [hpc', State.stepsLeft, Cpu.mail, hipi, List.isEmpty_iff.mp hempty]
        · next hne =>
          have hlist : 0 < (s.cpus c).wakeList.length := by
            rw [List.length_pos_iff]
            exact fun h => hne (by rw [h]; rfl)
          rw [cpuLeft_of_live (by simp)]
          simp only [State.cpus_goTo_self, State.cpus_modCpu_self, State.stepsLeft, Cpu.mail, hipi,
            List.length_nil, Bool.toNat_true, Bool.toNat_false]
          omega
  | @pick next hpc' =>
      have hgo := pc_pickNext (c := c) (s := s) next
      refine allLeft_lt hc ports_pickNext hother hlive ?_ hhome ?_ <;>
        rcases hgo with hgo | hgo <;> simp [hgo, hpc', State.stepsLeft]
  | @finishClear prev prevState hpc' =>
      refine allLeft_lt hc ?_ hother hlive ?_ hhome ?_ <;> cases prev <;>
        simp [hpc', State.stepsLeft]
  | @finishUnlock prev prevState hpc' =>
      refine allLeft_lt hc ?_ hother hlive ?_ hhome ?_ <;> cases prev <;>
        by_cases hdead : prevState = taskDead <;> simp [hpc', hdead, State.stepsLeft]
  | wakeRemote hpc' _ hcpu =>
      refine allLeft_lt hc ?_ hother hlive ?_ hhome ?_ <;> simp [hpc', hcpu, State.stepsLeft]
  | same _ hint _ => exact absurd (hint.symm.trans ha) (by decide)
  | idleTurn hpc' => exact absurd hpc' hpc
  | migrateNext hpc' => exact absurd hpc' hpc
  | dead hpc' => exact absurd hpc' hpc
  | wakeFail hpc' | wakeLock hpc' | wakePlace hpc' | wakeSelect hpc' | wakeDirect hpc'
  | pendingDone hpc' | pending hpc' | retakeLock hpc' | finishRead hpc' =>
      refine allLeft_lt hc ?_ hother hlive ?_ hhome ?_ <;>
        simp [hpc', doSetCpusAllowed, State.stepsLeft]
  | _ => cases ha

/-! ### A CPU that goes down -/

theorem cpuLeft_of_run (h : (s.cpus c).pc = .run) : s.cpuLeft c = (s.cpus c).mail := by
  rw [cpuLeft_of_live (by simp [h]), h]
  exact Nat.zero_add _

theorem allLeft_lt_of_dying (hsys : Sys m s) (hc : c < m.nrCpus) (hpc : (s.cpus c).pc = .dying)
    (hport : ∀ d, (t.cpus d).port = (s.cpus d).port)
    (hother : ∀ d, d ≠ c → (t.cpus d).pc = (s.cpus d).pc) (hlt : t.cpuLeft c < s.cpuLeft c) :
    t.allLeft m < s.allLeft m := by
  refine Finset.sum_lt_sum (fun d _ => ?_) ⟨c, Finset.mem_range.mpr hc, hlt⟩
  by_cases hd : d = c
  · rw [hd]
    exact hlt.le
  · have hrun := hsys.held c ((hsys.stopped c).mpr hpc) d hd
    rw [cpuLeft_of_run ((hother d hd).trans hrun), cpuLeft_of_run hrun, mail_eq (hport d)]

/-- The loop of `migrate_tasks` moves the task that it has picked to a CPU that can be used. -/
theorem migrateTask_of_dying {mask : CpuMask} {dest : Nat} (hinv : Inv s)
    (hpc : (s.cpus c).pc = .dying) (hp : p ∈ (s.cpus c).queue) (hcurr : (s.cpus c).curr ≠ some p)
    (hmask : mask dest = true) (husable : s.usable dest = true) :
    migrateTask p c dest (doSetCpusAllowed mask p s) =
      enqueueTask dest p (setTaskCpu dest p (dequeueTask c p (doSetCpusAllowed mask p s))) := by
  obtain ⟨l, hl⟩ := hinv p
  have hqueued : l.queuedOn = some c := hl.mem_queue.mp hp
  have hnone : l.currentOn ≠ some c := fun h => hcurr ((hl.cpus c).curr.mpr h)
  have hleaving : l.leavingFrom ≠ some c := fun h => by
    have hpc' := (hl.cpus c).leaving.mpr h
    rw [hpc] at hpc'
    cases hpc'
  obtain rfl : l = .ready c := by cases l <;> simp_all
  have hcpu : (s.tasks p).cpu = c := hl.task.home c rfl
  have honRq : (s.tasks p).onRq = true := hl.task.onRq
  simp only [State.usable, Bool.and_eq_true] at husable
  have hactive : ((doSetCpusAllowed mask p s).cpus dest).active = true := husable.2
  unfold migrateTask
  rw [if_neg (by simp [hactive]), if_neg (by simp [doSetCpusAllowed, hcpu]),
    if_neg (by simp [doSetCpusAllowed, hmask]), if_pos (by simp [doSetCpusAllowed, honRq])]

theorem Sys.ne_of_usable {dest : Nat} (hs : Sys m s) (hpc : (s.cpus c).pc = .dying)
    (husable : s.usable dest = true) : dest ≠ c := by
  rintro rfl
  simp only [State.usable, Bool.and_eq_true] at husable
  rw [(hs.dying dest hpc).2] at husable
  cases husable.1

theorem allLeft_lt_migrateNext {mask : CpuMask} {dest : Nat} (hinv : Inv s) (hsys : Sys m s)
    (hc : c < m.nrCpus) (hpc : (s.cpus c).pc = .dying) (hp : p ∈ (s.cpus c).queue)
    (hcurr : (s.cpus c).curr ≠ some p) (hmask : mask dest = true) (husable : s.usable dest = true) :
    (migrateTask p c dest (doSetCpusAllowed mask p s)).allLeft m < s.allLeft m := by
  have hne := hsys.ne_of_usable hpc husable
  refine allLeft_lt_of_dying hsys hc hpc ?_ ?_ ?_
  · exact fun d => congrFun (congrArg Prod.fst ports_migrateTask) d
  · exact fun d _ => pc_migrateTask
  · rw [migrateTask_of_dying hinv hpc hp hcurr hmask husable]
    have hself : (enqueueTask dest p (setTaskCpu dest p
        (dequeueTask c p (doSetCpusAllowed mask p s)))).cpus c =
        { s.cpus c with
          queue := (s.cpus c).queue.erase p, nrRunning := (s.cpus c).nrRunning - 1 } := by
      rw [cpus_enqueueTask_of_ne hne.symm, setTaskCpu, State.cpus_modTask, cpus_dequeueTask_self]
      rfl
    have hlength := List.length_erase_of_mem hp
    have hpos := List.length_pos_of_mem hp
    simp only [State.cpuLeft, hself, hpc, if_true, State.stepsLeft, Cpu.mail, hlength]
    omega

theorem allLeft_lt_cpuDead {dest : Nat} (hsys : Sys m s) (hc : c < m.nrCpus)
    (hpc : (s.cpus c).pc = .dying) :
    ({ migrateNrUninterruptible c dest s with stopMachine := none }.goTo c .run).allLeft m <
      s.allLeft m := by
  have hport : ∀ d, (({ migrateNrUninterruptible c dest s with stopMachine := none }.goTo c
      .run).cpus d).port = (s.cpus d).port := by
    intro d
    rw [port_goTo]
    exact congrFun (congrArg Prod.fst ports_migrateNrUninterruptible) d
  refine allLeft_lt_of_dying hsys hc hpc hport ?_ ?_
  · intro d hd
    rw [State.pc_goTo_of_ne hd, pc_migrateNrUninterruptible]
  · rw [cpuLeft_of_run State.pc_goTo_self, mail_eq (hport c)]
    simp only [State.cpuLeft, hpc, State.stepsLeft]
    omega

/-- A round of `migrate_tasks` with the idle thread. -/
def Act.idleTurn : Act → Bool
  | migrateNext none => true
  | _ => false

/-- **Every internal step leaves fewer**, but for a round of `migrate_tasks` with the idle thread. -/
theorem allLeft_lt_of_effect (hinv : Inv s) (hsys : Sys m s) (hc : c < m.nrCpus)
    (hstop : ∀ d, s.stopMachine = some d → c = d) (h : Effect m c s a t) (ha : a.internal = true)
    (hidle : a.idleTurn = false) : t.allLeft m < s.allLeft m := by
  by_cases hpc : (s.cpus c).pc = .dying
  · cases h with
    | idleTurn => cases hidle
    | migrateNext _ hp hcurr hmask husable =>
        exact allLeft_lt_migrateNext hinv hsys hc hpc hp hcurr hmask husable
    | dead => exact allLeft_lt_cpuDead hsys hc hpc
    | same _ hint _ => exact absurd (hint.symm.trans ha) (by decide)
    | wakeRead hpc' =>
        rw [hpc] at hpc'
        cases hpc'
    | move => cases ha
    | _ hpc' => exact absurd (hpc.symm.trans hpc') (by simp)
  · exact allLeft_lt_of_live hinv hsys hc hstop h ha hpc

/-! ### Someone can go on

A CPU that is not at rest waits for a lock, or for another CPU to leave a task, or it can take a step.
Whoever has the lock or the task is in `__schedule`, or in `finish_task_switch`, and can take one.
-/

/-- No CPU can go on with what it is in the middle of, but for rounds of `migrate_tasks` with the idle
thread. -/
def Stuck (m : Machine) (s : State) : Prop :=
  ∀ e : Nat × Act, e.2.internal = true → e.2.idleTurn = false → step m s e = none

/-- No CPU is in the middle of anything, or has been told to do anything. -/
structure Quiet (m : Machine) (s : State) : Prop where
  run : ∀ c, (s.cpus c).pc = .run
  ipi : ∀ c, c < m.nrCpus → (s.cpus c).ipi = false
  wakeList : ∀ c, (s.cpus c).wakeList = []

theorem cpumaskFirst_isSome {mask : CpuMask} (hd : d < m.nrCpus) (hmask : mask d = true) :
    (m.cpumaskFirst mask).isSome = true := by
  rw [Machine.cpumaskFirst, List.find?_isSome]
  exact ⟨d, List.mem_range.mpr hd, hmask⟩

/-- **`select_fallback_rq` never comes to its `BUG()`** while there is a CPU that can be used. -/
theorem selectFallbackRq_isSome {cpu : Nat} (hd : d < m.nrCpus) (husable : s.usable d = true) :
    (selectFallbackRq m cpu p s).isSome = true := by
  unfold selectFallbackRq
  dsimp only
  split
  · rfl
  split
  · rfl
  split
  · rfl
  · rw [Option.isSome_map]
    exact cpumaskFirst_isSome hd (by simp [Machine.possible, hd, husable])

theorem Sys.usable_isSome (hs : Sys m s) (cpu : Nat) (p : Pid) :
    (selectFallbackRq m cpu p s).isSome = true := by
  obtain ⟨d, hd, hactive⟩ := hs.usable
  refine selectFallbackRq_isSome hd ?_
  rw [State.usable, hactive, hs.online d hactive]
  rfl

theorem Stuck.act (h : Stuck m s) (hc : c < m.nrCpus) (hstop : ∀ d, s.stopMachine = some d → d = c)
    (ha : a.internal = true) (hidle : a.idleTurn = false) : act m c s a = none := by
  have hnone := h (c, a) ha hidle
  have hall : s.stopMachine.all (fun d => d = c) = true := by
    cases hd : s.stopMachine with
    | none => rfl
    | some d => simpa using hstop d hd
  cases a with
  | moveTask => cases ha
  | _ => simpa only [step, hc, hall, and_self, if_true] using hnone

/-- The CPUs that no other can hold up have finished. -/
theorem settled_of_stuck (hsys : Sys m s) (h : Stuck m s) (hnone : s.stopMachine = none) (c : Nat) :
    (s.cpus c).pc.locked = false ∧ (s.cpus c).pc.scheduling = false ∧
      (s.cpus c).pc.leaving = none ∧ ∀ llist, (s.cpus c).pc ≠ .ttwuPending llist := by
  by_cases hc : c < m.nrCpus
  · have hact : ∀ a : Act, a.internal = true → a.idleTurn = false → act m c s a = none :=
      fun a ha => h.act hc (by simp [hnone]) ha
    cases hpc : (s.cpus c).pc with
    | picking =>
        have hstep := hact (.pickNext none) rfl rfl
        simp [Smp.act, hpc] at hstep
    | balancing =>
        have hstep := hact .retakeLock rfl rfl
        simp [Smp.act, hpc] at hstep
    | switched | finishing | unlocking =>
        have hstep := hact .finishTaskSwitch rfl rfl
        simp [Smp.act, hpc, finishTaskSwitch] at hstep
    | ttwuPending llist =>
        have hstep := hact .schedTtwuPending rfl rfl
        cases llist <;> simp [Smp.act, hpc] at hstep
    | _ => exact ⟨rfl, rfl, rfl, by simp⟩
  · rw [(hsys.beyond c (Nat.le_of_not_lt hc)).1]
    exact ⟨rfl, rfl, rfl, by simp⟩

/-- Nobody waits for a lock of a run queue, or for a task to leave its CPU. -/
theorem released_of_stuck (hinv : Inv s) (hsys : Sys m s) (h : Stuck m s)
    (hnone : s.stopMachine = none) (c : Nat) : (s.cpus c).pc.piHeld = none := by
  have hsettled := settled_of_stuck hsys h hnone
  by_cases hc : c < m.nrCpus
  · have hact : act m c s (.tryToWakeUp 0) = none := h.act hc (by simp [hnone]) rfl rfl
    have hfree : ∀ d, s.rqFree d = true := fun d => by simp [State.rqFree, (hsettled d).1]
    cases hpc : (s.cpus c).pc with
    | readOnRq | readRq | sendReschedule => simp [Smp.act, hpc, tryToWakeUp] at hact
    | lockRq p rq =>
        simp only [Smp.act, hpc, tryToWakeUp, hfree, if_true] at hact
        split at hact
        · cases hact
        · split at hact <;> cases hact
    | waitOnCpu p =>
        simp only [Smp.act, hpc, tryToWakeUp, ite_eq_left_iff, reduceCtorEq, imp_false,
          not_not] at hact
        obtain ⟨l, hl⟩ := hinv p
        have hblocked := (hl.cpus c).waiting hpc
        have honCpu := hl.task.onCpu
        rw [hact] at honCpu
        cases l with
        | blocking d =>
            have hsched := (hl.cpus d).scheduling rfl
            rw [(hsettled d).2.1] at hsched
            cases hsched
        | departing d =>
            have hleaving := (hl.cpus d).leaving.mpr rfl
            rw [(hsettled d).2.2.1] at hleaving
            cases hleaving
        | _ => simp at hblocked honCpu
    | selectRq p =>
        simp only [Smp.act, hpc, tryToWakeUp, Option.map_eq_none_iff] at hact
        unfold selectTaskRq at hact
        split at hact
        · have hsome := hsys.usable_isSome (s.tasks p).cpu p
          rw [hact] at hsome
          cases hsome
        · cases hact
    | queue p cpu =>
        simp only [Smp.act, hpc, tryToWakeUp, hfree, if_true] at hact
        split at hact <;> cases hact
    | _ => rfl
  · rw [(hsys.beyond c (Nat.le_of_not_lt hc)).1]
    rfl

/-- A CPU that goes down has a task to move until only its stopper is left. -/
theorem not_stuck_of_dying (hinv : Inv s) (hsys : Sys m s) (hcounted : s.Counted)
    (hc : c < m.nrCpus) (hpc : (s.cpus c).pc = .dying) : ¬ Stuck m s := by
  intro h
  have hact : ∀ a : Act, a.internal = true → a.idleTurn = false → act m c s a = none := by
    refine fun a ha => h.act hc (fun d hd => ?_) ha
    exact Option.some.inj (hd.symm.trans ((hsys.stopped c).mpr hpc))
  obtain ⟨r, hr⟩ := Option.isSome_iff_exists.mp (hsys.dying c hpc).1
  have hmem : r ∈ (s.cpus c).queue := mem_queue_of_dying hinv hpc hr
  by_cases hone : (s.cpus c).nrRunning = 1
  · have hdead := hact .cpuDead rfl rfl
    obtain ⟨d, hd, hactive⟩ := hsys.usable
    have hfirst : (m.cpumaskFirst s.cpuActive).isSome = true := cpumaskFirst_isSome hd hactive
    simp only [Smp.act, hpc, hone, if_true, Option.map_eq_none_iff] at hdead
    rw [hdead] at hfirst
    cases hfirst
  · have hother : ∃ q ∈ (s.cpus c).queue, q ≠ r := by
      by_contra hall
      push Not at hall
      obtain ⟨l, hl⟩ := hinv r
      have hcount : (s.cpus c).queue.count r = (s.cpus c).queue.length :=
        List.count_eq_length.mpr fun q hq => (hall q hq).symm
      rw [(hl.cpus c).queue, decide_eq_true (hl.mem_queue.mp hmem), Bool.toNat_true] at hcount
      have hcounted := hcounted c
      rw [Cpu.Counted, ← hcount] at hcounted
      exact hone hcounted
    obtain ⟨q, hq, hne⟩ := hother
    have hnext := hact (.migrateNext (some q)) rfl rfl
    have hsome := hsys.usable_isSome c q
    have hcurr : (s.cpus c).curr ≠ some q := by
      rw [hr]
      exact fun h => hne (Option.some.inj h).symm
    simp only [Smp.act, hpc, hq, hcurr, hone, ne_eq, not_false_eq_true, and_self, if_true,
      Option.map_eq_none_iff] at hnext
    rw [hnext] at hsome
    cases hsome

/-- **When no CPU can go on, they are all at rest**: none waits for another. -/
theorem quiet_of_stuck (hinv : Inv s) (hsys : Sys m s) (hcounted : s.Counted) (h : Stuck m s) :
    Quiet m s := by
  have hnone : s.stopMachine = none := by
    by_contra hne
    obtain ⟨c, hc⟩ := Option.ne_none_iff_exists'.mp hne
    have hpc := (hsys.stopped c).mp hc
    refine not_stuck_of_dying hinv hsys hcounted ?_ hpc h
    by_contra hge
    rw [(hsys.beyond c (Nat.le_of_not_lt hge)).1] at hpc
    cases hpc
  have hreleased := released_of_stuck hinv hsys h hnone
  have hrun : ∀ c, (s.cpus c).pc = .run := by
    intro c
    obtain ⟨hlocked, hsched, hleaving, hpending⟩ := settled_of_stuck hsys h hnone c
    have hheld := hreleased c
    cases hpc : (s.cpus c).pc with
    | run => rfl
    | wake p state =>
        have hc : c < m.nrCpus := by
          by_contra hge
          rw [(hsys.beyond c (Nat.le_of_not_lt hge)).1] at hpc
          cases hpc
        have hact : act m c s (.tryToWakeUp 0) = none := h.act hc (by simp [hnone]) rfl rfl
        simp only [Smp.act, hpc, tryToWakeUp] at hact
        split at hact
        · split at hact <;> cases hact
        · next hpi =>
          obtain ⟨d, hd⟩ := Option.ne_none_iff_exists'.mp hpi
          obtain ⟨l, hl⟩ := hinv p
          have hholder := (hl.cpus d).held.mpr hd
          rw [hreleased d] at hholder
          cases hholder
    | dying =>
        have hstop := (hsys.stopped c).mpr hpc
        rw [hnone] at hstop
        cases hstop
    | ttwuPending llist => exact absurd hpc (hpending llist)
    | _ => simp [hpc, Pc.locked] at hlocked hsched hleaving hheld
  have hipi : ∀ c, c < m.nrCpus → (s.cpus c).ipi = false := by
    intro c hc
    by_contra hsent
    have hact : act m c s .schedulerIpi = none := h.act hc (by simp [hnone]) rfl rfl
    simp [Smp.act, hrun c, actRun, hsent] at hact
  refine ⟨hrun, hipi, fun c => ?_⟩
  by_contra hlist
  obtain ⟨honline, htold⟩ := hsys.told c hlist
  rcases htold with hsent | ⟨b, p, hb⟩
  · rw [hipi c (hsys.lt_of_online honline)] at hsent
    cases hsent
  · rw [hrun b] at hb
    cases hb

/-! ### The CPUs come to rest -/

/-- The invariants that a step needs to leave fewer. -/
structure Sound (m : Machine) (s : State) : Prop where
  inv : Inv s
  sys : Sys m s
  counted : s.Counted

theorem sound_of_reachable (h : Reachable m s) : Sound m s :=
  ⟨inv_of_reachable h, sys_of_reachable h, counted_of_reachable h⟩

theorem Sound.next {e : Nat × Act} (hs : Sound m s) (h : step m s e = some t) : Sound m t := by
  obtain ⟨hc, hstop, heffect⟩ := effect_of_step h
  exact ⟨hs.inv.moves (.of_effect heffect), hs.sys.of_effect hc hstop heffect,
    counted_of_effect hs.inv hs.counted heffect⟩

/-- A step with which a CPU only goes on with what it is in the middle of. -/
def GoesOn (_ : State) (e : Nat × Act) : Prop := e.2.internal = true

/-- And one that is not a round of `migrate_tasks` with the idle thread. -/
def Proceeds (_ : State) (e : Nat × Act) : Prop := e.2.internal = true ∧ e.2.idleTurn = false

theorem Sound.less {e : Nat × Act} (hs : Sound m s) (he : Proceeds s e) (h : step m s e = some t) :
    t.allLeft m < s.allLeft m := by
  obtain ⟨hc, hstop, heffect⟩ := effect_of_step h
  exact allLeft_lt_of_effect hs.inv hs.sys hc hstop heffect he.1 he.2

/-- The CPUs can come to rest. -/
theorem exists_quiet (h : Reachable m s) :
    ∃ tr t, Run (step m) s tr t ∧ (∀ e ∈ tr, Proceeds e.1 e.2) ∧ Quiet m t := by
  obtain ⟨tr, t, hrun, hint, hmax⟩ := Run.exists_maximal (Sound m) Proceeds (State.allLeft m)
    (fun _ _ _ hs _ => hs.next) (fun _ _ _ hs => hs.less) (sound_of_reachable h)
  have ht := (Run.invariant (Sound m) Proceeds (fun _ _ _ hs _ => hs.next) hrun
    (sound_of_reachable h) hint).1
  refine ⟨tr, t, hrun, hint, quiet_of_stuck ht.inv ht.sys ht.counted ?_⟩
  exact fun e ha hidle => hmax e ⟨ha, hidle⟩

/-- The first task has gone to sleep, and the second CPU is about to wake it. -/
def sleeping : List (Nat × Act) :=
  firstTask ++ [(0, .setCurrentState taskInterruptible), (0, .testCondition),
    (0, .schedule false false false), (0, .pickNext none), (0, .finishTaskSwitch),
    (0, .finishTaskSwitch), (0, .finishTaskSwitch), (1, .signal 0)]

/-- **A CPU that goes down can stay at it for ever**, if `pick_next_task` has nothing but the idle
thread for it while tasks are queued. -/
theorem idle_turns (hsys : Sys m s) (hpc : (s.cpus c).pc = .dying)
    (hcount : (s.cpus c).nrRunning ≠ 1) (n : Nat) :
    Run (step m) s (List.replicate n (s, (c, .migrateNext none))) s := by
  have hstep : step m s (c, .migrateNext none) = some s := by
    have hc : c < m.nrCpus := by
      by_contra hge
      rw [(hsys.beyond c (Nat.le_of_not_lt hge)).1] at hpc
      cases hpc
    simpa [step, Smp.act, hc, (hsys.stopped c).mpr hpc, hpc] using hcount
  induction n with
  | zero => exact .nil
  | succ n ih => exact .cons hstep ih

/-- The machine can come to such a state. -/
theorem idle_turns_goingDown :
    ∃ s, Reachable twoCpus s ∧ 1 ∈ (s.cpus 1).queue ∧
      ∀ n, Run (step twoCpus) s (List.replicate n (s, (1, .migrateNext none))) s := by
  have hexec : ((Run.exec (step twoCpus) boot goingDown).any fun s =>
      decide (1 ∈ (s.cpus 1).queue ∧ (s.cpus 1).pc = .dying ∧ (s.cpus 1).nrRunning ≠ 1)) = true := by
    decide +kernel
  obtain ⟨s, hs, hqueue, hpc, hcount⟩ := Run.exists_of_exec hexec
  exact ⟨s, hs, hqueue, idle_turns (sys_of_reachable hs) hpc hcount⟩

/-! ### Every wake-up gets there -/

theorem Place.Moves.started {l l' : Place} (h : l.Moves l') (hl : l.started = true) :
    l'.started = true := by
  cases h with
  | refl => exact hl
  | single hstep => cases hstep <;> first | rfl | cases hl

/-- What holds of a sleeper from when it is owed a wake-up until it has got it. -/
structure Sleeper (s₀ : State) (p : Pid) (s : State) : Prop where
  inv : Inv s
  attended : s.Attended
  keeps : Keeps s₀ s
  started : ∃ l, Fits s p l ∧ l.started = true

theorem Sleeper.step {s₀ : State} {e : Nat × Act} (hs : Sleeper s₀ p s) (he : GoesOn s e)
    (h : step m s e = some t) : Sleeper s₀ p t := by
  have heffect := (effect_of_step h).2.2
  have hown : e.2.own = false := by
    unfold GoesOn at he
    cases ha : e.2 <;> rw [ha] at he <;> first | rfl | cases he
  obtain ⟨l, hl, hstarted⟩ := hs.started
  obtain ⟨l', hmoves, hl'⟩ := Moves.of_effect heffect p l hl
  exact ⟨hs.inv.moves (.of_effect heffect), attended_of_effect hs.attended heffect,
    hs.keeps.trans (keeps_of_effect heffect hown), l', hl', hmoves.started hstarted⟩

/-- When the CPUs are at rest it has got it. -/
theorem Sleeper.woken {s₀ : State} (h : Sleeper s₀ p t) (howed : (s₀.tasks p).Owed)
    (hquiet : Quiet m t) : (t.tasks p).state = taskRunning ∧ (t.tasks p).onRq = true := by
  obtain ⟨l, hl, hstarted⟩ := h.started
  have hkept := h.keeps p
  have hawake : (t.tasks p).state &&& taskNormal = 0 := by
    by_contra hstate
    obtain ⟨c, hc⟩ := h.attended p ⟨hkept.sleepLoop.trans howed.sleepLoop,
      hkept.condition.trans howed.condition, hstate⟩
    rcases hc with hc | hc <;> rw [hquiet.run c] at hc <;> cases hc
  have hwaking : l.waking = false := by
    cases l with
    | placed b =>
        have hplacing := (hl.cpus b).placing.mpr rfl
        rw [hquiet.run b] at hplacing
        cases hplacing
    | listed b =>
        have hlists := (hl.cpus b).lists
        rw [hquiet.run b, hquiet.wakeList b] at hlists
        simp at hlists
    | _ => rfl
  have hrunning : (t.tasks p).state = taskRunning := by
    rcases hkept.state with hsame | hrunning | hwoken
    · rw [hsame] at hawake
      exact absurd hawake howed.state
    · exact hrunning
    · rw [hl.task.waking.mp hwoken] at hwaking
      cases hwaking
  have hblocked : l.blocked = false := by
    by_contra hblocked
    exact hl.task.blocked (by simpa using hblocked) hrunning
  refine ⟨hrunning, ?_⟩
  rw [hl.task.onRq]
  cases l <;> simp_all

/-- **Every wake-up gets there**: however the CPUs go on from a state in which a task sleeps although
what it waits for has happened, when they have come to rest it is on a run queue. -/
theorem wakeup_delivered (h : Reachable m s) (hsleep : (s.tasks p).sleepLoop = .mustSleep)
    (hcond : (s.tasks p).condition = true) (hstate : (s.tasks p).state &&& taskNormal ≠ 0)
    {tr : List (State × (Nat × Act))} (hrun : Run (step m) s tr t)
    (hint : ∀ e ∈ tr, GoesOn e.1 e.2) (hquiet : Quiet m t) :
    (t.tasks p).state = taskRunning ∧ (t.tasks p).onRq = true := by
  have hinv := inv_of_reachable h
  obtain ⟨l, hl⟩ := hinv p
  have hstarted : l.started = true := by
    by_contra hne
    rw [(hl.task.unstarted (by simpa using hne)).1] at hstate
    exact hstate (Nat.zero_and _)
  have hs : Sleeper s p s := ⟨hinv, attended_of_reachable h, .refl s, l, hl, hstarted⟩
  have ht := (Run.invariant (Sleeper s p) GoesOn (fun _ _ _ hs => hs.step) hrun hs hint).1
  exact ht.woken ⟨hsleep, hcond, hstate⟩ hquiet

theorem wakeup_delivered_sleeping :
    ∃ s t tr, Reachable twoCpus s ∧ (s.tasks 0).onRq = false ∧ Run (step twoCpus) s tr t ∧
      (t.tasks 0).state = taskRunning ∧ (t.tasks 0).onRq = true := by
  have hexec : ((Run.exec (step twoCpus) boot sleeping).any fun s =>
      decide ((s.tasks 0).onRq = false ∧ (s.tasks 0).sleepLoop = .mustSleep ∧
        (s.tasks 0).condition = true ∧ (s.tasks 0).state = taskInterruptible)) = true := by
    decide +kernel
  obtain ⟨s, hs, honRq, hsleep, hcond, hstate⟩ := Run.exists_of_exec hexec
  obtain ⟨tr, t, hrun, hint, hquiet⟩ := exists_quiet hs
  exact ⟨s, t, tr, hs, honRq, hrun, wakeup_delivered hs hsleep hcond (by rw [hstate]; decide) hrun
    (fun e he => (hint e he).1) hquiet⟩

end WrrScheduler.Smp
