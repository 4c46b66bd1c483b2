/-
Every step keeps every task in a place.

One lemma per kind of step says where its task goes; the tasks it is not about stay
where they are.  A lemma `Stays` is about a step that leaves its own task in place
as well, and a lemma `Moves` about one that takes it along an edge of the life
cycle.

All of them have the same two halves.  First, what the fields say when the step is
taken leaves one place for the task: the running task of a CPU outside `__schedule`
is `running`, a task whose `pi_lock` is held and which is off its run queue and its
CPU is `asleep`, and so on.  Second, in the place where the step puts the task, the
CPU that took the step looks as it must.  The places are few, so this is a case
analysis that `simp` finishes once the old place is known.

What makes the first half go through is the order of the reads in `try_to_wake_up`.
A task whose `pi_lock` is held and that was found off its run queue cannot come back
to one by itself, as it is in `__schedule` or past it, and not by another wake-up,
because of the lock; when its `on_cpu` is then seen clear it can be nothing but
`asleep`.
-/
import WrrScheduler.Proofs.SmpPlaces

namespace WrrScheduler.Smp

variable {s s' : State} {p q : Pid} {c d dest : Nat} {l : Place}

/-! ### Where a task is

What a field says of the place of a task.  A place is read off a queue, a `curr` or a
program counter, and then all other fields follow from `Fits`.
-/

theorem Fits.running (h : Fits s p l) (hcurr : (s.cpus c).curr = some p)
    (hpc : (s.cpus c).pc.scheduling = false) : l = .running c := by
  have hl : l.currentOn = some c := (h.cpus c).curr.mp hcurr
  have hsched := (h.cpus c).scheduling
  cases l <;> simp_all

theorem Fits.mem_queue (h : Fits s p l) : p ∈ (s.cpus c).queue ↔ l.queuedOn = some c := by
  rw [← List.count_pos_iff, (h.cpus c).queue]
  generalize l.queuedOn = home
  by_cases hhome : home = some c <;> simp [hhome]

/-- The queue of a CPU holds the tasks that say so. -/
theorem Fits.mem_queue_iff (h : Fits s p l) :
    p ∈ (s.cpus c).queue ↔ (s.tasks p).onRq = true ∧ (s.tasks p).cpu = c := by
  have hqueued := h.task.onRq
  have hhome := h.task.home
  rw [h.mem_queue]
  constructor
  · intro hc
    rw [hc] at hqueued
    exact ⟨hqueued, hhome c (by cases l <;> simp_all)⟩
  · rintro ⟨honRq, hcpu⟩
    cases l <;> simp_all

/-- A task is on the wake list of a CPU, or on the list that it took. -/
theorem Fits.mem_lists (h : Fits s p l) :
    p ∈ (s.cpus c).wakeList ∨ p ∈ (s.cpus c).pc.pending ↔ l = .listed c := by
  have hlists := (h.cpus c).lists
  rw [← List.count_pos_iff, ← List.count_pos_iff, show l = .listed c ↔ l.listedOn = some c by
    cases l <;> simp]
  by_cases hlisted : l.listedOn = some c
  · rw [decide_eq_true hlisted, Bool.toNat_true] at hlists
    exact iff_of_true (by omega) hlisted
  · rw [decide_eq_false hlisted, Bool.toNat_false] at hlists
    exact iff_of_false (by omega) hlisted

/-- A task whose wake-up is under way and that is off its run queue is blocked. -/
theorem Fits.blocked_of_pursuing (h : Fits s p l) (hpc : (s.cpus c).pc.pursuing = some p)
    (honRq : (s.tasks p).onRq = false) : l.blocked = true := by
  obtain ⟨hstarted, hwaking⟩ := (h.cpus c).pursuing hpc
  have hqueued := h.task.onRq
  cases l <;> simp_all

theorem Fits.asleep (h : Fits s p l) (hl : l.blocked = true) (honCpu : (s.tasks p).onCpu = false) :
    l = .asleep := by
  have := h.task.onCpu
  cases l <;> simp_all

theorem Fits.placed (h : Fits s p l) (hpc : (s.cpus c).pc.placing = some p) : l = .placed c := by
  have hl : l.placedBy = some c := (h.cpus c).placing.mp hpc
  cases l <;> simp_all

/-! ### Waking up

A CPU in `try_to_wake_up` is at a place that is about the task it wakes, before and
after each step, so only this task and this CPU are looked at (`Fits.wake`).  The task
stays where it is until the state is written: only then is it certain that it is
asleep, and it moves to `placed`, from there to a run queue or by way of a wake list.
-/

/-- A place of a wake-up of the task, or none. -/
def Pc.Only (p : Pid) (pc : Pc) : Prop := pc = .run ∨ pc.about = some p

theorem Pc.Only.eq {pc : Pc} (h : pc.Only p) (hq : pc.about = some q) : q = p := by
  rcases h with rfl | h
  · cases hq
  · exact Option.some.inj (hq.symm.trans h)

theorem Pc.Only.pending {pc : Pc} (h : pc.Only p) : pc.pending = [] := by
  rcases h with rfl | h
  · rfl
  · cases pc <;> first | rfl | cases h

theorem Pc.Only.scheduling {pc : Pc} (h : pc.Only p) : pc.scheduling = false := by
  rcases h with rfl | h
  · rfl
  · cases pc <;> first | rfl | cases h

theorem Frame.only {pc : Pc} (hold : (s.cpus c).pc.Only p) (hnew : pc.Only p) :
    Frame p s (s.goTo c pc) := by
  refine .goTo (fun _ => hold.eq) (fun _ => hnew.eq) (by rw [hold.pending, hnew.pending]) (.inr ?_)
  rw [hold.scheduling, hnew.scheduling]

/-- What a CPU does next with a task it is waking or about to wake: the task is written and the CPU
goes on, and the place of the task may change with that. -/
theorem Fits.wake {f : Task → Task} {pc : Pc} {l' : Place} (hl : Fits s p l)
    (hunseen : ∀ d, d ≠ c → Unseen d (s.tasks p) (f (s.tasks p)) l l')
    (htask : TaskFits (p < s.nextPid) (f (s.tasks p)) l')
    (hcpu : CpuFits { s.cpus c with pc := pc } c p (f (s.tasks p)) l') :
    Fits ((s.modTask p f).goTo c pc) p l' := by
  refine hl.update (c := c) ?_ ?_ ?_ ?_
  · intro d hd
    exact State.cpus_goTo_of_ne _ c pc hd
  · intro d hd
    simpa using hunseen d hd
  · simpa using htask
  · simpa using hcpu

theorem Frame.wake {f : Task → Task} {pc : Pc} (hold : (s.cpus c).pc.Only p) (hnew : pc.Only p) :
    Frame p s ((s.modTask p f).goTo c pc) :=
  (Frame.modTask p f s).trans (.only hold hnew)

theorem Stays.wake_goTo {pc : Pc} (hold : (s.cpus c).pc.Only p) (hnew : pc.Only p)
    (hp : ∀ l, Fits s p l → CpuFits { s.cpus c with pc := pc } c p (s.tasks p) l) :
    Stays s (s.goTo c pc) := by
  refine Stays.change (.only hold hnew) fun l hl => hl.update (c := c) ?_ ?_ hl.task ?_
  · intro d hd
    exact s.cpus_goTo_of_ne c pc hd
  · intro d hd
    exact .stay .rfl rfl fun _ h => h
  · rw [State.cpus_goTo_self]
    exact hp l hl

/-- A state that a wake-up asks for is none of those that no wake-up asks for. -/
theorem ne_of_matches {state mask : Nat} (hmask : mask &&& Unwakeable = 0)
    (h : state &&& mask ≠ 0) : state ≠ taskRunning ∧ state ≠ taskWaking ∧ state ≠ taskDead := by
  rw [Unwakeable, Nat.and_or_distrib_left, Nat.or_eq_zero_iff] at hmask
  refine ⟨?_, ?_, ?_⟩ <;> rintro rfl
  · exact h (Nat.zero_and mask)
  · exact h ((Nat.and_comm ..).trans hmask.1)
  · exact h ((Nat.and_comm ..).trans hmask.2)

theorem Stays.wake_fail {state : Nat} (hpc : (s.cpus c).pc = .wake p state) :
    Stays s (s.goTo c .run) := by
  refine Stays.wake_goTo (p := p) (.inr (by rw [hpc]; rfl)) (.inl rfl) ?_
  intro l hl
  obtain ⟨h1, h2, h3, h4, h5, h6, h7, h8, h9, h10, h11, h12⟩ := hl.cpus c
  constructor <;> simp_all

theorem Stays.wake_lock {state : Nat} (hpc : (s.cpus c).pc = .wake p state)
    (hpi : (s.tasks p).piLock = none) (hstate : (s.tasks p).state &&& state ≠ 0) :
    Stays s ((lockPi c p s).goTo c (.readOnRq p)) := by
  refine .change (.wake (.inr (by rw [hpc]; rfl)) (.inr rfl)) fun l hl => ?_
  obtain ⟨hrunning, hwaking, hdead⟩ := ne_of_matches ((hl.cpus c).mask _ hpc) hstate
  refine hl.wake ?_ ?_ ?_
  · intro d hd
    exact .stay (by simp [hpi, hd.symm]) rfl fun _ h => h
  · have hstarted := hl.task.unstarted
    exact { hl.task with
      unstarted := fun h => absurd (hstarted h).1 hrunning
      dead := fun h => absurd h hdead }
  · have hstarted := hl.task.unstarted
    have hwaking' := hl.task.waking
    obtain ⟨h1, h2, h3, h4, h5, h6, h7, h8, h9, h10, h11, h12⟩ := hl.cpus c
    constructor <;> simp_all

theorem Pc.quiet_of_pursuing {pc : Pc} (h : pc.pursuing = some p) : pc.pending = [] ∧
    pc.leaving = none ∧ pc.placing = none ∧ pc.scheduling = false ∧ pc.piHeld = some p := by
  cases pc <;> simp_all

/-- The reads that decide how to wake the task. -/
theorem Stays.wake_read {pc : Pc} (hpc : (s.cpus c).pc.pursuing = some p)
    (hnew : pc.pursuing = some p) (hwait : pc = .waitOnCpu p → (s.tasks p).onRq = false) :
    Stays s (s.goTo c pc) := by
  have hheld := Pc.piHeld_of_pursuing hpc
  refine Stays.wake_goTo (p := p) (.inr (Pc.about_of_piHeld hheld))
    (.inr (Pc.about_of_piHeld (Pc.piHeld_of_pursuing hnew))) fun l hl => ?_
  have hblocked : pc = .waitOnCpu p → l.blocked = true :=
    fun h => hl.blocked_of_pursuing hpc (hwait h)
  obtain ⟨hpending, hleaving, hplacing, hscheduling, -⟩ := Pc.quiet_of_pursuing hpc
  obtain ⟨hpending', hleaving', hplacing', hscheduling', hheld'⟩ := Pc.quiet_of_pursuing hnew
  have hc := hl.cpus c
  refine ⟨hc.queue, ?_, hc.curr, ?_, ?_, ?_, fun _ => hc.pursuing hpc, hblocked, ?_, ?_, ?_, ?_⟩
  · simpa only [hpending', hpending] using hc.lists
  · simpa only [hleaving', hleaving] using hc.leaving
  · simpa only [hplacing', hplacing] using hc.placing
  · simpa only [hheld', hheld] using hc.held
  · simpa only [hscheduling', hscheduling] using hc.scheduling
  · intro _ hsched
    rw [hscheduling'] at hsched
    cases hsched
  · rintro cpu rfl
    cases hnew
  · rintro state rfl
    cases hnew

/-- `ttwu_remote`, when the task is still on its run queue. -/
theorem Stays.wake_remote {rq : Nat} (hpc : (s.cpus c).pc = .lockRq p rq)
    (honRq : (s.tasks p).onRq = true) : Stays s (wakeDone c p (setState taskRunning p s)) := by
  rw [wakeDone, setState, State.modTask_modTask]
  refine .change (.wake (.inr (by rw [hpc]; rfl)) (.inl rfl)) fun l hl => ?_
  have hpi : (s.tasks p).piLock = some c := (hl.cpus c).held.mp (by rw [hpc]; rfl)
  have hqueued : l.queuedOn.isSome = true := hl.task.onRq.symm.trans honRq
  refine hl.wake ?_ ?_ ?_
  · intro d hd
    exact .stay (by simp [hpi, hd.symm]) rfl fun _ h => by cases h
  · obtain ⟨h1, h2, h3, h4, h5, h6, h7, h8, h9⟩ := hl.task
    cases l <;> constructor <;> simp_all [taskRunning, taskWaking, taskDead]
  · obtain ⟨h1, h2, h3, h4, h5, h6, h7, h8, h9, h10, h11, h12⟩ := hl.cpus c
    constructor <;> simp_all

theorem Moves.wake_place (hpc : (s.cpus c).pc = .waitOnCpu p)
    (honCpu : (s.tasks p).onCpu = false) (b : Task → Bool) :
    Moves s ((s.modTask p fun t =>
      { t with schedContributesToLoad := b t, state := taskWaking }).goTo c (.selectRq p)) := by
  refine .change (.wake (.inr (by rw [hpc]; rfl)) (.inr rfl)) fun l hl => ?_
  have hpi : (s.tasks p).piLock = some c := (hl.cpus c).held.mp (by rw [hpc]; rfl)
  obtain rfl : l = .asleep := hl.asleep ((hl.cpus c).waiting hpc) honCpu
  refine ⟨.placed c, .single (.wake c), hl.wake ?_ ?_ ?_⟩
  · intro d hd
    constructor <;> simp [Place.seenFrom, hpi, hd.symm]
  · obtain ⟨h1, h2, h3, h4, h5, h6, h7, h8, h9⟩ := hl.task
    constructor <;> simp_all [taskRunning, taskWaking, taskDead]
  · obtain ⟨h1, h2, h3, h4, h5, h6, h7, h8, h9, h10, h11, h12⟩ := hl.cpus c
    constructor <;> simp_all

theorem Stays.wake_select {mask : CpuMask} {cpu : Nat}
    (hpc : (s.cpus c).pc = .selectRq p) :
    Stays s ((setTaskCpu cpu p (doSetCpusAllowed mask p s)).goTo c (.queue p cpu)) := by
  rw [setTaskCpu, doSetCpusAllowed, State.modTask_modTask]
  refine .change (.wake (.inr (by rw [hpc]; rfl)) (.inr rfl)) fun l hl => ?_
  have hpi : (s.tasks p).piLock = some c := (hl.cpus c).held.mp (by rw [hpc]; rfl)
  obtain rfl : l = .placed c := hl.placed (by rw [hpc]; rfl)
  refine hl.wake ?_ ?_ ?_
  · intro d hd
    constructor <;> simp [hd.symm]
  · obtain ⟨h1, h2, h3, h4, h5, h6, h7, h8, h9⟩ := hl.task
    constructor <;> simp_all
  · obtain ⟨h1, h2, h3, h4, h5, h6, h7, h8, h9, h10, h11, h12⟩ := hl.cpus c
    constructor <;> simp_all

theorem Frame.wakeList (p : Pid) (c : Nat) (s : State) :
    Frame p s (s.modCpu c fun r => { r with wakeList := p :: r.wakeList }) :=
  .modCpu fun _ hq => .list hq _

/-- `ttwu_queue_remote`, when the wake list was empty. -/
theorem Moves.wake_listFirst {cpu : Nat} (hpc : (s.cpus c).pc = .queue p cpu)
    (hne : c ≠ cpu) :
    Moves s ((s.modCpu cpu fun r => { r with wakeList := p :: r.wakeList }).goTo c
      (.sendReschedule p cpu)) := by
  have hcpu : (s.modCpu cpu fun r => { r with wakeList := p :: r.wakeList }).cpus c = s.cpus c :=
    s.cpus_modCpu_of_ne cpu _ hne
  refine Moves.change ((Frame.wakeList p cpu s).trans (.only ?_ (.inr rfl))) ?_
  · exact .inr (by rw [hcpu, hpc]; rfl)
  intro l hl
  obtain rfl : l = .placed c := hl.placed (by rw [hpc]; rfl)
  refine ⟨.listed cpu, .single (.list c cpu), hl.update₂ (c := c) (d := cpu) ?_ ?_ ?_ ?_ ?_⟩
  · intro e hc hd
    rw [State.cpus_goTo_of_ne _ _ _ hc, State.cpus_modCpu_of_ne _ _ _ hd]
  · intro e hc hd
    have hpi : (s.tasks p).piLock = some c := (hl.cpus c).held.mp (by rw [hpc]; rfl)
    constructor <;> simp [Place.seenFrom, hc.symm, hd.symm, hpi]
  · have htarget := (hl.cpus c).target cpu hpc
    obtain ⟨h1, h2, h3, h4, h5, h6, h7, h8, h9⟩ := hl.task
    constructor <;> simp_all
  · rw [State.cpus_goTo_self, hcpu]
    obtain ⟨h1, h2, h3, h4, h5, h6, h7, h8, h9, h10, h11, h12⟩ := hl.cpus c
    constructor <;> simp_all [hne.symm]
  · rw [State.cpus_goTo_of_ne _ _ _ hne.symm, State.cpus_modCpu_self]
    have hpi : (s.tasks p).piLock = some c := (hl.cpus c).held.mp (by rw [hpc]; rfl)
    have hpursuing := @Pc.piHeld_of_pursuing p (s.cpus cpu).pc
    obtain ⟨h1, h2, h3, h4, h5, h6, h7, h8, h9, h10, h11, h12⟩ := hl.cpus cpu
    constructor <;> simp_all

/-- The end of `try_to_wake_up`. -/
theorem Stays.wake_done {cpu : Nat} (hpc : (s.cpus c).pc = .sendReschedule p cpu) :
    Stays s (wakeDone c p s) := by
  refine .change (.wake (.inr (by rw [hpc]; rfl)) (.inl rfl)) fun l hl => ?_
  have hpi : (s.tasks p).piLock = some c := (hl.cpus c).held.mp (by rw [hpc]; rfl)
  refine hl.wake ?_ ?_ ?_
  · intro d hd
    exact .stay (by simp [hpi, hd.symm]) rfl fun _ h => h
  · obtain ⟨h1, h2, h3, h4, h5, h6, h7, h8, h9⟩ := hl.task
    constructor <;> simp_all
  · obtain ⟨h1, h2, h3, h4, h5, h6, h7, h8, h9, h10, h11, h12⟩ := hl.cpus c
    constructor <;> simp_all

/-- `ttwu_queue_remote`, when the wake list was not empty. -/
theorem Moves.wake_list {cpu : Nat} (hpc : (s.cpus c).pc = .queue p cpu)
    (hne : c ≠ cpu) :
    Moves s (wakeDone c p (s.modCpu cpu fun r => { r with wakeList := p :: r.wakeList })) := by
  generalize hs' : (s.modCpu cpu fun r => { r with wakeList := p :: r.wakeList }).goTo c
    (.sendReschedule p cpu) = s'
  have hpc' : (s'.cpus c).pc = .sendReschedule p cpu := by
    rw [← hs']
    exact State.pc_goTo_self
  have hfirst := (wake_listFirst hpc hne).trans_stays (hs' ▸ Stays.wake_done hpc')
  simpa [← hs'] using hfirst

theorem Stays.wake_send {cpu : Nat} (hpc : (s.cpus c).pc = .sendReschedule p cpu) :
    Stays s (wakeDone c p (s.modCpu cpu fun r => { r with ipi := true })) := by
  have hipi : Stays s (s.modCpu cpu fun r => { r with ipi := true }) :=
    .modCpu fun q => .of_eq rfl rfl rfl rfl
  have hpc' : ((s.modCpu cpu fun r => { r with ipi := true }).cpus c).pc =
      .sendReschedule p cpu := by
    simpa [State.pc_modCpu] using hpc
  exact hipi.trans (.wake_done hpc')

/-- `ttwu_queue`, on a run queue that shares a cache. -/
theorem Moves.wake_direct {cpu : Nat} (hpc : (s.cpus c).pc = .queue p cpu) :
    Moves s (wakeDone c p (ttwuDoActivate cpu p s)) := by
  have hpc' : ((ttwuDoActivate cpu p s).cpus c).pc = .queue p cpu := by
    by_cases hc : c = cpu
    · subst hc
      simpa using hpc
    · rw [cpus_ttwuDoActivate_of_ne hc, hpc]
  refine Moves.change (((Frame.ttwuDoActivate cpu p s).trans (.modTask p _ _)).trans
    (.only (.inr ?_) (.inl rfl))) ?_
  · rw [State.cpus_modTask, hpc']
    rfl
  intro l hl
  obtain rfl : l = .placed c := hl.placed (by rw [hpc]; rfl)
  have hpi : (s.tasks p).piLock = some c := (hl.cpus c).held.mp (by rw [hpc]; rfl)
  have htarget := (hl.cpus c).target cpu hpc
  refine ⟨.ready cpu, .single (.queue c cpu), hl.update₂ (c := c) (d := cpu) ?_ ?_ ?_ ?_ ?_⟩
  · intro e hc hd
    rw [wakeDone, State.cpus_goTo_of_ne _ _ _ hc, State.cpus_modTask, cpus_ttwuDoActivate_of_ne hd]
  · intro e hc hd
    constructor <;> simp [Place.seenFrom, hc.symm, hd.symm, hpi]
  · obtain ⟨h1, h2, h3, h4, h5, h6, h7, h8, h9⟩ := hl.task
    constructor <;> simp_all [taskRunning, taskWaking, taskDead]
  · rw [wakeDone, State.cpus_goTo_self, State.cpus_modTask]
    obtain ⟨h1, h2, h3, h4, h5, h6, h7, h8, h9, h10, h11, h12⟩ := hl.cpus c
    by_cases hc : c = cpu
    · subst hc
      constructor <;> simp_all
    · rw [cpus_ttwuDoActivate_of_ne hc]
      constructor <;> simp_all [Ne.symm hc]
  · by_cases hc : cpu = c
    · subst hc
      obtain ⟨h1, h2, h3, h4, h5, h6, h7, h8, h9, h10, h11, h12⟩ := hl.cpus cpu
      constructor <;> simp_all
    · rw [wakeDone, State.cpus_goTo_of_ne _ _ _ hc, State.cpus_modTask, cpus_ttwuDoActivate_self]
      have hpursuing := @Pc.piHeld_of_pursuing p (s.cpus cpu).pc
      obtain ⟨h1, h2, h3, h4, h5, h6, h7, h8, h9, h10, h11, h12⟩ := hl.cpus cpu
      constructor <;> simp_all [Ne.symm hc]
      exact h11

/-! ### Scheduling

A switch moves two tasks, the one that leaves and the one that comes.  It is cut in
two: `switchOut` takes the first off `curr`, and `switchIn` puts the second there.
Each half is about one task, and in between the CPU runs nobody, which no other CPU
could have seen.
-/

/-- Writing a task where it is. -/
theorem Stays.modTask {f : Task → Task}
    (hp : ∀ l, Fits s p l → TaskFits (p < s.nextPid) (f (s.tasks p)) l)
    (hpi : (f (s.tasks p)).piLock = (s.tasks p).piLock)
    (hcpu : (f (s.tasks p)).cpu = (s.tasks p).cpu)
    (hdead : (f (s.tasks p)).state = taskDead → (s.tasks p).state = taskDead) :
    Stays s (s.modTask p f) := by
  refine Stays.change (Frame.modTask p f s) fun l hl => ⟨?_, ?_⟩
  · simpa using hp l hl
  · intro d
    rw [State.tasks_modTask_self, State.cpus_modTask]
    exact (hl.cpus d).elsewhere (.stay (by rw [hpi]) hcpu fun _ => hdead)

/-- Going on at another place that is about no task either. -/
theorem Stays.goTo {pc : Pc} (hold : (s.cpus c).pc.about = none)
    (hnew : pc.about = none) (hpending : pc.pending = (s.cpus c).pc.pending)
    (hsched : (s.cpus c).curr = none ∨ pc.scheduling = (s.cpus c).pc.scheduling) :
    Stays s (s.goTo c pc) := by
  refine Stays.modCpu fun q => .goTo ?_ ?_ (by rw [hpending]) fun hcurr => ?_
  · rw [hold]
    exact Option.some_ne_none q |>.symm
  · rw [hnew]
    exact Option.some_ne_none q |>.symm
  · exact hsched.resolve_left (by simp [hcurr])

/-- The running task writes its state. -/
theorem Stays.setState_curr {f : Task → Task} (hcurr : (s.cpus c).curr = some p)
    (hpc : (s.cpus c).pc = .run) (hpi : (f (s.tasks p)).piLock = (s.tasks p).piLock)
    (hcpu : (f (s.tasks p)).cpu = (s.tasks p).cpu)
    (hp : TaskFits (p < s.nextPid) (s.tasks p) (.running c) →
      TaskFits (p < s.nextPid) (f (s.tasks p)) (.running c)) : Stays s (s.modTask p f) := by
  refine Stays.change (.modTask p f s) fun l hl => ?_
  obtain rfl : l = .running c := hl.running hcurr (by rw [hpc]; rfl)
  refine hl.update (c := c) (fun _ _ => rfl) ?_ ?_ ?_
  · intro d hd
    rw [State.tasks_modTask_self]
    exact .stay (by rw [hpi]) hcpu fun h => absurd (Option.some.inj h).symm hd
  · rw [State.tasks_modTask_self]
    exact hp hl.task
  · obtain ⟨h1, h2, h3, h4, h5, h6, h7, h8, h9, h10, h11, h12⟩ := hl.cpus c
    constructor <;> simp_all

/-- The running task leaves the run queue. -/
theorem Moves.block (hcurr : (s.cpus c).curr = some p) (hpc : (s.cpus c).pc = .run)
    (hstate : (s.tasks p).state ≠ taskRunning) :
    Moves s ((setOnRq false p (deactivateTask c p s)).goTo c .picking) := by
  refine Moves.change (((Frame.deactivateTask c p s).trans (.setOnRq false p _)).trans
    (.goTo (by simp [hpc]) (by simp) (by simp [hpc]) (.inl (by simpa using hcurr)))) ?_
  intro l hl
  obtain rfl : l = .running c := hl.running hcurr (by rw [hpc]; rfl)
  refine ⟨.blocking c, .single (.sleep c), hl.update (c := c) ?_ ?_ ?_ ?_⟩
  · intro d hd
    rw [State.cpus_goTo_of_ne _ _ _ hd]
    exact cpus_deactivateTask_of_ne hd
  · intro d hd
    constructor <;> simp [Place.seenFrom, hd.symm]
  · obtain ⟨h1, h2, h3, h4, h5, h6, h7, h8, h9⟩ := hl.task
    constructor <;> simp_all
  · obtain ⟨h1, h2, h3, h4, h5, h6, h7, h8, h9, h10, h11, h12⟩ := hl.cpus c
    constructor <;> simp_all

/-- The running task stays on the run queue and gives up its CPU. -/
theorem Stays.yield (hpc : (s.cpus c).pc = .run)
    (halive : ∀ p, (s.cpus c).curr = some p → (s.tasks p).state ≠ taskDead) :
    Stays s (s.goTo c .picking) := by
  cases hcurr : (s.cpus c).curr with
  | none => exact Stays.goTo (by simp [hpc]) rfl (by simp [hpc]) (.inl hcurr)
  | some p =>
      refine Stays.change (.goTo (by simp [hpc]) (by simp) (by simp [hpc]) (.inl hcurr)) ?_
      intro l hl
      obtain rfl : l = .running c := hl.running hcurr (by rw [hpc]; rfl)
      refine hl.update (c := c) ?_ ?_ hl.task ?_
      · intro d hd
        exact s.cpus_goTo_of_ne c _ hd
      · intro d hd
        exact .stay .rfl rfl fun _ h => h
      · have halive := halive p hcurr
        obtain ⟨h1, h2, h3, h4, h5, h6, h7, h8, h9, h10, h11, h12⟩ := hl.cpus c
        constructor <;> simp_all

/-- The running task has a signal to see to, and does not sleep. -/
theorem Stays.schedSignal (hpc : (s.cpus c).pc = .run) (hcurr : (s.cpus c).curr = some p) :
    Stays s ((setState taskRunning p s).goTo c .picking) := by
  refine Stays.trans (.setState_curr hcurr hpc rfl rfl fun hl => ?_) (.yield hpc fun q hq => ?_)
  · obtain ⟨h1, h2, h3, h4, h5, h6, h7, h8, h9⟩ := hl
    constructor <;> simp_all [taskRunning, taskWaking, taskDead]
  · obtain rfl : p = q := Option.some.inj (hcurr.symm.trans hq)
    simp [taskRunning, taskDead]

/-- The first half of the switch: the previous task is on its way out. -/
def State.switchOut (c : Nat) (s : State) : State :=
  s.modCpu c fun r => { r with curr := none, pc := .switched r.curr }

/-- The second half: the next task runs. -/
def State.switchIn (c : Nat) (q : Pid) (s : State) : State :=
  (s.modCpu c fun r => { r with curr := some q }).modTask q fun t => { t with onCpu := true }

theorem pickNext_some (hne : (s.cpus c).curr ≠ some q) :
    pickNext c (some q) s = (s.switchOut c).switchIn c q := by
  simp [pickNext, hne, State.switchOut, State.switchIn, State.modCpu]

theorem pickNext_none (hne : (s.cpus c).curr ≠ none) : pickNext c none s = s.switchOut c := by
  simp [pickNext, hne, State.switchOut, State.modCpu]

theorem Frame.switchOut (hpc : (s.cpus c).pc = .picking) (hcurr : (s.cpus c).curr = some p) :
    Frame p s (s.switchOut c) := by
  refine .modCpu fun q hq => ?_
  constructor <;> simp [hpc, hcurr, hq.symm]

theorem Frame.switchIn (hcurr : (s.cpus c).curr = none) : Frame p s (s.switchIn c p) := by
  refine (Frame.modCpu fun q hq => ?_).trans (.modTask p _ _)
  constructor <;> simp [hcurr, hq.symm]

theorem Stays.switchOut (hpc : (s.cpus c).pc = .picking) (hcurr : (s.cpus c).curr = none) :
    Stays s (s.switchOut c) := by
  refine .modCpu fun q => ?_
  constructor <;> simp [hpc, hcurr]

theorem Fits.switchOut (hl : Fits s p l) (hpc : (s.cpus c).pc = .picking)
    (hcurr : (s.cpus c).curr = some p) : ∃ l', l.Moves l' ∧ Fits (s.switchOut c) p l' := by
  have hl' : l.currentOn = some c := (hl.cpus c).curr.mp hcurr
  have hcpus : ∀ d, d ≠ c → (s.switchOut c).cpus d = s.cpus d :=
    fun d hd => s.cpus_modCpu_of_ne c _ hd
  have hself : (s.switchOut c).cpus c =
      { s.cpus c with curr := none, pc := .switched (some p) } := by
    rw [State.switchOut, State.cpus_modCpu_self, hcurr]
  obtain rfl | rfl : l = .running c ∨ l = .blocking c := by cases l <;> simp_all
  · refine ⟨.outgoing c, .single (.preempt c), hl.update (c := c) hcpus ?_ ?_ ?_⟩
    · intro d hd
      constructor <;> simp [Place.seenFrom, hd.symm, State.switchOut]
    · obtain ⟨h1, h2, h3, h4, h5, h6, h7, h8, h9⟩ := hl.task
      have halive := (hl.cpus c).alive rfl (by rw [hpc]; rfl)
      constructor <;> simp_all [State.switchOut]
    · rw [hself]
      obtain ⟨h1, h2, h3, h4, h5, h6, h7, h8, h9, h10, h11, h12⟩ := hl.cpus c
      constructor <;> simp_all [State.switchOut]
  · refine ⟨.departing c, .single (.depart c), hl.update (c := c) hcpus ?_ ?_ ?_⟩
    · intro d hd
      constructor <;> simp [Place.seenFrom, hd.symm, State.switchOut]
    · obtain ⟨h1, h2, h3, h4, h5, h6, h7, h8, h9⟩ := hl.task
      constructor <;> simp_all [State.switchOut]
    · rw [hself]
      obtain ⟨h1, h2, h3, h4, h5, h6, h7, h8, h9, h10, h11, h12⟩ := hl.cpus c
      constructor <;> simp_all [State.switchOut]

theorem Fits.switchIn (hl : Fits s p l) (hcurr : (s.cpus c).curr = none)
    (hleaving : (s.cpus c).pc.leaving ≠ some p) (hp : p ∈ (s.cpus c).queue) :
    l = .ready c ∧ Fits (s.switchIn c p) p (.running c) := by
  have hqueued : l.queuedOn = some c := hl.mem_queue.mp hp
  have hself : (s.switchIn c p).cpus c = { s.cpus c with curr := some p } := by
    rw [State.switchIn, State.cpus_modTask, State.cpus_modCpu_self]
  obtain rfl : l = .ready c := by
    obtain ⟨h1, h2, h3, h4, h5, h6, h7, h8, h9, h10, h11, h12⟩ := hl.cpus c
    cases l <;> simp_all
  have hdead : (s.tasks p).state ≠ taskDead := fun h => by simpa using (hl.task.dead h).2
  refine ⟨rfl, hl.update (c := c) ?_ ?_ ?_ ?_⟩
  · intro d hd
    rw [State.switchIn, State.cpus_modTask, State.cpus_modCpu_of_ne _ _ _ hd]
  · intro d hd
    constructor <;> simp [Place.seenFrom, hd.symm, State.switchIn]
  · obtain ⟨h1, h2, h3, h4, h5, h6, h7, h8, h9⟩ := hl.task
    constructor <;> simp_all [State.switchIn]
  · rw [hself]
    obtain ⟨h1, h2, h3, h4, h5, h6, h7, h8, h9, h10, h11, h12⟩ := hl.cpus c
    constructor <;> simp_all [State.switchIn]

/-- Picking the running task again. -/
theorem Stays.pickSame (hpc : (s.cpus c).pc = .picking)
    (hnext : ∀ q, (s.cpus c).curr = some q → q ∈ (s.cpus c).queue) : Stays s (s.goTo c .run) := by
  cases hcurr : (s.cpus c).curr with
  | none => exact .goTo (by simp [hpc]) rfl (by simp [hpc]) (.inl hcurr)
  | some p =>
      refine .change (.goTo (by simp [hpc]) (by simp) (by simp [hpc]) (.inl hcurr)) fun l hl => ?_
      have hqueued : l.queuedOn = some c := hl.mem_queue.mp (hnext p hcurr)
      have hcurrent : l.currentOn = some c := (hl.cpus c).curr.mp hcurr
      obtain rfl : l = .running c := by cases l <;> simp_all
      refine hl.update (c := c) ?_ ?_ hl.task ?_
      · intro d hd
        exact s.cpus_goTo_of_ne c _ hd
      · intro d hd
        exact .stay .rfl rfl fun _ h => h
      · obtain ⟨h1, h2, h3, h4, h5, h6, h7, h8, h9, h10, h11, h12⟩ := hl.cpus c
        constructor <;> simp_all

/-- **`__schedule`** moves the two tasks it switches between, and no other. -/
theorem Moves.pickNext {next : Option Pid} (hpc : (s.cpus c).pc = .picking)
    (hnext : ∀ q, next = some q → q ∈ (s.cpus c).queue) : Moves s (pickNext c next s) := by
  by_cases hsame : (s.cpus c).curr = next
  · have hgoTo : Smp.pickNext c next s = s.goTo c .run := if_pos hsame
    rw [hgoTo]
    exact (Stays.pickSame hpc fun q hq => hnext q (hsame.symm.trans hq)).moves
  have hout : Moves s (s.switchOut c) := by
    cases hcurr : (s.cpus c).curr with
    | none => exact (Stays.switchOut hpc hcurr).moves
    | some p => exact .change (.switchOut hpc hcurr) fun l hl => hl.switchOut hpc hcurr
  cases hnext' : next with
  | none =>
      rw [pickNext_none (by rwa [← hnext'])]
      exact hout
  | some q =>
      have hne : (s.cpus c).curr ≠ some q := by rwa [← hnext']
      have hself := s.cpus_modCpu_self c fun r => { r with curr := none, pc := .switched r.curr }
      have hcurr : ((s.switchOut c).cpus c).curr = none := by rw [State.switchOut, hself]
      have hin : Frame q (s.switchOut c) ((s.switchOut c).switchIn c q) := .switchIn hcurr
      rw [pickNext_some hne]
      intro p l hl
      by_cases hp : p = q
      · subst hp
        have hl' : Fits (s.switchOut c) p l := by
          cases hcurr : (s.cpus c).curr with
          | none => exact Stays.switchOut hpc hcurr p l hl
          | some r => exact (Frame.switchOut hpc hcurr).stays (by rintro rfl; exact hne hcurr) hl
        obtain ⟨rfl, hrunning⟩ := hl'.switchIn hcurr
          (by rw [State.switchOut, hself]; exact hne)
          (by rw [State.switchOut, hself]; exact hnext p hnext')
        exact ⟨.running c, .single (.run c), hrunning⟩
      · obtain ⟨l', hmoves, hl'⟩ := hout p l hl
        exact ⟨l', hmoves, hin.stays hp hl'⟩

/-- `finish_lock_switch`: the task that ran before is off its CPU. -/
theorem Moves.finishClear {prev : Option Pid} {prevState : Nat}
    (hpc : (s.cpus c).pc = .finishing prev prevState) :
    Moves s (prev.elim (s.goTo c (.unlocking prev prevState)) fun p =>
      (s.goTo c (.unlocking prev prevState)).modTask p fun t => { t with onCpu := false }) := by
  cases prev with
  | none => exact (Stays.goTo (by simp [hpc]) rfl (by simp [hpc]) (.inr (by simp [hpc]))).moves
  | some p =>
      have hframe : Frame p s (s.goTo c (.unlocking (some p) prevState)) :=
        .goTo (by simp [hpc, eq_comm]) (by simp) (by simp [hpc]) (.inr (by simp [hpc]))
      rw [Option.elim_some]
      refine Moves.change (hframe.trans (.modTask p _ _)) ?_
      intro l hl
      have hleaving : l.leavingFrom = some c := (hl.cpus c).leaving.mp (by rw [hpc]; rfl)
      have hcpus : ∀ d, d ≠ c → (((s.goTo c (.unlocking (some p) prevState)).modTask p
          fun t => { t with onCpu := false }).cpus d) = s.cpus d := by
        intro d hd
        exact s.cpus_goTo_of_ne c _ hd
      obtain rfl | rfl : l = .outgoing c ∨ l = .departing c := by cases l <;> simp_all
      · refine ⟨.ready c, .single (.saved c), hl.update (c := c) hcpus ?_ ?_ ?_⟩
        · intro d hd
          constructor <;> simp [Place.seenFrom, hd.symm]
        · obtain ⟨h1, h2, h3, h4, h5, h6, h7, h8, h9⟩ := hl.task
          constructor <;> simp_all
        · obtain ⟨h1, h2, h3, h4, h5, h6, h7, h8, h9, h10, h11, h12⟩ := hl.cpus c
          constructor <;> simp_all
      · refine ⟨.asleep, .single (.off c), hl.update (c := c) hcpus ?_ ?_ ?_⟩
        · intro d hd
          constructor <;> simp [Place.seenFrom, hd.symm]
        · obtain ⟨h1, h2, h3, h4, h5, h6, h7, h8, h9⟩ := hl.task
          constructor <;> simp_all
        · obtain ⟨h1, h2, h3, h4, h5, h6, h7, h8, h9, h10, h11, h12⟩ := hl.cpus c
          constructor <;> simp_all

theorem Stays.finishUnlock {prev : Option Pid} {prevState : Nat}
    (hpc : (s.cpus c).pc = .unlocking prev prevState) :
    Stays s (prev.elim (s.goTo c .run) fun p =>
      if prevState = taskDead then (s.goTo c .run).modTask p fun t => { t with puts := t.puts + 1 }
      else s.goTo c .run) := by
  have hrun : Stays s (s.goTo c .run) :=
    .goTo (by simp [hpc]) rfl (by simp [hpc]) (.inr (by simp [hpc]))
  cases prev with
  | none => exact hrun
  | some p =>
      rw [Option.elim_some]
      split
      · exact hrun.trans (.modTask (fun l hl => { hl.task with }) rfl rfl id)
      · exact hrun

/-! ### Moving tasks

Both run queues are locked, so neither CPU is in the middle of a switch, and a task
that is queued and not on a CPU is `ready`.  It is taken off one queue and put on the
other in one step, and no other field names the queue but `task_cpu`, which is written
in between.
-/

theorem Fits.ready (h : Fits s p l) (honRq : (s.tasks p).onRq = true)
    (honCpu : (s.tasks p).onCpu = false) : l = .ready (s.tasks p).cpu := by
  have h1 := h.task.onRq
  have h2 := h.task.onCpu
  have h3 := h.task.home
  cases l <;> simp_all

/-- A task that is queued on a CPU that runs another and is not in the middle of a switch. -/
theorem Fits.ready_of_idle (h : Fits s p l) (honRq : (s.tasks p).onRq = true)
    (hcpu : (s.tasks p).cpu = c) (hcurr : (s.cpus c).curr ≠ some p)
    (hpc : (s.cpus c).pc.leaving = none) : l = .ready c := by
  have h1 := h.task.onRq
  have h2 := (h.cpus c).curr
  have h3 := (h.cpus c).leaving
  have h4 := h.task.home
  rw [hpc] at h3
  cases l <;> simp_all

theorem CpuFits.ne_queue {r : Cpu} {t : Task} (h : CpuFits r c p t l) (hl : l.placedBy ≠ some c)
    (cpu : Nat) : r.pc ≠ .queue p cpu :=
  fun hpc => hl (h.placing.mp (by rw [hpc]; rfl))

/-- The run queue that a task is moved from. -/
theorem CpuFits.dequeue {r : Cpu} {t : Task} {k n : BitVec 32} (h : CpuFits r c p t (.ready c))
    (hne : c ≠ dest) :
    CpuFits { r with queue := r.queue.erase p, nrRunning := k, nrUninterruptible := n } c p
      { t with cpu := dest } (.ready dest) := by
  have hqueue := h.ne_queue (by simp)
  obtain ⟨h1, h2, h3, h4, h5, h6, h7, h8, h9, h10, h11, h12⟩ := h
  constructor <;> simp_all [hne.symm]

/-- The run queue that it is moved to. -/
theorem CpuFits.enqueue {r : Cpu} {t : Task} {k n : BitVec 32} (h : CpuFits r dest p t (.ready c))
    (hne : c ≠ dest) :
    CpuFits { r with queue := p :: r.queue, nrRunning := k, nrUninterruptible := n } dest p
      { t with cpu := dest } (.ready dest) := by
  have hqueue := h.ne_queue (by simp)
  obtain ⟨h1, h2, h3, h4, h5, h6, h7, h8, h9, h10, h11, h12⟩ := h
  constructor <;> simp_all

/-- A task is taken from one run queue and put on another. -/
theorem Moves.transfer {src : Nat} (hframe : Frame p s s')
    (hl : ∀ l, Fits s p l → l = .ready src) (hne : src ≠ dest)
    (htask : s'.tasks p = { s.tasks p with cpu := dest })
    (hother : ∀ e, e ≠ src → e ≠ dest → s'.cpus e = s.cpus e)
    (hsrc : ∃ k n, s'.cpus src = { s.cpus src with
      queue := (s.cpus src).queue.erase p, nrRunning := k, nrUninterruptible := n })
    (hdest : ∃ k n, s'.cpus dest = { s.cpus dest with
      queue := p :: (s.cpus dest).queue, nrRunning := k, nrUninterruptible := n }) :
    Moves s s' := by
  obtain ⟨_, _, hsrc⟩ := hsrc
  obtain ⟨_, _, hdest⟩ := hdest
  refine Moves.change hframe fun l hl' => ?_
  obtain rfl := hl l hl'
  refine ⟨.ready dest, .single (.migrate src dest),
    hl'.update₂ (c := src) (d := dest) hother ?_ ?_ ?_ ?_⟩
  · intro e hsrc hdest
    rw [htask]
    constructor <;> simp [Place.seenFrom, hsrc.symm, hdest.symm]
  · rw [htask, hframe.nextPid]
    obtain ⟨h1, h2, h3, h4, h5, h6, h7, h8, h9⟩ := hl'.task
    constructor <;> simp_all
  · rw [hsrc, htask]
    exact (hl'.cpus src).dequeue hne
  · rw [hdest, htask]
    exact (hl'.cpus dest).enqueue hne

theorem cpus_moveTask_of_ne {e src : Nat} (hsrc : e ≠ src) (hdest : e ≠ dest) :
    (moveTask src dest p s).cpus e = s.cpus e := by
  rw [moveTask, cpus_activateTask_of_ne hdest]
  exact cpus_deactivateTask_of_ne hsrc

/-- **`pull_rt_task` and `push_rt_task`** keep every task in a place. -/
theorem Moves.moveTask {src : Nat} (honRq : (s.tasks p).onRq = true)
    (honCpu : (s.tasks p).onCpu = false) (hcpu : (s.tasks p).cpu = src) (hne : src ≠ dest) :
    Moves s (moveTask src dest p s) := by
  refine Moves.transfer (((Frame.deactivateTask src p s).trans (.setTaskCpu dest p _)).trans
    (.activateTask dest p _)) (fun l hl => hcpu ▸ hl.ready honRq honCpu) hne ?_
    (fun e hsrc hdest => cpus_moveTask_of_ne hsrc hdest)
    ⟨_, _, (cpus_activateTask_of_ne hne).trans cpus_deactivateTask_self⟩ ?_
  · simp [Smp.moveTask]
  · have hdest : (setTaskCpu dest p (deactivateTask src p s)).cpus dest = s.cpus dest :=
      cpus_deactivateTask_of_ne hne.symm
    rw [Smp.moveTask, cpus_activateTask_self, hdest]
    exact ⟨_, _, rfl⟩

/-- Moving a task that is queued on `src` and does not run there, with both run queues locked and
its `pi_lock` held. -/
theorem Moves.requeue {src : Nat} (hl : ∀ l, Fits s p l → l = .ready src) :
    Moves s (enqueueTask dest p (setTaskCpu dest p (dequeueTask src p s))) := by
  by_cases hne : src = dest
  · subst hne
    refine Moves.change (((Frame.dequeueTask src p s).trans (.setTaskCpu src p _)).trans
      (.enqueueTask src p _)) fun l hl' => ?_
    obtain rfl := hl l hl'
    refine ⟨.ready src, .refl, hl'.update (c := src) ?_ ?_ ?_ ?_⟩
    · intro d hd
      simp [cpus_enqueueTask_of_ne, cpus_dequeueTask_of_ne, hd]
    · intro d hd
      constructor <;> simp
    · obtain ⟨h1, h2, h3, h4, h5, h6, h7, h8, h9⟩ := hl'.task
      constructor <;> simp_all
    · have hqueue := (hl'.cpus src).ne_queue (by simp)
      obtain ⟨h1, h2, h3, h4, h5, h6, h7, h8, h9, h10, h11, h12⟩ := hl'.cpus src
      constructor <;> simp_all
  · refine Moves.transfer (((Frame.dequeueTask src p s).trans (.setTaskCpu dest p _)).trans
      (.enqueueTask dest p _)) hl hne ?_ ?_ ?_ ?_
    · simp
    · intro e hsrc hdest
      simp [cpus_enqueueTask_of_ne, cpus_dequeueTask_of_ne, hsrc, hdest]
    · rw [cpus_enqueueTask_of_ne hne, setTaskCpu, State.cpus_modTask, cpus_dequeueTask_self]
      exact ⟨_, _, rfl⟩
    · rw [cpus_enqueueTask_self, setTaskCpu, State.cpus_modTask,
        cpus_dequeueTask_of_ne (Ne.symm hne)]
      exact ⟨_, _, rfl⟩

/-- **`__migrate_task`** keeps every task in a place. -/
theorem Moves.migrateTask (hcurr : (s.cpus c).curr ≠ some p)
    (hpc : (s.cpus c).pc.leaving = none) : Moves s (migrateTask p c dest s) := by
  unfold Smp.migrateTask
  split
  · exact (Stays.refl s).moves
  split
  · exact (Stays.refl s).moves
  · next hcpu =>
    split
    · exact (Stays.refl s).moves
    split
    · next honRq =>
      exact Moves.requeue fun l hl => hl.ready_of_idle honRq (not_not.mp hcpu) hcurr hpc
    · exact (Stays.refl s).moves

/-! ### Forking

The child is in no field of any CPU, so all that matters is that its number has not
been used: then it is `unborn`, and no CPU can be in the middle of anything with it.
-/

theorem Moves.schedFork {threadBound : Bool} : Moves s (schedFork c threadBound s) := by
  intro q l hl
  by_cases hq : q = s.nextPid
  · subst hq
    obtain rfl : l = .unborn := by
      have := hl.task.forked
      simpa using this
    refine ⟨.newborn, .single .fork, ?_, ?_⟩
    · constructor <;> simp [Smp.schedFork, taskRunning, taskWaking, taskDead]
    · intro d
      obtain ⟨h1, h2, h3, h4, h5, h6, h7, h8, h9, h10, h11, h12⟩ := hl.cpus d
      have hpi := hl.task.unstarted rfl
      have hqueue := (hl.cpus d).ne_queue (by simp)
      constructor <;> simp_all [Smp.schedFork]
  · have htask : (Smp.schedFork c threadBound s).tasks q = s.tasks q := Function.update_of_ne hq ..
    have hforked : q < (Smp.schedFork c threadBound s).nextPid ↔ q < s.nextPid :=
      ⟨fun h => Nat.lt_of_le_of_ne (Nat.le_of_lt_succ h) hq, Nat.lt_succ_of_lt⟩
    refine ⟨l, .refl, ?_, ?_⟩
    · rw [htask]
      exact { hl.task with forked := hforked.trans hl.task.forked }
    · rw [htask]
      exact hl.cpus

/-- `wake_up_new_task`. -/
theorem Moves.start {cpu : Nat} {mask : CpuMask} (hforked : p < s.nextPid)
    (hstarted : (s.tasks p).started = false) :
    Moves s ((setOnRq true p (activateTask cpu p (setTaskCpu cpu p
      (doSetCpusAllowed mask p s)))).modTask p fun t => { t with started := true }) := by
  refine Moves.change ((((Frame.modTask p _ s).trans (.setTaskCpu cpu p _)).trans
    (.activateTask cpu p _)).trans ((Frame.setOnRq true p _).trans (.modTask p _ _))) ?_
  intro l hl
  obtain rfl : l = .newborn := by
    have h1 := hl.task.forked
    have h2 := hl.task.started
    cases l <;> simp_all
  have hpi := hl.task.unstarted rfl
  refine ⟨.ready cpu, .single (.start cpu), hl.update (c := cpu) ?_ ?_ ?_ ?_⟩
  · intro d hd
    exact cpus_activateTask_of_ne hd
  · intro d hd
    constructor <;> simp [Place.seenFrom, hd.symm, doSetCpusAllowed]
  · obtain ⟨h1, h2, h3, h4, h5, h6, h7, h8, h9⟩ := hl.task
    constructor <;> simp_all [doSetCpusAllowed, taskRunning, taskWaking, taskDead]
  · obtain ⟨h1, h2, h3, h4, h5, h6, h7, h8, h9, h10, h11, h12⟩ := hl.cpus cpu
    have hqueue := (hl.cpus cpu).ne_queue (by simp)
    constructor <;> simp_all [doSetCpusAllowed]

/-! ### The wake list

A task on a wake list, or on the list that was taken from it, is `listed` all along,
whichever of the two has it.  Putting the tasks of a list on the run queue is an
induction on the list, in which each task is moved once, as no list has it twice.
-/

theorem Stays.schedulerIpi (hpc : (s.cpus c).pc = .run) : Stays s (schedulerIpi c s) := by
  unfold Smp.schedulerIpi
  simp only
  split
  · next hempty =>
    refine Stays.modCpu fun q => ?_
    constructor <;> simp [List.isEmpty_iff.mp hempty]
  · rw [State.goTo, State.modCpu_modCpu]
    refine Stays.modCpu fun q => ?_
    constructor <;> simp [hpc]

/-- **`sched_ttwu_pending`** puts the tasks it has taken from the wake list on the run queue: some of
them in any case, and all of them when the CPU goes down. -/
theorem Moves.schedTtwuPending (done : List Pid) {left : List Pid} {pc : Pc}
    (hpc : (s.cpus c).pc = .ttwuPending (done ++ left))
    (hnew : pc = .ttwuPending left ∨ left = [] ∧ pc = .dying) :
    Moves s ((schedTtwuPending c done s).goTo c pc) := by
  obtain ⟨k, n, hn⟩ := cpus_schedTtwuPending_self (c := c) done s
  have hother : ∀ d, d ≠ c → ((Smp.schedTtwuPending c done s).goTo c pc).cpus d = s.cpus d := by
    intro d hd
    rw [State.cpus_goTo_of_ne _ _ _ hd, cpus_schedTtwuPending_of_ne _ _ hd]
  have hpending : pc.pending = left := by rcases hnew with rfl | ⟨rfl, rfl⟩ <;> rfl
  intro q l hl
  have htask := tasks_schedTtwuPending (c := c) done s q
  have hlists := (hl.cpus c).lists
  simp only [hpc, Pc.pending, List.count_append] at hlists
  by_cases hq : q ∈ done
  · rw [if_pos hq] at htask
    have hcount : 0 < done.count q := List.count_pos_iff.mpr hq
    obtain rfl : l = .listed c := hl.mem_lists.mp (.inr (by simp [hpc, hq]))
    -- it is there once, so it is not among those that are left
    have hone : (s.cpus c).wakeList.count q = 0 ∧ left.count q = 0 := by
      simp only [Place.listedOn, decide_true, Bool.toNat_true] at hlists
      omega
    refine ⟨.ready c, .single (.pending c), hl.update (c := c) hother ?_ ?_ ?_⟩
    · intro d hd
      rw [State.tasks_goTo, htask]
      constructor <;> simp [Place.seenFrom, hd.symm]
    · rw [State.tasks_goTo, State.nextPid_goTo, htask, nextPid_schedTtwuPending]
      obtain ⟨h1, h2, h3, h4, h5, h6, h7, h8, h9⟩ := hl.task
      constructor <;> simp_all [taskRunning, taskWaking, taskDead]
    · rw [State.tasks_goTo, State.cpus_goTo_self, htask, hn]
      obtain ⟨h1, h2, h3, h4, h5, h6, h7, h8, h9, h10, h11, h12⟩ := hl.cpus c
      rcases hnew with rfl | ⟨rfl, rfl⟩ <;> constructor <;> simp_all
  · rw [if_neg hq] at htask
    have hcount : done.count q = 0 := List.count_eq_zero_of_not_mem hq
    refine ⟨l, .refl, hl.update (c := c) hother ?_ ?_ ?_⟩
    · intro d hd
      rw [State.tasks_goTo, htask]
      exact .stay .rfl rfl fun _ h => h
    · rw [State.tasks_goTo, State.nextPid_goTo, htask, nextPid_schedTtwuPending]
      exact hl.task
    · rw [State.tasks_goTo, State.cpus_goTo_self, htask, hn]
      refine (hl.cpus c).same ?_
      rcases hnew with rfl | ⟨rfl, rfl⟩ <;> constructor <;> simp [hpc, hcount]

/-! ### The other steps

What is left changes no place but in the two cases at the start.  A running task may
write any state that no wake-up asks for and that is not `TASK_WAKING`: its place does
not depend on it until it is off the run queue.
-/

/-- **`try_to_wake_up_local`** keeps every task in a place. -/
theorem Moves.tryToWakeUpLocal (hpc : (s.cpus c).pc = .picking)
    (hcpu : (s.tasks p).cpu = c) (hcurr : (s.cpus c).curr ≠ some p)
    (hpi : (s.tasks p).piLock = none) : Moves s (tryToWakeUpLocal c p s) := by
  have hleaving : (s.cpus c).pc.leaving = none := by rw [hpc]; rfl
  unfold Smp.tryToWakeUpLocal
  split
  · exact (Stays.refl s).moves
  · next hmatch =>
    have hnormal : taskNormal &&& Unwakeable = 0 := by decide
    obtain ⟨hrunning, hwaking, hdead⟩ := ne_of_matches hnormal hmatch
    by_cases honRq : (s.tasks p).onRq = true
    · rw [if_pos honRq]
      refine (Stays.modTask ?_ rfl rfl (by simp [taskRunning, taskDead])).moves
      intro l hl
      obtain rfl : l = .ready c := hl.ready_of_idle honRq hcpu hcurr hleaving
      obtain ⟨h1, h2, h3, h4, h5, h6, h7, h8, h9⟩ := hl.task
      constructor <;> simp_all [taskRunning, taskWaking, taskDead]
    · rw [if_neg honRq]
      refine Moves.change ((Frame.ttwuActivate c p s).trans (.setState taskRunning p _)) ?_
      intro l hl
      obtain rfl : l = .asleep := by
        have h1 := hl.task.onRq
        have h2 := hl.task.waking
        have h3 := hl.task.unstarted
        have h4 := hl.task.home
        have h5 := (hl.cpus c).curr
        have h6 := (hl.cpus c).leaving
        rw [hleaving] at h6
        cases l <;> simp_all
      refine ⟨.ready c, .single (.wakeLocal c), hl.update (c := c) ?_ ?_ ?_ ?_⟩
      · intro d hd
        exact cpus_activateTask_of_ne hd
      · intro d hd
        constructor <;> simp [Place.seenFrom, hd.symm, ttwuActivate, hpi]
      · obtain ⟨h1, h2, h3, h4, h5, h6, h7, h8, h9⟩ := hl.task
        constructor <;> simp_all [ttwuActivate, taskRunning, taskWaking, taskDead]
      · obtain ⟨h1, h2, h3, h4, h5, h6, h7, h8, h9, h10, h11, h12⟩ := hl.cpus c
        constructor <;> simp_all [ttwuActivate]

/-- Writing the mask of a task. -/
theorem Stays.doSetCpusAllowed {mask : CpuMask} : Stays s (doSetCpusAllowed mask p s) :=
  Stays.modTask (fun _ hl => { hl.task with }) rfl rfl id

theorem Stays.of_eq (hnext : s'.nextPid = s.nextPid) (htasks : s'.tasks = s.tasks)
    (hcpus : s'.cpus = s.cpus) : Stays s s' :=
  Stays.same hnext htasks fun q c => by rw [hcpus]; exact .refl q _

/-- What is due for the stoppers is nothing to a task. -/
theorem Stays.stopCalls {calls : List (Nat × MigrationArg)} :
    Stays s { s with stopCalls := calls } :=
  .of_eq rfl rfl rfl

theorem goTo_ttwuDoActivate {pc : Pc} :
    ttwuDoActivate c p (s.goTo c pc) = (ttwuDoActivate c p s).goTo c pc := by
  simp [ttwuDoActivate, ttwuActivate, activateTask, enqueueTask, incNrRunning, addUninterruptible,
    State.goTo, State.modCpu, State.modTask, Function.update_idem]

theorem goTo_schedTtwuPending (llist : List Pid) (pc : Pc) (s : State) :
    schedTtwuPending c llist (s.goTo c pc) = (schedTtwuPending c llist s).goTo c pc := by
  induction llist generalizing s with
  | nil => rfl
  | cons p llist ih =>
      rw [schedTtwuPending_cons, goTo_ttwuDoActivate, ih]
      rfl

/-- `CPU_DYING`, up to the loop of `migrate_tasks`. -/
theorem Moves.cpuDying (hpc : (s.cpus c).pc = .run) :
    Moves s ((Smp.schedTtwuPending c (s.cpus c).wakeList
      (s.modCpu c fun r => { r with online := false, wakeList := [] })).goTo c .dying) := by
  have hlist : Stays s ((s.modCpu c fun r => { r with online := false, wakeList := [] }).goTo c
      (.ttwuPending (s.cpus c).wakeList)) := by
    rw [State.goTo, State.modCpu_modCpu]
    refine .modCpu fun q => ?_
    constructor <;> simp [hpc]
  have hall : (s.cpus c).wakeList = (s.cpus c).wakeList ++ [] := by rw [List.append_nil]
  have hdying := hlist.trans_moves (schedTtwuPending (s.cpus c).wakeList (c := c)
    (State.pc_goTo_self.trans (congrArg Pc.ttwuPending hall)) (.inr ⟨rfl, rfl⟩))
  rwa [goTo_schedTtwuPending, State.goTo_goTo] at hdying

/-- The states a task may set for itself. -/
theorem ne_of_unwakeable {state : Nat} (h : state &&& Unwakeable = 0) :
    state ≠ taskWaking ∧ state ≠ taskDead :=
  ⟨by rintro rfl; exact absurd h (by decide), by rintro rfl; exact absurd h (by decide)⟩

/-- A running task sets a state that it may set for itself. -/
theorem TaskFits.setState {forked : Prop} {t : Task} {state : Nat} {sleepLoop : SleepLoop}
    (h : TaskFits forked t (.running c)) (hwaking : state ≠ taskWaking)
    (hdead : state = taskDead → t.piLock = none) :
    TaskFits forked { t with state := state, sleepLoop := sleepLoop } (.running c) := by
  obtain ⟨h1, h2, h3, h4, h5, h6, h7, h8, h9⟩ := h
  constructor <;> simp_all

/-- A CPU is about to call `try_to_wake_up`. -/
theorem Stays.callWake {state : Nat} (hpc : (s.cpus c).pc = .run)
    (hstate : state &&& Unwakeable = 0) : Stays s (s.goTo c (.wake p state)) := by
  refine Stays.wake_goTo (.inl hpc) (.inr rfl) fun l hl => ?_
  obtain ⟨h1, h2, h3, h4, h5, h6, h7, h8, h9, h10, h11, h12⟩ := hl.cpus c
  constructor <;> simp_all

theorem Stays.testCondition (hpc : (s.cpus c).pc = .run) (hcurr : (s.cpus c).curr = some p) :
    Stays s (s.modTask p fun t =>
      if t.condition then { t with state := taskRunning, sleepLoop := .outside }
      else { t with sleepLoop := .mustSleep }) := by
  by_cases hcond : (s.tasks p).condition = true
  · refine Stays.setState_curr hcurr hpc (by simp [hcond]) (by simp [hcond]) fun hl => ?_
    simpa [hcond] using hl.setState (by decide : taskRunning ≠ taskWaking) fun h => by cases h
  · refine Stays.setState_curr hcurr hpc (by simp [hcond]) (by simp [hcond]) fun hl => ?_
    simpa [hcond] using ({ hl with } : TaskFits _ { s.tasks p with sleepLoop := .mustSleep } _)

theorem Stays.migrateNrUninterruptible {src : Nat} :
    Stays s (migrateNrUninterruptible src dest s) := by
  have hadd : Stays s (addUninterruptible dest (s.cpus src).nrUninterruptible s) :=
    Stays.modCpu fun _ => .of_eq rfl rfl rfl rfl
  unfold Smp.migrateNrUninterruptible
  exact hadd.trans (.modCpu fun _ => .of_eq rfl rfl rfl rfl)

/-- **Every step moves every task along its life cycle**, or leaves it where it is. -/
theorem Moves.of_effect {m : Machine} {a : Act} (h : Effect m c s a s') : Moves s s' := by
  cases h with
  | wakeFail hpc => exact (Stays.wake_fail hpc).moves
  | wakeLock hpc hpi hstate => exact (Stays.wake_lock hpc hpi hstate).moves
  | wakeRead hpc hnew hwait => exact (Stays.wake_read hpc hnew hwait).moves
  | wakeRemote hpc _ _ honRq => exact (Stays.wake_remote hpc honRq).moves
  | wakePlace hpc honCpu => exact .wake_place hpc honCpu _
  | wakeSelect hpc => exact (Stays.wake_select hpc).moves
  | wakeListFirst hpc hne => exact .wake_listFirst hpc hne
  | wakeList hpc hne => exact .wake_list hpc hne
  | wakeDirect hpc => exact .wake_direct hpc
  | wakeSend hpc => exact (Stays.wake_send hpc).moves
  | fork => exact .schedFork
  | start _ hforked hstarted => exact .start hforked hstarted
  | setCurrentState hpc hcurr _ hstate =>
      obtain ⟨hwaking, hdead⟩ := ne_of_unwakeable hstate
      exact (Stays.setState_curr hcurr hpc rfl rfl fun hl =>
        hl.setState hwaking fun h => absurd h hdead).moves
  | testCondition hpc hcurr => exact (Stays.testCondition hpc hcurr).moves
  | setFrozen => exact (Stays.modTask (fun _ hl => { hl.task with }) rfl rfl id).moves
  | doExit hpc hcurr hpi =>
      exact (Stays.setState_curr hcurr hpc rfl rfl fun hl =>
        hl.setState (by decide) fun _ => hpi).moves
  | retract => exact (Stays.modTask (fun _ hl => { hl.task with }) rfl rfl id).moves
  | @signal p hpc =>
      have hset : Stays s (s.modTask p fun t => { t with condition := true }) :=
        .modTask (fun _ hl => { hl.task with }) rfl rfl id
      exact (hset.trans (.callWake hpc (by decide))).moves
  | callWake hpc _ hstate => exact (Stays.callWake hpc hstate).moves
  | ipi hpc => exact (Stays.schedulerIpi hpc).moves
  | pendingDone hpc =>
      refine (Stays.modCpu fun q => ?_).moves
      constructor <;> simp [hpc]
  | @pending p llist hpc => exact .schedTtwuPending [p] hpc (.inl rfl)
  | schedYield hpc halive => exact (Stays.yield hpc halive).moves
  | schedSignal hpc hcurr => exact (Stays.schedSignal hpc hcurr).moves
  | schedBlock hpc hcurr hstate => exact .block hcurr hpc hstate
  | wakeLocal hpc hcpu _ hcurr hpi => exact .tryToWakeUpLocal hpc hcpu hcurr hpi
  | dropLock hpc =>
      refine (Stays.modCpu fun q => ?_).moves
      constructor <;> simp [hpc]
  | retakeLock hpc =>
      refine (Stays.modCpu fun q => ?_).moves
      constructor <;> simp [hpc]
  | pick hpc hnext => exact .pickNext hpc hnext
  | finishRead hpc =>
      refine (Stays.modCpu fun q => ?_).moves
      constructor <;> simp [hpc]
  | finishClear hpc => exact .finishClear hpc
  | finishUnlock hpc => exact (Stays.finishUnlock hpc).moves
  | move _ _ _ honRq honCpu hcpu hne => exact .moveTask honRq honCpu hcpu hne
  | same => exact (Stays.refl s).moves
  | setAllowed => exact Stays.doSetCpusAllowed.moves
  | setAllowedMove => exact (Stays.doSetCpusAllowed.trans .stopCalls).moves
  | exec | handOver => exact Stays.stopCalls.moves
  | stop hpc hcurr hne =>
      refine .migrateTask ?_ (by rw [hpc]; rfl)
      rw [hcurr]
      exact fun h => hne (Option.some.inj h)
  | setActive => exact (Stays.modCpu fun _ => .of_eq rfl rfl rfl rfl).moves
  | up => exact (Stays.modCpu fun _ => .of_eq rfl rfl rfl rfl).moves
  | dying hpc => exact (Moves.cpuDying hpc).trans_stays (.of_eq rfl rfl rfl)
  | idleTurn => exact (Stays.refl s).moves
  | migrateNext hpc _ hcurr =>
      refine Stays.doSetCpusAllowed.trans_moves (.migrateTask hcurr ?_)
      rw [Smp.doSetCpusAllowed, State.cpus_modTask, hpc]
      rfl
  | @dead dest hpc =>
      have hmigrate : Stays s { Smp.migrateNrUninterruptible c dest s with stopMachine := none } :=
        Stays.migrateNrUninterruptible.trans (.of_eq rfl rfl rfl)
      refine (hmigrate.trans (.goTo ?_ rfl ?_ (.inr ?_))).moves <;>
        simp [pc_migrateNrUninterruptible, hpc]

theorem Moves.step {m : Machine} {e : Nat × Act} (hstep : step m s e = some s') : Moves s s' :=
  .of_effect (effect_of_step hstep).2.2

theorem inv_boot : Inv boot := by
  intro q
  refine ⟨.unborn, ?_, ?_⟩
  · constructor <;> simp [boot, taskRunning, taskWaking, taskDead]
  · intro c
    constructor <;> simp [boot]

/-- **Every task is in a place** in every state the machine can come to. -/
theorem inv_of_reachable {m : Machine} (h : Reachable m s) : Inv s :=
  h.invariant Inv (fun _ _ _ hs hstep => hs.moves (.step hstep)) inv_boot

end WrrScheduler.Smp
