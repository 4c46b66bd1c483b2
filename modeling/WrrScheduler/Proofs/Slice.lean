/-
What happens to time slices.

A slice is spent a tick at a time while its task runs in the WRR class, refilled
when the last tick is spent, and handed to a child by fork.  Nothing else writes
it: a task keeps what is left of its slice through sleep, preemption, and changes
of class, policy, priority and group.  So between two refills a slice counts the
task's own ticks.
-/
import WrrScheduler.Proofs.Entity
import WrrScheduler.Proofs.Resched

namespace WrrScheduler

/-- What is left of a task's slice. -/
def State.slice (s : State) (p : Pid) : Nat := (s.tasks p).wrr.timeSlice.toNat

/-- The ticks of its own a task has left before its slice is used up: an empty slice wraps. -/
def State.ticksLeft (s : State) (p : Pid) : Nat := if s.slice p = 0 then 2 ^ 32 else s.slice p

/-- A tick that runs `task_tick_wrr` for a task: one of its own ticks. -/
def ticks (p : Pid) (s : State) : Op → Bool
  | .schedulerTick => s.rq.curr = p && (s.tasks p).schedClass = .wrr
  | _ => false

/-- The tick that uses up a task's slice. -/
def expires (p : Pid) (s : State) (o : Op) : Bool := ticks p s o && s.slice p = 1

/-- The fork that makes a task. -/
def creates (p : Pid) : Op → Bool
  | .schedFork child _ => child = p
  | _ => false

/-- The slice `task_tick_wrr` gives by a path. -/
def quantum (m : Machine) (path : String) : BitVec 32 :=
  if path = foregroup then wrrForeTimeslice m
  else if path = backgroup then wrrBackTimeslice m
  else 0

variable {m : Machine} {s t : State} {p q : Pid}

/-! ### Quanta -/

theorem toNat_wrrForeTimeslice : (wrrForeTimeslice m).toNat = 100 * m.HZ / 1000 := by
  have hsmall := m.hz_small
  rw [wrrForeTimeslice, BitVec.toNat_ofNat, Nat.mod_eq_of_lt]
  omega

theorem toNat_wrrBackTimeslice : (wrrBackTimeslice m).toNat = 10 * m.HZ / 1000 := by
  have hsmall := m.hz_small
  rw [wrrBackTimeslice, BitVec.toNat_ofNat, Nat.mod_eq_of_lt]
  omega

/-- With `HZ` a multiple of 100, both groups have a quantum. -/
theorem quantum_range (hhz : 100 ∣ m.HZ) {path : String}
    (hpath : path = foregroup ∨ path = backgroup) :
    1 ≤ (quantum m path).toNat ∧ (quantum m path).toNat ≤ (wrrForeTimeslice m).toNat := by
  obtain ⟨n, hn⟩ := hhz
  have hpos := m.hz_pos
  have hback : backgroup ≠ foregroup := by decide
  rcases hpath with rfl | rfl
  · rw [quantum, if_pos rfl, toNat_wrrForeTimeslice]
    omega
  · rw [quantum, if_neg hback, if_pos rfl, toNat_wrrForeTimeslice, toNat_wrrBackTimeslice]
    omega

theorem quantum_of_other {path : String} (hfore : path ≠ foregroup) (hback : path ≠ backgroup) :
    quantum m path = 0 := by
  rw [quantum, if_neg hfore, if_neg hback]

/-- A refill of an empty slice. -/
theorem refill_timeSlice (path : String) {w : SchedWrrEntity} (hw : w.timeSlice = 0) :
    (refill m path w).timeSlice = quantum m path := by
  unfold refill quantum
  split
  · rfl
  · split
    · rfl
    · exact hw

/-! ### Views -/

/-- The slice of a task in a view. -/
def View.slice (v : View) (p : Pid) : BitVec 32 := (v.tasks p).wrr.timeSlice

namespace View

variable {v : View} {flags : EnqueueFlags}

theorem ignoresLinks_timeSlice (flags : EnqueueFlags) :
    IgnoresLinks flags SchedWrrEntity.timeSlice := ⟨fun _ => rfl, fun _ => rfl⟩

theorem slice_modAttr (f : Attr → Attr) : (v.modAttr p f).slice q = v.slice q := by
  rw [slice, entity_modAttr]
  rfl

theorem slice_modEntity (f : SchedWrrEntity → SchedWrrEntity) :
    (v.modEntity p f).slice q =
      if q = p then (f (v.tasks p).wrr).timeSlice else v.slice q := by
  rw [slice, entity_modEntity]
  exact apply_ite SchedWrrEntity.timeSlice _ _ _

theorem slice_enqueue : (v.enqueue flags p).slice q = v.slice q :=
  readEntity_enqueue (ignoresLinks_timeSlice flags)

theorem slice_dequeue : (v.dequeue p).slice q = v.slice q :=
  readEntity_dequeue (ignoresLinks_timeSlice {})

theorem slice_requeueWrr : (v.requeueWrr p).slice q = v.slice q :=
  readEntity_requeueWrr (ignoresLinks_timeSlice {})

theorem slice_watchWrr : (v.watchWrr p).slice q = v.slice q := by
  unfold watchWrr
  split
  · rfl
  · exact @readEntity_modEntity v p q _ SchedWrrEntity.timeSlice _ fun _ => rfl

theorem slice_expireWrr : (v.expireWrr m p).slice p =
    (refill m (m.cgroupPath (m.cgroup (v.tasks p).schedTaskGroup) v.groupPath)
      (v.tasks p).wrr).timeSlice := by
  unfold expireWrr
  simp only []
  split
  · rw [slice_requeueWrr, slice_modEntity, if_pos rfl]
  · rw [slice_modEntity, if_pos rfl]

/-- **A tick, taken apart**: the watchdog, one tick of the slice, and on the last one the expiry. -/
theorem tickWrr_cases (m : Machine) (hpolicy : (v.tasks p).policy = .wrr) : ∃ w : View,
    v.tickWrr m p = (if v.slice p = 1 then w.expireWrr m p else w) ∧
      w.attr p = v.attr p ∧ w.slice p = v.slice p - 1 ∧ w.wrr = v.wrr ∧
      w.groupPath = v.groupPath := by
  have hattr : (v.watchWrr p).attr p = v.attr p := attr_watchWrr
  have hslice : (v.watchWrr p).slice p = v.slice p := slice_watchWrr
  have hkept : (v.watchWrr p).wrr = v.wrr ∧ (v.watchWrr p).groupPath = v.groupPath := by
    unfold watchWrr
    split <;> exact ⟨rfl, rfl⟩
  have hpolicy' : ((v.watchWrr p).tasks p).policy = .wrr :=
    (congrArg Attr.policy hattr).trans hpolicy
  unfold tickWrr
  generalize v.watchWrr p = w at hattr hslice hkept hpolicy'
  have hspent : (w.modEntity p spendEntity).slice p = v.slice p - 1 := by
    rw [slice_modEntity, if_pos rfl, ← hslice]
    rfl
  have hzero : (w.modEntity p spendEntity).slice p = 0 ↔ v.slice p = 1 := by
    rw [hspent]
    generalize v.slice p = x
    bv_omega
  refine ⟨w.modEntity p spendEntity, ?_, (attr_modEntity _).trans hattr, hspent, hkept.1, hkept.2⟩
  rw [if_neg (not_not_intro hpolicy')]
  refine (ite_not _ _ _).trans ?_
  exact if_congr hzero rfl rfl

/-- **A tick spends one tick of the slice**, and on the last one gives a new slice by the path. -/
theorem slice_tickWrr (hpolicy : (v.tasks p).policy = .wrr) :
    (v.tickWrr m p).slice p =
      if v.slice p = 1 then
        quantum m (m.cgroupPath (m.cgroup (v.tasks p).schedTaskGroup) v.groupPath)
      else v.slice p - 1 := by
  obtain ⟨w, htick, hattr, hslice, -, hpath⟩ := v.tickWrr_cases m hpolicy
  rw [htick]
  split
  · rename_i hone
    have hempty : (w.tasks p).wrr.timeSlice = 0 := by
      show w.slice p = 0
      rw [hslice, hone]
      rfl
    have hgroup : (w.tasks p).schedTaskGroup = (v.tasks p).schedTaskGroup :=
      congrArg Attr.schedTaskGroup hattr
    rw [slice_expireWrr, refill_timeSlice _ hempty, hgroup, hpath]
  · exact hslice

/-- The last tick of a slice reads the path of the task's group. -/
theorem path_tickWrr (hpolicy : (v.tasks p).policy = .wrr) :
    (v.tickWrr m p).groupPath =
      if v.slice p = 1 then m.cgroupPath (m.cgroup (v.tasks p).schedTaskGroup) v.groupPath
      else v.groupPath := by
  obtain ⟨w, htick, hattr, -, -, hpath⟩ := v.tickWrr_cases m hpolicy
  rw [htick]
  split
  · have hgroup : (w.tasks p).schedTaskGroup = (v.tasks p).schedTaskGroup :=
      congrArg Attr.schedTaskGroup hattr
    rw [← hgroup, ← hpath]
    unfold expireWrr
    simp only []
    split <;> rfl
  · exact hpath

theorem queue_expireWrr : (v.expireWrr m p).wrr.queue =
    if v.wrr.queue.getLast? ≠ v.wrr.queue.head? then Sequence.moveTail p v.wrr.queue
    else v.wrr.queue :=
  apply_ite (fun v : View => v.wrr.queue) _ _ _

/-- The last tick of a slice moves the task to the tail, unless it is alone. -/
theorem queue_tickWrr (hpolicy : (v.tasks p).policy = .wrr) :
    (v.tickWrr m p).wrr.queue =
      if v.slice p = 1 ∧ v.wrr.queue.getLast? ≠ v.wrr.queue.head? then
        Sequence.moveTail p v.wrr.queue
      else v.wrr.queue := by
  obtain ⟨w, htick, -, -, hwrr, -⟩ := v.tickWrr_cases m hpolicy
  rw [htick]
  by_cases hone : v.slice p = 1
  · simp only [hone, if_true, true_and]
    rw [queue_expireWrr, hwrr]
  · simp only [hone, if_false, false_and]
    rw [hwrr]

end View

/-! ### Steps

What is proved for one field holds for anything read off the entity, as long as it
does not look at the links: `readEntity_step` is the general statement, and the slice
is one instance.
-/

theorem slice_eq_one : s.slice p = 1 ↔ (s.tasks p).wrr.timeSlice = 1 :=
  @BitVec.toNat_inj 32 _ 1

theorem ticks_iff {o : Op} : ticks p s o = true ↔
    o = .schedulerTick ∧ s.rq.curr = p ∧ (s.tasks p).schedClass = .wrr := by
  cases o <;> simp [ticks]

/-- An operation that puts a task on the WRR queue with `ENQUEUE_WAKEUP`. -/
def wakesUp (m : Machine) (p : Pid) (s : State) : Op → Bool
  | .tryToWakeUp q state => q = p && (s.tasks p).state &&& state ≠ 0 && s.view.wakesWrr p
  | .schedule preemptActive => s.view.wakesWorkerWrr p preemptActive (wokenWorker m s)
  | _ => false

/-- **Nothing but an own tick, the fork that makes the task, and a wake-up touches an entity**, less
its links. -/
theorem readEntity_step {β : Type} {read : SchedWrrEntity → β} {o : Op}
    (hread : ∀ head, IgnoresLinks { head := head } read)
    (hwake : IgnoresLinks { wakeup := true } read ∨ wakesUp m q s o = false) (hinv : Inv m s)
    (hstep : step m s o = some t) (hcreates : creates q o = false) (hticks : ticks q s o = false) :
    read (t.tasks q).wrr = read (s.tasks q).wrr := by
  have hview := hinv.view_step hstep
  show read (t.view.tasks q).wrr = read (s.view.tasks q).wrr
  cases o with
  | tryToWakeUp p state =>
      rw [hview]
      split
      · rfl
      · rename_i hstate
        by_cases hqp : q = p
        · subst hqp
          rcases hwake with hread' | hno
          · exact View.readEntity_wake hread'
          · rw [View.entity_wake_of_not]
            have hne : (s.tasks q).state &&& state ≠ 0 := hstate
            simpa [wakesUp, hne] using hno
        · rw [View.entity_wake_of_ne hqp]
  | wakeUpNewTask p =>
      rw [hview, View.entity_modAttr]
      exact View.readEntity_enqueue (hread false)
  | schedFork child f =>
      have hq : q ≠ child := by
        rintro rfl
        simp [creates] at hcreates
      rw [hview]
      simp [View.modTask, hq]
  | schedule preemptActive =>
      rw [view_schedule hstep]
      exact View.readEntity_putToSleep (hread false) hwake
  | schedYield =>
      rw [hview]
      split
      · exact View.readEntity_requeueWrr (hread false)
      · rfl
  | schedulerTick =>
      rw [hview]
      split
      · rename_i hcls
        have hq : q ≠ s.view.curr := by
          rintro rfl
          have htrue : ticks s.view.curr s .schedulerTick = true := ticks_iff.mpr ⟨rfl, rfl, hcls⟩
          rw [htrue] at hticks
          cases hticks
        have hspares : s.view.Spares {s.view.curr} (s.view.tickWrr m s.view.curr) :=
          .tickWrr m (Set.mem_singleton _)
        rw [hspares.tasks q hq]
      · rfl
  | schedSetscheduler p policy prio user who seen =>
      exact View.readEntity_setschedulerStep (hread false) hview
  | rtMutexSetprio p prio =>
      rw [hview]
      split
      · rfl
      · exact View.readEntity_detached (hread _) _
  | setUserNice p nice =>
      rw [hview]
      exact View.readEntity_setUserNice (hread false) nice
  | schedMoveTask p tg =>
      rw [hview]
      exact View.readEntity_detached (hread false) _
  | normalizeRtTasks =>
      have hfold : ∀ (l : List Pid) (v : View),
          read ((l.foldl View.normalizeOne v).tasks q).wrr = read (v.tasks q).wrr := by
        intro l
        induction l with
        | nil => exact fun _ => rfl
        | cons p l ih => exact fun v => (ih _).trans (View.readEntity_normalizeOne (hread false))
      rw [hview]
      exact hfold _ _
  | schedRrGetInterval p =>
      rw [hview]
      split <;> rfl
  | doSchedRtPeriodTimer g overrun =>
      rw [hview]
  | schedSetStopTask stop who seen =>
      cases stop with
      | none => rw [hview, View.readEntity_setStop]
      | some p =>
          obtain ⟨w, hw, hv⟩ := hview
          rw [hv, View.readEntity_setStop, View.entity_modAttr,
            View.readEntity_setschedulerStep (hread false) hw]
  | initIdleBootupTask | setCurrentState | foreign =>
      simp only [View.Step] at hview
      rw [hview, View.entity_modAttr]
  | releaseTask p => rw [hview]

/-- **Nothing but an own tick, and the fork that makes the task, writes a slice.** -/
theorem slice_step {o : Op} (hinv : Inv m s) (hstep : step m s o = some t)
    (hcreates : creates q o = false) (hticks : ticks q s o = false) : t.slice q = s.slice q :=
  congrArg BitVec.toNat (readEntity_step (fun _ => View.ignoresLinks_timeSlice _)
    (Or.inl (View.ignoresLinks_timeSlice _)) hinv hstep hcreates hticks)

/-- **An own tick** lowers the slice by one, and refills it when it was the last. -/
theorem slice_tick {o : Op} (hinv : Inv m s) (hstep : step m s o = some t)
    (hticks : ticks p s o = true) :
    (t.tasks p).wrr.timeSlice =
      if (s.tasks p).wrr.timeSlice = 1 then
        quantum m (m.cgroupPath (m.cgroup (s.tasks p).schedTaskGroup) s.groupPath)
      else (s.tasks p).wrr.timeSlice - 1 := by
  obtain ⟨rfl, rfl, hcls⟩ := ticks_iff.mp hticks
  have hview := hinv.view_step hstep
  have hpolicy : (s.tasks s.rq.curr).policy = .wrr := (hinv.legal.task s.rq.curr).ok.wrr hcls
  have htick : t.view = s.view.tickWrr m s.rq.curr := by
    rw [hview]
    exact if_pos hcls
  show t.view.slice s.rq.curr = _
  rw [htick]
  exact View.slice_tickWrr hpolicy

/-- An own tick that does not use the slice up takes one of the ticks left. -/
theorem ticksLeft_tick {o : Op} (hinv : Inv m s) (hstep : step m s o = some t)
    (hticks : ticks p s o = true) (hexpires : expires p s o = false) :
    t.ticksLeft p + 1 = s.ticksLeft p := by
  have hne : (s.tasks p).wrr.timeSlice ≠ 1 := by
    intro hone
    simp [expires, hticks, slice_eq_one.mpr hone] at hexpires
  have hslice := slice_tick hinv hstep hticks
  rw [if_neg hne] at hslice
  unfold State.ticksLeft State.slice
  rw [hslice]
  generalize (s.tasks p).wrr.timeSlice = x at hne
  split <;> split <;> bv_omega

/-- Nothing but an own tick, and the fork that makes the task, changes that. -/
theorem ticksLeft_step {o : Op} (hinv : Inv m s) (hstep : step m s o = some t)
    (hcreates : creates p o = false) (hticks : ticks p s o = false) :
    t.ticksLeft p = s.ticksLeft p := by
  rw [State.ticksLeft, slice_step hinv hstep hcreates hticks]
  rfl

/-- A slice that is not empty is what is left. -/
theorem ticksLeft_of_pos (hpos : 1 ≤ s.slice p) : s.ticksLeft p = s.slice p :=
  if_neg (by omega)

theorem expires_iff {o : Op} (hticks : ticks p s o = true) :
    expires p s o = true ↔ s.ticksLeft p = 1 := by
  unfold State.ticksLeft
  simp only [expires, hticks, Bool.true_and, decide_eq_true_eq]
  split <;> omega

/-- A tick that moves the task to the tail asks for a reschedule. -/
theorem needResched_expireTaskWrr (hp : s.rq.curr = p)
    (hends : s.rq.wrr.queue.getLast? ≠ s.rq.wrr.queue.head?) :
    (expireTaskWrr m p s).needResched = true := by
  unfold expireTaskWrr
  simp only []
  rw [if_pos (by exact hends)]
  exact needResched_reschedTask hp.symm

theorem needResched_taskTickWrr (hp : s.rq.curr = p) (hpolicy : (s.tasks p).policy = .wrr)
    (hslice : (s.tasks p).wrr.timeSlice = 1)
    (hends : s.rq.wrr.queue.getLast? ≠ s.rq.wrr.queue.head?) :
    (taskTickWrr m p s).needResched = true := by
  have hwatch : (watchdogWrr m p (updateCurrWrr s)).view = s.view.watchWrr p := by
    rw [view_watchdogWrr, view_updateCurrWrr]
  have hattr : (s.view.watchWrr p).attr p = s.view.attr p := View.attr_watchWrr
  have hsame : (s.view.watchWrr p).slice p = s.view.slice p := View.slice_watchWrr
  have hrest : (s.view.watchWrr p).wrr = s.view.wrr ∧ (s.view.watchWrr p).curr = s.view.curr := by
    unfold View.watchWrr
    split <;> exact ⟨rfl, rfl⟩
  unfold taskTickWrr
  rw [← hwatch] at hattr hsame hrest
  generalize watchdogWrr m p (updateCurrWrr s) = s₁ at hattr hsame hrest
  have hpolicy' : (s₁.tasks p).policy = .wrr := (congrArg Attr.policy hattr).trans hpolicy
  have hspent : ((s₁.modWrrEntity p fun w => { w with timeSlice := w.timeSlice - 1 }).tasks
      p).wrr.timeSlice = 0 := by
    have hone : (s₁.tasks p).wrr.timeSlice = 1 := hsame.trans hslice
    simp [State.modWrrEntity, State.modTask, hone]
  simp only [hpolicy', ne_eq, not_true, if_false, hspent]
  refine needResched_expireTaskWrr (hrest.2.trans hp) ?_
  show s₁.rq.wrr.queue.getLast? ≠ s₁.rq.wrr.queue.head?
  rw [show s₁.rq.wrr = s.rq.wrr from hrest.1]
  exact hends

/-- **The tick that uses up a slice gives way**: with another WRR task queued, the task goes to the
tail and a reschedule is asked for. -/
theorem givesWay_of_expires {o : Op} (hinv : Inv m s) (hstep : step m s o = some t)
    (hexpires : expires p s o = true) (htwo : 2 ≤ s.rq.wrr.queue.length) :
    t.rq.wrr.queue = Sequence.moveTail p s.rq.wrr.queue ∧ t.needResched = true := by
  simp only [expires, Bool.and_eq_true, decide_eq_true_eq] at hexpires
  obtain ⟨hticks, hone⟩ := hexpires
  obtain ⟨rfl, rfl, hcls⟩ := ticks_iff.mp hticks
  have hview := hinv.view_step hstep
  have hpolicy : (s.tasks s.rq.curr).policy = .wrr := (hinv.legal.task s.rq.curr).ok.wrr hcls
  have hslice : (s.tasks s.rq.curr).wrr.timeSlice = 1 := BitVec.eq_of_toNat_eq hone
  have hends : s.rq.wrr.queue.getLast? ≠ s.rq.wrr.queue.head? := by
    obtain ⟨A, hA, -⟩ := hinv.queued
    exact (Sequence.getLast?_ne_head? hA.enq.nodup).mpr htwo
  constructor
  · have htick : t.view = s.view.tickWrr m s.rq.curr := by
      rw [hview]
      exact if_pos hcls
    show t.view.wrr.queue = _
    rw [htick, View.queue_tickWrr hpolicy]
    exact if_pos ⟨hslice, hends⟩
  · cases perform_of_step hstep
    have hclock : (updateRqClock m s).view = s.view := view_updateRqClock
    show ((updateRqClock m s).current.schedClass.taskTick m (updateRqClock m s).rq.curr
      (updateRqClock m s)).needResched = true
    rw [State.current, tasks_of_view hclock, curr_of_view hclock, hcls]
    refine needResched_taskTickWrr (curr_of_view hclock) ?_ ?_ ?_
    · rw [tasks_of_view hclock]
      exact hpolicy
    · rw [tasks_of_view hclock]
      exact hslice
    · rw [show (updateRqClock m s).rq.wrr = s.rq.wrr from congrArg View.wrr hclock]
      exact hends

/-! ### Runs

`ticksLeft` counts an empty slice as a whole word, because it wraps at the next tick.
With that the number goes down by one at each own tick and stays at everything else,
so over a run it goes down by the number of ticks.
-/

/-- What keeps a slice from being refilled, or handed down anew. -/
def keepsSlice (p : Pid) (s : State) (o : Op) : Prop := creates p o = false ∧ expires p s o = false

/-- **Between two refills a task's own ticks are counted.** -/
theorem ticksLeft_countdown {tr : List (State × Op)} (hrun : Run (step m) s tr t) (hinv : Inv m s)
    (hall : ∀ e ∈ tr, keepsSlice p e.1 e.2) :
    t.ticksLeft p + tr.countP (fun e => ticks p e.1 e.2) = s.ticksLeft p := by
  refine hrun.countdown (Inv m) (keepsSlice p) (fun s => s.ticksLeft p) (ticks p)
    (fun s o t h _ hstep => h.step hstep) ?_ hinv hall
  intro s o t hinv ho hstep
  cases hticks : ticks p s o with
  | true => exact ticksLeft_tick hinv hstep hticks ho.2
  | false => exact ticksLeft_step hinv hstep ho.1 hticks

end WrrScheduler
