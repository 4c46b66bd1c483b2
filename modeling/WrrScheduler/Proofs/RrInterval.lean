/-
The interval that is reported, and the one that is enforced.

`task_tick_wrr` and `get_rr_interval_wrr` both know two paths.  For any other the
second reports zero, and the first leaves the slice it just used up at zero, which
the next tick wraps: the slice is refilled, as its comment has it, in the two groups
only, and elsewhere a task is left to run for 2^32 ticks.
-/
import WrrScheduler.Proofs.SliceBound

namespace WrrScheduler

/-- The ticks `get_rr_interval_wrr` reports. -/
def reportedInterval (m : Machine) (p : Pid) (s : State) : Nat := (getRrIntervalWrr m p s).1.toNat

/-- What is reported is what is enforced: at least one tick, and from here on the task's slice is
used up at exactly that tick of its own. -/
structure Enforced (m : Machine) (p : Pid) (t : State) : Prop where
  pos : 1 ≤ reportedInterval m p t
  period : ∀ tr u o, Run (step m) t tr u → (∀ e ∈ tr, keepsSlice p e.1 e.2) →
    ticks p u o = true →
    (expires p u o = true ↔
      tr.countP (fun e => ticks p e.1 e.2) + 1 = reportedInterval m p t)

variable {m : Machine} {s t : State} {p : Pid}

/-- The interval is that of the path `get_rr_interval_wrr` leaves in the buffer. -/
theorem getRrIntervalWrr_eq : getRrIntervalWrr m p s =
    (if (s.tasks p).policy = .wrr then quantum m (readGroupPath m p s).groupPath else 0,
      readGroupPath m p s) := by
  have hpolicy : ((readGroupPath m p s).tasks p).policy = (s.tasks p).policy := rfl
  unfold getRrIntervalWrr quantum
  simp only [hpolicy, Bool.and_eq_true, decide_eq_true_eq]
  by_cases hwrr : (s.tasks p).policy = .wrr
  · simp only [hwrr, true_and, if_true]
    split
    · rfl
    · split <;> rfl
  · simp only [hwrr, false_and, if_false]

/-- The interval of a task of the policy is the quantum of its path. -/
theorem reportedInterval_eq (hpath : WritesPath m) (hpolicy : (s.tasks p).policy = .wrr) :
    reportedInterval m p s = (quantum m (m.cgroup (s.tasks p).schedTaskGroup)).toNat := by
  have hread : (readGroupPath m p s).groupPath = m.cgroup (s.tasks p).schedTaskGroup := hpath _ _
  unfold reportedInterval
  rw [getRrIntervalWrr_eq, if_pos hpolicy, hread]

/-- **The period that is enforced**: the quantum of the path at the last refill, or 2^32 if it has
none. -/
theorem period_of_expires (hpath : WritesPath m) (hinv : Inv m s) {o o' : Op}
    (hstep : step m s o = some t) (hexpires : expires p s o = true) {tr : List (State × Op)}
    {u : State} (hrun : Run (step m) t tr u) (hall : ∀ e ∈ tr, keepsSlice p e.1 e.2)
    (hticks : ticks p u o' = true) :
    expires p u o' = true ↔ tr.countP (fun e => ticks p e.1 e.2) + 1 =
      if quantum m (m.cgroup (s.tasks p).schedTaskGroup) = 0 then 2 ^ 32
      else (quantum m (m.cgroup (s.tasks p).schedTaskGroup)).toNat := by
  simp only [expires, Bool.and_eq_true, decide_eq_true_eq] at hexpires
  have hslice := slice_tick hinv hstep hexpires.1
  rw [if_pos (slice_eq_one.mp hexpires.2), hpath] at hslice
  have hcount := ticksLeft_countdown hrun (hinv.step hstep) hall
  have hleft : t.ticksLeft p = if quantum m (m.cgroup (s.tasks p).schedTaskGroup) = 0 then 2 ^ 32
      else (quantum m (m.cgroup (s.tasks p).schedTaskGroup)).toNat := by
    unfold State.ticksLeft State.slice
    rw [hslice]
    refine if_congr ?_ rfl rfl
    exact @BitVec.toNat_inj 32 _ 0
  rw [← hleft, ← hcount, expires_iff hticks]
  omega

/-- A tick leaves the group and the policy of its task alone. -/
theorem attr_of_ticks {o : Op} (hinv : Inv m s) (hstep : step m s o = some t)
    (hticks : ticks p s o = true) : (t.tasks p).toAttr = (s.tasks p).toAttr := by
  obtain ⟨rfl, rfl, hcls⟩ := ticks_iff.mp hticks
  show t.view.attr _ = s.view.attr _
  rw [hinv.view_step hstep]
  split
  · exact View.attr_tickWrr m
  · rfl

/-- **What is reported is enforced exactly in the two groups.** -/
theorem enforced_iff (hpath : WritesPath m) (hhz : 100 ∣ m.HZ) (h : Reachable m s) {o : Op}
    (hstep : step m s o = some t) (hexpires : expires p s o = true) :
    Enforced m p t ↔ m.cgroup (s.tasks p).schedTaskGroup = foregroup ∨
      m.cgroup (s.tasks p).schedTaskGroup = backgroup := by
  have hinv := inv_of_reachable h
  have hticks : ticks p s o = true := by
    simp only [expires, Bool.and_eq_true] at hexpires
    exact hexpires.1
  have hattr := attr_of_ticks hinv hstep hticks
  have hpolicy : (s.tasks p).policy = .wrr :=
    (hinv.legal.task p).ok.wrr (ticks_iff.mp hticks).2.2
  have hreported : reportedInterval m p t =
      (quantum m (m.cgroup (s.tasks p).schedTaskGroup)).toNat := by
    rw [reportedInterval_eq hpath, hattr]
    rw [hattr]
    exact hpolicy
  constructor
  · intro henforced
    by_contra hother
    rw [not_or] at hother
    have hpos := henforced.pos
    rw [hreported, quantum_of_other hother.1 hother.2] at hpos
    exact absurd hpos (by decide)
  · intro hgroup
    have hpos := (quantum_range hhz hgroup).1
    refine ⟨by rw [hreported]; exact hpos, ?_⟩
    intro tr u o' hrun hall hticks'
    have hne : quantum m (m.cgroup (s.tasks p).schedTaskGroup) ≠ 0 := by
      intro hzero
      rw [hzero] at hpos
      exact absurd hpos (by decide)
    rw [period_of_expires hpath hinv hstep hexpires hrun hall hticks', if_neg hne, hreported]

/-- In the foreground ten ticks are reported, and ten enforced. -/
theorem enforced_foreground : ∃ t, reportedInterval (sampleMachine 1) 1 t = 10 ∧
    Enforced (sampleMachine 1) 1 t := by
  have hexec : ((Run.exec (step (sampleMachine 1)) (boot (sampleMachine 1)) startTwoWrr).any
      fun s => decide (expires 1 s .schedulerTick = true ∧
        (sampleMachine 1).cgroup (s.tasks 1).schedTaskGroup = foregroup ∧
        reportedInterval (sampleMachine 1) 1 (schedulerTick (sampleMachine 1) s) = 10)) = true := by
    decide +kernel
  obtain ⟨s, hs, hexpires, hgroup, hreported⟩ := Run.exists_of_exec hexec
  exact ⟨_, hreported, (enforced_iff (fun _ _ => rfl) (by decide) hs rfl hexpires).mpr (Or.inl hgroup)⟩

/-- Two WRR tasks, of which the running one is moved to a group with another path. -/
def startInOtherGroup : List Op := startTwoWrr ++ [.schedMoveTask 1 2]

/-- There zero ticks are reported, which is not what is enforced. -/
theorem not_enforced_in_other_group : ∃ m s t, WritesPath m ∧ 100 ∣ m.HZ ∧ Reachable m s ∧
    step m s .schedulerTick = some t ∧ expires 1 s .schedulerTick = true ∧
    reportedInterval m 1 t = 0 ∧ ¬ Enforced m 1 t := by
  have hexec : ((Run.exec (step (sampleMachine 1)) (boot (sampleMachine 1)) startInOtherGroup).any
      fun s => decide (expires 1 s .schedulerTick = true ∧
        reportedInterval (sampleMachine 1) 1 (schedulerTick (sampleMachine 1) s) = 0)) = true := by
    decide +kernel
  obtain ⟨s, hs, hexpires, hreported⟩ := Run.exists_of_exec hexec
  refine ⟨sampleMachine 1, s, schedulerTick (sampleMachine 1) s, fun _ _ => rfl, by decide, hs, rfl,
    hexpires, hreported, ?_⟩
  intro henforced
  have hpos := henforced.pos
  omega

end WrrScheduler
