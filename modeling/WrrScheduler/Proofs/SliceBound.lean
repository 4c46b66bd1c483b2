/-
The bound on time slices.

In a group that has a quantum, a WRR task should always have between one tick and
`WRR_FORE_TIMESLICE` left, so that it gives way after at most that many ticks of
its own.  Every step keeps that, but for the one that lets a task into the class:
`__setscheduler` sets the policy and the class and leaves `time_slice` as it was,
which is what fork handed down from an `init_task` that never had a slice.  A slice
of zero wraps at the first tick.
-/
import WrrScheduler.Proofs.Entering
import WrrScheduler.Proofs.Slice

namespace WrrScheduler

/-- A slice of at least one tick, and no longer than the foreground quantum. -/
def SliceOk (m : Machine) (n : Nat) : Prop := 1 ≤ n ∧ n ≤ (wrrForeTimeslice m).toNat

/-- Every task in the class has such a slice. -/
def SlicesOk (m : Machine) (s : State) : Prop :=
  ∀ p, (s.tasks p).schedClass = .wrr → SliceOk m (s.slice p)

/-- A tick of the task's own after which it is at the tail, with a reschedule asked for, if another
WRR task is queued. -/
def GivesWay (m : Machine) (p : Pid) (s : State) (o : Op) : Prop :=
  ticks p s o = true ∧ ∀ t, step m s o = some t → 2 ≤ s.rq.wrr.queue.length →
    t.rq.wrr.queue = Sequence.moveTail p s.rq.wrr.queue ∧ t.needResched = true

/-- What the slices are for: they are bounded in every state of a run, and of any
`WRR_FORE_TIMESLICE` ticks a task has had of its own, it gave way at one. -/
structure SliceBound (m : Machine) (tr : List (State × Op)) (t : State) : Prop where
  slices : SlicesOk m t ∧ ∀ e ∈ tr, SlicesOk m e.1
  givesWay : ∀ p tr', tr' <:+: tr → (∀ e ∈ tr', creates p e.2 = false) →
    (wrrForeTimeslice m).toNat ≤ tr'.countP (fun e => ticks p e.1 e.2) →
    ∃ e ∈ tr', GivesWay m p e.1 e.2

/-- Every WRR task is in a group that has a quantum. -/
def Grouped (m : Machine) (s : State) : Prop :=
  ∀ p, (s.tasks p).schedClass = .wrr → m.cgroup (s.tasks p).schedTaskGroup = foregroup ∨
    m.cgroup (s.tasks p).schedTaskGroup = backgroup

/-- `cgroup_path` writes the path of the group. -/
def WritesPath (m : Machine) : Prop := ∀ path old, m.cgroupPath path old = path

variable {m : Machine} {s t : State} {p : Pid} {tr : List (State × Op)}

/-! ### Steps

A task in the class was in it before, or came through the one door.  In the first case
a tick lowered its slice to one at least, or refilled it; in the second its slice is
what it was before the call, so the bound has to hold there.
-/

/-- A child is not in the class. -/
theorem not_wrr_of_creates {o : Op} (hinv : Inv m s) (hstep : step m s o = some t)
    (hcreates : creates p o = true) : (t.tasks p).schedClass ≠ .wrr := by
  cases o with
  | schedFork child f =>
      obtain rfl : child = p := by simpa [creates] using hcreates
      obtain ⟨-, hcls⟩ := hinv.forkable f (callable_of_step hstep)
      have hview := hinv.view_step hstep
      show (t.view.tasks child).schedClass ≠ .wrr
      rw [hview]
      simp only [View.modTask, Function.update_self]
      exact hcls
  | _ => cases hcreates

/-- The call that lets a task into the class leaves its slice alone. -/
theorem slice_of_entersWrr {o : Op} (hinv : Inv m s) (hstep : step m s o = some t)
    (henters : entersWrr s p o = true) : t.slice p = s.slice p := by
  cases o with
  | schedSetscheduler q policy prio user who seen => exact slice_step hinv hstep rfl rfl
  | _ => cases henters

/-- A tick that is not the last of a slice. -/
theorem slice_spent {o : Op} (hinv : Inv m s) (hstep : step m s o = some t)
    (hticks : ticks p s o = true) (hpos : 1 ≤ s.slice p) (hone : s.slice p ≠ 1) :
    t.slice p + 1 = s.slice p := by
  have hspent := ticksLeft_tick hinv hstep hticks (by simp [expires, hone])
  rw [ticksLeft_of_pos hpos] at hspent
  unfold State.ticksLeft at hspent
  split at hspent
  · have hlt : s.slice p < 2 ^ 32 := BitVec.isLt _
    omega
  · exact hspent

/-- **Every step keeps the slices bounded** if the tasks it lets into the class have such a slice. -/
theorem slicesOk_step {o : Op} (hpath : WritesPath m) (hhz : 100 ∣ m.HZ) (hinv : Inv m s)
    (hgrouped : Grouped m s) (h : SlicesOk m s)
    (henters : ∀ p, entersWrr s p o = true → SliceOk m (s.slice p))
    (hstep : step m s o = some t) : SlicesOk m t := by
  intro p hin
  have hcreates : creates p o = false := by
    by_contra hc
    exact not_wrr_of_creates hinv hstep (by simpa using hc) hin
  by_cases hcls : (s.tasks p).schedClass = .wrr
  · have hok := h p hcls
    cases hticks : ticks p s o with
    | false =>
        rw [slice_step hinv hstep hcreates hticks]
        exact hok
    | true =>
        by_cases hone : s.slice p = 1
        · have hslice := slice_tick hinv hstep hticks
          rw [if_pos (slice_eq_one.mp hone), hpath] at hslice
          show SliceOk m (t.tasks p).wrr.timeSlice.toNat
          rw [hslice]
          exact quantum_range hhz (hgrouped p hcls)
        · have hspent := slice_spent hinv hstep hticks hok.1 hone
          have hle := hok.2
          have hge := hok.1
          exact ⟨by omega, by omega⟩
  · have hdoor := entersWrr_of_step hinv hstep hcls hin
    have hticks : ticks p s o = false := by
      by_contra htick
      exact hcls (ticks_iff.mp (by simpa using htick)).2.2
    rw [slice_step hinv hstep hcreates hticks]
    exact henters p hdoor

/-- **Of enough ticks of its own a task gave way at one.** -/
theorem exists_givesWay (hrun : Run (step m) s tr t) (hinv : Inv m s)
    (hslices : ∀ e ∈ tr, SlicesOk m e.1) (hcreates : ∀ e ∈ tr, creates p e.2 = false)
    (hmany : (wrrForeTimeslice m).toNat ≤ tr.countP fun e => ticks p e.1 e.2)
    (hfore : 1 ≤ (wrrForeTimeslice m).toNat) : ∃ e ∈ tr, GivesWay m p e.1 e.2 := by
  by_contra hnone
  have hexpires : ∀ e ∈ tr, Inv m e.1 → expires p e.1 e.2 = false := by
    intro e he hinv
    by_contra hexp
    have htrue : expires p e.1 e.2 = true := by simpa using hexp
    refine hnone ⟨e, he, ?_, fun t hstep htwo => givesWay_of_expires hinv hstep htrue htwo⟩
    simp only [expires, Bool.and_eq_true] at htrue
    exact htrue.1
  have hinvs := hrun.invariant (Inv m) (fun _ _ => True) (fun s o t h _ hstep => h.step hstep) hinv
    fun _ _ => trivial
  have hfew := hrun.turns_lt (Inv m) (fun s o => SlicesOk m s ∧ keepsSlice p s o)
    (fun s => s.ticksLeft p) (ticks p) (wrrForeTimeslice m).toNat
    (fun s o t h _ hstep => h.step hstep) ?_ ?_ hinv ?_
  · omega
  · rintro s o t hinv ⟨hok, hkeeps⟩ hstep hticks
    obtain ⟨hpos, hle⟩ := hok p (ticks_iff.mp hticks).2.2
    have hleft := ticksLeft_of_pos hpos
    have hone : s.ticksLeft p ≠ 1 := by
      intro hone
      have hexp := (expires_iff hticks).mpr hone
      rw [hkeeps.2] at hexp
      cases hexp
    have hspent := ticksLeft_tick hinv hstep hticks hkeeps.2
    exact ⟨by omega, by omega, hspent⟩
  · rintro s o t hinv ⟨-, hkeeps⟩ hstep hticks
    exact ticksLeft_step hinv hstep hkeeps.1 hticks
  · exact fun e he => ⟨hslices e he, hcreates e he, hexpires e he (hinvs.2 e he)⟩

/-! ### Runs

If every call finds its slice bounded the bound holds by induction.  Conversely the
state after a call is a state of the run, with the task in the class and the slice
unchanged, so a bound there is a bound before.
-/

theorem slicesOk_boot : SlicesOk m (boot m) := by
  intro p hin
  cases hin

theorem sliceBound_of_run (hpath : WritesPath m) (hhz : 100 ∣ m.HZ)
    (hrun : Run (step m) (boot m) tr t) (hgrouped : ∀ e ∈ tr, Grouped m e.1)
    (henters : ∀ e ∈ tr, ∀ p, entersWrr e.1 p e.2 = true → SliceOk m (e.1.slice p)) :
    SliceBound m tr t := by
  have hslices := hrun.invariant (fun s => Inv m s ∧ SlicesOk m s)
    (fun s o => Grouped m s ∧ ∀ p, entersWrr s p o = true → SliceOk m (s.slice p))
    (fun s o t h ho hstep =>
      ⟨h.1.step hstep, slicesOk_step hpath hhz h.1 ho.1 h.2 ho.2 hstep⟩)
    ⟨inv_boot, slicesOk_boot⟩ fun e he => ⟨hgrouped e he, henters e he⟩
  refine ⟨⟨hslices.1.2, fun e he => (hslices.2 e he).2⟩, ?_⟩
  intro p tr' hpart hcreates hmany
  obtain ⟨tr₁, tr₂, rfl⟩ := hpart
  have hmem : ∀ e ∈ tr', e ∈ tr₁ ++ tr' ++ tr₂ := by
    intro e he
    simp [he]
  obtain ⟨v, hfirst, -⟩ := hrun.split
  obtain ⟨u, -, hmiddle⟩ := hfirst.split
  have hfore : 1 ≤ (wrrForeTimeslice m).toNat := (quantum_range hhz (Or.inl rfl)).1
  cases tr' with
  | nil =>
      rw [List.countP_nil] at hmany
      omega
  | cons e tr' =>
      cases hmiddle with
      | cons ho hrest =>
          exact exists_givesWay (.cons ho hrest) (hslices.2 _ (hmem _ List.mem_cons_self)).1
            (fun e he => (hslices.2 e (hmem e he)).2) hcreates hmany hfore

/-- No slice was ever given, and no task is in the class. -/
def Unused (s : State) : Prop := ∀ p, s.slice p = 0 ∧ (s.tasks p).schedClass ≠ .wrr

theorem unused_boot (hzero : m.initTimeSlice = 0) : Unused (boot m) := by
  intro p
  refine ⟨?_, by simp [boot, initTask]⟩
  show m.initTimeSlice.toNat = 0
  rw [hzero]
  rfl

theorem unused_step {o : Op} (hinv : Inv m s) (h : Unused s)
    (hnone : ∀ p, entersWrr s p o = false) (hstep : step m s o = some t) : Unused t := by
  have hout : ∀ p, (t.tasks p).schedClass ≠ .wrr := by
    intro p hin
    have hdoor := entersWrr_of_step hinv hstep (h p).2 hin
    rw [hnone p] at hdoor
    cases hdoor
  intro p
  refine ⟨?_, hout p⟩
  cases hcreates : creates p o with
  | false =>
      have hticks : ticks p s o = false := by
        by_contra htick
        exact (h p).2 (ticks_iff.mp (by simpa using htick)).2.2
      rw [slice_step hinv hstep hcreates hticks]
      exact (h p).1
  | true =>
      cases o with
      | schedFork child f =>
          obtain rfl : child = p := by simpa [creates] using hcreates
          have hview := hinv.view_step hstep
          have hchild : t.view.slice child = s.view.slice s.rq.curr := by
            rw [hview]
            simp [View.slice, View.modTask, forkTask, copyTask]
            rfl
          show (t.view.slice child).toNat = 0
          rw [hchild]
          exact (h s.rq.curr).1
      | _ => cases hcreates

/-- **The slices are bounded exactly when every call that lets a task into the class finds its slice
bounded.**  No call does in a run from an `init_task` without a slice, so there the bound holds only
as long as no task is ever let in. -/
theorem sliceBound_iff (hpath : WritesPath m) (hhz : 100 ∣ m.HZ)
    (hrun : Run (step m) (boot m) tr t) (hgrouped : ∀ e ∈ tr, Grouped m e.1) :
    (SliceBound m tr t ↔
      ∀ e ∈ tr, ∀ p, entersWrr e.1 p e.2 = true → SliceOk m (e.1.slice p)) ∧
    (m.initTimeSlice = 0 →
      (SliceBound m tr t ↔ ∀ e ∈ tr, ∀ p, entersWrr e.1 p e.2 = false)) := by
  have hfinds : SliceBound m tr t →
      ∀ e ∈ tr, ∀ p, entersWrr e.1 p e.2 = true → SliceOk m (e.1.slice p) := by
    intro hbound e he p henters
    obtain ⟨tr₁, tr₂, rfl⟩ := List.append_of_mem he
    obtain ⟨u, hbefore, hstep, hafter⟩ := hrun.around
    have hinv : Inv m e.1 := inv_of_reachable ⟨tr₁, hbefore⟩
    have hslices : SlicesOk m u := hafter.start hbound.slices.1 fun e he => hbound.slices.2 e (by simp [he])
    rw [← slice_of_entersWrr hinv hstep henters]
    exact hslices p (schedClass_of_entersWrr hstep henters)
  refine ⟨⟨hfinds, sliceBound_of_run hpath hhz hrun hgrouped⟩, ?_⟩
  intro hzero
  constructor
  · intro hbound
    have hunused := hrun.invariant (fun s => Inv m s ∧ Unused s)
      (fun s o => ∀ p, entersWrr s p o = true → SliceOk m (s.slice p)) ?_
      ⟨inv_boot, unused_boot hzero⟩ (hfinds hbound)
    · intro e he p
      by_contra henters
      have hok := hfinds hbound e he p (by simpa using henters)
      have hempty := ((hunused.2 e he).2 p).1
      have hpos := hok.1
      omega
    · rintro s o t ⟨hinv, hunused⟩ hok hstep
      refine ⟨hinv.step hstep, unused_step hinv hunused ?_ hstep⟩
      intro p
      by_contra henters
      have hpos := (hok p (by simpa using henters)).1
      have hempty := (hunused p).1
      omega
  · intro hnone
    refine sliceBound_of_run hpath hhz hrun hgrouped ?_
    intro e he p henters
    rw [hnone e he p] at henters
    cases henters

/-! ### A machine with one group -/

/-- The sample machine with every group in the foreground. -/
def foregroundMachine (initTimeSlice : BitVec 32) : Machine :=
  { sampleMachine initTimeSlice with cgroup := fun _ => foregroup }

theorem grouped_foregroundMachine (initTimeSlice : BitVec 32) (s : State) :
    Grouped (foregroundMachine initTimeSlice) s := fun _ _ => Or.inl rfl

/-- The task a call of `sched_setscheduler` is about. -/
def calledFor : Op → Option Pid
  | .schedSetscheduler p _ _ _ _ _ => some p
  | _ => none

theorem calledFor_of_entersWrr {o : Op} (h : entersWrr s p o = true) : p ∈ calledFor o := by
  cases o with
  | schedSetscheduler q policy prio user who seen =>
      simp only [entersWrr, Bool.and_eq_true, decide_eq_true_eq] at h
      rw [h.1.1.1.1]
      exact Option.mem_some_self p
  | _ => cases h

instance (m : Machine) (n : Nat) : Decidable (SliceOk m n) :=
  inferInstanceAs (Decidable (_ ∧ _))

/-- Two tasks that become WRR ones with ten ticks each. -/
theorem sliceBound_startTwoWrr :
    ∃ tr t, t.rq.wrr.queue = [1, 2] ∧ SliceBound (foregroundMachine 10) tr t := by
  have htrace : ((Run.trace (step (foregroundMachine 10)) (boot (foregroundMachine 10))
      startTwoWrr).any fun r => decide ((∀ e ∈ r.1, ∀ p ∈ calledFor e.2,
        SliceOk (foregroundMachine 10) (e.1.slice p)) ∧ r.2.rq.wrr.queue = [1, 2])) = true := by
    decide +kernel
  obtain ⟨⟨tr, t⟩, hrun, hcalls, hqueue⟩ := Run.exists_of_trace htrace
  refine ⟨tr, t, hqueue, (sliceBound_iff (fun _ _ => rfl) (by decide) hrun
    fun e _ => grouped_foregroundMachine 10 e.1).1.mpr ?_⟩
  exact fun e he p henters => hcalls e he p (calledFor_of_entersWrr henters)

/-- From an `init_task` without a slice, the first tick of a WRR task leaves it 2^32 - 1 ticks. -/
theorem slice_wraps : ∃ m tr t, m.initTimeSlice = 0 ∧ WritesPath m ∧ 100 ∣ m.HZ ∧
    Run (step m) (boot m) tr t ∧ (∀ e ∈ tr, Grouped m e.1) ∧ t.slice 1 = 2 ^ 32 - 1 ∧
    ¬ SliceBound m tr t := by
  have htrace : ((Run.trace (step (foregroundMachine 0)) (boot (foregroundMachine 0))
      (startTwoWrr ++ [.schedulerTick])).any fun r =>
        decide ((r.2.tasks 1).schedClass = .wrr ∧ r.2.slice 1 = 2 ^ 32 - 1)) = true := by
    decide +kernel
  obtain ⟨⟨tr, t⟩, hrun, hcls, hslice⟩ := Run.exists_of_trace htrace
  refine ⟨foregroundMachine 0, tr, t, rfl, fun _ _ => rfl, by decide, hrun,
    fun e _ => grouped_foregroundMachine 0 e.1, hslice, ?_⟩
  intro hbound
  have hle := (hbound.slices.1 1 hcls).2
  rw [show t.slice 1 = 2 ^ 32 - 1 from hslice] at hle
  exact absurd hle (by decide)

end WrrScheduler
