/-
The times that are reported.

The user time is the precise run time scaled by the ticks, and never less than it was
before; the system time is the rest, and never less than it was before.  Both stay
within the run time, and together they fill it.  That they do not exceed it is no
property of the two maxima: when the mix shifts to the user, the system time of before
stays, and the sum passes the run time.
-/
import WrrScheduler.Kernel.CpuTimes

namespace WrrScheduler

variable {r : Reporter} {n : NsecsToCputime} {s t : Reported} {c : TaskCputime}
  {tr : List (Reported × TaskCputime)}

/-- The precise run time a call finds. -/
def rtime (n : NsecsToCputime) (c : TaskCputime) : BitVec 32 := n.call c.sumExecRuntime

/-- The user time a call reports. -/
def reportedUtime (r : Reporter) (n : NsecsToCputime) (e : Reported × TaskCputime) : BitVec 32 :=
  (r.call n e.2 e.1.prev).1.1

/-- The system time a call reports. -/
def reportedStime (r : Reporter) (n : NsecsToCputime) (e : Reported × TaskCputime) : BitVec 32 :=
  (r.call n e.2 e.1.prev).1.2

/-- Both functions report what they keep, and compute it in one way. -/
theorem call_eq (r : Reporter) (n : NsecsToCputime) (c : TaskCputime) (prev : PrevTimes) :
    r.call n c prev =
      (((nextTimes n c prev).prevUtime, (nextTimes n c prev).prevStime), nextTimes n c prev) := by
  cases r <;> rfl

/-! ### One call

The scaled user time is at most the run time as long as the total of the ticks does
not wrap, and then `rtime - utime` does not underflow.  Both maxima are with times of
an earlier call, which were within an earlier run time, and the run time only grows.
-/

theorem toNat_maxCputime (x y : BitVec 32) : (maxCputime x y).toNat = max x.toNat y.toNat := by
  unfold maxCputime
  split
  · rename_i hlt
    exact (Nat.max_eq_left (Nat.le_of_lt hlt)).symm
  · rename_i hle
    exact (Nat.max_eq_right (Nat.le_of_not_lt hle)).symm

/-- A scaled time is no more than what it is a part of. -/
theorem toNat_scaleUtime {utime rtime total : BitVec 32} (hpart : utime.toNat ≤ total.toNat) :
    (scaleUtime utime rtime total).toNat = rtime.toNat * utime.toNat / total.toNat ∧
      rtime.toNat * utime.toNat / total.toNat ≤ rtime.toNat := by
  have hle : rtime.toNat * utime.toNat / total.toNat ≤ rtime.toNat := by
    rcases Nat.eq_zero_or_pos total.toNat with hzero | hpos
    · rw [hzero, Nat.div_zero]
      exact Nat.zero_le _
    · rw [Nat.div_le_iff_le_mul_add_pred hpos]
      have hmul := Nat.mul_le_mul_left rtime.toNat hpart
      rw [Nat.mul_comm total.toNat]
      omega
  have hwide : ∀ x : BitVec 32, (x.setWidth 64).toNat = x.toNat := by
    intro x
    have hx := x.isLt
    rw [BitVec.toNat_setWidth, Nat.mod_eq_of_lt (by omega)]
  have hprod : rtime.toNat * utime.toNat < 2 ^ 64 := by
    have hbound := Nat.mul_lt_mul'' rtime.isLt utime.isLt
    exact hbound
  have hrtime := rtime.isLt
  refine ⟨?_, hle⟩
  unfold scaleUtime
  simp only []
  rw [BitVec.toNat_setWidth, BitVec.toNat_udiv, BitVec.toNat_mul, hwide, hwide, hwide,
    Nat.mod_eq_of_lt hprod, Nat.mod_eq_of_lt (by omega)]

theorem scaledUtime_le (hfits : c.utime.toNat + c.stime.toNat < 2 ^ 32) :
    (scaledUtime n c).toNat ≤ (rtime n c).toNat := by
  have htotal : (c.utime + c.stime).toNat = c.utime.toNat + c.stime.toNat := by
    rw [BitVec.toNat_add, Nat.mod_eq_of_lt hfits]
  unfold scaledUtime
  simp only []
  split
  · obtain ⟨heq, hle⟩ := @toNat_scaleUtime c.utime (rtime n c) (c.utime + c.stime)
      (by rw [htotal]; omega)
    show (scaleUtime c.utime (rtime n c) (c.utime + c.stime)).toNat ≤ _
    rw [heq]
    exact hle
  · exact Nat.le_refl _

/-- Both times are within a run time. -/
structure Within (n : NsecsToCputime) (c : TaskCputime) (prev : PrevTimes) : Prop where
  utime : prev.prevUtime.toNat ≤ (rtime n c).toNat
  stime : prev.prevStime.toNat ≤ (rtime n c).toNat

/-- **A call keeps both times within the run time**, and the subtraction does not underflow. -/
theorem nextTimes_spec {prev : PrevTimes} (hfits : c.utime.toNat + c.stime.toNat < 2 ^ 32)
    (hprev : Within n c prev) : Within n c (nextTimes n c prev) ∧
      (nextTimes n c prev).prevUtime.toNat = max prev.prevUtime.toNat (scaledUtime n c).toNat ∧
      (nextTimes n c prev).prevStime.toNat =
        max prev.prevStime.toNat ((rtime n c).toNat - (nextTimes n c prev).prevUtime.toNat) := by
  have hscaled := @scaledUtime_le n c hfits
  have hutime : (nextTimes n c prev).prevUtime.toNat =
      max prev.prevUtime.toNat (scaledUtime n c).toNat := toNat_maxCputime _ _
  have hle : (nextTimes n c prev).prevUtime.toNat ≤ (rtime n c).toNat := by
    rw [hutime]
    exact Nat.max_le.mpr ⟨hprev.utime, hscaled⟩
  have hstime : (nextTimes n c prev).prevStime.toNat =
      max prev.prevStime.toNat ((rtime n c).toNat - (nextTimes n c prev).prevUtime.toNat) := by
    have hsub : (rtime n c - (nextTimes n c prev).prevUtime).toNat =
        (rtime n c).toNat - (nextTimes n c prev).prevUtime.toNat := BitVec.toNat_sub_of_le hle
    rw [← hsub]
    exact toNat_maxCputime _ _
  refine ⟨⟨hle, ?_⟩, hutime, hstime⟩
  rw [hstime]
  exact Nat.max_le.mpr ⟨hprev.stime, Nat.sub_le _ _⟩

/-! ### Steps -/

theorem reportStep_eq (h : reportStep r n s c = some t) :
    countsOn n s.seen c ∧ t = { seen := c, prev := nextTimes n c s.prev } := by
  unfold reportStep at h
  rw [call_eq] at h
  split at h
  · rename_i hcounts
    exact ⟨hcounts, (Option.some.inj h).symm⟩
  · cases h

/-- The run time never decreases. -/
theorem rtime_mono {seen : TaskCputime} (h : countsOn n seen c) :
    (rtime n seen).toNat ≤ (rtime n c).toNat := n.mono _ _ h.1.2.2 h.2.2

/-- What was within the run time of the last call is within that of the next. -/
theorem Within.mono {seen : TaskCputime} {prev : PrevTimes} (h : Within n seen prev)
    (hcounts : countsOn n seen c) : Within n c prev :=
  ⟨Nat.le_trans h.utime (rtime_mono hcounts), Nat.le_trans h.stime (rtime_mono hcounts)⟩

theorem within_step (h : Within n s.seen s.prev) (hstep : reportStep r n s c = some t) :
    Within n t.seen t.prev := by
  obtain ⟨hcounts, rfl⟩ := reportStep_eq hstep
  exact (nextTimes_spec hcounts.2.1 (h.mono hcounts)).1

/-- Neither time is less than it was at the last call. -/
theorem prev_step (h : Within n s.seen s.prev) (hstep : reportStep r n s c = some t) :
    s.prev.prevUtime.toNat ≤ t.prev.prevUtime.toNat ∧
      s.prev.prevStime.toNat ≤ t.prev.prevStime.toNat := by
  obtain ⟨hcounts, rfl⟩ := reportStep_eq hstep
  obtain ⟨-, hutime, hstime⟩ := nextTimes_spec hcounts.2.1 (h.mono hcounts)
  exact ⟨hutime ▸ Nat.le_max_left _ _, hstime ▸ Nat.le_max_left _ _⟩

/-- **The two together exceed the run time** unless the system time of before leaves room for the
user time of now. -/
theorem sum_step (h : Within n s.seen s.prev) (hstep : reportStep r n s c = some t) :
    t.prev.prevUtime.toNat + t.prev.prevStime.toNat ≤ (rtime n c).toNat ↔
      s.prev.prevUtime.toNat + s.prev.prevStime.toNat ≤ (rtime n c).toNat ∧
        (scaledUtime n c).toNat + s.prev.prevStime.toNat ≤ (rtime n c).toNat := by
  obtain ⟨hcounts, rfl⟩ := reportStep_eq hstep
  obtain ⟨hwithin, hutime, hstime⟩ := nextTimes_spec hcounts.2.1 (h.mono hcounts)
  have hle := hwithin.utime
  show (nextTimes n c s.prev).prevUtime.toNat + (nextTimes n c s.prev).prevStime.toNat ≤ _ ↔ _
  rw [hstime]
  omega

/-! ### Runs

`Within` holds along the run, and each call reports what it keeps; so what is reported
never decreases because what is kept never does.  Whether the sums stay within the run
time is decided call by call: by induction, each sum is in bounds exactly if the one
before was and the system time leaves room.
-/

/-- What is reported is what is kept. -/
theorem reported_step (hstep : reportStep r n s c = some t) :
    reportedUtime r n (s, c) = t.prev.prevUtime ∧ reportedStime r n (s, c) = t.prev.prevStime := by
  obtain ⟨-, rfl⟩ := reportStep_eq hstep
  unfold reportedUtime reportedStime
  rw [call_eq]
  exact ⟨rfl, rfl⟩

theorem within_none : Within n reportedNone.seen reportedNone.prev :=
  ⟨Nat.zero_le _, Nat.zero_le _⟩

theorem within_run (hrun : Run (reportStep r n) s tr t) (h : Within n s.seen s.prev) :
    ∀ e ∈ tr, Within n e.1.seen e.1.prev :=
  (hrun.invariant (fun s => Within n s.seen s.prev) (fun _ _ => True)
    (fun _ _ _ h _ hstep => within_step h hstep) h fun _ _ => trivial).2

/-- Every call of a run led somewhere. -/
theorem exists_step (hrun : Run (reportStep r n) s tr t) {e : Reported × TaskCputime} (he : e ∈ tr) :
    ∃ u, reportStep r n e.1 e.2 = some u := by
  obtain ⟨tr₁, tr₂, rfl⟩ := List.append_of_mem he
  obtain ⟨u, -, hstep, -⟩ := hrun.around
  exact ⟨u, hstep⟩

/-- No later call reports less than what was kept. -/
theorem prev_le_run (hrun : Run (reportStep r n) s tr t) (h : Within n s.seen s.prev) :
    ∀ e ∈ tr, s.prev.prevUtime ≤ reportedUtime r n e ∧ s.prev.prevStime ≤ reportedStime r n e := by
  have hinv := (hrun.invariant
    (fun u => Within n u.seen u.prev ∧ s.prev.prevUtime.toNat ≤ u.prev.prevUtime.toNat ∧
      s.prev.prevStime.toNat ≤ u.prev.prevStime.toNat) (fun _ _ => True)
    (fun _ _ _ hs _ hstep => ⟨within_step hs.1 hstep,
      Nat.le_trans hs.2.1 (prev_step hs.1 hstep).1, Nat.le_trans hs.2.2 (prev_step hs.1 hstep).2⟩)
    ⟨h, Nat.le_refl _, Nat.le_refl _⟩ fun _ _ => trivial).2
  intro e he
  obtain ⟨hwithin, hutime, hstime⟩ := hinv e he
  obtain ⟨u, hstep⟩ := exists_step hrun he
  obtain ⟨hut, hst⟩ := reported_step hstep
  obtain ⟨hprevu, hprevs⟩ := prev_step hwithin hstep
  rw [show e = (e.1, e.2) from rfl, hut, hst]
  exact ⟨Nat.le_trans hutime hprevu, Nat.le_trans hstime hprevs⟩

/-- The reported times never decrease. -/
theorem pairwise_run (hrun : Run (reportStep r n) s tr t) (h : Within n s.seen s.prev) :
    tr.Pairwise fun e e' =>
      reportedUtime r n e ≤ reportedUtime r n e' ∧ reportedStime r n e ≤ reportedStime r n e' := by
  induction hrun with
  | nil => exact .nil
  | @cons s t u c tr hstep hrest ih =>
      have ht := within_step h hstep
      obtain ⟨hut, hst⟩ := reported_step hstep
      refine .cons (fun e he => ?_) (ih ht)
      rw [hut, hst]
      exact prev_le_run hrest ht e he

/-- The two reported times fit in the run time, in numbers. -/
def SumWithin (r : Reporter) (n : NsecsToCputime) (e : Reported × TaskCputime) : Prop :=
  (reportedUtime r n e).toNat + (reportedStime r n e).toNat ≤ (rtime n e.2).toNat

/-- The system time that was reported last leaves room for the scaled user time. -/
def LeavesRoom (n : NsecsToCputime) (e : Reported × TaskCputime) : Prop :=
  (scaledUtime n e.2).toNat + e.1.prev.prevStime.toNat ≤ (rtime n e.2).toNat

theorem sumWithin_step (h : Within n s.seen s.prev) (hstep : reportStep r n s c = some t) :
    SumWithin r n (s, c) ↔
      s.prev.prevUtime.toNat + s.prev.prevStime.toNat ≤ (rtime n c).toNat ∧ LeavesRoom n (s, c) := by
  obtain ⟨hut, hst⟩ := reported_step hstep
  unfold SumWithin
  rw [hut, hst]
  exact sum_step h hstep

/-- **In a run the sums stay within the run time, exactly if** the system time always leaves room. -/
theorem sumWithin_run (hrun : Run (reportStep r n) s tr t) (h : Within n s.seen s.prev)
    (hsum : s.prev.prevUtime.toNat + s.prev.prevStime.toNat ≤ (rtime n s.seen).toNat) :
    (∀ e ∈ tr, SumWithin r n e) ↔ ∀ e ∈ tr, LeavesRoom n e := by
  induction hrun with
  | nil => simp
  | @cons s t u c tr hstep hrest ih =>
      have hstart : s.prev.prevUtime.toNat + s.prev.prevStime.toNat ≤ (rtime n c).toNat :=
        Nat.le_trans hsum (rtime_mono (reportStep_eq hstep).1)
      have hone : SumWithin r n (s, c) ↔ LeavesRoom n (s, c) := by
        rw [sumWithin_step h hstep]
        exact and_iff_right hstart
      have hnext : SumWithin r n (s, c) →
          t.prev.prevUtime.toNat + t.prev.prevStime.toNat ≤ (rtime n t.seen).toNat := by
        intro hsum'
        obtain ⟨hut, hst⟩ := reported_step hstep
        rw [SumWithin, hut, hst] at hsum'
        rw [(reportStep_eq hstep).2] at hsum' ⊢
        exact hsum'
      rw [List.forall_mem_cons, List.forall_mem_cons, hone]
      exact and_congr_right fun hroom => ih (within_step h hstep) (hnext (hone.mpr hroom))

/-- Both times are within the run time, so that the subtraction does not underflow, and together they
fill it. -/
structure FillsRtime (r : Reporter) (n : NsecsToCputime) (e : Reported × TaskCputime) : Prop where
  utime : reportedUtime r n e ≤ rtime n e.2
  stime : reportedStime r n e ≤ rtime n e.2
  fills : (rtime n e.2).toNat ≤ (reportedUtime r n e).toNat + (reportedStime r n e).toNat

theorem fillsRtime_step (h : Within n s.seen s.prev) (hstep : reportStep r n s c = some t) :
    FillsRtime r n (s, c) := by
  obtain ⟨hut, hst⟩ := reported_step hstep
  obtain ⟨hcounts, rfl⟩ := reportStep_eq hstep
  obtain ⟨hwithin, -, hstime⟩ := nextTimes_spec hcounts.2.1 (h.mono hcounts)
  refine ⟨hut ▸ hwithin.utime, hst ▸ hwithin.stime, ?_⟩
  rw [hut, hst]
  show (rtime n c).toNat ≤
    (nextTimes n c s.prev).prevUtime.toNat + (nextTimes n c s.prev).prevStime.toNat
  rw [hstime]
  omega

/-- **What `task_times` and `thread_group_times` report.**  Over any sequence of calls neither time
decreases, each is within the run time, and together they fill it; they stay within it together
exactly if the system time that was reported last always leaves room for the scaled user time. -/
theorem times_consistent (hrun : Run (reportStep r n) reportedNone tr t) :
    tr.Pairwise (fun e e' => reportedUtime r n e ≤ reportedUtime r n e' ∧
      reportedStime r n e ≤ reportedStime r n e') ∧
    (∀ e ∈ tr, FillsRtime r n e) ∧
    ((∀ e ∈ tr, SumWithin r n e) ↔ ∀ e ∈ tr, LeavesRoom n e) := by
  refine ⟨pairwise_run hrun within_none, fun e he => ?_, sumWithin_run hrun within_none (Nat.zero_le _)⟩
  obtain ⟨u, hstep⟩ := exists_step hrun he
  exact fillsRtime_step (within_run hrun within_none e he) hstep

/-- `nsecs_to_jiffies` with 100 ticks a second. -/
def sampleNsecs : NsecsToCputime where
  call x := (x / 10000000).setWidth 32
  limit := 42949672959999999
  mono a b hab hb := by
    have hlimit : b.toNat ≤ 42949672959999999 := hb
    have hle : a.toNat ≤ b.toNat := hab
    have hdiv : a.toNat / 10000000 ≤ b.toNat / 10000000 := Nat.div_le_div_right hle
    have hcall : ∀ x : BitVec 64, x.toNat ≤ b.toNat →
        ((x / 10000000).setWidth 32).toNat = x.toNat / 10000000 := by
      intro x hx
      rw [BitVec.toNat_setWidth, BitVec.toNat_udiv]
      show x.toNat / 10000000 % 2 ^ 32 = _
      omega
    show ((a / 10000000).setWidth 32).toNat ≤ ((b / 10000000).setWidth 32).toNat
    rw [hcall a hle, hcall b (Nat.le_refl _)]
    exact hdiv

/-- A call that finds so many ticks of each kind, and so many of run time. -/
def sampleCputime (utime stime rtime : BitVec 32) : TaskCputime where
  utime := utime
  stime := stime
  sumExecRuntime := rtime.setWidth 64 * 10000000

/-- With an even mix the two times add up. -/
theorem times_consistent_even : ∃ t tr, Run (reportStep .taskTimes sampleNsecs) reportedNone tr t ∧
    tr.length = 2 ∧ ∀ e ∈ tr, SumWithin .taskTimes sampleNsecs e := by
  have htrace : ((Run.trace (reportStep .taskTimes sampleNsecs) reportedNone
      [sampleCputime 10 10 20, sampleCputime 20 20 40]).any fun r => decide (r.1.length = 2 ∧
        ∀ e ∈ r.1, (scaledUtime sampleNsecs e.2).toNat + e.1.prev.prevStime.toNat ≤
          (rtime sampleNsecs e.2).toNat)) = true := by
    decide +kernel
  obtain ⟨⟨tr, t⟩, hrun, hlength, hroom⟩ := Run.exists_of_trace htrace
  exact ⟨t, tr, hrun, hlength, (times_consistent hrun).2.2.mpr hroom⟩

/-- **The mix shifts**: ten ticks in the kernel, then thirty for the user, in a run time of thirty,
are reported as ten and twenty-two. -/
theorem sum_exceeds_rtime : ∃ t tr, Run (reportStep .taskTimes sampleNsecs) reportedNone tr t ∧
    ∃ e ∈ tr, ¬ SumWithin .taskTimes sampleNsecs e ∧
      (reportedUtime .taskTimes sampleNsecs e).toNat = 22 ∧
      (reportedStime .taskTimes sampleNsecs e).toNat = 10 ∧ (rtime sampleNsecs e.2).toNat = 30 := by
  have htrace : ((Run.trace (reportStep .taskTimes sampleNsecs) reportedNone
      [sampleCputime 0 10 10, sampleCputime 30 10 30]).any fun r => decide (∃ e ∈ r.1,
        (reportedUtime .taskTimes sampleNsecs e).toNat = 22 ∧
        (reportedStime .taskTimes sampleNsecs e).toNat = 10 ∧
        (rtime sampleNsecs e.2).toNat = 30)) = true := by
    decide +kernel
  obtain ⟨⟨tr, t⟩, hrun, e, he, hut, hst, hrtime⟩ := Run.exists_of_trace htrace
  refine ⟨t, tr, hrun, e, he, ?_, hut, hst, hrtime⟩
  rw [SumWithin, hut, hst, hrtime]
  decide

end WrrScheduler
