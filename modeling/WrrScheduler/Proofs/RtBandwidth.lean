/-
How much a group can run before it is throttled.

Three fields of a run queue matter, its time, its runtime and whether it is
throttled, and no function that moves entities writes them.  A charge adds to the
time and throttles the group once it is past its runtime; the period timer takes
away no more than the runtime for each period.  So what has been charged is at most
the time that is left and the runtime of the periods that have passed.

The time is a machine word.  Charges that come while the group is throttled can wrap
it, and then less is left than was charged.  `WithinRuntime` therefore has two
halves: what holds whatever the charges are, which is about the flag and the time,
and the sum, which is under the condition that no charge so far has wrapped.
-/
import Mathlib.Algebra.GroupWithZero.Nat
import Mathlib.Data.BitVec
import WrrScheduler.Proofs.RtEffects

namespace WrrScheduler

variable {m : Machine} {v : RtView} {r r' r'' : Rt} {g h : Gid} {e : RtEntity} {l : List RtEntity}
  {q : RtRq} {R δ : BitVec 64} {overrun : Nat}

/-- What bandwidth control reads and writes of a run queue. -/
structure RtBudget where
  rtTime : BitVec 64
  rtThrottled : Bool
  rtRuntime : BitVec 64

/-- The budget of a run queue. -/
def RtRq.budget (q : RtRq) : RtBudget := ⟨q.rtTime, q.rtThrottled, q.rtRuntime⟩

theorem ne_runtimeInf_of_lt {a b : BitVec 64} (hab : a < b) : a ≠ runtimeInf := by
  rintro rfl
  have hlt : runtimeInf.toNat < b.toNat := BitVec.lt_def.mp hab
  have hinf : runtimeInf.toNat = 2 ^ 64 - 1 := BitVec.toNat_allOnes
  have hb := b.isLt
  omega

namespace Rt

/-! ### What moves entities leaves the budgets alone -/

/-- Every group has the budget it had. -/
def SameBudgets (r r' : Rt) : Prop := ∀ g, (r'.rtRq g).budget = (r.rtRq g).budget

theorem SameBudgets.refl (r : Rt) : SameBudgets r r := fun _ => rfl

theorem SameBudgets.trans (h : SameBudgets r r') (h' : SameBudgets r' r'') : SameBudgets r r'' :=
  fun g => (h' g).trans (h g)

theorem sameBudgets_modify {f : RtRq → RtRq} (hf : ∀ q, (f q).budget = q.budget) :
    SameBudgets r (r.modify g f) := by
  intro h
  rw [modify_rtRq]
  split
  · rename_i hh
    rw [hf, hh]
  · rfl

theorem sameBudgets_foldl {f : Rt → RtEntity → Rt} (hf : ∀ r e, SameBudgets r (f r e)) :
    SameBudgets r (l.foldl f r) := by
  induction l generalizing r with
  | nil => exact .refl r
  | cons e l ih => exact (hf r e).trans ih

theorem budget_incRtTasks (prio : Int) (boosted : Bool) :
    (incRtTasks prio boosted q).budget = q.budget := by
  unfold incRtTasks incRtGroup incRtPrio
  split <;> split <;> rfl

theorem budget_decRtTasks (prio : Int) (boosted : Bool) :
    (decRtTasks prio boosted q).budget = q.budget := by
  unfold decRtTasks decRtGroup decRtPrio
  split <;> split <;> (try split) <;> rfl

theorem sameBudgets_link (prio : Int) (head : Bool) : SameBudgets r (r.link g prio e head) :=
  sameBudgets_modify fun _ => rfl

theorem sameBudgets_unlink : SameBudgets r (r.unlink e) := fun _ => rfl

theorem sameBudgets_rawEnqueueRtEntity (head : Bool) :
    SameBudgets r (r.rawEnqueueRtEntity v head e) := by
  unfold rawEnqueueRtEntity
  split
  · exact .refl r
  · exact (sameBudgets_link _ _).trans (sameBudgets_modify fun q => budget_incRtTasks _ _)

theorem sameBudgets_dequeueIfOn : SameBudgets r (r.dequeueIfOn v e) := by
  unfold dequeueIfOn rawDequeueRtEntity
  split
  · refine sameBudgets_unlink.trans (sameBudgets_modify fun q => ?_)
    rw [budget_decRtTasks]
    split <;> rfl
  · exact .refl r

theorem sameBudgets_requeueGroup : SameBudgets r (r.requeueGroup v e) := by
  unfold requeueGroup
  split
  · exact .refl r
  · split
    · exact sameBudgets_rawEnqueueRtEntity false
    · exact .refl r

theorem sameBudgets_requeueRtEntity (head : Bool) :
    SameBudgets r (r.requeueRtEntity v head e) := by
  unfold requeueRtEntity
  split
  · exact sameBudgets_unlink.trans (sameBudgets_link _ _)
  · exact .refl r

theorem sameBudgets_dequeueRtStack : SameBudgets r (r.dequeueRtStack v e) :=
  sameBudgets_foldl fun _ _ => sameBudgets_dequeueIfOn

theorem sameBudgets_enqueueRtEntity (head : Bool) : SameBudgets r (r.enqueueRtEntity v head e) :=
  sameBudgets_dequeueRtStack.trans (sameBudgets_foldl fun _ _ => sameBudgets_rawEnqueueRtEntity head)

theorem sameBudgets_dequeueRtEntity : SameBudgets r (r.dequeueRtEntity v e) :=
  sameBudgets_dequeueRtStack.trans (sameBudgets_foldl fun _ _ => sameBudgets_requeueGroup)

theorem sameBudgets_requeueTaskRt (head : Bool) (p : Pid) :
    SameBudgets r (r.requeueTaskRt v head p) :=
  sameBudgets_foldl fun _ _ => sameBudgets_requeueRtEntity head

theorem sameBudgets_schedRtRqEnqueue : SameBudgets r (r.schedRtRqEnqueue v g).1 := by
  unfold schedRtRqEnqueue
  split
  · dsimp only
    split
    · exact sameBudgets_enqueueRtEntity false
    · exact .refl r
  · exact .refl r

theorem sameBudgets_schedRtRqDequeue : SameBudgets r (r.schedRtRqDequeue v g) := by
  unfold schedRtRqDequeue
  split
  · exact sameBudgets_dequeueRtEntity
  · exact .refl r

/-! ### A charge -/

/-- Only the group whose runtime is exceeded is throttled. -/
theorem budget_schedRtRuntimeExceeded_of_ne (hgh : h ≠ g) :
    ((r.schedRtRuntimeExceeded v g).1.rtRq h).budget = (r.rtRq h).budget := by
  have hmodify : ∀ f : RtRq → RtRq, (((r.modify g f).rtRq h).budget) = (r.rtRq h).budget := by
    intro f
    rw [modify_rtRq, if_neg hgh]
  unfold schedRtRuntimeExceeded
  dsimp only
  split
  · rfl
  split
  · rfl
  split
  · rfl
  split
  · have hset : ∀ r' : Rt, (r'.rtRq h).budget = (r.rtRq h).budget →
        ((if rtRqThrottled (r'.rtRq g) then (r'.schedRtRqDequeue v g, true)
          else (r', false)).1.rtRq h).budget = (r.rtRq h).budget := by
      intro r' hr'
      split
      · rw [sameBudgets_schedRtRqDequeue h, hr']
      · exact hr'
    refine hset _ ?_
    split
    · exact hmodify _
    · exact hmodify _
  · rfl

/-- A group with a runtime of its own is throttled once it is past that. -/
theorem budget_schedRtRuntimeExceeded (hlt : (r.rtRq g).rtRuntime < (v.rtBandwidth g).rtPeriod)
    (hpos : (v.rtBandwidth g).rtRuntime ≠ 0) :
    ((r.schedRtRuntimeExceeded v g).1.rtRq g).budget =
      { (r.rtRq g).budget with
        rtThrottled := (r.rtRq g).rtThrottled || decide ((r.rtRq g).rtRuntime < (r.rtRq g).rtTime) } := by
  have hperiod : ¬ (v.rtBandwidth g).rtPeriod ≤ (r.rtRq g).rtRuntime := by
    rw [BitVec.not_le]
    exact hlt
  have hinf : (r.rtRq g).rtRuntime ≠ runtimeInf := ne_runtimeInf_of_lt hlt
  unfold schedRtRuntimeExceeded
  dsimp only
  by_cases hthrottled : (r.rtRq g).rtThrottled = true
  · rw [if_pos hthrottled, hthrottled, Bool.true_or, ← hthrottled]
    rfl
  rw [if_neg hthrottled, if_neg hperiod, if_neg hinf, if_pos hpos]
  rw [Bool.not_eq_true] at hthrottled
  rw [hthrottled, Bool.false_or]
  by_cases hover : (r.rtRq g).rtRuntime < (r.rtRq g).rtTime
  · rw [if_pos hover, decide_eq_true hover]
    have hset : ((r.modify g fun q => { q with rtThrottled := true }).rtRq g).budget =
        { (r.rtRq g).budget with rtThrottled := true } := by
      rw [modify_rtRq, if_pos rfl]
      rfl
    split
    · rw [sameBudgets_schedRtRqDequeue g, hset]
    · exact hset
  · rw [if_neg hover, decide_eq_false hover, ← hthrottled]
    rfl

/-- A charge to another group is none of this one's business. -/
theorem budget_chargeRtRq_of_ne (acc : Rt × Bool) (hg : rtRqOfSe v e ≠ g) :
    ((chargeRtRq v δ acc e).1.rtRq g).budget = (acc.1.rtRq g).budget := by
  unfold chargeRtRq
  dsimp only
  split
  · rfl
  · rw [budget_schedRtRuntimeExceeded_of_ne (Ne.symm hg), modify_rtRq, if_neg (Ne.symm hg)]

/-- No charge lets a group go on. -/
theorem rtThrottled_chargeRtRq (acc : Rt × Bool) (hg : (acc.1.rtRq g).rtThrottled = true) :
    ((chargeRtRq v δ acc e).1.rtRq g).rtThrottled = true := by
  by_cases he : rtRqOfSe v e = g
  · unfold chargeRtRq
    dsimp only
    rw [he]
    split
    · exact hg
    · have hcharged : ((acc.1.modify g fun q => { q with rtTime := q.rtTime + δ }).rtRq
          g).rtThrottled = true := by rwa [modify_rtRq, if_pos rfl]
      unfold schedRtRuntimeExceeded
      dsimp only
      rw [if_pos hcharged]
      exact hcharged
  · have hsame := congrArg RtBudget.rtThrottled (@budget_chargeRtRq_of_ne v g e δ acc he)
    exact hsame.trans hg

theorem rtThrottled_chargeRt (hg : (r.rtRq g).rtThrottled = true) :
    ((chargeRt v δ r).1.rtRq g).rtThrottled = true := by
  have hlist : ∀ (l : List RtEntity) (acc : Rt × Bool), (acc.1.rtRq g).rtThrottled = true →
      ((l.foldl (chargeRtRq v δ) acc).1.rtRq g).rtThrottled = true := by
    intro l
    induction l with
    | nil => exact fun _ hacc => hacc
    | cons e l ih => exact fun acc hacc => ih _ (rtThrottled_chargeRtRq acc hacc)
  exact hlist _ (r, false) hg

theorem budget_chargeList_of_not_mem (acc : Rt × Bool) (hg : g ∉ l.map (rtRqOfSe v)) :
    ((l.foldl (chargeRtRq v δ) acc).1.rtRq g).budget = (acc.1.rtRq g).budget := by
  induction l generalizing acc with
  | nil => rfl
  | cons e l ih =>
      rw [List.map_cons, List.mem_cons, not_or] at hg
      rw [List.foldl_cons, ih _ hg.2, budget_chargeRtRq_of_ne acc (Ne.symm hg.1)]

end Rt

/-- What holds of the budget of a group with runtime `R` that has been charged so much, in so many
periods: unless it is throttled it is within its runtime, and its time and the runtime of the
periods make up for what it was charged.  The last is only so if every charge `fits`. -/
structure WithinRuntime (fits : Prop) (R : BitVec 64) (charged periods : Nat) (b : RtBudget) : Prop where
  rtRuntime : b.rtRuntime = R
  rtTime : b.rtThrottled = false → b.rtTime ≤ R
  charged : fits → charged ≤ b.rtTime.toNat + R.toNat * periods

namespace WithinRuntime

variable {fits : Prop} {charged periods : Nat} {acc : Rt × Bool}

/-- **A charge that the time can hold is made up for.** -/
theorem charge (hb : WithinRuntime fits R charged periods (acc.1.rtRq g).budget)
    (hruntime : (v.rtBandwidth g).rtRuntime = R) (hpos : 0 < R) (hlt : R < (v.rtBandwidth g).rtPeriod)
    (hg : Rt.rtRqOfSe v e = g)
    (hfits : fits → (acc.1.rtRq g).rtTime.toNat + δ.toNat < 2 ^ 64) :
    WithinRuntime fits R (charged + δ.toNat) periods (((Rt.chargeRtRq v δ acc e).1.rtRq g).budget) := by
  have hR : (acc.1.rtRq g).rtRuntime = R := hb.rtRuntime
  have hinf : (acc.1.rtRq g).rtRuntime ≠ runtimeInf := by
    rw [hR]
    exact ne_runtimeInf_of_lt hlt
  have hne : (v.rtBandwidth g).rtRuntime ≠ 0 := by
    rintro hzero
    rw [← hruntime, hzero] at hpos
    exact absurd hpos (by decide)
  have hcharged : (Rt.modify acc.1 g fun q => { q with rtTime := q.rtTime + δ }).rtRq g =
      { acc.1.rtRq g with rtTime := (acc.1.rtRq g).rtTime + δ } := by
    rw [Rt.modify_rtRq, if_pos rfl]
  unfold Rt.chargeRtRq
  dsimp only
  rw [hg, if_neg hinf, Rt.budget_schedRtRuntimeExceeded (by rw [hcharged, hR]; exact hlt) hne, hcharged]
  refine ⟨hR, ?_, ?_⟩
  · intro hfree
    obtain ⟨-, hover⟩ := Bool.or_eq_false_iff.mp hfree
    have hle := BitVec.not_lt.mp (of_decide_eq_false hover)
    rw [hR] at hle
    exact hle
  · intro hfit
    have hold : charged ≤ (acc.1.rtRq g).rtTime.toNat + R.toNat * periods := hb.charged hfit
    have htime : ((acc.1.rtRq g).rtTime + δ).toNat = (acc.1.rtRq g).rtTime.toNat + δ.toNat := by
      rw [BitVec.toNat_add, Nat.mod_eq_of_lt (hfits hfit)]
    show charged + δ.toNat ≤ ((acc.1.rtRq g).rtTime + δ).toNat + R.toNat * periods
    omega

end WithinRuntime

/-! ### The groups that are charged

`update_curr_rt` charges the running task's group and all above it.  Depths decrease
on the way up, so no group is met twice and each charge is of the same amount.
-/

namespace Rt

/-- The groups a task runs in, bottom up. -/
def chargedGroups (v : RtView) : List Gid := (schedRtEntities v (.task v.curr)).map (rtRqOfSe v)

theorem depth_of_mem_groupEntities {n : Nat} (hg : h ∈ (groupEntities v.tg n g).map (rtRqOfSe v)) :
    v.tg.depth h < v.tg.depth g := by
  obtain ⟨x, hx, rfl⟩ := List.mem_map.mp hg
  obtain ⟨k, rfl, hparent, hdepth⟩ := mem_groupEntities hx
  obtain ⟨j, hj⟩ := Option.isSome_iff_exists.mp hparent
  have hk := v.tg.depth_parent k j hj
  rw [rtRqOfSe_group hj]
  omega

theorem nodup_map_groupEntities (n : Nat) : ((groupEntities v.tg n g).map (rtRqOfSe v)).Nodup := by
  induction n generalizing g with
  | zero => exact List.nodup_nil
  | succ n ih =>
      cases hp : v.tg.parent g with
      | none => simp [groupEntities, hp]
      | some k =>
          rw [groupEntities, hp, List.map_cons, rtRqOfSe_group hp]
          refine List.nodup_cons.mpr ⟨?_, ih⟩
          intro hmem
          exact Nat.lt_irrefl _ (depth_of_mem_groupEntities hmem)

/-- No group is charged twice. -/
theorem nodup_chargedGroups : (chargedGroups v).Nodup := by
  refine List.nodup_cons.mpr ⟨?_, nodup_map_groupEntities _⟩
  intro hmem
  exact Nat.lt_irrefl _ (depth_of_mem_groupEntities hmem)

end Rt

theorem toNat_left {a b left : BitVec 64} (hleft : left = a - (if a ≤ b then a else b)) :
    left.toNat = a.toNat - b.toNat := by
  subst hleft
  by_cases hle : a ≤ b
  · have hnat := BitVec.le_def.mp hle
    rw [if_pos hle, BitVec.sub_self, BitVec.toNat_zero]
    omega
  · rw [if_neg hle, BitVec.toNat_sub_of_le (BitVec.le_of_lt (BitVec.not_le.mp hle))]

namespace WithinRuntime

variable {fits : Prop} {charged periods : Nat} {acc : Rt × Bool}

theorem chargeList (hruntime : (v.rtBandwidth g).rtRuntime = R) (hpos : 0 < R)
    (hlt : R < (v.rtBandwidth g).rtPeriod) (hnodup : (l.map (Rt.rtRqOfSe v)).Nodup)
    (hb : WithinRuntime fits R charged periods (acc.1.rtRq g).budget)
    (hfits : fits → (acc.1.rtRq g).rtTime.toNat +
      (if g ∈ l.map (Rt.rtRqOfSe v) then δ.toNat else 0) < 2 ^ 64) :
    WithinRuntime fits R (charged + if g ∈ l.map (Rt.rtRqOfSe v) then δ.toNat else 0) periods
      (((l.foldl (Rt.chargeRtRq v δ) acc).1.rtRq g).budget) := by
  induction l generalizing acc with
  | nil => simpa using hb
  | cons e l ih =>
      rw [List.map_cons] at hnodup hfits ⊢
      obtain ⟨he, hl⟩ := List.nodup_cons.mp hnodup
      by_cases hg : Rt.rtRqOfSe v e = g
      · rw [if_pos (by simp [hg])] at hfits ⊢
        rw [hg] at he
        rw [List.foldl_cons, Rt.budget_chargeList_of_not_mem _ he]
        exact hb.charge hruntime hpos hlt hg hfits
      · have hiff : g ∈ Rt.rtRqOfSe v e :: l.map (Rt.rtRqOfSe v) ↔ g ∈ l.map (Rt.rtRqOfSe v) := by
          simp [Ne.symm hg]
        have hsame := @Rt.budget_chargeRtRq_of_ne v g e δ acc hg
        have htime : ((Rt.chargeRtRq v δ acc e).1.rtRq g).rtTime = (acc.1.rtRq g).rtTime :=
          congrArg RtBudget.rtTime hsame
        simp only [hiff] at hfits ⊢
        refine ih hl ?_ ?_
        · rwa [hsame]
        · rwa [htime]

/-- **The charge of a call of `update_curr_rt`.** -/
theorem chargeRt (hruntime : (v.rtBandwidth g).rtRuntime = R) (hpos : 0 < R)
    (hlt : R < (v.rtBandwidth g).rtPeriod)
    (hb : WithinRuntime fits R charged periods (r.rtRq g).budget)
    (hfits : fits →
      (r.rtRq g).rtTime.toNat + (if g ∈ Rt.chargedGroups v then δ.toNat else 0) < 2 ^ 64) :
    WithinRuntime fits R (charged + if g ∈ Rt.chargedGroups v then δ.toNat else 0) periods
      (((Rt.chargeRt v δ r).1.rtRq g).budget) :=
  chargeList hruntime hpos hlt Rt.nodup_chargedGroups hb hfits

/-! ### The period timer

The timer takes away `overrun` times the runtime, or all of the time if that is less,
and clears the flag only if what is left is below the runtime.  So the sum of what is
left and what the periods were worth does not go down.
-/

/-- **A replenishment takes away no more than the periods are worth**, and lets a group go on only
with runtime left. -/
theorem replenish (hb : WithinRuntime fits R charged periods q.budget) :
    WithinRuntime fits R charged (periods + overrun) (Rt.replenish overrun q).1.budget ∧
      (q.rtThrottled = true → (Rt.replenish overrun q).1.rtThrottled = false →
        (Rt.replenish overrun q).1.rtTime < R) := by
  have hR : q.rtRuntime = R := hb.rtRuntime
  have htime : q.rtThrottled = false → q.rtTime ≤ R := hb.rtTime
  have hcharged : fits → charged ≤ q.rtTime.toNat + R.toNat * periods := hb.charged
  have hmul : R.toNat * (periods + overrun) = R.toNat * periods + R.toNat * overrun := Nat.mul_add _ _ _
  unfold Rt.replenish
  by_cases hzero : q.rtTime ≠ 0
  · rw [if_pos hzero]
    dsimp only
    generalize hrefill : BitVec.ofNat 64 overrun * q.rtRuntime = refill
    have hle : refill.toNat ≤ R.toNat * overrun := by
      rw [← hrefill, hR, BitVec.toNat_mul, BitVec.toNat_ofNat, Nat.mul_comm]
      exact (Nat.mod_le _ _).trans (Nat.mul_le_mul_left _ (Nat.mod_le _ _))
    generalize hleft : q.rtTime - (if q.rtTime ≤ refill then q.rtTime else refill) = left
    have hnat : left.toNat = q.rtTime.toNat - refill.toNat := toNat_left hleft.symm
    have hcharged' : fits → charged ≤ left.toNat + R.toNat * (periods + overrun) := by
      intro hfit
      have hold := hcharged hfit
      omega
    by_cases hgo : (q.rtThrottled && decide (left < q.rtRuntime)) = true
    · rw [if_pos hgo]
      obtain ⟨-, hlt⟩ := Bool.and_eq_true_iff.mp hgo
      have hlt : left < R := hR ▸ of_decide_eq_true hlt
      exact ⟨⟨hR, fun _ => BitVec.le_of_lt hlt, hcharged'⟩, fun _ _ => hlt⟩
    · rw [if_neg hgo]
      refine ⟨⟨hR, ?_, hcharged'⟩, ?_⟩
      · intro hfree
        have hnat' := BitVec.le_def.mp (htime hfree)
        show left ≤ R
        rw [BitVec.le_def]
        omega
      · intro hthrottled hfree
        rw [show q.rtThrottled = false from hfree] at hthrottled
        cases hthrottled
  · rw [if_neg hzero]
    refine ⟨⟨hR, htime, ?_⟩, ?_⟩
    · intro hfit
      have hold := hcharged hfit
      show charged ≤ q.rtTime.toNat + R.toNat * (periods + overrun)
      omega
    · intro hthrottled hfree
      rw [show q.rtThrottled = false from hfree] at hthrottled
      cases hthrottled

theorem afterPeriod (hb : WithinRuntime fits R charged periods (r.rtRq g).budget) :
    WithinRuntime fits R charged (periods + overrun) (((Rt.afterPeriod v g overrun r).rtRq g).budget) ∧
      ((r.rtRq g).rtThrottled = true → ((Rt.afterPeriod v g overrun r).rtRq g).rtThrottled = false →
        ((Rt.afterPeriod v g overrun r).rtRq g).rtTime < R) := by
  have hbudget : ((Rt.afterPeriod v g overrun r).rtRq g).budget =
      (Rt.replenish overrun (r.rtRq g)).1.budget := by
    have hset : ((r.modify g fun q => (Rt.replenish overrun q).1).rtRq g).budget =
        (Rt.replenish overrun (r.rtRq g)).1.budget := by rw [Rt.modify_rtRq, if_pos rfl]
    unfold Rt.afterPeriod
    dsimp only
    split
    · rw [Rt.sameBudgets_schedRtRqEnqueue g, hset]
    · exact hset
  have hthrottled : ((Rt.afterPeriod v g overrun r).rtRq g).rtThrottled =
      (Rt.replenish overrun (r.rtRq g)).1.rtThrottled := congrArg RtBudget.rtThrottled hbudget
  have htime : ((Rt.afterPeriod v g overrun r).rtRq g).rtTime =
      (Rt.replenish overrun (r.rtRq g)).1.rtTime := congrArg RtBudget.rtTime hbudget
  rw [hbudget, hthrottled, htime]
  exact hb.replenish

end WithinRuntime

/-- The timer of another group is none of this one's business. -/
theorem Rt.budget_afterPeriod_of_ne (hgh : g ≠ h) :
    ((Rt.afterPeriod v h overrun r).rtRq g).budget = (r.rtRq g).budget := by
  have hset : ((r.modify h fun q => (Rt.replenish overrun q).1).rtRq g).budget =
      (r.rtRq g).budget := by rw [Rt.modify_rtRq, if_neg hgh]
  unfold Rt.afterPeriod
  dsimp only
  split
  · rw [Rt.sameBudgets_schedRtRqEnqueue g, hset]
  · exact hset

/-! ### Runs

A run charges and replenishes in any order.  Each step adds its own charge and its own
periods to the two totals, and the sum stays made up for; what a group used is bounded
by what is left of its time, which is at most its runtime while it may run, and the
periods so far.
-/

namespace RtSystem

variable {fits : Prop} {s t u : RtSystem} {o : RtOp} {tr : List (RtSystem × RtOp)}

/-- Whether `update_curr_rt` charges a group that has a runtime. -/
def charges (m : Machine) (s : RtSystem) (g : Gid) : Bool :=
  accountsRt (s.machine m) s.sched && g ∈ Rt.chargedGroups (s.view m)

/-- The execution time an operation charges to a group. -/
def charge (m : Machine) (g : Gid) (s : RtSystem) : RtOp → Nat
  | .updateCurrRt | .dequeueTaskRt _ => if s.charges m g then (deltaExec s.sched).toNat else 0
  | _ => 0

/-- The periods an operation makes up for. -/
def periods (g : Gid) : RtOp → Nat
  | .doSchedRtPeriodTimer h n => if h = g then n else 0
  | _ => 0

/-- The execution time a run charges to a group. -/
def totalCharged (m : Machine) (g : Gid) (tr : List (RtSystem × RtOp)) : Nat :=
  (tr.map fun e => charge m g e.1 e.2).sum

/-- The periods a run makes up for. -/
def totalPeriods (g : Gid) (tr : List (RtSystem × RtOp)) : Nat :=
  (tr.map fun e => periods g e.2).sum

/-- Whether an operation leaves a group with runtime `R` in every period. -/
def keepsRuntime (g : Gid) (R : BitVec 64) : RtOp → Bool
  | .tgSetRtBandwidth h b => h ≠ g || b.rtRuntime = R && R < b.rtPeriod
  | _ => true

/-- A group with runtime `R` in every period, charged so much in so many periods. -/
structure Within (fits : Prop) (R : BitVec 64) (g : Gid) (charged periods : Nat) (s : RtSystem) : Prop where
  rtRuntime : (s.rtBandwidth g).rtRuntime = R
  rtPeriod : R < (s.rtBandwidth g).rtPeriod
  budget : WithinRuntime fits R charged periods (s.rtRq g).budget

/-- The group has not been let go on, or has runtime left. -/
def LetGo (R : BitVec 64) (g : Gid) (s t : RtSystem) : Prop :=
  (s.rtRq g).rtThrottled = true → (t.rtRq g).rtThrottled = false → (t.rtRq g).rtTime < R

theorem letGo_of_throttled (hst : (s.rtRq g).rtThrottled = true → (t.rtRq g).rtThrottled = true) :
    LetGo R g s t := by
  intro hs ht
  rw [hst hs] at ht
  cases ht

theorem LetGo.congr (h : LetGo R g s t) (hbudget : (u.rtRq g).budget = (t.rtRq g).budget) :
    LetGo R g s u := by
  intro hs hu
  have htime : (u.rtRq g).rtTime = (t.rtRq g).rtTime := congrArg RtBudget.rtTime hbudget
  rw [htime]
  exact h hs ((congrArg RtBudget.rtThrottled hbudget).symm.trans hu)

/-- What only moves entities, or something else. -/
theorem Within.same {c n : Nat} (h : Within fits R g c n s) (hband : t.rtBandwidth = s.rtBandwidth)
    (hbudget : (t.rtRq g).budget = (s.rtRq g).budget) : Within fits R g c n t ∧ LetGo R g s t := by
  refine ⟨⟨by rw [hband]; exact h.rtRuntime, by rw [hband]; exact h.rtPeriod, ?_⟩, ?_⟩
  · rw [hbudget]
    exact h.budget
  · refine letGo_of_throttled fun hs => ?_
    exact (congrArg RtBudget.rtThrottled hbudget).trans hs

/-- `update_curr_rt`. -/
theorem Within.updateCurrRt {c n : Nat} (h : Within fits R g c n s) (hpos : 0 < R)
    (hfits : fits → (s.rtRq g).rtTime.toNat + charge m g s .updateCurrRt < 2 ^ 64)
    (ht : t = s.modSched (WrrScheduler.updateCurrRt (s.machine m))) :
    Within fits R g (c + charge m g s .updateCurrRt) n t ∧ LetGo R g s t := by
  have hrt : t.sched.rq.rt = (WrrScheduler.updateCurrRt (s.machine m) s.sched).rq.rt := by
    rw [ht]
    rfl
  rw [rt_updateCurrRt] at hrt
  cases hon : accountsRt (s.machine m) s.sched with
  | false =>
      rw [hon, if_neg (by decide)] at hrt
      have hzero : charge m g s .updateCurrRt = 0 := by simp [charge, charges, hon]
      rw [hzero, Nat.add_zero]
      refine h.same (by rw [ht]; rfl) ?_
      rw [rtRq, hrt]
      rfl
  | true =>
      rw [hon, if_pos rfl] at hrt
      have hcharge : charge m g s .updateCurrRt =
          if g ∈ Rt.chargedGroups (s.view m) then (deltaExec s.sched).toNat else 0 := by
        simp [charge, charges, hon]
      have htrq : t.rtRq g = (Rt.chargeRt (s.view m) (deltaExec s.sched) s.sched.rq.rt).1.rtRq g := by
        rw [rtRq, hrt]
        rfl
      rw [hcharge] at hfits ⊢
      refine ⟨⟨by rw [ht]; exact h.rtRuntime, by rw [ht]; exact h.rtPeriod, ?_⟩, ?_⟩
      · rw [htrq]
        exact h.budget.chargeRt h.rtRuntime hpos h.rtPeriod hfits
      · refine letGo_of_throttled fun hs => ?_
        rw [htrq]
        exact Rt.rtThrottled_chargeRt hs

/-- **One step** adds what it charges and the periods it makes up for. -/
theorem Within.step {c n : Nat} (h : Within fits R g c n s) (hpos : 0 < R)
    (hfits : fits → (s.rtRq g).rtTime.toNat + charge m g s o < 2 ^ 64)
    (hconst : keepsRuntime g R o = true)
    (hstep : rtStep m s o = some t) :
    Within fits R g (c + charge m g s o) (n + periods g o) t ∧ LetGo R g s t := by
  have ht : t = rtPerform m s o :=
    (Option.some.inj (Option.ite_none_right_eq_some.mp hstep).2).symm
  cases o with
  | enqueueTaskRt flags p =>
      refine h.same (by rw [ht]; rfl) ?_
      rw [ht]
      show ((enqueueTaskRt (s.machine m) flags p s.sched).rq.rt.rtRq g).budget = _
      rw [rt_enqueueTaskRt]
      exact Rt.sameBudgets_enqueueRtEntity _ g
  | dequeueTaskRt p =>
      obtain ⟨hcharged, hgo⟩ := h.updateCurrRt hpos hfits rfl
      have hbudget : (t.rtRq g).budget =
          ((s.modSched (WrrScheduler.updateCurrRt (s.machine m))).rtRq g).budget := by
        rw [ht]
        show ((dequeueTaskRt (s.machine m) p s.sched).rq.rt.rtRq g).budget = _
        rw [rt_dequeueTaskRt]
        exact Rt.sameBudgets_dequeueRtEntity g
      exact ⟨(hcharged.same (by rw [ht]; rfl) hbudget).1, hgo.congr hbudget⟩
  | requeueTaskRt head p =>
      refine h.same (by rw [ht]; rfl) ?_
      rw [ht]
      exact Rt.sameBudgets_requeueTaskRt head p g
  | updateCurrRt => exact h.updateCurrRt hpos hfits ht
  | doSchedRtPeriodTimer k overrun =>
      have htrq : ∀ a, t.rtRq a =
          (Rt.afterPeriod (s.view m) k overrun s.sched.rq.rt).rtRq a := by
        intro a
        rw [ht]
        show (doSchedRtPeriodTimer (s.machine m) k overrun s.sched).rq.rt.rtRq a = _
        rw [rt_doSchedRtPeriodTimer]
        rfl
      by_cases hk : k = g
      · subst hk
        have hperiods : periods k (.doSchedRtPeriodTimer k overrun) = overrun := if_pos rfl
        obtain ⟨hbudget, hgo⟩ := @WithinRuntime.afterPeriod (s.view m) _ k R overrun fits c n h.budget
        rw [hperiods]
        refine ⟨⟨by rw [ht]; exact h.rtRuntime, by rw [ht]; exact h.rtPeriod, ?_⟩, ?_⟩
        · rw [htrq]
          exact hbudget
        · intro hs hfree
          rw [htrq] at hfree ⊢
          exact hgo hs hfree
      · have hperiods : periods g (.doSchedRtPeriodTimer k overrun) = 0 := if_neg hk
        rw [hperiods]
        refine h.same (by rw [ht]; rfl) ?_
        rw [htrq]
        exact Rt.budget_afterPeriod_of_ne (Ne.symm hk)
  | setAttr p a => exact h.same (by rw [ht]; rfl) (by rw [ht]; rfl)
  | tgSetRtBandwidth k b =>
      have htrq : t.rtRq g =
          (s.sched.rq.rt.modify k fun q => { q with rtRuntime := b.rtRuntime }).rtRq g := by
        rw [ht]
        rfl
      have hband : t.rtBandwidth = Function.update s.rtBandwidth k b := by
        rw [ht]
        rfl
      by_cases hk : g = k
      · subst hk
        obtain ⟨hruntime, hperiod⟩ : b.rtRuntime = R ∧ R < b.rtPeriod := by
          simpa [keepsRuntime] using hconst
        have hbudget : (t.rtRq g).budget = (s.rtRq g).budget := by
          have hold : (s.rtRq g).rtRuntime = R := h.budget.rtRuntime
          rw [htrq, Rt.modify_rtRq, if_pos rfl, hruntime, ← hold]
          rfl
        refine ⟨⟨?_, ?_, ?_⟩, ?_⟩
        · rw [hband, Function.update_self, hruntime]
        · rw [hband, Function.update_self]
          exact hperiod
        · rw [hbudget]
          exact h.budget
        · exact (letGo_of_throttled id).congr hbudget
      · have hbudget : (t.rtRq g).budget = (s.rtRq g).budget := by
          rw [htrq, Rt.modify_rtRq, if_neg hk]
          rfl
        refine ⟨⟨?_, ?_, ?_⟩, ?_⟩
        · rw [hband, Function.update_of_ne hk]
          exact h.rtRuntime
        · rw [hband, Function.update_of_ne hk]
          exact h.rtPeriod
        · rw [hbudget]
          exact h.budget
        · exact (letGo_of_throttled id).congr hbudget
  | sysctlSchedRtRuntime runtime => exact h.same (by rw [ht]; rfl) (by rw [ht]; rfl)
  | elsewhere acct rq => exact h.same (by rw [ht]; rfl) (by rw [ht]; rfl)

theorem Within.run {c n : Nat} (hrun : Run (rtStep m) s tr t) (h : Within fits R g c n s) (hpos : 0 < R)
    (hfits : fits → ∀ e ∈ tr, (e.1.rtRq g).rtTime.toNat + charge m g e.1 e.2 < 2 ^ 64)
    (hconst : ∀ e ∈ tr, keepsRuntime g R e.2 = true) :
    Within fits R g (c + totalCharged m g tr) (n + totalPeriods g tr) t ∧
      ∀ e ∈ tr, ∀ u, rtStep m e.1 e.2 = some u → LetGo R g e.1 u := by
  induction hrun generalizing c n with
  | nil => exact ⟨h, by simp⟩
  | @cons s u t o tr hso _ ih =>
      obtain ⟨hu, hgo⟩ := h.step hpos (fun hfit => hfits hfit _ List.mem_cons_self) (hconst _ List.mem_cons_self) hso
      obtain ⟨ht, hrest⟩ := ih hu (fun hfit e he => hfits hfit e (List.mem_cons_of_mem _ he))
        (fun e he => hconst e (List.mem_cons_of_mem _ he))
      refine ⟨?_, ?_⟩
      · have hcharged : c + totalCharged m g ((s, o) :: tr) =
            c + charge m g s o + totalCharged m g tr := by
          rw [totalCharged, List.map_cons, List.sum_cons, ← totalCharged, Nat.add_assoc]
        have hperiods : n + totalPeriods g ((s, o) :: tr) =
            n + periods g o + totalPeriods g tr := by
          rw [totalPeriods, List.map_cons, List.sum_cons, ← totalPeriods, Nat.add_assoc]
        rw [hcharged, hperiods]
        exact ht
      · intro e he w hw
        rcases List.mem_cons.mp he with rfl | he
        · obtain rfl : u = w := Option.some.inj (hso.symm.trans hw)
          exact hgo
        · exact hrest e he w hw

/-- **A group that may run is within its runtime**, and is let go on only with runtime left.  As
long as no charge wraps its time, it has not used up the runtime of the periods so far and of one
more. -/
theorem charged_within_runtime {P : BitVec 64} (hfresh : s.Fresh)
    (hrun : Run (rtStep m) s tr t) (hband : s.rtBandwidth g = ⟨P, R⟩) (hpos : 0 < R) (hlt : R < P)
    (hconst : ∀ e ∈ tr, keepsRuntime g R e.2 = true) :
    ((t.rtRq g).rtThrottled = false → (t.rtRq g).rtTime ≤ R ∧
      ((∀ e ∈ tr, (e.1.rtRq g).rtTime.toNat + charge m g e.1 e.2 < 2 ^ 64) →
        totalCharged m g tr ≤ R.toNat * (totalPeriods g tr + 1))) ∧
    ∀ e ∈ tr, ∀ u, rtStep m e.1 e.2 = some u → (e.1.rtRq g).rtThrottled = true →
      (u.rtRq g).rtThrottled = false → (u.rtRq g).rtTime < R := by
  have hrq : s.rtRq g = initRtRq R := by rw [rtRq, hfresh.rtRq g, hband]
  have hstart : Within (∀ e ∈ tr, (e.1.rtRq g).rtTime.toNat + charge m g e.1 e.2 < 2 ^ 64)
      R g 0 0 s := by
    refine ⟨by rw [hband], by rwa [hband], ?_⟩
    rw [hrq]
    refine ⟨rfl, fun _ => ?_, fun _ => Nat.zero_le _⟩
    exact BitVec.le_def.mpr (Nat.zero_le _)
  obtain ⟨ht, hgo⟩ := hstart.run hrun hpos id hconst
  refine ⟨?_, hgo⟩
  intro hfree
  have htime := ht.budget.rtTime hfree
  refine ⟨htime, ?_⟩
  intro hfit
  have hcharged := ht.budget.charged hfit
  rw [Nat.zero_add, Nat.zero_add] at hcharged
  calc totalCharged m g tr
      ≤ (t.rtRq g).rtTime.toNat + R.toNat * totalPeriods g tr := hcharged
    _ ≤ R.toNat + R.toNat * totalPeriods g tr := Nat.add_le_add_right (BitVec.le_def.mp htime) _
    _ = R.toNat * (totalPeriods g tr + 1) := by rw [Nat.mul_succ, Nat.add_comm]

/-! ### A run of the boot task -/

/-- The boot task as a `SCHED_FIFO` task. -/
def sampleFifo : Attr :=
  { (initTask (sampleMachine 0)).toAttr with
    prio := 50, normalPrio := 50, rtPriority := 49, schedClass := .rt, policy := .fifo }

/-- The boot task was stamped at one time and it is another. -/
def sampleClock (execStart clockTask : BitVec 64) : RtOp :=
  .elsewhere (fun _ => { initAcct with se := { initAcct.se with execStart := execStart } })
    { (boot (sampleMachine 0)).rq with clockTask := clockTask }

/-- The boot task runs for a second, and is throttled; then a period is over. -/
def sampleCharges : List RtOp :=
  [.setAttr 0 sampleFifo, .enqueueTaskRt {} 0, sampleClock 0 1000000000, .updateCurrRt,
    .doSchedRtPeriodTimer 0 1]

/-- A second is more than the runtime of one period, and not more than that of two. -/
theorem charged_within_runtime_sample : ∃ tr t,
    Run (rtStep (sampleMachine 0)) (rtBoot (sampleMachine 0)) tr t ∧
      (t.rtRq 0).rtThrottled = false ∧ totalCharged (sampleMachine 0) 0 tr = 1000000000 ∧
      (t.rtRq 0).rtTime ≤ 950000000 ∧ 1000000000 ≤ 950000000 * 2 := by
  obtain ⟨⟨tr, t⟩, hrun, hfree, htotal, hperiods, hconst, hfits⟩ := @Run.exists_of_trace _ _
    (rtStep (sampleMachine 0)) (rtBoot (sampleMachine 0)) sampleCharges
    (fun r => (r.2.rtRq 0).rtThrottled = false ∧
      totalCharged (sampleMachine 0) 0 r.1 = 1000000000 ∧ totalPeriods 0 r.1 = 1 ∧
      (∀ e ∈ r.1, keepsRuntime 0 950000000 e.2 = true) ∧
      ∀ e ∈ r.1, (e.1.rtRq 0).rtTime.toNat + charge (sampleMachine 0) 0 e.1 e.2 < 2 ^ 64)
    _ (by decide +kernel)
  obtain ⟨htime, hcharged⟩ := (charged_within_runtime (fresh_rtBoot (sampleMachine 0)) hrun rfl
    (by decide) (by decide) hconst).1 hfree
  have hle := hcharged hfits
  rw [htotal, hperiods] at hle
  exact ⟨tr, t, hrun, hfree, htotal, htime, hle⟩

/-- The boot task goes on although it is throttled, until its time wraps. -/
def sampleWrap : List RtOp :=
  [.setAttr 0 sampleFifo, .enqueueTaskRt {} 0, sampleClock 0 (2 ^ 63 - 1), .updateCurrRt,
    sampleClock (2 ^ 63 - 1) (2 ^ 64 - 2), .updateCurrRt, sampleClock (2 ^ 64 - 2) 1, .updateCurrRt,
    .doSchedRtPeriodTimer 0 1]

/-- With charges that wrap the time, one period lets a group go on that has used up the runtime
of many. -/
theorem charged_beyond_runtime : ∃ tr t,
    Run (rtStep (sampleMachine 0)) (rtBoot (sampleMachine 0)) tr t ∧
      (∀ e ∈ tr, keepsRuntime 0 950000000 e.2 = true) ∧ (t.rtRq 0).rtThrottled = false ∧
      950000000 * (totalPeriods 0 tr + 1) < totalCharged (sampleMachine 0) 0 tr := by
  obtain ⟨⟨tr, t⟩, hrun, hP⟩ := @Run.exists_of_trace _ _
    (rtStep (sampleMachine 0)) (rtBoot (sampleMachine 0)) sampleWrap
    (fun r => (∀ e ∈ r.1, keepsRuntime 0 950000000 e.2 = true) ∧ (r.2.rtRq 0).rtThrottled = false ∧
      950000000 * (totalPeriods 0 r.1 + 1) < totalCharged (sampleMachine 0) 0 r.1)
    _ (by decide +kernel)
  exact ⟨tr, t, hrun, hP⟩

end RtSystem

end WrrScheduler
