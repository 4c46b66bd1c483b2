/-
What a child inherits.

`sched_fork` copies the parent, takes the priority back to the normal one, resets
the policy if that was asked for, and then chooses the class by the priority alone:
fair, unless the priority is a real-time one.  `SCHED_WRR` does not show in a
priority, and the reset leaves it alone, so the child of a WRR task reports the
policy and runs in the fair class.
-/
import WrrScheduler.Proofs.Setscheduler

namespace WrrScheduler

/-- What a child that was forked and woken is to be: the policy and the class of its parent, and a
share of its slice under `SCHED_WRR`; or normal and fair, if a parent above the fair class had asked
for the reset.  Either way policy and class agree. -/
structure Inherits (parent : Task) (child : Pid) (t : State) : Prop where
  kept : parent.schedResetOnFork = false →
    (t.tasks child).policy = parent.policy ∧ (t.tasks child).onRq = true ∧
      (t.tasks child).schedClass = policyClass parent.policy
  wrr : parent.schedResetOnFork = false → parent.policy = .wrr →
    child ∈ t.rq.wrr.queue ∧ 1 ≤ (t.tasks child).wrr.timeSlice.toNat ∧
      (t.tasks child).wrr.timeSlice.toNat ≤ parent.wrr.timeSlice.toNat
  reset : parent.schedResetOnFork = true → rtPolicy parent.policy = true ∨ parent.policy = .wrr →
    (t.tasks child).policy = .normal ∧ (t.tasks child).schedClass = .fair
  agrees : (t.tasks child).schedClass = policyClass (t.tasks child).policy

/-- The condition: the parent is not a `SCHED_WRR` one, and if it hands down a real-time policy it
is in the real-time class itself. -/
def handsDown (parent : Attr) : Bool :=
  parent.policy ≠ .wrr &&
    (!(rtPolicy parent.policy && !parent.schedResetOnFork) || parent.schedClass = .rt)

variable {m : Machine} {s t u : State} {child : Pid} {f : Foreign}

/-- The policy of a child: the parent's, unless a real-time one was reset. -/
theorem settleAttr_policy (prio : Int) (a : Attr) :
    (settleAttr prio a).policy =
      if a.schedResetOnFork && rtPolicy a.policy then .normal else a.policy := by
  have hreset : ∀ b : Attr, b.policy = a.policy → (resetOnFork b).policy =
      if rtPolicy a.policy then .normal else a.policy := by
    intro b hb
    unfold resetOnFork
    simp only [hb]
    split
    · rfl
    · split
      · rfl
      · exact hb
  unfold settleAttr
  simp only []
  cases hflag : a.schedResetOnFork with
  | true =>
      simp only [if_true, Bool.true_and]
      split <;> exact hreset _ rfl
  | false =>
      simp only [Bool.false_eq_true, if_false, Bool.false_and]
      split <;> rfl

/-- The child after `sched_fork` and `wake_up_new_task`. -/
theorem attr_child (h : Inv m s) (hfork : step m s (.schedFork child f) = some t)
    (hwake : step m t (.wakeUpNewTask child) = some u) :
    (u.tasks child).toAttr =
      { settleAttr s.current.normalPrio (copyTask f s.current).toAttr with onRq := true } := by
  have hforked := h.view_step hfork
  have hwoken := (h.step hfork).view_step hwake
  show u.view.attr child = _
  rw [hwoken, View.attr_modAttr, if_pos rfl, View.attr_enqueue, hforked]
  have htask : (s.view.modTask child fun _ => forkTask f s.current).attr child =
      (forkTask f s.current).toAttr := by
    simp [View.attr, View.modTask]
  show { ((s.view.modTask child fun _ => forkTask f s.current).attr child) with onRq := true } = _
  rw [htask]
  rfl

theorem policyClass_of_rt {policy : Policy} (h : rtPolicy policy = true) : policyClass policy = .rt := by
  rw [policyClass, if_pos h]

theorem policyClass_of_other {policy : Policy} (h : rtPolicy policy = false) (hwrr : policy ≠ .wrr) :
    policyClass policy = .fair := by
  simp [policyClass, h, wrrPolicy, hwrr]

/-- **A child inherits as it should exactly when** the condition holds. -/
theorem inherits_iff (h : Reachable m s) (hfork : step m s (.schedFork child f) = some t)
    (hwake : step m t (.wakeUpNewTask child) = some u) :
    Inherits s.current child u ↔ handsDown s.current.toAttr = true := by
  have hinv := inv_of_reachable h
  have hattr := attr_child hinv hfork hwake
  have hcopy : AttrOk (copyTask f s.current).toAttr := by
    have hok := (hinv.legal.task s.rq.curr).ok
    exact hok.frame rfl rfl rfl rfl id
  have hpolicy : (u.tasks child).policy =
      if s.current.schedResetOnFork && rtPolicy s.current.policy then .normal
      else s.current.policy := by
    rw [hattr]
    exact settleAttr_policy _ _
  have hcls : (u.tasks child).schedClass =
      if rtPolicy s.current.policy && !s.current.schedResetOnFork then s.current.schedClass
      else .fair := by
    rw [hattr]
    exact settleAttr_schedClass hcopy
  have hon : (u.tasks child).onRq = true := by
    rw [hattr]
  generalize s.current = parent at hpolicy hcls ⊢
  constructor
  · intro hin
    have hagrees := hin.agrees
    have hnot : parent.policy ≠ .wrr := by
      intro hwrr
      have hrt : rtPolicy parent.policy = false := by
        rw [hwrr]
        rfl
      rw [hpolicy, hcls, hrt, hwrr] at hagrees
      simp [policyClass, rtPolicy, wrrPolicy] at hagrees
    cases hrt : rtPolicy parent.policy && !parent.schedResetOnFork with
    | false => simp [handsDown, hnot, hrt]
    | true =>
        have hboth := hrt
        rw [Bool.and_eq_true, Bool.not_eq_true'] at hboth
        rw [hpolicy, hcls, hrt, hboth.2, if_pos rfl, Bool.false_and, if_neg (by simp),
          policyClass_of_rt hboth.1] at hagrees
        simp [handsDown, hnot, hagrees]
  · intro hcond
    simp only [handsDown, Bool.and_eq_true, Bool.or_eq_true, decide_eq_true_eq,
      Bool.not_eq_true'] at hcond
    obtain ⟨hnot, hrt⟩ := hcond
    have hkept : parent.schedResetOnFork = false →
        (u.tasks child).policy = parent.policy ∧
          (u.tasks child).schedClass = policyClass parent.policy := by
      intro hflag
      rw [hflag] at hpolicy hcls hrt
      refine ⟨hpolicy, ?_⟩
      cases hpol : rtPolicy parent.policy with
      | true =>
          rw [hpol] at hcls hrt
          rw [hcls, policyClass_of_rt hpol]
          simpa using hrt
      | false =>
          rw [hpol] at hcls
          rw [hcls, policyClass_of_other hpol hnot]
          rfl
    have hreset : parent.schedResetOnFork = true →
        (u.tasks child).policy = (if rtPolicy parent.policy then .normal else parent.policy) ∧
          (u.tasks child).schedClass = .fair := by
      intro hflag
      rw [hflag] at hpolicy hcls
      refine ⟨hpolicy, ?_⟩
      rw [hcls, Bool.not_true, Bool.and_false]
      rfl
    refine ⟨fun hflag => ⟨(hkept hflag).1, hon, (hkept hflag).2⟩, fun _ hwrr => absurd hwrr hnot,
      ?_, ?_⟩
    · intro hflag hpol
      have hrt' : rtPolicy parent.policy = true := hpol.resolve_right hnot
      refine ⟨?_, (hreset hflag).2⟩
      rw [(hreset hflag).1, if_pos hrt']
    · cases hflag : parent.schedResetOnFork with
      | false => rw [(hkept hflag).1, (hkept hflag).2]
      | true =>
          rw [(hreset hflag).1, (hreset hflag).2]
          cases hpol : rtPolicy parent.policy with
          | true => rfl
          | false => exact (policyClass_of_other hpol hnot).symm

/-- A fork and the wake-up of the child. -/
def forkAndWake (m : Machine) (child : Pid) (s : State) : Option State :=
  (step m s (.schedFork child sampleForeign)).bind fun t => step m t (.wakeUpNewTask child)

/-- Boot, and a new task that becomes a `SCHED_RR` one and runs. -/
def startRr : List Op :=
  [.initIdleBootupTask, .schedFork 1 sampleForeign, .wakeUpNewTask 1,
    sampleSetscheduler 1 Policy.rr.code 10 [(initTask (sampleMachine 0)).toAttr], .schedule false]

/-- Its child inherits as it should. -/
theorem inherits_rr : ∃ s u : State, s.rq.curr = 1 ∧ s.current.policy = .rr ∧
    (u.tasks 3).policy = .rr ∧ Inherits s.current 3 u := by
  have hexec : ((Run.exec (step (sampleMachine 10)) (boot (sampleMachine 10)) startRr).any
      fun s => decide (s.rq.curr = 1 ∧ s.current.policy = .rr ∧ handsDown s.current.toAttr = true ∧
        ((forkAndWake (sampleMachine 10) 3 s).any fun u =>
          (u.tasks 3).policy = .rr) = true)) = true := by decide +kernel
  obtain ⟨s, hs, hcurr, hrr, hcond, hchild⟩ := Run.exists_of_exec hexec
  obtain ⟨u, hu, hpolicy⟩ := (Option.any_eq_true _ _).mp hchild
  obtain ⟨t, hfork, hwake⟩ := Option.bind_eq_some_iff.mp hu
  exact ⟨s, u, hcurr, hrr, of_decide_eq_true hpolicy, (inherits_iff hs hfork hwake).mpr hcond⟩

/-- The child of a `SCHED_WRR` task says `SCHED_WRR` and is in the fair class. -/
theorem wrr_child_fair : ∃ s t u, Reachable (sampleMachine 10) s ∧ s.current.policy = .wrr ∧
    s.current.schedClass = .wrr ∧ s.current.schedResetOnFork = false ∧
    step (sampleMachine 10) s (.schedFork 3 sampleForeign) = some t ∧
    step (sampleMachine 10) t (.wakeUpNewTask 3) = some u ∧
    (u.tasks 3).policy = .wrr ∧ (u.tasks 3).schedClass = .fair ∧ ¬ Inherits s.current 3 u := by
  have hexec : ((Run.exec (step (sampleMachine 10)) (boot (sampleMachine 10)) startTwoWrr).any
      fun s => decide ((s.current.policy = .wrr ∧ s.current.schedClass = .wrr ∧
        s.current.schedResetOnFork = false) ∧
        ((forkAndWake (sampleMachine 10) 3 s).any fun u =>
          (u.tasks 3).policy = .wrr && (u.tasks 3).schedClass = .fair) = true)) = true := by
    decide +kernel
  obtain ⟨s, hs, ⟨hwrr, hcls, hflag⟩, hchild⟩ := Run.exists_of_exec hexec
  obtain ⟨u, hu, hlost⟩ := (Option.any_eq_true _ _).mp hchild
  obtain ⟨t, hfork, hwake⟩ := Option.bind_eq_some_iff.mp hu
  simp only [Bool.and_eq_true, decide_eq_true_eq] at hlost
  refine ⟨s, t, u, hs, hwrr, hcls, hflag, hfork, hwake, hlost.1, hlost.2, ?_⟩
  intro hin
  have hagrees := hin.agrees
  rw [hlost.1, hlost.2] at hagrees
  exact absurd hagrees (by decide)

end WrrScheduler
