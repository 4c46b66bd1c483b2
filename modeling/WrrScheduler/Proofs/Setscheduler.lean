/-
When a successful `sched_setscheduler` takes effect.

`__sched_setscheduler` writes the policy, the priority, the flag and the class in
one go, so a call that gets that far does what it was asked.  It returns 0 earlier
when nothing is to be changed, and asks only for the policy and, under a real-time
policy, the priority.  A call that asks for another flag, another WRR priority, or
a class the task has been moved out of is lost there.
-/
import WrrScheduler.Proofs.Entering

namespace WrrScheduler

variable {m : Machine} {s t : State} {p : Pid}

/-- The class of a policy. -/
def policyClass (policy : Policy) : SchedClass :=
  if rtPolicy policy then .rt else if wrrPolicy policy then .wrr else .fair

/-- A task runs at another priority than its own. -/
def boosted (t : Attr) : Bool := t.prio ≠ t.normalPrio

/-- What a call asked for is what the task has and what the system calls read back. -/
structure TakesEffect (p : Pid) (c : Checked) (prio : Int) (t : State) : Prop where
  policy : (t.tasks p).policy = c.policy
  rtPriority : (t.tasks p).rtPriority = prio
  resetOnFork : (t.tasks p).schedResetOnFork = c.resetOnFork
  getscheduler : schedGetscheduler p t =
    c.policy.code ||| if c.resetOnFork then schedResetOnForkFlag else 0
  getparam : schedGetparam p t = prio
  schedClass : boosted (t.tasks p).toAttr = false →
    (t.tasks p).schedClass = policyClass c.policy

/-- The condition: something was to be changed, or else the task already is as asked. -/
def willTakeEffect (c : Checked) (prio : Int) (a : Attr) : Bool :=
  !nothingToChange a c.policy prio ||
    (a.rtPriority = prio && a.schedResetOnFork = c.resetOnFork &&
      (boosted a || a.schedClass = policyClass c.policy))

/-- At a normal priority, `__setscheduler` gives the class of the policy. -/
theorem setschedulerClass_normalPrio {a : Attr} (ha : AttrOk a) :
    setschedulerClass a.policy a.normalPrio = policyClass a.policy := by
  rw [setschedulerClass, policyClass, ha.rtPrio_normalPrio]
  cases a.policy <;> rfl

/-- A call that changes the task does what it was asked. -/
theorem takesEffect_changePolicy {c : Checked} {prio : Int} (ha : AttrOk (s.tasks p).toAttr)
    (h0 : 0 ≤ prio) (h99 : prio ≤ 99) : TakesEffect p c prio (changePolicy m p c prio s) := by
  have hattr : ((changePolicy m p c prio s).tasks p).toAttr = setPolicy c prio (s.tasks p).toAttr := by
    rw [attr_changePolicy, if_pos rfl]
  have hok : AttrOk (setPolicy c prio (s.tasks p).toAttr) := (settles_setPolicy c h0 h99).ok _ ha
  have hpolicy : ((changePolicy m p c prio s).tasks p).policy = c.policy := by
    rw [hattr]
    rfl
  have hprio : ((changePolicy m p c prio s).tasks p).rtPriority = prio := by
    rw [hattr]
    rfl
  have hflag : ((changePolicy m p c prio s).tasks p).schedResetOnFork = c.resetOnFork := by
    rw [hattr]
    rfl
  refine ⟨hpolicy, hprio, hflag, ?_, hprio, ?_⟩
  · rw [schedGetscheduler, hpolicy, hflag]
  · intro hboost
    rw [hattr] at hboost ⊢
    have hnormal : (setPolicy c prio (s.tasks p).toAttr).prio =
        (setPolicy c prio (s.tasks p).toAttr).normalPrio := by
      simpa [boosted] using hboost
    have hcls : (setPolicy c prio (s.tasks p).toAttr).schedClass =
        setschedulerClass (setPolicy c prio (s.tasks p).toAttr).policy
          (setPolicy c prio (s.tasks p).toAttr).prio := rfl
    rw [hcls, hnormal]
    exact setschedulerClass_normalPrio hok

/-- **A successful `__sched_setscheduler` takes effect exactly when** it had something to change, or
the task already was as asked: at that priority, with that flag, and in the class of its policy
unless it is boosted. -/
theorem takesEffect_iff {policy : BitVec 32} {prio : Int} {user : Bool} {who : Caller}
    {seen : List Attr} (h : Reachable m s)
    (hcall : schedSetscheduler m p prio user who seen policy s = some (0, t)) :
    ∃ c, Asked (s.tasks p).toAttr policy seen c ∧
      (TakesEffect p c prio t ↔ willTakeEffect c prio (s.tasks p).toAttr = true) := by
  have ha : AttrOk (s.tasks p).toAttr := ((inv_of_reachable h).legal.task p).ok
  cases schedSetscheduler_done hcall with
  | failed hret => exact absurd rfl hret
  | @changed c hasked h0 h99 hchange hstop =>
      refine ⟨c, hasked, fun _ => ?_, fun _ => takesEffect_changePolicy ha h0 h99⟩
      simp [willTakeEffect, hchange]
  | @nothing c hasked h0 h99 hnothing =>
      have hown : c.policy = (s.tasks p).policy := by
        simp only [nothingToChange, Bool.and_eq_true, decide_eq_true_eq] at hnothing
        exact hnothing.1
      refine ⟨c, hasked, ?_, ?_⟩
      · intro heffect
        have hcls : boosted (s.tasks p).toAttr = true ∨
            (s.tasks p).schedClass = policyClass c.policy := by
          cases hboost : boosted (s.tasks p).toAttr with
          | true => exact Or.inl rfl
          | false => exact Or.inr (heffect.schedClass hboost)
        have hprio := heffect.rtPriority
        have hflag := heffect.resetOnFork
        rcases hcls with hboost | hcls
        · simp [willTakeEffect, hprio, hflag, hboost]
        · simp [willTakeEffect, hprio, hflag, hcls]
      · intro hcond
        simp only [willTakeEffect, hnothing, Bool.not_true, Bool.false_or, Bool.and_eq_true,
          Bool.or_eq_true, decide_eq_true_eq] at hcond
        obtain ⟨⟨hprio, hflag⟩, hcls⟩ := hcond
        refine ⟨hown.symm, hprio, hflag, ?_, hprio, ?_⟩
        · rw [schedGetscheduler, hflag, ← hown]
        · intro hboost
          refine hcls.resolve_left ?_
          rw [hboost]
          simp

/-- A WRR task that asks for `SCHED_FIFO` gets it. -/
theorem takesEffect_fifo : ∃ t c, c.policy = .fifo ∧ TakesEffect 1 c 5 t := by
  have hexec : ((Run.exec (step (sampleMachine 10)) (boot (sampleMachine 10)) startTwoWrr).any
      fun s => decide ((s.tasks 1).policy = .wrr ∧
        ((schedSetscheduler (sampleMachine 10) 1 5 true sampleCaller
          [(s.tasks 1).toAttr] Policy.fifo.code s).any fun r => r.1 = 0) = true)) = true := by
    decide +kernel
  obtain ⟨s, hs, hwrr, hcall⟩ := Run.exists_of_exec hexec
  obtain ⟨⟨ret, t⟩, hret, hzero⟩ := (Option.any_eq_true _ _).mp hcall
  obtain rfl : ret = 0 := of_decide_eq_true hzero
  obtain ⟨c, hasked, hiff⟩ := takesEffect_iff hs hret
  have hfifo : Policy.fifo = c.policy := Option.some.inj (hasked.given (by decide)).1
  refine ⟨t, c, hfifo.symm, hiff.mpr ?_⟩
  simp [willTakeEffect, nothingToChange, hwrr, ← hfifo]

/-- `SCHED_WRR | SCHED_RESET_ON_FORK`. -/
def wrrResetOnFork : BitVec 32 := Policy.wrr.code ||| schedResetOnForkFlag

/-- A `SCHED_WRR` task that asks for `SCHED_RESET_ON_FORK` too is told yes and gets nothing. -/
theorem wrrResetOnFork_lost : ∃ s t c, Reachable (sampleMachine 10) s ∧
    schedSetscheduler (sampleMachine 10) 1 1 true sampleCaller [(s.tasks 1).toAttr]
      wrrResetOnFork s = some (0, t) ∧
    Asked (s.tasks 1).toAttr wrrResetOnFork [(s.tasks 1).toAttr] c ∧ ¬ TakesEffect 1 c 1 t := by
  have hexec : ((Run.exec (step (sampleMachine 10)) (boot (sampleMachine 10)) startTwoWrr).any
      fun s => decide (((schedSetscheduler (sampleMachine 10) 1 1 true sampleCaller
        [(s.tasks 1).toAttr] wrrResetOnFork s).any fun r =>
          r.1 = 0 && (r.2.tasks 1).schedResetOnFork = false) = true)) = true := by decide +kernel
  obtain ⟨s, hs, hcall⟩ := Run.exists_of_exec hexec
  obtain ⟨⟨ret, t⟩, hret, hlost⟩ := (Option.any_eq_true _ _).mp hcall
  simp only [Bool.and_eq_true, decide_eq_true_eq] at hlost
  obtain ⟨rfl, hflag⟩ := hlost
  obtain ⟨c, hasked⟩ : ∃ c, Asked (s.tasks 1).toAttr wrrResetOnFork [(s.tasks 1).toAttr] c := by
    cases schedSetscheduler_done hret with
    | failed h => exact absurd rfl h
    | nothing h => exact ⟨_, h⟩
    | changed h => exact ⟨_, h⟩
  refine ⟨s, t, c, hs, hret, hasked, ?_⟩
  intro heffect
  have hset : c.resetOnFork = true := by
    rw [(hasked.given (by decide)).2]
    decide
  rw [heffect.resetOnFork, hset] at hflag
  cases hflag

end WrrScheduler
