/-
The priorities `__sched_setscheduler` accepts, and those it advertises.

The check was widened for WRR by joining two inequalities with `&&`, so it turns a
call away only if both fail: a zero priority passes under any real-time policy,
because it is in order for a policy that is not WRR, and under WRR, because it is
in order for one that is not real-time.
-/
import WrrScheduler.Proofs.Entering

namespace WrrScheduler

/-- The number of a policy, with `SCHED_RESET_ON_FORK` or without. -/
def policyArg (policy : Policy) (resetOnFork : Bool) : BitVec 32 :=
  policy.code ||| if resetOnFork then schedResetOnForkFlag else 0

/-- A priority within what the two system calls advertise for a policy. -/
def inRange (policy : Policy) (prio : Int) : Bool :=
  schedGetPriorityMin policy.code ≤ prio && prio ≤ schedGetPriorityMax policy.code

/-- A zero priority for a policy whose priorities start at one. -/
def slipsThrough (policy : Policy) (prio : Int) : Bool :=
  prio = 0 && (rtPolicy policy || wrrPolicy policy)

/-- A call ends as the advertised range says: it is invalid exactly outside it, and does not leave a
real-time task at priority zero. -/
structure ValidatesRange (p : Pid) (policy : Policy) (prio ret : Int) (t : State) : Prop where
  invalid_iff : ret = -eInval ↔ inRange policy prio = false
  nonzero : ret = 0 → rtPolicy policy = true → (t.tasks p).rtPriority ≠ 0

variable {m : Machine} {s : State} {p : Pid} {policy : Policy} {resetOnFork : Bool} {prio : Int}
  {who : Caller}

theorem requested_policyArg (a : Attr) (policy : Policy) (resetOnFork : Bool) :
    requested a (policyArg policy resetOnFork) =
      some { policy := policy, resetOnFork := resetOnFork, oldpolicy := none } := by
  have hnonneg : ¬ (policyArg policy resetOnFork).toInt < 0 := by
    cases policy <;> cases resetOnFork <;> decide
  have hpolicy : Policy.ofCode (policyArg policy resetOnFork &&& ~~~schedResetOnForkFlag) =
      some policy := by
    cases policy <;> cases resetOnFork <;> decide
  have hflag : decide (policyArg policy resetOnFork &&& schedResetOnForkFlag ≠ 0) = resetOnFork := by
    cases policy <;> cases resetOnFork <;> decide
  rw [requested, if_neg hnonneg, hpolicy, Option.map_some, hflag]

theorem Policy.ofCode_eq_some {number : BitVec 32} :
    Policy.ofCode number = some policy ↔ number = policy.code := by
  constructor
  · intro h
    have hfound := List.find?_some h
    exact (of_decide_eq_true hfound).symm
  · rintro rfl
    cases policy <;> rfl

theorem inRange_iff : inRange policy prio = true ↔
    if rtPolicy policy || wrrPolicy policy then 1 ≤ prio ∧ prio ≤ 99 else prio = 0 := by
  have hzero : 0 ≤ prio ∧ prio ≤ 0 ↔ prio = 0 := by omega
  cases policy <;>
    simp [inRange, schedGetPriorityMin, schedGetPriorityMax, Policy.ofCode, Policy.code,
      maxUserRtPrio, maxUserWrrPrio, rtPolicy, wrrPolicy, hzero]

theorem not_inRange_of_slipsThrough (h : slipsThrough policy prio = true) :
    inRange policy prio = false := by
  simp only [slipsThrough, Bool.and_eq_true, decide_eq_true_eq] at h
  by_contra hin
  rw [Bool.not_eq_false, inRange_iff, if_pos h.2] at hin
  omega

/-- The first test of a priority looks at the address space, but both limits are the same. -/
private theorem outside_iff (a : Attr) (prio : Int) :
    (prio < 0 || (a.mm && 99 < prio) || (!a.mm && maxRtPrio - 1 < prio)) = true ↔
      ¬ (0 ≤ prio ∧ prio ≤ 99) := by
  cases a.mm <;> simp [maxRtPrio] <;> omega

/-- The second test fails under a policy without priorities only, for a priority that is not
zero. -/
private theorem mismatch_iff (policy : Policy) (prio : Int) :
    (rtPolicy policy ≠ decide (prio ≠ 0) && wrrPolicy policy ≠ decide (prio ≠ 0)) = true ↔
      (rtPolicy policy || wrrPolicy policy) = false ∧ prio ≠ 0 := by
  by_cases hzero : prio = 0
  · cases policy <;> simp [rtPolicy, wrrPolicy, hzero]
  · cases policy <;> simp [rtPolicy, wrrPolicy, hzero]

/-- A priority the two tests let pass under a policy. -/
def priorityOk (policy : Policy) (prio : Int) : Prop :=
  (0 ≤ prio ∧ prio ≤ 99) ∧ ¬ ((rtPolicy policy || wrrPolicy policy) = false ∧ prio ≠ 0)

/-- **What passes the checks**: the policy is one there is, the priority is in order, and a caller
outside the kernel is neither denied nor stopped by the security module. -/
theorem check_eq_ok_iff {a : Attr} {number : BitVec 32} {user : Bool} {c : Checked} :
    check a number prio user who = .ok c ↔
      requested a number = some c ∧ priorityOk c.policy prio ∧
        (user = true → (who.capSysNice = false → denied a c prio who = false) ∧
          who.securityTaskSetscheduler = 0) := by
  unfold check
  cases hreq : requested a number with
  | none => simp
  | some c' =>
      simp only []
      by_cases hrange : 0 ≤ prio ∧ prio ≤ 99
      · rw [if_neg (by rw [outside_iff]; exact not_not_intro hrange)]
        by_cases hmismatch : (rtPolicy c'.policy || wrrPolicy c'.policy) = false ∧ prio ≠ 0
        · rw [if_pos ((mismatch_iff c'.policy prio).mpr hmismatch)]
          refine ⟨fun h => (by cases h), ?_⟩
          rintro ⟨hsame, hok, -⟩
          cases hsame
          exact absurd hmismatch hok.2
        · rw [if_neg (by rw [mismatch_iff]; exact hmismatch)]
          have hok : priorityOk c'.policy prio := ⟨hrange, hmismatch⟩
          cases user with
          | false =>
              simp only [Bool.false_and, Bool.false_eq_true, if_false, false_imp_iff, and_true]
              constructor
              · rintro ⟨⟩
                exact ⟨rfl, hok⟩
              · rintro ⟨hsame, -⟩
                cases hsame
                rfl
          | true =>
              simp only [Bool.true_and, forall_const]
              by_cases hdenied : (!who.capSysNice && denied a c' prio who) = true
              · rw [if_pos hdenied]
                refine ⟨fun h => (by cases h), ?_⟩
                rintro ⟨hsame, -, hallowed, -⟩
                cases hsame
                simp only [Bool.and_eq_true, Bool.not_eq_true'] at hdenied
                exact absurd (hallowed hdenied.1) (by simp [hdenied.2])
              · rw [if_neg hdenied]
                have hallowed : who.capSysNice = false → denied a c' prio who = false := by
                  intro hcap
                  simpa [hcap] using hdenied
                by_cases hsec : who.securityTaskSetscheduler = 0
                · rw [if_neg (by simpa using hsec)]
                  constructor
                  · rintro ⟨⟩
                    exact ⟨rfl, hok, hallowed, hsec⟩
                  · rintro ⟨hsame, -⟩
                    cases hsame
                    rfl
                · rw [if_pos (by simpa using hsec)]
                  exact ⟨fun h => (by cases h), fun h => absurd h.2.2.2 hsec⟩
      · rw [if_pos ((outside_iff a prio).mpr hrange)]
        exact ⟨fun h => (by cases h), fun h => absurd h.2.1.1 hrange⟩

theorem accepted_iff : (inRange policy prio || slipsThrough policy prio) = true ↔
    (0 ≤ prio ∧ prio ≤ 99) ∧ ¬ ((rtPolicy policy || wrrPolicy policy) = false ∧ prio ≠ 0) := by
  rw [Bool.or_eq_true, inRange_iff, slipsThrough]
  cases rtPolicy policy || wrrPolicy policy with
  | true =>
      simp only [if_true, Bool.and_true, decide_eq_true_eq, Bool.true_eq_false, false_and,
        not_false_eq_true, and_true]
      omega
  | false =>
      simp only [Bool.false_eq_true, if_false, Bool.and_false, or_false, true_and, not_not]
      omega

/-- **The check accepts the advertised range and what slips through.** -/
theorem check_policyArg (a : Attr) : check a (policyArg policy resetOnFork) prio false who =
    if inRange policy prio || slipsThrough policy prio then
      .ok { policy := policy, resetOnFork := resetOnFork, oldpolicy := none }
    else .error (-eInval) := by
  rw [check, requested_policyArg]
  simp only [Bool.false_and, Bool.false_eq_true, if_false]
  by_cases hrange : 0 ≤ prio ∧ prio ≤ 99
  · rw [if_neg (by rw [outside_iff]; exact not_not_intro hrange)]
    by_cases hmismatch : (rtPolicy policy || wrrPolicy policy) = false ∧ prio ≠ 0
    · rw [if_pos ((mismatch_iff policy prio).mpr hmismatch),
        if_neg fun h => (accepted_iff.mp h).2 hmismatch]
    · rw [if_neg (by rw [mismatch_iff]; exact hmismatch),
        if_pos (accepted_iff.mpr ⟨hrange, hmismatch⟩)]
  · rw [if_pos ((outside_iff a prio).mpr hrange), if_neg fun h => hrange (accepted_iff.mp h).1]

/-- A call that passes the check, on a task that is not the stop task, succeeds: as a caller inside
the kernel it is asked nothing more, and it names its policy, so nothing is to be rechecked. -/
theorem schedSetscheduler_accepted {a : Attr} {rest : List Attr} (hstop : s.rq.stop ≠ some p)
    (haccept : (inRange policy prio || slipsThrough policy prio) = true) :
    ∃ t, schedSetscheduler m p prio false who (a :: rest) (policyArg policy resetOnFork) s =
        some (0, t) ∧
      (t.tasks p).policy = policy ∧ (rtPolicy policy = true → (t.tasks p).rtPriority = prio) := by
  rw [schedSetscheduler, check_policyArg, if_pos haccept]
  simp only [locked]
  rw [if_neg fun h => hstop h.symm]
  by_cases hnothing : nothingToChange (s.tasks p).toAttr policy prio = true
  · rw [if_pos hnothing]
    simp only [nothingToChange, Bool.and_eq_true, Bool.or_eq_true, Bool.not_eq_true',
      decide_eq_true_eq] at hnothing
    refine ⟨s, rfl, hnothing.1.symm, ?_⟩
    intro hrt
    rcases hnothing.2 with hnot | hsame
    · rw [hrt] at hnot
      cases hnot
    · exact hsame.symm
  · rw [if_neg hnothing]
    simp only [Bool.false_and, Bool.false_eq_true, if_false, ne_eq, not_true_eq_false,
      decide_false]
    have hattr : ((changePolicy m p
        { policy := policy, resetOnFork := resetOnFork, oldpolicy := none } prio s).tasks p).toAttr =
        setPolicy { policy := policy, resetOnFork := resetOnFork, oldpolicy := none } prio
          (s.tasks p).toAttr := by
      rw [attr_changePolicy, if_pos rfl]
    refine ⟨_, rfl, ?_, fun _ => ?_⟩
    · rw [hattr]
      rfl
    · rw [hattr]
      rfl

/-- **The priorities accepted are those advertised, exactly when** the priority is not the zero that
slips through. -/
theorem validatesRange_iff {a : Attr} {rest : List Attr} (hstop : s.rq.stop ≠ some p) :
    ∃ ret t, schedSetscheduler m p prio false who (a :: rest) (policyArg policy resetOnFork) s =
        some (ret, t) ∧
      (ValidatesRange p policy prio ret t ↔ slipsThrough policy prio = false) := by
  by_cases haccept : (inRange policy prio || slipsThrough policy prio) = true
  · obtain ⟨t, hcall, -, hprio⟩ := @schedSetscheduler_accepted m s p policy resetOnFork prio who a
      rest hstop haccept
    have hzero : (0 : Int) ≠ -eInval := by decide
    refine ⟨0, t, hcall, ?_, ?_⟩
    · intro hok
      by_contra hslips
      have hout : inRange policy prio = false :=
        not_inRange_of_slipsThrough (Bool.not_eq_false _ ▸ hslips)
      exact hzero (hok.invalid_iff.mpr hout)
    · intro hslips
      have hin : inRange policy prio = true := by
        rw [hslips, Bool.or_false] at haccept
        exact haccept
      refine ⟨⟨fun h => absurd h hzero, fun h => ?_⟩, fun _ hrt => ?_⟩
      · rw [hin] at h
        cases h
      · rw [inRange_iff, hrt] at hin
        simp only [Bool.true_or, if_true] at hin
        rw [hprio hrt]
        omega
  · have hboth : inRange policy prio = false ∧ slipsThrough policy prio = false := by
      simpa using haccept
    refine ⟨-eInval, s, ?_, ?_⟩
    · rw [schedSetscheduler, check_policyArg, if_neg haccept]
    · refine ⟨fun _ => hboth.2, fun _ => ⟨⟨fun _ => hboth.1, fun _ => rfl⟩, fun hret => ?_⟩⟩
      exact absurd hret (by decide)

/-- A new task is given `SCHED_FIFO` at priority 50. -/
theorem validatesRange_fifo : ∃ s ret t, 1 ∈ s.tasklist ∧
    schedSetscheduler (sampleMachine 10) 1 50 false sampleCaller [(s.tasks 1).toAttr]
        (policyArg .fifo false) s = some (ret, t) ∧
      ValidatesRange 1 .fifo 50 ret t := by
  have hexec : ((Run.exec (step (sampleMachine 10)) (boot (sampleMachine 10))
      [.schedFork 1 sampleForeign]).any fun s =>
        decide (1 ∈ s.tasklist ∧ s.rq.stop = none)) = true := by decide +kernel
  obtain ⟨s, -, hlisted, hstop⟩ := Run.exists_of_exec hexec
  obtain ⟨ret, t, hcall, hiff⟩ := @validatesRange_iff (sampleMachine 10) s 1 .fifo false 50
    sampleCaller (s.tasks 1).toAttr [] (by simp [hstop])
  exact ⟨s, ret, t, hlisted, hcall, hiff.mpr (by decide)⟩

/-- The same call at priority 0 is not turned away, and leaves a `SCHED_FIFO` task at 0. -/
theorem fifo_zero_accepted : ∃ s t, Reachable (sampleMachine 10) s ∧ 1 ∈ s.tasklist ∧
    schedSetscheduler (sampleMachine 10) 1 0 false sampleCaller [(s.tasks 1).toAttr]
        (policyArg .fifo false) s = some (0, t) ∧
      inRange .fifo 0 = false ∧ (t.tasks 1).policy = .fifo ∧ (t.tasks 1).rtPriority = 0 := by
  have hexec : ((Run.exec (step (sampleMachine 10)) (boot (sampleMachine 10))
      [.schedFork 1 sampleForeign]).any fun s =>
        decide (1 ∈ s.tasklist ∧ s.rq.stop = none)) = true := by decide +kernel
  obtain ⟨s, hs, hlisted, hstop⟩ := Run.exists_of_exec hexec
  obtain ⟨t, hcall, hpolicy, hprio⟩ := @schedSetscheduler_accepted (sampleMachine 10) s 1 .fifo
    false 0 sampleCaller (s.tasks 1).toAttr [] (by simp [hstop]) (by decide)
  exact ⟨s, t, hs, hlisted, hcall, by decide, hpolicy, hprio rfl⟩

end WrrScheduler
