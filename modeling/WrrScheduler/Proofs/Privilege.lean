/-
What an unprivileged caller can do to a task of its own.

The permissions of `__sched_setscheduler` ask about real-time policies, and a task
without a real-time limit cannot be given one.  The WRR class is above the fair one
as well, but nothing asks about `SCHED_WRR`: whoever owns a task may lift it into
that class, unless the call fails for a reason that has nothing to do with it.
-/
import WrrScheduler.Proofs.PriorityRange

namespace WrrScheduler

/-- A task of the fair class whose `RLIMIT_RTPRIO` is 0.  The rt_mutex code keeps the priority
of every task at `rt_mutex_getprio`, so that of a fair task is no real-time one. -/
structure PlainFair (a : Attr) : Prop where
  fair : a.schedClass = .fair
  rtprio : a.rlim.rtprio = 0
  getprio : rtPrio (rtMutexGetprio a) = false

/-- A call that is going to lift a task: it asks for `SCHED_WRR`, with the reset flag if the task has
it, at a priority in range; the task is not the stop task, has another policy, and is not a
`SCHED_IDLE` one that may not be reniced; and the security module agrees. -/
def liftsToWrr (s : State) (p : Pid) (seen : Attr) (policy : BitVec 32) (prio : Int)
    (who : Caller) : Bool :=
  0 ≤ policy.toInt && policy &&& ~~~schedResetOnForkFlag = Policy.wrr.code &&
    0 ≤ prio && prio ≤ 99 && s.rq.stop ≠ some p && (s.tasks p).policy ≠ .wrr &&
    (seen.policy ≠ .idle || 20 - prioToNice seen.staticPrio ≤ (seen.rlim.nice.toNat : Int)) &&
    (!seen.schedResetOnFork || policy &&& schedResetOnForkFlag ≠ 0) &&
    who.securityTaskSetscheduler = 0

variable {m : Machine} {s t : State} {p : Pid} {a : Attr} {policy : BitVec 32} {prio ret : Int}
  {who : Caller} {rest : List Attr}

/-- The policy of such a task is no real-time one. -/
theorem PlainFair.not_rt (h : PlainFair a) (hok : AttrOk a) : rtPolicy a.policy = false := by
  by_contra hrt
  rw [Bool.not_eq_false] at hrt
  have hnormal : rtPrio a.normalPrio = true := by rw [hok.rtPrio_normalPrio, hrt]
  have hlow : rtMutexGetprio a ≤ a.normalPrio := by
    unfold rtMutexGetprio
    split
    · exact le_refl _
    · exact min_le_right _ _
  have hgetprio := h.getprio
  simp only [rtPrio, decide_eq_true_eq, decide_eq_false_iff_not] at hnormal hgetprio
  omega

/-- **A policy that is no real-time one leaves it in the fair class or puts it in the WRR one.** -/
theorem PlainFair.setPolicy_schedClass (h : PlainFair a) (hok : AttrOk a) {c : Checked}
    (hpolicy : rtPolicy c.policy = false) :
    (setPolicy c prio a).schedClass = if c.policy = .wrr then .wrr else .fair := by
  have hnormal : (setPolicy c prio a).normalPrio = a.staticPrio := by
    show normalPrio _ = _
    rw [normalPrio_of_not_rt hpolicy]
  have hprio : rtPrio (setPolicy c prio a).prio = false := by
    have hstatic := hok.static_ge
    have hgetprio := h.getprio
    have hset : (setPolicy c prio a).prio = rtMutexGetprio (setPolicy c prio a) := rfl
    have hwaiter : (setPolicy c prio a).topWaiter = a.topWaiter := rfl
    unfold rtMutexGetprio at hgetprio hset
    rw [hset, hwaiter, hnormal]
    cases hw : a.topWaiter with
    | none => simpa [rtPrio] using hstatic
    | some w =>
        rw [hw] at hgetprio
        simp only [rtPrio, decide_eq_false_iff_not, Int.not_lt, le_min_iff] at hgetprio ⊢
        exact ⟨hgetprio.1, hstatic⟩
  show setschedulerClass c.policy (setPolicy c prio a).prio = _
  rw [setschedulerClass, hprio]
  simp

/-! ### What passes the checks -/

/-- What an unprivileged owner is denied for a task like that: the real-time policies, a
`SCHED_IDLE` task that may not be reniced, and the reset flag. -/
theorem PlainFair.denied_iff (h : PlainFair a) (hok : AttrOk a) {c : Checked}
    (hcap : who.capSysNice = false) (howner : who.sameOwner = true) :
    denied a c prio who = false ↔ rtPolicy c.policy = false ∧
      (a.policy = .idle → c.policy ≠ .idle →
        20 - prioToNice a.staticPrio ≤ (a.rlim.nice.toNat : Int)) ∧
      (a.schedResetOnFork = true → c.resetOnFork = true) := by
  have hother : rtPolicy c.policy = true → c.policy ≠ a.policy := by
    intro hrt hsame
    rw [hsame, h.not_rt hok] at hrt
    cases hrt
  cases hrt : rtPolicy c.policy with
  | true =>
      have hne := hother hrt
      simp [denied, hrt, hne, h.rtprio]
  | false =>
      cases hflag : a.schedResetOnFork <;> cases hreset : c.resetOnFork <;>
        by_cases hidle : a.policy = .idle <;>
        simp [denied, canNice, hrt, hcap, howner, hflag, hreset, hidle]

/-- The flag has no part in a number that is not negative but for itself. -/
theorem requested_wrr {number : BitVec 32} {c : Checked} :
    0 ≤ number.toInt ∧ requested a number = some c ∧ c.policy = .wrr ↔
      0 ≤ number.toInt ∧ number &&& ~~~schedResetOnForkFlag = Policy.wrr.code ∧
        c = { policy := .wrr, resetOnFork := number &&& schedResetOnForkFlag ≠ 0,
              oldpolicy := none } := by
  refine and_congr_right fun hpos => ?_
  have hneg : ¬ number.toInt < 0 := by omega
  rw [requested, if_neg hneg, Option.map_eq_some_iff]
  constructor
  · rintro ⟨⟨pol, hpol, rfl⟩, hwrr⟩
    obtain rfl : pol = .wrr := hwrr
    exact ⟨(Policy.ofCode_eq_some.mp hpol), rfl⟩
  · rintro ⟨hcode, rfl⟩
    exact ⟨⟨.wrr, Policy.ofCode_eq_some.mpr hcode, rfl⟩, rfl⟩

/-- A call that is going to lift the task is one that is going to make it a WRR one. -/
theorem entersWrr_eq_liftsToWrr (h : PlainFair a) (hok : AttrOk a)
    (hcap : who.capSysNice = false) (howner : who.sameOwner = true) :
    entersWrr s p (.schedSetscheduler p policy prio true who (a :: rest)) =
      liftsToWrr s p a policy prio who := by
  have hallowed : ∀ c : Checked, c.policy = .wrr → (denied a c prio who = false ↔
      (a.policy ≠ .idle ∨ 20 - prioToNice a.staticPrio ≤ (a.rlim.nice.toNat : Int)) ∧
        (a.schedResetOnFork = false ∨ c.resetOnFork = true)) := by
    intro c hwrr
    rw [h.denied_iff hok hcap howner, hwrr]
    simp only [rtPolicy]
    cases a.schedResetOnFork <;> by_cases hidle : a.policy = .idle <;> simp [hidle]
  rw [Bool.eq_iff_iff]
  simp only [entersWrr, liftsToWrr, Bool.and_eq_true, Bool.or_eq_true, decide_eq_true_eq,
    Bool.not_eq_true', true_and]
  constructor
  · rintro ⟨⟨⟨hstop, hout⟩, hpos⟩, hcheck⟩
    split at hcheck
    · rename_i c hc
      have hwrr : c.policy = .wrr := of_decide_eq_true hcheck
      obtain ⟨hreq, ⟨⟨h0, h99⟩, -⟩, huser⟩ := check_eq_ok_iff.mp hc
      obtain ⟨hdenied, hsec⟩ := huser rfl
      obtain ⟨hnice, hflag⟩ := (hallowed c hwrr).mp (hdenied hcap)
      obtain ⟨-, hcode, rfl⟩ := requested_wrr.mp ⟨hpos, hreq, hwrr⟩
      refine ⟨⟨⟨⟨⟨⟨⟨⟨hpos, hcode⟩, h0⟩, h99⟩, hstop⟩, hout⟩, hnice⟩, ?_⟩, hsec⟩
      simpa using hflag
    · cases hcheck
  · rintro ⟨⟨⟨⟨⟨⟨⟨⟨hpos, hcode⟩, h0⟩, h99⟩, hstop⟩, hout⟩, hnice⟩, hflag⟩, hsec⟩
    obtain ⟨-, hreq, hwrr⟩ := requested_wrr.mpr ⟨hpos, hcode, rfl⟩
    have hdenied := (hallowed _ hwrr).mpr ⟨hnice, by simpa using hflag⟩
    have hc : check a policy prio true who = .ok _ :=
      check_eq_ok_iff.mpr ⟨hreq, ⟨⟨h0, h99⟩, by simp [wrrPolicy]⟩, fun _ => ⟨fun _ => hdenied, hsec⟩⟩
    refine ⟨⟨⟨hstop, hout⟩, hpos⟩, ?_⟩
    simp [hc]

/-! ### The class afterwards

The checks run on what was read without the lock, and again on a later reading if the
lock finds another policy.  A call that succeeds has passed them the first time, on a
plain fair task, so the policy it asked for is no real-time one, and the class
afterwards is the one such a policy gives a plain fair task.
-/

/-- A call that succeeds has passed the checks of its first turn. -/
theorem check_of_success {user : Bool}
    (hcall : schedSetscheduler m p prio user who (a :: rest) policy s = some (0, t)) :
    ∃ c, check a policy prio user who = .ok c := by
  rw [schedSetscheduler] at hcall
  split at hcall
  · rename_i e hcheck
    have hzero : e = 0 := congrArg Prod.fst (Option.some.inj hcall)
    exact absurd hzero (check_error hcheck)
  · rename_i c hcheck
    exact ⟨c, hcheck⟩

/-- An unprivileged owner who changes such a task does not give it a real-time policy. -/
theorem changed_not_rt (hnow : PlainFair (s.tasks p).toAttr) (hokNow : AttrOk (s.tasks p).toAttr)
    (hseen : PlainFair a) (hok : AttrOk a) (hcap : who.capSysNice = false)
    (howner : who.sameOwner = true) {c : Checked}
    (hasked : Asked (s.tasks p).toAttr policy (a :: rest) c)
    (hcall : schedSetscheduler m p prio true who (a :: rest) policy s = some (0, t)) :
    rtPolicy c.policy = false := by
  by_cases hpos : 0 ≤ policy.toInt
  · obtain ⟨c', hcheck⟩ := check_of_success hcall
    obtain ⟨hreq, -, huser⟩ := check_eq_ok_iff.mp hcheck
    have hrt := ((hseen.denied_iff hok hcap howner).mp ((huser rfl).1 hcap)).1
    rcases requested_cases hreq with ⟨hneg, -⟩ | ⟨-, hpolicy, -, -⟩
    · omega
    · rw [(hasked.given hpos).1] at hpolicy
      rw [Option.some.inj hpolicy]
      exact hrt
  · rw [(hasked.kept (by omega)).1]
    exact hnow.not_rt hokNow

/-- **An unprivileged owner leaves a task of the fair class there, exactly when** the call is not one
that lifts it.  What the first unlocked read of the call saw may be older than the state the lock
finds, as long as the task was in the fair class then as well; what later ones saw does not matter. -/
theorem stays_fair_iff {seen : Attr} (hs : Reachable m s) (hnow : PlainFair (s.tasks p).toAttr)
    (hplain : PlainFair seen) (hread : ∃ u, Reachable m u ∧ (u.tasks p).toAttr = seen)
    (hcap : who.capSysNice = false) (howner : who.sameOwner = true)
    (hcall : schedSetscheduler m p prio true who (seen :: rest) policy s = some (ret, t)) :
    (ret = 0 → (t.tasks p).schedClass = .fair) ↔ liftsToWrr s p seen policy prio who = false := by
  have hsound : ∀ {u}, Reachable m u → AttrOk (u.tasks p).toAttr := fun hu =>
    ((inv_of_reachable hu).legal.task p).ok
  obtain ⟨u, hu, rfl⟩ := hread
  rw [← entersWrr_eq_liftsToWrr hplain (hsound hu) hcap howner]
  cases henters : entersWrr s p (.schedSetscheduler p policy prio true who
      ((u.tasks p).toAttr :: rest)) with
  | true =>
      obtain ⟨-, -, hwrr⟩ := changed_of_entersWrr hcall henters
      refine ⟨fun hfair => ?_, fun h => by cases h⟩
      have hret : ret = 0 := by
        cases schedSetscheduler_done hcall with
        | failed _ =>
            rw [hnow.fair] at hwrr
            cases hwrr
        | nothing | changed => rfl
      rw [hfair hret] at hwrr
      cases hwrr
  | false =>
      refine ⟨fun _ => rfl, ?_⟩
      rintro - rfl
      cases schedSetscheduler_done hcall with
      | failed hret => exact absurd rfl hret
      | nothing _ _ _ _ => exact hnow.fair
      | @changed c hasked h0 h99 hchange hstop =>
          have hrt := changed_not_rt hnow (hsound hs) hplain (hsound hu) hcap howner hasked hcall
          rw [attr_changePolicy, if_pos rfl, hnow.setPolicy_schedClass (hsound hs) hrt, if_neg]
          intro hwrr
          -- a task that has the policy would have nothing to change
          by_cases hown : (s.tasks p).policy = .wrr
          · rw [nothingToChange, hwrr, hown] at hchange
            simp [rtPolicy] at hchange
          · have hin : ((changePolicy m p c prio s).tasks p).policy = .wrr := by
              rw [attr_changePolicy, if_pos rfl]
              exact hwrr
            rw [entersWrr_of_changed hcall hown hin] at henters
            cases henters

/-- A caller without `CAP_SYS_NICE` who owns the task. -/
def sampleOwner : Caller where
  capSysNice := false
  sameOwner := true
  securityTaskSetscheduler := 0

/-- The owner of a new task makes it a `SCHED_BATCH` one. -/
theorem stays_fair_batch : ∃ s ret t, Reachable (sampleMachine 10) s ∧
    schedSetscheduler (sampleMachine 10) 1 0 true sampleOwner [(s.tasks 1).toAttr]
        (policyArg .batch false) s = some (ret, t) ∧
      (ret = 0 → (t.tasks 1).schedClass = .fair) := by
  have hexec : ((Run.exec (step (sampleMachine 10)) (boot (sampleMachine 10))
      [.schedFork 1 sampleForeign, .wakeUpNewTask 1]).any fun s =>
        decide (((s.tasks 1).schedClass = .fair ∧ (s.tasks 1).rlim.rtprio = 0 ∧
            rtPrio (rtMutexGetprio (s.tasks 1).toAttr) = false) ∧
          liftsToWrr s 1 (s.tasks 1).toAttr (policyArg .batch false) 0 sampleOwner = false ∧
          (schedSetscheduler (sampleMachine 10) 1 0 true sampleOwner [(s.tasks 1).toAttr]
            (policyArg .batch false) s).isSome = true)) = true := by decide +kernel
  obtain ⟨s, hs, ⟨hfair, hrtprio, hgetprio⟩, hlifts, hsome⟩ := Run.exists_of_exec hexec
  obtain ⟨⟨ret, t⟩, hcall⟩ := Option.isSome_iff_exists.mp hsome
  have hplain : PlainFair (s.tasks 1).toAttr := ⟨hfair, hrtprio, hgetprio⟩
  exact ⟨s, ret, t, hs, hcall,
    (stays_fair_iff hs hplain hplain ⟨s, hs, rfl⟩ rfl rfl hcall).mpr hlifts⟩

/-- The same owner asks for `SCHED_WRR` at priority 1, and the task is above all fair ones. -/
theorem owner_lifts_to_wrr : ∃ s t, Reachable (sampleMachine 10) s ∧ 1 ∈ s.tasklist ∧
    PlainFair (s.tasks 1).toAttr ∧
    schedSetscheduler (sampleMachine 10) 1 1 true sampleOwner [(s.tasks 1).toAttr]
        (policyArg .wrr false) s = some (0, t) ∧
      (t.tasks 1).schedClass = .wrr := by
  have hexec : ((Run.exec (step (sampleMachine 10)) (boot (sampleMachine 10))
      [.schedFork 1 sampleForeign, .wakeUpNewTask 1]).any fun s =>
        decide ((1 ∈ s.tasklist ∧ (s.tasks 1).schedClass = .fair ∧ (s.tasks 1).rlim.rtprio = 0 ∧
            rtPrio (rtMutexGetprio (s.tasks 1).toAttr) = false) ∧
          ((schedSetscheduler (sampleMachine 10) 1 1 true sampleOwner [(s.tasks 1).toAttr]
            (policyArg .wrr false) s).any fun r =>
              r.1 = 0 && (r.2.tasks 1).schedClass = .wrr) = true)) = true := by decide +kernel
  obtain ⟨s, hs, ⟨hlisted, hfair, hrtprio, hgetprio⟩, hcall⟩ := Run.exists_of_exec hexec
  obtain ⟨⟨ret, t⟩, hsome, hresult⟩ := (Option.any_eq_true _ _).mp hcall
  simp only [Bool.and_eq_true, decide_eq_true_eq] at hresult
  obtain ⟨rfl, hwrr⟩ := hresult
  exact ⟨s, t, hs, hlisted, ⟨hfair, hrtprio, hgetprio⟩, hsome, hwrr⟩

end WrrScheduler
