/-
The RLIMIT_RTTIME watchdog of the WRR class.

The timeout of a task counts its own ticks since it was last put on the queue by a
wake-up, and the watchdog compares it with the limit in ticks, rounded up.  The
division rounds up by adding first, in 32 bits, so a limit at the top of the range
wraps and is as good as none: the task is past it at its first tick.
-/
import Mathlib.Algebra.Order.Floor.Div
import WrrScheduler.Proofs.Slice

namespace WrrScheduler

/-- The limit a task runs under: the lower of the soft and the hard one, in microseconds. -/
def rttimeLimit (soft hard : BitVec 32) : Nat := min soft.toNat hard.toNat

/-- A tick in microseconds. -/
def tickUsec (m : Machine) : Nat := usecPerSec / m.HZ

/-- A call of `task_tick_wrr` sets `sched_exp` to `sum_exec_runtime`, whatever it was before. -/
def SetsSchedExp (m : Machine) (p : Pid) (s : State) : Prop :=
  ∀ old, ((taskTickWrr m p (s.modAcct p fun a => { a with schedExp := old })).acct p).schedExp =
    ((taskTickWrr m p (s.modAcct p fun a => { a with schedExp := old })).acct p).se.sumExecRuntime

variable {m : Machine} {s t u : State} {p : Pid} {o : Op}

/-! ### The division

The code adds `tick - 1` and divides, in 32 bits.  For a sum that wraps, what is left
is less than a tick, so the quotient is zero and not merely wrong.  That makes the
condition exact.
-/

theorem tickUsec_lt (m : Machine) : tickUsec m < 2 ^ 32 := by
  have hle : usecPerSec / m.HZ ≤ usecPerSec := Nat.div_le_self _ _
  have hsmall : usecPerSec < 2 ^ 32 := by decide
  exact lt_of_le_of_lt hle hsmall

/-- The ticks of a limit, as the code computes them. -/
theorem toNat_watchdogNext (rlim : Rlimits) : (watchdogNext m rlim).toNat =
    ((rttimeLimit rlim.rttimeCur rlim.rttimeMax + (tickUsec m + 2 ^ 32 - 1) % 2 ^ 32) % 2 ^ 32) / tickUsec m := by
  have hmin : (if rlim.rttimeCur ≤ rlim.rttimeMax then rlim.rttimeCur else rlim.rttimeMax).toNat =
      rttimeLimit rlim.rttimeCur rlim.rttimeMax := by
    unfold rttimeLimit
    split
    · rename_i hle
      exact (Nat.min_eq_left hle).symm
    · rename_i hle
      exact (Nat.min_eq_right (Nat.le_of_lt (Nat.lt_of_not_le hle))).symm
  have hd : (BitVec.ofNat 32 (usecPerSec / m.HZ)).toNat = tickUsec m := by
    rw [BitVec.toNat_ofNat]
    exact Nat.mod_eq_of_lt (tickUsec_lt m)
  have hone : (1 : BitVec 32).toNat = 1 := rfl
  have hpred : 2 ^ 32 - 1 + tickUsec m = tickUsec m + 2 ^ 32 - 1 := by omega
  unfold watchdogNext
  simp only []
  rw [BitVec.toNat_udiv, BitVec.toNat_add, BitVec.toNat_sub, hmin, hd, hone, hpred]

/-- **The division rounds up, exactly if** the sum before it does not wrap; a sum that wraps leaves
a limit of no ticks at all. -/
theorem watchdogNext_cases (rlim : Rlimits) :
    (rttimeLimit rlim.rttimeCur rlim.rttimeMax + tickUsec m - 1 < 2 ^ 32 ∧
      (watchdogNext m rlim).toNat = rttimeLimit rlim.rttimeCur rlim.rttimeMax ⌈/⌉ tickUsec m) ∨
    (2 ^ 32 ≤ rttimeLimit rlim.rttimeCur rlim.rttimeMax + tickUsec m - 1 ∧ (watchdogNext m rlim).toNat = 0) := by
  have hlimit : rttimeLimit rlim.rttimeCur rlim.rttimeMax < 2 ^ 32 := by
    unfold rttimeLimit
    have hcur := rlim.rttimeCur.isLt
    omega
  have htick := tickUsec_lt m
  rw [toNat_watchdogNext, Nat.ceilDiv_eq_add_pred_div]
  generalize rttimeLimit rlim.rttimeCur rlim.rttimeMax = l at hlimit
  generalize tickUsec m = d at htick
  rcases Nat.eq_zero_or_pos d with rfl | hd
  · left
    refine ⟨by omega, ?_⟩
    rw [Nat.div_zero, Nat.div_zero]
  · have hpred : (d + 2 ^ 32 - 1) % 2 ^ 32 = d - 1 := by omega
    rw [hpred]
    by_cases hwrap : l + d - 1 < 2 ^ 32
    · left
      have hsum : (l + (d - 1)) % 2 ^ 32 = l + d - 1 := by omega
      exact ⟨hwrap, by rw [hsum]⟩
    · right
      refine ⟨by omega, Nat.div_eq_of_lt ?_⟩
      omega

/-! ### What a tick sets -/

/-- After the watchdog a tick writes nothing of the accounting but `TIF_NEED_RESCHED`. -/
theorem acct_taskTickWrr : ∃ b, (taskTickWrr m p s).acct p =
    { (watchdogWrr m p (updateCurrWrr s)).acct p with needResched := b } := by
  have hsame : ∀ a : Acct, ∃ b, a = { a with needResched := b } := fun a => ⟨a.needResched, rfl⟩
  have hexpire : ∀ s : State, ∃ b, (expireTaskWrr m p s).acct p =
      { s.acct p with needResched := b } := by
    intro s
    unfold expireTaskWrr
    simp only []
    split
    · refine ⟨true, ?_⟩
      show (Function.update s.acct p _) p = _
      rw [Function.update_self]
      rfl
    · exact hsame _
  unfold taskTickWrr
  simp only []
  split
  · exact hsame _
  · split
    · exact hsame _
    · exact hexpire _

/-- The watchdog sets `sched_exp` if the timeout is past the limit, and leaves it otherwise. -/
theorem acct_watchdogWrr (hlimit : (s.tasks p).rlim.rttimeCur ≠ rlimInfinity) :
    (watchdogWrr m p s).acct p =
      if watchdogNext m (s.tasks p).rlim < (s.tasks p).wrr.timeout + 1 then
        { s.acct p with schedExp := (s.acct p).se.sumExecRuntime }
      else s.acct p := by
  have hrlim : ∀ w : SchedWrrEntity → SchedWrrEntity,
      ((s.modWrrEntity p w).tasks p).rlim = (s.tasks p).rlim := by
    intro w
    simp [State.modWrrEntity, State.modTask]
  unfold watchdogWrr expireSched
  rw [if_neg hlimit]
  simp only [hrlim]
  split
  · show (Function.update s.acct p _) p = _
    rw [Function.update_self]
    rfl
  · rfl

/-- Charging a task has nothing to do with what was in `sched_exp`. -/
theorem acct_updateCurrWrr (old : BitVec 64) :
    (updateCurrWrr (s.modAcct p fun a => { a with schedExp := old })).acct p =
      { (updateCurrWrr s).acct p with schedExp := old } := by
  have hself : (s.modAcct p fun a => { a with schedExp := old }).acct p =
      { s.acct p with schedExp := old } := by simp [State.modAcct]
  have hstart : ((s.modAcct p fun a => { a with schedExp := old }).acct s.rq.curr).se =
      (s.acct s.rq.curr).se := by
    by_cases hp : s.rq.curr = p
    · rw [hp, hself]
    · simp [State.modAcct, hp]
  have hdelta : deltaExec (s.modAcct p fun a => { a with schedExp := old }) = deltaExec s := by
    unfold deltaExec
    rw [show (s.modAcct p fun a => { a with schedExp := old }).rq = s.rq from rfl, hstart]
  unfold updateCurrWrr
  rw [show (s.modAcct p fun a => { a with schedExp := old }).current = s.current from rfl]
  split
  · exact hself
  · show (chargeCurr (s.modAcct p fun a => { a with schedExp := old })).acct p =
      { (chargeCurr s).acct p with schedExp := old }
    unfold chargeCurr
    rw [hdelta]
    by_cases hp : p = s.rq.curr
    · subst hp
      simp [State.modAcct]
    · simp [State.modAcct, hp]

/-- **A tick sets `sched_exp` exactly if** it is past the ticks of the limit. -/
theorem setsSchedExp_iff (hlimit : (s.tasks p).rlim.rttimeCur ≠ rlimInfinity) :
    SetsSchedExp m p s ↔ watchdogNext m (s.tasks p).rlim < (s.tasks p).wrr.timeout + 1 := by
  have hacct : ∀ old, ∃ b, (taskTickWrr m p (s.modAcct p fun a => { a with schedExp := old })).acct p =
      { if watchdogNext m (s.tasks p).rlim < (s.tasks p).wrr.timeout + 1 then
          { (updateCurrWrr s).acct p with schedExp := ((updateCurrWrr s).acct p).se.sumExecRuntime }
        else { (updateCurrWrr s).acct p with schedExp := old } with needResched := b } := by
    intro old
    have htasks : (updateCurrWrr (s.modAcct p fun a => { a with schedExp := old })).tasks = s.tasks :=
      tasks_of_view (view_updateCurrWrr.trans (view_modAcct _))
    obtain ⟨b, hb⟩ := @acct_taskTickWrr m (s.modAcct p fun a => { a with schedExp := old }) p
    refine ⟨b, ?_⟩
    rw [hb, acct_watchdogWrr (by rw [htasks]; exact hlimit), htasks, acct_updateCurrWrr]
  constructor
  · intro hsets
    by_contra hnot
    have hold := hsets (((updateCurrWrr s).acct p).se.sumExecRuntime + 1)
    obtain ⟨b, hb⟩ := hacct (((updateCurrWrr s).acct p).se.sumExecRuntime + 1)
    rw [hb, if_neg hnot] at hold
    have hself : ((updateCurrWrr s).acct p).se.sumExecRuntime + 1 =
        ((updateCurrWrr s).acct p).se.sumExecRuntime := hold
    bv_omega
  · intro hpast old
    obtain ⟨b, hb⟩ := hacct old
    rw [hb, if_pos hpast]

/-! ### The timeout

The timeout is read off the entity like the slice is, except that a wake-up writes it.
So between two wake-ups it counts the task's own ticks, by the same general lemma.
-/

/-- The ticks of a task since the last `ENQUEUE_WAKEUP`, as its entity counts them. -/
def State.timeout (s : State) (p : Pid) : BitVec 32 := (s.tasks p).wrr.timeout

namespace View

variable {v : View}

theorem ignoresLinks_timeout (head : Bool) :
    IgnoresLinks { head := head } SchedWrrEntity.timeout := ⟨fun _ => rfl, fun _ => rfl⟩

theorem timeout_refill (path : String) (w : SchedWrrEntity) :
    (refill m path w).timeout = w.timeout := by
  unfold refill
  split
  · rfl
  · split <;> rfl

theorem timeout_expireWrr : ((v.expireWrr m p).tasks p).wrr.timeout = (v.tasks p).wrr.timeout := by
  have hrefill : ∀ path w, (refill m path w).timeout = w.timeout := timeout_refill
  unfold expireWrr
  simp only []
  split
  · rw [readEntity_requeueWrr (ignoresLinks_timeout false)]
    exact @readEntity_modEntity _ p p _ SchedWrrEntity.timeout _ (hrefill _)
  · exact @readEntity_modEntity _ p p _ SchedWrrEntity.timeout _ (hrefill _)

theorem timeout_tickWrr (hlimit : (v.tasks p).rlim.rttimeCur ≠ rlimInfinity) :
    ((v.tickWrr m p).tasks p).wrr.timeout = (v.tasks p).wrr.timeout + 1 := by
  have hwatch : ((v.watchWrr p).tasks p).wrr.timeout = (v.tasks p).wrr.timeout + 1 := by
    rw [watchWrr, if_neg hlimit, entity_modEntity, if_pos rfl]
  have hspend : ((((v.watchWrr p).modEntity p spendEntity)).tasks p).wrr.timeout =
      (v.tasks p).wrr.timeout + 1 := by
    rw [← hwatch]
    exact @readEntity_modEntity _ p p _ SchedWrrEntity.timeout _ fun _ => rfl
  unfold tickWrr
  simp only []
  split
  · exact hwatch
  · split
    · exact hspend
    · rw [timeout_expireWrr, hspend]

end View

/-- The limits of a task. -/
def LimitedTo (soft hard : BitVec 32) (p : Pid) (s : State) : Prop :=
  (s.tasks p).rlim.rttimeCur = soft ∧ (s.tasks p).rlim.rttimeMax = hard

instance (soft hard : BitVec 32) (p : Pid) (s : State) : Decidable (LimitedTo soft hard p s) :=
  inferInstanceAs (Decidable (_ ∧ _))

/-- What lets the timeout of a task go on counting: it is not made anew, it is not put on the queue
by a wake-up, and it ticks under its limits only. -/
def keepsTimeout (m : Machine) (soft hard : BitVec 32) (p : Pid) (s : State) (o : Op) : Prop :=
  creates p o = false ∧ wakesUp m p s o = false ∧ (ticks p s o = true → LimitedTo soft hard p s)

instance (soft hard : BitVec 32) (p : Pid) (s : State) (o : Op) :
    Decidable (keepsTimeout m soft hard p s o) := inferInstanceAs (Decidable (_ ∧ _ ∧ (_ → _)))

/-- A wake-up that puts a task on the queue starts its timeout. -/
theorem timeout_of_wakesUp (hinv : Inv m s) (hstep : step m s o = some t)
    (hwakes : wakesUp m p s o = true) : t.timeout p = 0 := by
  have hview := hinv.view_step hstep
  show (t.view.tasks p).wrr.timeout = 0
  cases o with
  | tryToWakeUp q state =>
      simp only [wakesUp, Bool.and_eq_true, decide_eq_true_eq] at hwakes
      obtain ⟨⟨rfl, hstate⟩, hwakes⟩ := hwakes
      rw [hview]
      rw [if_neg (by exact hstate)]
      exact View.timeout_wake hwakes
  | schedule preemptActive =>
      rw [view_schedule hstep]
      exact View.timeout_putToSleep hwakes
  | _ => cases hwakes

/-- **An own tick raises the timeout by one**, and nothing else writes it. -/
theorem timeout_step {soft hard : BitVec 32} (hsoft : soft ≠ rlimInfinity) (hinv : Inv m s)
    (hstep : step m s o = some t) (hkeeps : keepsTimeout m soft hard p s o) :
    t.timeout p = s.timeout p + BitVec.ofNat 32 (ticks p s o).toNat := by
  obtain ⟨hcreates, hwakes, hlimited⟩ := hkeeps
  cases hticks : ticks p s o with
  | false =>
      refine (readEntity_step View.ignoresLinks_timeout (Or.inr hwakes) hinv hstep hcreates
        hticks).trans ?_
      exact (BitVec.add_zero _).symm
  | true =>
      obtain ⟨hcur, -⟩ := hlimited hticks
      obtain ⟨rfl, rfl, hcls⟩ := ticks_iff.mp hticks
      have htick : t.view = s.view.tickWrr m s.rq.curr := by
        rw [hinv.view_step hstep]
        exact if_pos hcls
      show (t.view.tasks s.rq.curr).wrr.timeout = _
      rw [htick]
      exact View.timeout_tickWrr (by rw [show s.view.tasks = s.tasks from rfl, hcur]; exact hsoft)

/-- Between two wake-ups the timeout counts the task's own ticks. -/
theorem timeout_run {soft hard : BitVec 32} (hsoft : soft ≠ rlimInfinity) {tr : List (State × Op)}
    (hrun : Run (step m) s tr t) (hinv : Inv m s)
    (hall : ∀ e ∈ tr, keepsTimeout m soft hard p e.1 e.2) :
    t.timeout p = s.timeout p + BitVec.ofNat 32 (tr.countP fun e => ticks p e.1 e.2) := by
  induction hrun with
  | nil => exact (BitVec.add_zero _).symm
  | @cons s t u o tr hstep _ ih =>
      have hone := timeout_step hsoft hinv hstep (hall (s, o) List.mem_cons_self)
      have hrest := ih (hinv.step hstep) fun e he => hall e (List.mem_cons_of_mem _ he)
      rw [hrest, hone, List.countP_cons, BitVec.add_assoc, ← BitVec.ofNat_add]
      congr 2
      rw [Nat.add_comm]
      cases ticks p s o <;> rfl

/-- **Since the wake-up that put a task on the queue**, a tick sets `sched_exp` exactly if it is past
the ticks of the limit. -/
theorem setsSchedExp_since {s₀ : State} {soft hard : BitVec 32} {tr : List (State × Op)}
    (hs : Reachable m s₀) (hwakes : wakesUp m p s₀ o = true)
    (hrun : Run (step m) s₀ ((s₀, o) :: tr) u)
    (hall : ∀ e ∈ tr, keepsTimeout m soft hard p e.1 e.2) (hsoft : soft ≠ rlimInfinity)
    (hlimited : LimitedTo soft hard p u) (hn : (tr.countP fun e => ticks p e.1 e.2) + 1 < 2 ^ 32) :
    SetsSchedExp m p (updateRqClock m u) ↔
      (watchdogNext m (u.tasks p).rlim).toNat < (tr.countP fun e => ticks p e.1 e.2) + 1 := by
  have hinv := inv_of_reachable hs
  have htimeout : u.timeout p = BitVec.ofNat 32 (tr.countP fun e => ticks p e.1 e.2) := by
    cases hrun with
    | cons hstep hrest =>
        rw [timeout_run hsoft hrest (hinv.step hstep) hall, timeout_of_wakesUp hinv hstep hwakes]
        exact BitVec.zero_add _
  have htasks : (updateRqClock m u).tasks = u.tasks := tasks_of_view view_updateRqClock
  have hsucc : ∀ n : Nat, BitVec.ofNat 32 n + 1 = BitVec.ofNat 32 (n + 1) :=
    fun n => (BitVec.ofNat_add n 1).symm
  rw [setsSchedExp_iff (by rw [htasks, hlimited.1]; exact hsoft), htasks]
  show watchdogNext m (u.tasks p).rlim < u.timeout p + 1 ↔ _
  rw [htimeout, hsucc, BitVec.lt_def, BitVec.toNat_ofNat, Nat.mod_eq_of_lt hn]

/-! ### A task that wakes up and ticks -/

/-- A task under limits, which ran in the WRR class and sleeps. -/
def startWrrAsleep (soft hard : BitVec 32) : List Op :=
  let seen := [(initTask (sampleMachine 10)).toAttr]
  let rlim := { rttimeCur := soft, rttimeMax := hard, rtprio := 0, nice := 0 }
  [.initIdleBootupTask, .schedFork 1 { sampleForeign with rlim := rlim }, .wakeUpNewTask 1,
    sampleSetscheduler 1 Policy.wrr.code 1 seen, .schedule false,
    .setCurrentState taskInterruptible, .schedule false]

/-- Woken up, it runs and ticks `n` times under its limits, which its timeout counts. -/
def ticksOnceAwake (soft hard : BitVec 32) (n : Nat) : Bool :=
  let m := sampleMachine 10
  (Run.exec (step m) (boot m) (startWrrAsleep soft hard)).any fun s₀ => decide
    (wakesUp m 1 s₀ (.tryToWakeUp 1 taskInterruptible) = true ∧
    ((step m s₀ (.tryToWakeUp 1 taskInterruptible)).any fun s =>
      decide (((Run.trace (step m) s (.schedule false :: List.replicate n .schedulerTick)).any fun r =>
        decide ((∀ e ∈ r.1, keepsTimeout m soft hard 1 e.1 e.2) ∧ LimitedTo soft hard 1 r.2 ∧
          (r.1.countP fun e => ticks 1 e.1 e.2) = n ∧ ticks 1 r.2 .schedulerTick = true)) = true)) =
      true)

theorem exists_of_ticksOnceAwake {soft hard : BitVec 32} {n : Nat}
    (h : ticksOnceAwake soft hard n = true) : ∃ s₀ o tr u,
      Reachable (sampleMachine 10) s₀ ∧ wakesUp (sampleMachine 10) 1 s₀ o = true ∧
      Run (step (sampleMachine 10)) s₀ ((s₀, o) :: tr) u ∧
      (∀ e ∈ tr, keepsTimeout (sampleMachine 10) soft hard 1 e.1 e.2) ∧ LimitedTo soft hard 1 u ∧
      (tr.countP fun e => ticks 1 e.1 e.2) = n ∧ ticks 1 u .schedulerTick = true := by
  obtain ⟨s₀, hs, hwakes, hstep⟩ := Run.exists_of_exec h
  obtain ⟨s, hstep, htrace⟩ := (Option.any_eq_true _ _).mp hstep
  obtain ⟨⟨tr, u⟩, hrun, hall, hlimited, hcount, hticks⟩ :=
    Run.exists_of_trace (of_decide_eq_true htrace)
  exact ⟨s₀, _, tr, u, hs, hwakes, .cons hstep hrun, hall, hlimited, hcount, hticks⟩

/-! ### The watchdog -/

/-- **The watchdog counts a limit up to the tick, exactly if** the division does not wrap: from the
wake-up that put the task on the queue on, the tick that sets `sched_exp` is the first one past the
limit, unless the limit is so high that it is taken for none. -/
theorem watchdog_exact_iff {s₀ : State} {soft hard : BitVec 32} {tr : List (State × Op)}
    (hs : Reachable m s₀) (hwakes : wakesUp m p s₀ o = true)
    (hrun : Run (step m) s₀ ((s₀, o) :: tr) u)
    (hall : ∀ e ∈ tr, keepsTimeout m soft hard p e.1 e.2) (hsoft : soft ≠ rlimInfinity)
    (hlimited : LimitedTo soft hard p u) (hn : (tr.countP fun e => ticks p e.1 e.2) + 1 < 2 ^ 32) :
    (SetsSchedExp m p (updateRqClock m u) ↔
        rttimeLimit soft hard ⌈/⌉ tickUsec m < (tr.countP fun e => ticks p e.1 e.2) + 1) ↔
      (rttimeLimit soft hard + tickUsec m - 1 < 2 ^ 32 ∨
        rttimeLimit soft hard ⌈/⌉ tickUsec m < (tr.countP fun e => ticks p e.1 e.2) + 1) := by
  have hcases := @watchdogNext_cases m (u.tasks p).rlim
  rw [hlimited.1, hlimited.2] at hcases
  rw [setsSchedExp_since hs hwakes hrun hall hsoft hlimited hn]
  rcases hcases with ⟨hfits, hnext⟩ | ⟨hwraps, hnext⟩
  · rw [hnext]
    exact ⟨fun _ => Or.inl hfits, fun _ => Iff.rfl⟩
  · rw [hnext]
    omega

/-- With a limit of 15 ms, and ticks of 10 ms, the third tick sets `sched_exp`. -/
theorem watchdog_exact_third_tick : ∃ u : State, ticks 1 u .schedulerTick = true ∧
    SetsSchedExp (sampleMachine 10) 1 (updateRqClock (sampleMachine 10) u) := by
  have hawake : ticksOnceAwake 15000 20000 2 = true := by decide +kernel
  obtain ⟨s₀, o, tr, u, hs, hwakes, hrun, hall, hlimited, hcount, hticks⟩ :=
    exists_of_ticksOnceAwake hawake
  refine ⟨u, hticks, ?_⟩
  have hlimit : rttimeLimit 15000 20000 = 15000 := by decide
  have htick : tickUsec (sampleMachine 10) = 10000 := by decide
  have hexact := watchdog_exact_iff hs hwakes hrun hall (by decide) hlimited
    (by rw [hcount]; decide)
  rw [hcount, hlimit, htick] at hexact
  have hceil : 15000 ⌈/⌉ 10000 < 2 + 1 := by decide
  exact (hexact.mpr (Or.inl (by decide))).mpr hceil

/-- **A limit at the top of the range**: 4294 s are 429497 ticks of 10 ms, and the first tick after
the wake-up sets `sched_exp` already. -/
theorem watchdog_wraps : ∃ s₀ o tr u, Reachable (sampleMachine 10) s₀ ∧
    wakesUp (sampleMachine 10) 1 s₀ o = true ∧
    Run (step (sampleMachine 10)) s₀ ((s₀, o) :: tr) u ∧
    (∀ e ∈ tr, keepsTimeout (sampleMachine 10) 4294967294 4294967294 1 e.1 e.2) ∧
    (4294967294 : BitVec 32) ≠ rlimInfinity ∧ LimitedTo 4294967294 4294967294 1 u ∧
    ticks 1 u .schedulerTick = true ∧ (tr.countP fun e => ticks 1 e.1 e.2) = 0 ∧
    ¬(SetsSchedExp (sampleMachine 10) 1 (updateRqClock (sampleMachine 10) u) ↔
      rttimeLimit 4294967294 4294967294 ⌈/⌉ tickUsec (sampleMachine 10) < 0 + 1) := by
  have hawake : ticksOnceAwake 4294967294 4294967294 0 = true := by decide +kernel
  obtain ⟨s₀, o, tr, u, hs, hwakes, hrun, hall, hlimited, hcount, hticks⟩ :=
    exists_of_ticksOnceAwake hawake
  have hsoft : (4294967294 : BitVec 32) ≠ rlimInfinity := by decide
  refine ⟨s₀, o, tr, u, hs, hwakes, hrun, hall, hsoft, hlimited, hticks, hcount, fun hexact => ?_⟩
  have hnext : (watchdogNext (sampleMachine 10) (u.tasks 1).rlim).toNat = 0 := by
    rcases @watchdogNext_cases (sampleMachine 10) (u.tasks 1).rlim with ⟨hfits, -⟩ | ⟨-, hnext⟩
    · rw [hlimited.1, hlimited.2] at hfits
      exact absurd hfits (by decide)
    · exact hnext
  have hsets := setsSchedExp_since hs hwakes hrun hall hsoft hlimited (by rw [hcount]; decide)
  rw [hcount, hnext] at hsets
  exact absurd (hexact.mp (hsets.mpr Nat.one_pos)) (by decide)

end WrrScheduler
