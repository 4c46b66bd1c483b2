/-
Run time in the WRR class is charged to the task that ran, once.

`update_curr_wrr` charges whatever has gone by since the running task was last
stamped, and four callers let it.  The books are kept in two states.  Between two
operations a state is `Accounted`: all that the running task has not been charged
for is the time since its stamp.  Once a class has put the running task away the
state is `Settled`: nothing is outstanding, and the stamp means nothing until the
task that runs next gets a new one.

The equation that both states carry is

    wrrCharged p + outstanding p = wrrRan p

where `wrrRan` is history: it grows when the clock is read, by what the clock moved,
for the task that runs in the WRR class.  So reading the clock moves time from the
future to what is outstanding, charging moves it from there to what is charged, and
no function moves it anywhere else.  Every function of `core.c` keeps `Accounted`;
the two that put a task away settle and stamp before anything reads the clock.
-/
import WrrScheduler.Proofs.PickNext

namespace WrrScheduler

/-- The clocks, and what history has counted by them. -/
structure Times where
  clock : BitVec 64
  clockTask : BitVec 64
  now : Nat
  wrrCharged : Pid → Nat
  wrrRan : Pid → Nat

/-- The clocks of a state. -/
def State.times (s : State) : Times where
  clock := s.rq.clock
  clockTask := s.rq.clockTask
  now := s.now
  wrrCharged := s.wrrCharged
  wrrRan := s.wrrRan

/-- `exec_start` of the running task. -/
def State.execStart (s : State) : BitVec 64 := (s.acct s.rq.curr).se.execStart

/-- What a task has run in the WRR class and not been charged for. -/
def State.pending (s : State) (p : Pid) : Nat :=
  if s.rq.curr = p ∧ (s.tasks p).schedClass = .wrr then
    (s.rq.clockTask - (s.acct p).se.execStart).toNat
  else 0

/-- A clock that does not go back and stays below `2 ^ 63`, and classes elsewhere that do not read it
while they pick. -/
structure SteadyClock (m : Machine) : Prop where
  mono : Monotone fun n => (m.schedClockCpu n).toNat
  small : ∀ n, (m.schedClockCpu n).toNat < 2 ^ 63
  picking : ∀ c s p, m.updatesClock c .pickNextTask s p = false

/-- The two clocks agree, and are not ahead of the next reading. -/
structure Times.Ok (m : Machine) (c : Times) : Prop where
  same : c.clock = c.clockTask
  past : c.clock.toNat ≤ (m.schedClockCpu c.now).toNat

/-- Nothing is outstanding. -/
structure Settled (m : Machine) (s : State) : Prop where
  clock : s.times.Ok m
  total : s.wrrCharged = s.wrrRan

/-- All that is outstanding is what the running task has run since its stamp. -/
structure Accounted (m : Machine) (s : State) : Prop where
  clock : s.times.Ok m
  start : s.current.schedClass = .wrr → s.execStart ≤ s.rq.clockTask
  total : ∀ p, s.wrrCharged p + s.pending p = s.wrrRan p

variable {m : Machine} {s s' t : State} {p : Pid}

theorem pending_curr (h : s.current.schedClass = .wrr) :
    s.pending s.rq.curr = (s.rq.clockTask - s.execStart).toNat := if_pos ⟨rfl, h⟩

theorem pending_of_class (h : s.current.schedClass ≠ .wrr) (p : Pid) : s.pending p = 0 := by
  refine if_neg ?_
  rintro ⟨rfl, hc⟩
  exact h hc

theorem pending_of_ne (h : p ≠ s.rq.curr) : s.pending p = 0 := if_neg fun hp => h hp.1.symm

/-- The clock has not come to where a difference would be taken for a negative one. -/
theorem Times.Ok.small {c : Times} (h : c.Ok m) (hm : SteadyClock m) : c.clockTask.toNat < 2 ^ 63 := by
  rw [← h.same]
  exact h.past.trans_lt (hm.small c.now)

@[simp] theorem times_reschedTaskIf (b : Bool) : (reschedTaskIf b p s).times = s.times := by
  cases b <;> rfl

theorem times_updateCurrRt : (updateCurrRt m s).times = s.times := by
  unfold updateCurrRt
  split
  · rfl
  · split
    · rfl
    · exact times_reschedTaskIf _

/-! ### Settling and stamping

The two states differ by the running task's stamp only.  A stamp that equals the clock
turns `Settled` into `Accounted`, and so does a running task of another class, for
which nothing is ever outstanding.  `frame` is the rule that most functions go by: the
clocks, the running task, its class and its stamp are all that the books read.
-/

theorem Settled.of_times (h : Settled m s) (ht : s'.times = s.times) : Settled m s' := by
  refine ⟨?_, ?_⟩
  · rw [ht]
    exact h.clock
  · show s'.times.wrrCharged = s'.times.wrrRan
    rw [ht]
    exact h.total

/-- A task that has just been stamped has nothing outstanding. -/
theorem Settled.accounted (h : Settled m s)
    (hstamp : s.current.schedClass = .wrr → s.execStart = s.rq.clockTask) : Accounted m s := by
  refine ⟨h.clock, ?_, ?_⟩
  · intro hc
    rw [hstamp hc]
    exact BitVec.le_refl _
  · intro p
    have hnone : s.pending p = 0 := by
      by_cases hp : p = s.rq.curr
      · subst hp
        by_cases hc : s.current.schedClass = .wrr
        · rw [pending_curr hc, hstamp hc, BitVec.sub_self]
          rfl
        · exact pending_of_class hc _
      · exact pending_of_ne hp
    rw [hnone, h.total, Nat.add_zero]

/-- When another class runs, nothing is outstanding. -/
theorem Accounted.settled (h : Accounted m s) (hc : s.current.schedClass ≠ .wrr) : Settled m s := by
  refine ⟨h.clock, ?_⟩
  funext p
  have htotal := h.total p
  rw [pending_of_class hc] at htotal
  exact htotal

theorem Settled.of_class (h : Settled m s) (hc : s.current.schedClass ≠ .wrr) : Accounted m s :=
  h.accounted fun hwrr => absurd hwrr hc

namespace Accounted

/-- The clocks stand still, and the same task runs in the same class from the same stamp. -/
theorem frame (h : Accounted m s) (ht : s'.times = s.times) (hcurr : s'.rq.curr = s.rq.curr)
    (hcls : s'.current.schedClass = s.current.schedClass)
    (hstart : s.current.schedClass = .wrr → s'.execStart = s.execStart) : Accounted m s' := by
  have hclock : s'.rq.clockTask = s.rq.clockTask := congrArg Times.clockTask ht
  have hcharged : s'.wrrCharged = s.wrrCharged := congrArg Times.wrrCharged ht
  have hran : s'.wrrRan = s.wrrRan := congrArg Times.wrrRan ht
  refine ⟨?_, ?_, ?_⟩
  · rw [ht]
    exact h.clock
  · intro hc
    have hc' : s.current.schedClass = .wrr := hcls.symm.trans hc
    rw [hstart hc', hclock]
    exact h.start hc'
  · intro p
    have hpending : s'.pending p = s.pending p := by
      by_cases hp : p = s.rq.curr
      · by_cases hc : s.current.schedClass = .wrr
        · rw [hp, pending_curr hc, ← hcurr, pending_curr (hcls.trans hc), hclock, hstart hc]
        · rw [pending_of_class hc, pending_of_class (by rwa [hcls])]
      · rw [pending_of_ne hp, pending_of_ne (by rwa [hcurr])]
    rw [hpending, hcharged, hran]
    exact h.total p

/-! ### The clock

A reading of the clock is the only way time comes in.  Both sides of the equation gain
the same difference: `wrrRan` by definition of the history, and what is outstanding
because the stamp stays where it is.  For a reading that is skipped
(`skip_clock_update`) neither moves.
-/

/-- The clock moves from one reading to a later one, and history notes what the running task has
gained by it. -/
theorem advance (h : Accounted m s) (hclock : s'.times.Ok m)
    (hlater : s.rq.clockTask ≤ s'.rq.clockTask) (hview : s'.view = s.view) (hacct : s'.acct = s.acct)
    (hcharged : s'.wrrCharged = s.wrrCharged)
    (hran : ∀ p, s'.wrrRan p = s.wrrRan p +
      if s.rq.curr = p ∧ (s.tasks p).schedClass = .wrr then
        (s'.rq.clockTask - s.rq.clockTask).toNat
      else 0) : Accounted m s' := by
  have htasks : s'.tasks = s.tasks := tasks_of_view hview
  have hcurr : s'.rq.curr = s.rq.curr := curr_of_view hview
  have hlater' : s.rq.clockTask.toNat ≤ s'.rq.clockTask.toNat := hlater
  refine ⟨hclock, ?_, ?_⟩
  · intro hc
    rw [State.current, htasks, hcurr] at hc
    rw [State.execStart, hacct, hcurr]
    exact BitVec.le_trans (h.start hc) hlater
  · intro p
    have htotal := h.total p
    rw [hcharged, hran, ← htotal, State.pending, htasks, hcurr, hacct, State.pending]
    split
    · rename_i hp
      obtain ⟨rfl, hc⟩ := hp
      have hstart : (s.acct s.rq.curr).se.execStart ≤ s.rq.clockTask := h.start hc
      have hstart' : (s.acct s.rq.curr).se.execStart.toNat ≤ s.rq.clockTask.toNat := hstart
      rw [BitVec.toNat_sub_of_le (BitVec.le_trans hstart hlater), BitVec.toNat_sub_of_le hstart,
        BitVec.toNat_sub_of_le hlater]
      omega
    · rfl

/-- What history notes when the clock is read. -/
private theorem wrrRan_updateRqClock (hskip : ¬ 0 < s.rq.skipClockUpdate) (p : Pid) :
    (WrrScheduler.updateRqClock m s).wrrRan p = s.wrrRan p +
      if s.rq.curr = p ∧ (s.tasks p).schedClass = .wrr then
        (m.schedClockCpu s.now - s.rq.clock).toNat
      else 0 := by
  rw [WrrScheduler.updateRqClock, if_neg hskip]
  show (if s.current.schedClass = .wrr then
    Function.update s.wrrRan s.rq.curr (s.wrrRan s.rq.curr +
      (m.schedClockCpu s.now - s.rq.clock).toNat) else s.wrrRan) p = _
  by_cases hp : s.rq.curr = p
  · subst hp
    by_cases hc : s.current.schedClass = .wrr
    · rw [if_pos hc, Function.update_self, if_pos ⟨rfl, hc⟩]
    · have hnone : ¬ (s.rq.curr = s.rq.curr ∧ (s.tasks s.rq.curr).schedClass = .wrr) :=
        fun h => hc h.2
      rw [if_neg hc, if_neg hnone, Nat.add_zero]
  · have hnone : ¬ (s.rq.curr = p ∧ (s.tasks p).schedClass = .wrr) := fun h => hp h.1
    rw [if_neg hnone, Nat.add_zero]
    split
    · exact Function.update_of_ne (Ne.symm hp) _ _
    · rfl

/-- **Reading the clock** keeps the books. -/
theorem updateRqClock (h : Accounted m s) (hm : SteadyClock m) :
    Accounted m (updateRqClock m s) := by
  by_cases hskip : 0 < s.rq.skipClockUpdate
  · rw [WrrScheduler.updateRqClock, if_pos hskip]
    exact h
  · have hsame : s.rq.clock = s.rq.clockTask := h.clock.same
    have hread : s.rq.clock + (m.schedClockCpu s.now - s.rq.clock) = m.schedClockCpu s.now := by
      rw [BitVec.add_comm, BitVec.sub_add_cancel]
    have hparts : (WrrScheduler.updateRqClock m s).times.clock = m.schedClockCpu s.now ∧
        (WrrScheduler.updateRqClock m s).times.clockTask = m.schedClockCpu s.now ∧
        (WrrScheduler.updateRqClock m s).now = s.now + 1 ∧
        (WrrScheduler.updateRqClock m s).acct = s.acct ∧
        (WrrScheduler.updateRqClock m s).wrrCharged = s.wrrCharged := by
      rw [WrrScheduler.updateRqClock, if_neg hskip]
      refine ⟨hread, ?_, rfl, rfl, rfl⟩
      show s.rq.clockTask + (m.schedClockCpu s.now - s.rq.clock) = m.schedClockCpu s.now
      rw [← hsame, hread]
    obtain ⟨hclock, htask, hnow, hacct, hcharged⟩ := hparts
    have htask' : (WrrScheduler.updateRqClock m s).rq.clockTask = m.schedClockCpu s.now := htask
    refine h.advance ⟨hclock.trans htask.symm, ?_⟩ ?_ view_updateRqClock hacct hcharged ?_
    · rw [hclock]
      show _ ≤ (m.schedClockCpu (WrrScheduler.updateRqClock m s).now).toNat
      rw [hnow]
      exact hm.mono (Nat.le_succ s.now)
    · rw [htask', ← hsame]
      exact h.clock.past
    · intro p
      rw [htask', ← hsame]
      exact wrrRan_updateRqClock hskip p

/-! ### Charging

`update_curr_wrr` computes the difference in 64 bits and takes a negative one for
zero, so the time charged is the time outstanding only while the clock is below `2 ^
63` and the stamp not ahead of it.  `Times.Ok` says both, and `SteadyClock` keeps it.
-/

/-- Up to the stamp, `delta_exec` is the difference. -/
private theorem deltaExec_eq (hsmall : s.rq.clockTask.toNat < 2 ^ 63)
    (hstart : s.execStart ≤ s.rq.clockTask) : deltaExec s = s.rq.clockTask - s.execStart := by
  have hdelta : (s.rq.clockTask - s.execStart).toNat < 2 ^ 63 := by
    rw [BitVec.toNat_sub_of_le hstart]
    omega
  show (if (s.rq.clockTask - s.execStart).toInt < 0 then 0 else s.rq.clockTask - s.execStart) = _
  refine if_neg ?_
  rw [BitVec.toInt_eq_toNat_of_lt (by omega)]
  omega

/-- **`update_curr_wrr` charges what is outstanding**, and stamps the running task. -/
theorem settled_updateCurrWrr (h : Accounted m s) (hm : SteadyClock m) :
    Settled m (updateCurrWrr s) := by
  unfold WrrScheduler.updateCurrWrr
  by_cases hc : s.current.schedClass = .wrr
  · rw [if_neg fun hne => hne hc]
    refine ⟨⟨h.clock.same, h.clock.past⟩, ?_⟩
    funext p
    show Function.update s.wrrCharged s.rq.curr
      (s.wrrCharged s.rq.curr + (deltaExec s).toNat) p = s.wrrRan p
    have htotal := h.total p
    by_cases hp : p = s.rq.curr
    · subst hp
      rw [pending_curr hc] at htotal
      rw [Function.update_self, deltaExec_eq (h.clock.small hm) (h.start hc), htotal]
    · rw [pending_of_ne hp] at htotal
      rw [Function.update_of_ne hp]
      exact htotal
  · rw [if_pos hc]
    exact h.settled hc

theorem updateCurrWrr (h : Accounted m s) (hm : SteadyClock m) :
    Accounted m (updateCurrWrr s) := by
  refine (h.settled_updateCurrWrr hm).accounted ?_
  intro hc
  have hcls : s.current.schedClass = .wrr := by
    have hview : (WrrScheduler.updateCurrWrr s).view = s.view := view_updateCurrWrr
    rw [State.current, tasks_of_view hview, curr_of_view hview] at hc
    exact hc
  rw [WrrScheduler.updateCurrWrr, if_neg fun hne => hne hcls]
  show ((chargeCurr s).acct s.rq.curr).se.execStart = s.rq.clockTask
  simp [chargeCurr, State.modAcct]

theorem updateCurrRt (h : Accounted m s) : Accounted m (updateCurrRt m s) := by
  by_cases hc : s.current.schedClass = .rt
  · have hview : (WrrScheduler.updateCurrRt m s).view = s.view := view_updateCurrRt
    have hset : Settled m s := h.settled (by simp [hc])
    refine (hset.of_times times_updateCurrRt).of_class ?_
    rw [State.current, tasks_of_view hview, curr_of_view hview]
    show s.current.schedClass ≠ .wrr
    simp [hc]
  · rw [WrrScheduler.updateCurrRt, if_pos hc]
    exact h

/-! ### Changes beside the books -/

theorem modAcct (h : Accounted m s) {f : Acct → Acct}
    (hf : ∀ a, (f a).se.execStart = a.se.execStart) : Accounted m (s.modAcct p f) := by
  refine h.frame rfl rfl rfl fun _ => ?_
  show (Function.update s.acct p (f (s.acct p)) s.rq.curr).se.execStart = _
  by_cases hp : s.rq.curr = p
  · subst hp
    rw [Function.update_self, hf]
    rfl
  · rw [Function.update_of_ne hp]
    rfl

theorem reschedTask (h : Accounted m s) : Accounted m (reschedTask p s) :=
  @modAcct m s p h (fun a => { a with needResched := true }) fun _ => rfl

theorem reschedTaskIf (h : Accounted m s) (b : Bool) : Accounted m (reschedTaskIf b p s) := by
  cases b
  · exact h
  · exact h.reschedTask

theorem modTask (h : Accounted m s) {f : Task → Task}
    (hf : ∀ t, (f t).schedClass = t.schedClass) : Accounted m (s.modTask p f) := by
  refine h.frame rfl rfl ?_ fun _ => rfl
  show (Function.update s.tasks p (f (s.tasks p)) s.rq.curr).schedClass = _
  by_cases hp : s.rq.curr = p
  · subst hp
    rw [Function.update_self, hf]
    rfl
  · rw [Function.update_of_ne hp]
    rfl

theorem modAttr (h : Accounted m s) {f : Attr → Attr}
    (hf : ∀ t, (f t).schedClass = t.schedClass) : Accounted m (s.modAttr p f) :=
  h.modTask fun t => hf t.toAttr

theorem modWrrEntity (h : Accounted m s) (f : SchedWrrEntity → SchedWrrEntity) :
    Accounted m (s.modWrrEntity p f) := h.modTask fun _ => rfl

/-- A class elsewhere writes no more than the entities of its own tasks. -/
theorem outsideCall (h : Accounted m s) (hm : SteadyClock m) {c : SchedClass} (hc : c ≠ .wrr)
    (f : ClassFn) : Accounted m (outsideCall m c f p s) := by
  have hwrite : ∀ s : State, Accounted m s → Accounted m (writeEntities m c f s) := by
    intro s hs
    refine hs.frame rfl rfl rfl ?_
    intro hwrr
    have hne : (s.tasks s.rq.curr).schedClass ≠ c := by
      rintro hcls
      exact hc (hcls.symm.trans hwrr)
    show (if (s.tasks s.rq.curr).schedClass = c then _ else s.acct s.rq.curr).se.execStart = _
    rw [if_neg hne]
    rfl
  unfold WrrScheduler.outsideCall
  refine reschedTaskIf (hwrite _ ?_) _
  split
  · exact h.updateRqClock hm
  · exact h

/-- When a task of another class runs, such a call leaves nothing outstanding. -/
theorem settled_outsideCall (h : Accounted m s) (hm : SteadyClock m) {c : SchedClass}
    (hc : c ≠ .wrr) (hcurr : s.current.schedClass ≠ .wrr) (f : ClassFn) :
    Settled m (WrrScheduler.outsideCall m c f p s) := by
  refine (h.outsideCall hm hc f).settled ?_
  have hview : (WrrScheduler.outsideCall m c f p s).view = s.view := view_outsideCall c f
  rw [State.current, tasks_of_view hview, curr_of_view hview]
  exact hcurr

/-! ### Enqueueing and dequeueing

Both read the clock before the class acts, and `dequeue_task_wrr` then charges the
task that *runs*, which need not be the one taken off.  That is why these lemmas say
nothing of `p`.
-/

theorem modRt (h : Accounted m s) (f : Rt → Rt) : Accounted m (s.modRt f) :=
  h.frame rfl rfl rfl fun _ => rfl

theorem modWrr (h : Accounted m s) (f : WrrRq → WrrRq) : Accounted m (s.modWrr f) :=
  h.frame rfl rfl rfl fun _ => rfl

theorem incNrRunning (h : Accounted m s) : Accounted m (incNrRunning s) :=
  h.frame rfl rfl rfl fun _ => rfl

theorem decNrRunning (h : Accounted m s) : Accounted m (decNrRunning s) :=
  h.frame rfl rfl rfl fun _ => rfl

theorem modRtEntity (h : Accounted m s) (f : SchedRtEntity → SchedRtEntity) :
    Accounted m (s.modRtEntity p f) :=
  @modAcct m s p h (fun a => { a with rt := f a.rt }) fun _ => rfl

theorem classEnqueueTask (h : Accounted m s) (hm : SteadyClock m) (c : SchedClass)
    (flags : EnqueueFlags) : Accounted m (c.enqueueTask m flags p s) := by
  cases c with
  | rt =>
      have hreset : Accounted m
          (if flags.wakeup then s.modRtEntity p fun e => { e with timeout := 0 } else s) := by
        split
        · exact h.modRtEntity _
        · exact h
      exact (hreset.modRt _).incNrRunning
  | wrr =>
      have hreset : Accounted m
          (if flags.wakeup then s.modWrrEntity p fun w => { w with timeout := 0 } else s) := by
        split
        · exact h.modWrrEntity _
        · exact h
      have hlink : ∀ s, Accounted m s → Accounted m (enqueueWrrEntity p flags.head s) :=
        fun s hs => (hs.modWrrEntity _).modWrr _
      exact (hlink _ hreset).incNrRunning
  | stop => exact (h.outsideCall hm (by simp) .enqueueTask).incNrRunning
  | fair =>
      have hcall : Accounted m (WrrScheduler.outsideCall m .fair .enqueueTask p s) :=
        h.outsideCall hm (by simp) .enqueueTask
      exact hcall.incNrRunning.frame rfl rfl rfl fun _ => rfl
  | idle => exact h.outsideCall hm (by simp) .enqueueTask

theorem classDequeueTask (h : Accounted m s) (hm : SteadyClock m) (c : SchedClass) :
    Accounted m (c.dequeueTask m p s) := by
  cases c with
  | rt => exact (h.updateCurrRt.modRt _).decNrRunning
  | wrr =>
      have hunlink : ∀ s, Accounted m s → Accounted m (dequeueWrrEntity p s) :=
        fun s hs => (hs.modWrrEntity _).modWrr _
      exact (hunlink _ (h.updateCurrWrr hm)).decNrRunning
  | stop => exact (h.outsideCall hm (by simp) .dequeueTask).decNrRunning
  | fair =>
      have hcall : Accounted m (WrrScheduler.outsideCall m .fair .dequeueTask p s) :=
        h.outsideCall hm (by simp) .dequeueTask
      exact hcall.decNrRunning.frame rfl rfl rfl fun _ => rfl
  | idle => exact h.outsideCall hm (by simp) .dequeueTask

theorem enqueueTask (h : Accounted m s) (hm : SteadyClock m) (flags : EnqueueFlags) :
    Accounted m (enqueueTask m flags p s) := (h.updateRqClock hm).classEnqueueTask hm _ flags

theorem dequeueTask (h : Accounted m s) (hm : SteadyClock m) : Accounted m (dequeueTask m p s) :=
  (h.updateRqClock hm).classDequeueTask hm _

theorem countUninterruptible (h : Accounted m s) (n : Int) :
    Accounted m (countUninterruptible n p s) := by
  unfold WrrScheduler.countUninterruptible
  split
  · exact h.frame rfl rfl rfl fun _ => rfl
  · exact h

theorem activate (h : Accounted m s) (hm : SteadyClock m) (flags : EnqueueFlags) :
    Accounted m (setOnRq true p (activateTask m flags p s)) :=
  modAttr ((h.countUninterruptible (-1)).enqueueTask hm flags) fun _ => rfl

theorem deactivate (h : Accounted m s) (hm : SteadyClock m) :
    Accounted m (setOnRq false p (deactivateTask m p s)) :=
  modAttr ((h.countUninterruptible 1).dequeueTask hm) fun _ => rfl

theorem setTaskState (h : Accounted m s) (state : Nat) : Accounted m (setTaskState state p s) :=
  h.modAttr fun _ => rfl

/-! ### Preemption and waking -/

theorem checkPreemptCurr (h : Accounted m s) (hm : SteadyClock m) :
    Accounted m (checkPreemptCurr m p s) := by
  have hclass : ∀ c : SchedClass, Accounted m (c.checkPreemptCurr m p s) := by
    intro c
    cases c with
    | rt => exact h.reschedTaskIf _
    | wrr => exact h
    | _ => exact h.outsideCall hm (by simp) .checkPreemptCurr
  have hasked : Accounted m
      (if (s.tasks p).schedClass = s.current.schedClass then
        s.current.schedClass.checkPreemptCurr m p s
      else WrrScheduler.reschedTaskIf
        (preempts s.current.schedClass (s.tasks p).schedClass forEachClass) s.rq.curr s) := by
    split
    · exact hclass _
    · exact h.reschedTaskIf _
  have hskip : ∀ s, Accounted m s → Accounted m
      (if s.current.onRq && s.needResched then s.modRq fun r => { r with skipClockUpdate := 1 }
        else s) := by
    intro s hs
    split
    · exact hs.frame rfl rfl rfl fun _ => rfl
    · exact hs
  exact hskip _ hasked

theorem checkClassChanged (h : Accounted m s) (hm : SteadyClock m) (c : SchedClass)
    (oldprio : Int) : Accounted m (checkClassChanged m p c oldprio s) := by
  have hfrom : ∀ c : SchedClass, Accounted m (c.switchedFrom m p s) := by
    intro c
    cases c with
    | rt | wrr => exact h
    | _ => exact h.outsideCall hm (by simp) .switchedFrom
  have hto : ∀ (c : SchedClass) (s : State), Accounted m s → Accounted m (c.switchedTo m p s) := by
    intro c s hs
    cases c with
    | rt =>
        simp only [SchedClass.switchedTo, switchedToRt]
        split
        · exact hs.reschedTaskIf _
        · exact hs
    | wrr =>
        simp only [SchedClass.switchedTo, switchedToWrr]
        split
        · exact hs.reschedTaskIf _
        · exact hs
    | _ => exact hs.outsideCall hm (by simp) .switchedTo
  have hprio : ∀ c : SchedClass, Accounted m (c.prioChanged m p oldprio s) := by
    intro c
    cases c with
    | rt =>
        simp only [SchedClass.prioChanged, prioChangedRt]
        split
        · exact h
        · split <;> exact h.reschedTaskIf _
    | wrr => exact h
    | _ => exact h.outsideCall hm (by simp) .prioChanged
  unfold WrrScheduler.checkClassChanged
  split
  · exact hto _ _ (hfrom c)
  · split
    · exact hprio _
    · exact h

theorem ttwuDoWakeup (h : Accounted m s) (hm : SteadyClock m) :
    Accounted m (ttwuDoWakeup m p s) := (h.checkPreemptCurr hm).setTaskState taskRunning

theorem tryToWakeUp (h : Accounted m s) (hm : SteadyClock m) (state : Nat) :
    Accounted m (tryToWakeUp m p state s).2 := by
  unfold WrrScheduler.tryToWakeUp
  split
  · exact h
  · split
    · exact h.ttwuDoWakeup hm
    · exact (h.activate hm _).ttwuDoWakeup hm

theorem tryToWakeUpLocal (h : Accounted m s) (hm : SteadyClock m) :
    Accounted m (tryToWakeUpLocal m p s) := by
  unfold WrrScheduler.tryToWakeUpLocal
  split
  · exact h
  · split
    · exact h
    · split
      · exact h.ttwuDoWakeup hm
      · exact (h.activate hm _).ttwuDoWakeup hm

/-! ### Detaching the running task

`put_prev_task` charges, `set_curr_task` stamps, and between the two the class of the
task may change.  In between the state is `Settled`, and a settled state survives any
change to the task: with nothing outstanding, it does not matter in which class it is
outstanding.
-/

/-- **A class puts the running task away**: what was outstanding is charged. -/
theorem settled_putPrevTask (h : Accounted m s) (hm : SteadyClock m) (hp : s.rq.curr = p) :
    Settled m ((s.tasks p).schedClass.putPrevTask m p s) := by
  subst hp
  show Settled m (s.current.schedClass.putPrevTask m s.rq.curr s)
  cases hc : s.current.schedClass with
  | wrr => exact (h.settled_updateCurrWrr hm).of_times rfl
  | rt => exact (h.settled (by simp [hc])).of_times times_updateCurrRt
  | _ => exact h.settled_outsideCall hm (by simp) (by simp [hc]) .putPrevTask

/-- **The class of the running task takes it back**, with a new stamp. -/
theorem setCurrTask (h : Settled m s) (hm : SteadyClock m) (hp : s.rq.curr = p) :
    Accounted m ((s.tasks p).schedClass.setCurrTask m s) := by
  subst hp
  show Accounted m (s.current.schedClass.setCurrTask m s)
  cases hc : s.current.schedClass with
  | wrr =>
      refine Settled.accounted (h.of_times rfl) fun _ => ?_
      show ((stampExecStart s.rq.curr s).acct s.rq.curr).se.execStart = s.rq.clockTask
      simp [stampExecStart, State.modAcct]
  | rt =>
      refine Settled.of_class (h.of_times rfl) ?_
      show s.current.schedClass ≠ .wrr
      simp [hc]
  | _ => exact outsideCall (h.of_class (by simp [hc])) hm (by simp) .setCurrTask

/-- Detach, change and re-attach a task, when the change keeps the books in order. -/
theorem withDetached (h : Accounted m s) (hm : SteadyClock m) {running : Bool}
    {flags : EnqueueFlags} {change : State → State}
    (hkeep : ∀ s : State, (change s).rq.curr = s.rq.curr)
    (hrunning : running = true → s.rq.curr = p)
    (hsettled : running = true → ∀ s, s.rq.curr = p → Settled m s → Settled m (change s))
    (hother : running = false → ∀ s', s'.rq.curr = s.rq.curr → Accounted m s' →
      Accounted m (change s')) :
    Accounted m (withDetached m running flags p change s) := by
  have hdequeue : Accounted m (if (s.tasks p).onRq then WrrScheduler.dequeueTask m p s else s) := by
    split
    · exact h.dequeueTask hm
    · exact h
  have hcurr : (if (s.tasks p).onRq then WrrScheduler.dequeueTask m p s else s).rq.curr =
      s.rq.curr := by
    split
    · show (WrrScheduler.dequeueTask m p s).view.curr = s.view.curr
      rw [view_dequeueTask]
      exact View.frame_dequeue.curr
    · rfl
  have hattach : ∀ s' : State, Accounted m s' → Accounted m
      (if (s.tasks p).onRq then WrrScheduler.enqueueTask m flags p s' else s') := by
    intro s' hs'
    split
    · exact hs'.enqueueTask hm flags
    · exact hs'
  refine hattach _ ?_
  generalize (if (s.tasks p).onRq then WrrScheduler.dequeueTask m p s else s) = s₁
    at hdequeue hcurr
  cases running with
  | false => exact hother rfl s₁ hcurr hdequeue
  | true =>
      have hp : s₁.rq.curr = p := hcurr.trans (hrunning rfl)
      have hput : Settled m ((s₁.tasks p).schedClass.putPrevTask m p s₁) :=
        hdequeue.settled_putPrevTask hm hp
      have hpCurr : ((s₁.tasks p).schedClass.putPrevTask m p s₁).rq.curr = p :=
        (curr_of_view (view_putPrevTask _)).trans hp
      have hchangeCurr : (change ((s₁.tasks p).schedClass.putPrevTask m p s₁)).rq.curr = p :=
        (hkeep _).trans hpCurr
      exact setCurrTask (hsettled rfl _ hpCurr hput) hm hchangeCurr

/-! ### Changing a task -/

theorem setLoadWeight (h : Accounted m s) : Accounted m (setLoadWeight p s) := by
  unfold WrrScheduler.setLoadWeight
  refine h.modAcct ?_
  intro a
  split <;> rfl

/-- Whatever becomes of a task that is not running. -/
theorem modTask_other (h : Accounted m s) (hp : s.rq.curr ≠ p) (f : Task → Task) :
    Accounted m (s.modTask p f) := by
  refine h.frame rfl rfl ?_ fun _ => rfl
  show (Function.update s.tasks p (f (s.tasks p)) s.rq.curr).schedClass = _
  rw [Function.update_of_ne hp]
  rfl

theorem modAttr_other (h : Accounted m s) (hp : s.rq.curr ≠ p) (f : Attr → Attr) :
    Accounted m (s.modAttr p f) := h.modTask_other hp _

theorem modAcct_other (h : Accounted m s) (hp : s.rq.curr ≠ p) (f : Acct → Acct) :
    Accounted m (s.modAcct p f) := by
  refine h.frame rfl rfl rfl fun _ => ?_
  show (Function.update s.acct p (f (s.acct p)) s.rq.curr).se.execStart = _
  rw [Function.update_of_ne hp]
  rfl

theorem ne_curr (h : taskCurrent s p = false) : s.rq.curr ≠ p := by simpa [taskCurrent] using h

theorem curr_eq (h : taskCurrent s p = true) : s.rq.curr = p := by simpa [taskCurrent] using h

theorem rtMutexSetprio (h : Accounted m s) (hm : SteadyClock m) (prio : Int) :
    Accounted m (rtMutexSetprio m p prio s) := by
  unfold WrrScheduler.rtMutexSetprio
  split
  · exact h
  · refine checkClassChanged (h.withDetached hm ?_ curr_eq ?_ ?_) hm _ _
    · exact fun _ => rfl
    · exact fun _ _ _ hs => hs.of_times rfl
    · intro hp s' hcurr hs'
      exact hs'.modAttr_other (by rw [hcurr]; exact ne_curr hp) _

theorem changePolicy (h : Accounted m s) (hm : SteadyClock m) (c : Checked) (prio : Int) :
    Accounted m (changePolicy m p c prio s) := by
  refine checkClassChanged (h.withDetached hm ?_ curr_eq ?_ ?_) hm _ _
  · exact fun _ => rfl
  · exact fun _ _ _ hs => hs.of_times rfl
  · intro hp s' hcurr hs'
    have hne : s'.rq.curr ≠ p := by
      rw [hcurr]
      exact ne_curr hp
    exact setLoadWeight (modAttr_other (hs'.modAttr_other hne _) hne _)

theorem schedSetscheduler (h : Accounted m s) (hm : SteadyClock m) {policy : BitVec 32}
    {prio ret : Int} {user : Bool} {who : Caller} {seen : List Attr}
    (hcall : schedSetscheduler m p prio user who seen policy s = some (ret, t)) :
    Accounted m t := by
  cases schedSetscheduler_done hcall with
  | failed _ => exact h
  | nothing _ _ _ _ => exact h
  | @changed c _ _ _ _ _ => exact h.changePolicy hm c prio

theorem setUserNice (h : Accounted m s) (hm : SteadyClock m) (nice : Int) :
    Accounted m (setUserNice m p nice s) := by
  unfold WrrScheduler.setUserNice
  split
  · exact h
  · split
    · exact h.modAttr fun _ => rfl
    · refine reschedTaskIf (h.withDetached hm ?_ (by simp) (by simp) ?_) _
      · exact fun _ => rfl
      intro _ s' _ hs'
      have hstatic : Accounted m (setStaticPrio nice p s') := hs'.modAttr fun _ => rfl
      refine hstatic.setLoadWeight.modAttr ?_
      exact fun _ => rfl

/-- A class that is told of a move to another group may read the clock. -/
theorem taskMoveGroup (h : Accounted m s) (hm : SteadyClock m) (c : SchedClass) :
    Accounted m (c.taskMoveGroup m p s) := by
  cases c with
  | rt | wrr => exact h
  | _ => exact h.outsideCall hm (by simp) .taskMoveGroup

theorem settled_taskMoveGroup (h : Settled m s) (hm : SteadyClock m) (hp : s.rq.curr = p) :
    Settled m ((s.tasks p).schedClass.taskMoveGroup m p s) := by
  subst hp
  show Settled m (s.current.schedClass.taskMoveGroup m s.rq.curr s)
  cases hc : s.current.schedClass with
  | rt | wrr => exact h
  | _ =>
      have hne : s.current.schedClass ≠ .wrr := by simp [hc]
      exact (h.of_class hne).settled_outsideCall hm (by simp) hne .taskMoveGroup

theorem schedMoveTask (h : Accounted m s) (hm : SteadyClock m) (tg : Gid) :
    Accounted m (schedMoveTask m p tg s) := by
  have hkeep : ∀ s : State, ((s.tasks p).schedClass.taskMoveGroup m p s).rq.curr = s.rq.curr :=
    fun s => curr_of_view (view_taskMoveGroup _)
  refine h.withDetached hm (fun s => hkeep _) curr_eq ?_ ?_
  · intro _ s' hp hs'
    have hgroup : Settled m (s'.modAttr p fun t => { t with schedTaskGroup := tg }) :=
      hs'.of_times rfl
    exact settled_taskMoveGroup hgroup hm hp
  · intro _ s' _ hs'
    have hgroup : Accounted m (s'.modAttr p fun t => { t with schedTaskGroup := tg }) :=
      hs'.modAttr fun _ => rfl
    exact hgroup.taskMoveGroup hm _

/-! ### Ticks and yields -/

theorem requeueTaskWrr (h : Accounted m s) : Accounted m (requeueTaskWrr p false s) :=
  (h.modWrrEntity fun w => { w with runList := .linked }).modWrr _

theorem schedYield (h : Accounted m s) (hm : SteadyClock m) : Accounted m (schedYield m s) := by
  unfold WrrScheduler.schedYield
  cases s.current.schedClass with
  | rt => exact h.modRt fun r => Rt.requeueTaskRt (s.rtView m) false r s.rq.curr
  | wrr => exact h.requeueTaskWrr
  | _ => exact h.outsideCall hm (by simp) .yieldTask

theorem expireSched (h : Accounted m s) (timeout : BitVec 32) :
    Accounted m (expireSched m p timeout s) := by
  unfold WrrScheduler.expireSched
  split
  · exact h.modAcct fun _ => rfl
  · exact h

theorem taskTickRt (h : Accounted m s) : Accounted m (taskTickRt m p s) := by
  have hwatch : Accounted m (watchdogRt m p (WrrScheduler.updateCurrRt m s)) := by
    unfold watchdogRt
    split
    · exact h.updateCurrRt
    · exact (h.updateCurrRt.modRtEntity _).expireSched _
  unfold WrrScheduler.taskTickRt
  generalize watchdogRt m p (WrrScheduler.updateCurrRt m s) = s' at hwatch ⊢
  simp only []
  split
  · exact hwatch
  · split
    · exact hwatch.modRtEntity _
    · split
      · exact (((hwatch.modRtEntity _).modRtEntity _).modRt _).reschedTask
      · exact (hwatch.modRtEntity _).modRtEntity _

theorem expireTaskWrr (h : Accounted m s) : Accounted m (expireTaskWrr m p s) := by
  have hpath : Accounted m (readGroupPath m p s) := h.frame rfl rfl rfl fun _ => rfl
  have hrefill : Accounted m ((readGroupPath m p s).modWrrEntity p
      (refill m (readGroupPath m p s).groupPath)) := hpath.modWrrEntity _
  unfold WrrScheduler.expireTaskWrr
  simp only []
  split
  · exact hrefill.requeueTaskWrr.reschedTask
  · exact hrefill

theorem taskTickWrr (h : Accounted m s) (hm : SteadyClock m) : Accounted m (taskTickWrr m p s) := by
  have hwatch : Accounted m (watchdogWrr m p (WrrScheduler.updateCurrWrr s)) := by
    unfold watchdogWrr
    split
    · exact h.updateCurrWrr hm
    · exact ((h.updateCurrWrr hm).modWrrEntity _).expireSched _
  unfold WrrScheduler.taskTickWrr
  generalize watchdogWrr m p (WrrScheduler.updateCurrWrr s) = s' at hwatch ⊢
  simp only []
  split
  · exact hwatch
  · split
    · exact hwatch.modWrrEntity _
    · exact (hwatch.modWrrEntity _).expireTaskWrr

theorem schedulerTick (h : Accounted m s) (hm : SteadyClock m) :
    Accounted m (schedulerTick m s) := by
  have hclock := h.updateRqClock hm
  unfold WrrScheduler.schedulerTick
  simp only []
  generalize WrrScheduler.updateRqClock m s = s' at hclock ⊢
  cases s'.current.schedClass with
  | rt => exact hclock.taskTickRt
  | wrr => exact hclock.taskTickWrr hm
  | _ => exact hclock.outsideCall hm (by simp) .taskTick

theorem schedRrGetInterval (h : Accounted m s) : Accounted m (schedRrGetInterval m p s).2 := by
  have hpath : Accounted m (readGroupPath m p s) := h.frame rfl rfl rfl fun _ => rfl
  unfold WrrScheduler.schedRrGetInterval
  cases (s.tasks p).schedClass with
  | wrr =>
      simp only [SchedClass.getRrInterval, getRrIntervalWrr]
      split
      · exact hpath
      · split <;> exact hpath
  | _ => exact h

theorem doSchedRtPeriodTimer (h : Accounted m s) (g : Gid) (overrun : Nat) :
    Accounted m (doSchedRtPeriodTimer m g overrun s) := by
  have hreplenish : Accounted m (replenishRtRq g overrun s) := by
    unfold replenishRtRq
    simp only []
    split
    · exact h.frame rfl rfl rfl fun _ => rfl
    · exact h.modRt _
  unfold WrrScheduler.doSchedRtPeriodTimer
  simp only []
  split
  · exact (hreplenish.modRt _).reschedTaskIf _
  · exact hreplenish

/-! ### Switching

`__schedule` reads the clock, puts the running task away and picks another; no class
reads the clock while it picks.  `pick_next_task_wrr` stamps what it picks with that
same reading, so when the switch happens nothing is outstanding for either task.
-/

theorem putToSleep (h : Accounted m s) (hm : SteadyClock m) (preemptActive : Bool) :
    Accounted m (putToSleep m preemptActive s) := by
  have hsleep : Accounted m (goToSleep m s) := by
    have hoff : Accounted m (setOnRq false s.rq.curr (deactivateTask m s.rq.curr s)) :=
      h.deactivate hm
    unfold goToSleep
    simp only []
    split
    · exact hoff
    · exact hoff.tryToWakeUpLocal hm
  unfold WrrScheduler.putToSleep
  split
  · split
    · exact h.setTaskState taskRunning
    · exact hsleep
  · exact h

theorem settled_corePutPrevTask (h : Accounted m s) (hm : SteadyClock m) (hp : s.rq.curr = p) :
    Settled m (putPrevTask m p s) := by
  have hclock : Accounted m (if (s.tasks p).onRq || s.rq.skipClockUpdate < 0 then
      WrrScheduler.updateRqClock m s else s) := by
    split
    · exact h.updateRqClock hm
    · exact h
  have hcurr : (if (s.tasks p).onRq || s.rq.skipClockUpdate < 0 then
      WrrScheduler.updateRqClock m s else s).rq.curr = p := by
    split
    · exact (curr_of_view view_updateRqClock).trans hp
    · exact hp
  exact hclock.settled_putPrevTask hm hcurr

end Accounted

/-- A class that picks reads no clock. -/
theorem times_classPickNextTask (hm : SteadyClock m) {c : SchedClass} {next : Option Pid}
    (hpick : c.pickNextTask m s = .ok (next, s')) : s'.times = s.times := by
  rcases classPickNextTask_cases hpick with rfl | ⟨p, rfl⟩ | ⟨c, p, rfl⟩
  · rfl
  · rfl
  · rw [outsideCall, hm.picking]
    exact times_reschedTaskIf _

/-- **What the WRR class picks it stamps**, and no other class picks a WRR task. -/
theorem OnQueue.pick_stamped (h : OnQueue m s) (hidle : (s.tasks s.rq.idle).schedClass ≠ .wrr)
    {c : SchedClass} (hpick : c.pickNextTask m s = .ok (some p, s'))
    (hp : (s'.tasks p).schedClass = .wrr) : (s'.acct p).se.execStart = s'.rq.clockTask := by
  rw [tasks_of_view (view_classPickNextTask hpick)] at hp
  by_cases hc : c = .idle
  · subst hc
    cases hpick
    exact absurd hp hidle
  · obtain rfl : c = .wrr := (h.cls_of_pick hc hpick).symm.trans hp
    simp only [SchedClass.pickNextTask, pickNextTaskWrr] at hpick
    split at hpick
    · cases hpick
    · split at hpick
      · cases hpick
      · cases hpick
        simp [stampExecStart, State.modAcct]

/-- What is picked is stamped if it is a WRR task, and the books stay settled. -/
theorem OnQueue.pickNextTask_stamped (h : OnQueue m s) (hm : SteadyClock m)
    (hidle : (s.tasks s.rq.idle).schedClass ≠ .wrr) (hset : Settled m s)
    (hpick : pickNextTask m s = .ok (p, s')) :
    Settled m s' ∧
      ((s'.tasks p).schedClass = .wrr → (s'.acct p).se.execStart = s'.rq.clockTask) := by
  obtain ⟨c, hc⟩ := exists_classPickNextTask hpick
  exact ⟨hset.of_times (times_classPickNextTask hm hc), h.pick_stamped hidle hc⟩

namespace Accounted

/-- The switch to a task that was stamped if it is a WRR one. -/
theorem switchTo (h : Settled m s) {next : Pid}
    (hstamp : (s.tasks next).schedClass = .wrr → (s.acct next).se.execStart = s.rq.clockTask) :
    Accounted m (switchTo next s) := by
  have hview : (WrrScheduler.switchTo next s).view = { s.view with curr := next } :=
    view_switchTo next
  have htasks : (WrrScheduler.switchTo next s).tasks = s.tasks := congrArg View.tasks hview
  have hcurr : (WrrScheduler.switchTo next s).rq.curr = next := congrArg View.curr hview
  have htimes : (WrrScheduler.switchTo next s).times = s.times := by
    unfold WrrScheduler.switchTo State.times State.modRq
    simp only []
    split <;> rfl
  have hstart : ((WrrScheduler.switchTo next s).acct next).se = (s.acct next).se := by
    show (Function.update s.acct s.rq.curr _ next).se = _
    by_cases hp : next = s.rq.curr
    · rw [hp, Function.update_self]
    · rw [Function.update_of_ne hp]
  refine (h.of_times htimes).accounted ?_
  intro hc
  rw [State.current, htasks, hcurr] at hc
  rw [State.execStart, hcurr, hstart]
  exact (hstamp hc).trans (congrArg Times.clockTask htimes).symm

/-- The idle task is never a WRR one. -/
theorem idle_ne_wrr (h : s.view.Legal) : (s.tasks s.rq.idle).schedClass ≠ .wrr := by
  rcases ((h.task s.rq.idle).idleLow rfl).2 with hc | hc
  · exact fun hwrr => absurd (hc.symm.trans hwrr) (by simp)
  · exact fun hwrr => absurd (hc.symm.trans hwrr) (by simp)

/-- **`__schedule`** settles with the task it switches from and stamps the one it switches to. -/
theorem schedule (h : Accounted m s) (hm : SteadyClock m) (hinv : Inv m s) {preemptActive : Bool}
    (hstep : step m s (.schedule preemptActive) = some t) : Accounted m t := by
  obtain ⟨next, s', hpick, rfl⟩ := schedule_of_step hstep
  have hview : (putPrevTask m s.rq.curr (WrrScheduler.putToSleep m preemptActive s)).view =
      s.view.putToSleep preemptActive (wokenWorker m s) := by
    rw [view_corePutPrevTask, view_putToSleep]
  have hqueue := hinv.onQueue_pick preemptActive
  have hlegal : (s.view.putToSleep preemptActive (wokenWorker m s)).Legal :=
    hinv.legal.putToSleep preemptActive wokenWorker_listed
  have hcurr : (WrrScheduler.putToSleep m preemptActive s).rq.curr = s.rq.curr := by
    show (WrrScheduler.putToSleep m preemptActive s).view.curr = s.view.curr
    rw [view_putToSleep]
    exact (View.frame_putToSleep preemptActive _).curr
  have hset := (h.putToSleep hm preemptActive).settled_corePutPrevTask hm hcurr
  rw [← hview] at hlegal
  obtain ⟨hset', hstamp⟩ := hqueue.pickNextTask_stamped hm (idle_ne_wrr hlegal) hset hpick
  exact switchTo hset' hstamp

/-! ### Fork, and the stop task -/

theorem setUpFork (h : Accounted m s) (hp : s.rq.curr ≠ p) :
    Accounted m (setUpFork p s) := by
  have hbasic : Accounted m (WrrScheduler.setTaskState taskRunning p (basicSchedFork p s)) := by
    have hoff : Accounted m (setOnRq false p s) := h.modAttr fun _ => rfl
    exact setTaskState (((hoff.modWrrEntity _).modAcct_other hp _).modRt _) taskRunning
  have hreset : ∀ s : State, Accounted m s → s.rq.curr ≠ p →
      (forkReset p s).rq.curr ≠ p ∧ Accounted m (forkReset p s) := by
    intro s hs hne
    unfold forkReset
    split
    · exact ⟨hne, (hs.modAttr_other hne _).setLoadWeight⟩
    · exact ⟨hne, hs⟩
  have hclass : ∀ s : State, Accounted m s → s.rq.curr ≠ p → Accounted m (forkClass p s) := by
    intro s hs hne
    unfold forkClass
    split
    · exact hs.modAttr_other hne _
    · exact hs
  have hprio : Accounted m ((WrrScheduler.setTaskState taskRunning p (basicSchedFork p s)).modAttr p
      fun t => { t with
        prio := (WrrScheduler.setTaskState taskRunning p (basicSchedFork p s)).current.normalPrio }) :=
    hbasic.modAttr fun _ => rfl
  obtain ⟨hne, hreset'⟩ := hreset _ hprio hp
  exact hclass _ hreset' hne

theorem schedFork (h : Accounted m s) (hm : SteadyClock m) {child : Pid} {f : Foreign}
    (hchild : child ≠ s.rq.curr) (hfork : schedFork m child (dupTaskStruct child f s) = .ok t) :
    Accounted m t := by
  have htask : Accounted m (s.modTask child fun _ => { s.current with toForeign := f }) :=
    h.modTask_other hchild.symm _
  have hdup : Accounted m (dupTaskStruct child f s) := by
    unfold dupTaskStruct
    exact htask.modAcct_other hchild.symm _
  have hset := hdup.setUpFork hchild.symm
  simp only [WrrScheduler.schedFork] at hfork
  generalize WrrScheduler.setUpFork child (dupTaskStruct child f s) = s₁ at hset hfork
  cases hc : (s₁.tasks child).schedClass with
  | rt =>
      rw [hc] at hfork
      cases hfork
      exact hset
  | wrr =>
      rw [hc] at hfork
      simp only [SchedClass.taskFork, taskForkWrr] at hfork
      split at hfork
      · cases hfork
      · cases hfork
        exact hset.modWrrEntity _
  | _ =>
      rw [hc] at hfork
      cases hfork
      exact hset.outsideCall hm (by simp) .taskFork

/-- The stop tasks that come and go are not running. -/
theorem schedSetStopTask (h : Accounted m s) (hm : SteadyClock m) {who : Caller}
    {seen : List Attr} {stop : Option Pid} (hnew : ∀ p ∈ stop, s.rq.curr ≠ p)
    (hold : ∀ old ∈ s.rq.stop, s.rq.curr ≠ old)
    (hcall : schedSetStopTask m who seen stop s = some t) : Accounted m t := by
  have hreplace : ∀ (stop : Option Pid) (s : State), (∀ old ∈ s.rq.stop, s.rq.curr ≠ old) →
      Accounted m s → Accounted m (replaceStop stop s) := by
    intro stop s hold hs
    have hstop : Accounted m (s.modRq fun r => { r with stop := stop }) :=
      hs.frame rfl rfl rfl fun _ => rfl
    unfold replaceStop
    split
    · exact hstop
    · rename_i old hsome
      exact hstop.modAttr_other (hold old hsome) _
  cases stop with
  | none =>
      cases hcall
      exact hreplace none s hold h
  | some p =>
      obtain ⟨s', hmake, rfl⟩ := Option.map_eq_some_iff.mp hcall
      unfold makeStop at hmake
      split at hmake
      · cases hmake
      · rename_i ret s₁ hset
        cases hmake
        have hcurr : s₁.rq.curr = s.rq.curr :=
          (View.Keeps.setschedulerStep (view_schedSetscheduler hset)).curr
        have hsame : s₁.rq.stop = s.rq.stop := (OnQueue.schedSetscheduler_onRq hset p).2
        refine hreplace (some p) _ ?_ (modAttr_other (h.schedSetscheduler hm hset) ?_ _)
        · intro old hmem
          show s₁.rq.curr ≠ old
          rw [hcurr]
          refine hold old ?_
          rw [← hsame]
          exact hmem
        · rw [hcurr]
          exact hnew p rfl

end Accounted

/-! ### Steps and runs

One operation breaks the books by design: `normalize_rt_tasks` clears `exec_start` of
every task, the running one with the rest.  The theorem is about the runs without it.
-/

/-- Whether an operation clears stamps without charging anyone. -/
def Op.clearsStamps : Op → Bool
  | .normalizeRtTasks => true
  | _ => false

/-- **Every operation keeps the books**, except `normalize_rt_tasks`, which clears stamps. -/
theorem Accounted.step (h : Accounted m s) (hm : SteadyClock m) (hinv : Inv m s) {o : Op}
    (ho : o.clearsStamps = false) (hstep : step m s o = some t) : Accounted m t := by
  have hcall := callable_of_step hstep
  have hperform := perform_of_step hstep
  cases o with
  | tryToWakeUp p state =>
      cases hperform
      exact h.tryToWakeUp hm state
  | wakeUpNewTask p =>
      cases hperform
      exact (h.activate hm {}).checkPreemptCurr hm
  | schedFork child f =>
      obtain ⟨hchild, -⟩ := hinv.forkable f hcall
      obtain ⟨s', hfork, rfl⟩ := schedFork_of_step hstep
      exact (h.schedFork hm hchild hfork).frame rfl rfl rfl fun _ => rfl
  | schedule preemptActive => exact h.schedule hm hinv hstep
  | schedYield =>
      cases hperform
      exact h.schedYield hm
  | schedulerTick =>
      cases hperform
      exact h.schedulerTick hm
  | schedSetscheduler p policy prio user who seen =>
      obtain ⟨⟨ret, s'⟩, hset, rfl⟩ := Option.map_eq_some_iff.mp hperform
      exact h.schedSetscheduler hm hset
  | rtMutexSetprio p prio =>
      cases hperform
      exact h.rtMutexSetprio hm prio
  | setUserNice p nice =>
      cases hperform
      exact h.setUserNice hm nice
  | schedMoveTask p tg =>
      cases hperform
      exact h.schedMoveTask hm tg
  | normalizeRtTasks => cases ho
  | schedRrGetInterval p =>
      cases hperform
      exact h.schedRrGetInterval
  | doSchedRtPeriodTimer g overrun =>
      cases hperform
      exact h.doSchedRtPeriodTimer g overrun
  | schedSetStopTask stop who seen =>
      refine h.schedSetStopTask hm ?_ ?_ hperform
      · exact fun p hp => (hinv.stop_spared hcall (Or.inl hp.symm)).2
      · exact fun old hold => (hinv.stop_spared hcall (Or.inr hold.symm)).2
  | initIdleBootupTask =>
      have hidle : s.rq.curr = s.rq.idle := by simpa [callable] using hcall
      have hne : s.current.schedClass ≠ .wrr := by
        rw [State.current, hidle]
        exact Accounted.idle_ne_wrr hinv.legal
      cases hperform
      refine Settled.of_class ((h.settled hne).of_times rfl) ?_
      show (Function.update s.tasks s.rq.curr _ s.rq.curr).schedClass ≠ .wrr
      rw [Function.update_self]
      simp
  | setCurrentState state =>
      cases hperform
      exact h.setTaskState state
  | releaseTask p =>
      cases hperform
      exact h.frame rfl rfl rfl fun _ => rfl
  | foreign p f =>
      cases hperform
      exact h.modAttr fun _ => rfl

end WrrScheduler
