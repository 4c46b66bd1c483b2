/-
The round robin is fair.

Between two expiries of a task lie exactly the ticks of its quantum, and exactly
one expiry of every other task that stays queued with it.

The second rests on the order of two tasks in the queue.  Whatever else happens,
only an expiry of one of the two changes which comes first, and it puts that one
last.  And only the one that comes first expires: a task is picked when it is the
head, and from then on it stays first until a reschedule is pending, which is
served before the next tick.  So the two take turns.
-/
import WrrScheduler.Proofs.Preempt
import WrrScheduler.Proofs.RrInterval

namespace WrrScheduler

/-- An operation by which a task yields, is reniced, or is moved to another group. -/
def disturbs (p : Pid) (s : State) : Op → Bool
  | .schedYield => s.rq.curr = p
  | .setUserNice q _ | .schedMoveTask q _ => q = p
  | .normalizeRtTasks => p ∈ s.tasklist && (s.tasks p).mm &&
      (rtPrio (s.tasks p).prio || prioToNice (s.tasks p).staticPrio < 0)
  | _ => false

/-- A pending reschedule was served before this tick. -/
def served (s : State) : Op → Bool
  | .schedulerTick => !s.needResched
  | _ => true

/-- Two tasks are queued, an operation disturbs neither, and a tick comes after the reschedule that
was pending. -/
def orderly (i j : Pid) (s : State) (o : Op) : Bool :=
  i ∈ s.rq.wrr.queue && j ∈ s.rq.wrr.queue && !disturbs i s o && !disturbs j s o && served s o

variable {m : Machine} {s t u : State} {i j p q : Pid}

/-! ### What leaves the order alone

Tasks join the queue at either end and leave it anywhere, so operations do reorder it
for those that come and go.  For the tasks that stay, the queue *filtered* to them is
the thing to look at: an insertion or a removal elsewhere does not show in it.
Sending one of them to the tail does.  An expiry does that, and so do a yield, a new
nice value and a move to another group, which are what `disturbs` excludes.
-/

theorem View.wrr_wake {v : View} (hon : (v.tasks p).onRq = true) : (v.wake p).wrr = v.wrr := by
  unfold View.wake
  rw [if_pos hon]
  rfl

/-- A queued task is listed and runnable. -/
theorem Inv.of_mem_queue (h : Inv m s) (hq : q ∈ s.rq.wrr.queue) :
    (s.tasks q).onRq = true ∧ (s.tasks q).schedClass = .wrr ∧ q ∈ s.tasklist := by
  obtain ⟨hon, hcls⟩ := h.queued.mem_queue.mp hq
  exact ⟨hon, hcls, (h.legal.task q).listed hon⟩

/-- Waking a worker leaves the order of the tasks that are queued. -/
theorem View.filter_wakeWorker {v : View} {keep : Pid → Bool} (worker : Option Pid)
    (hon : ∀ q, keep q = true → (v.attr q).onRq = true) :
    (v.wakeWorker worker).wrr.queue.filter keep = v.wrr.queue.filter keep := by
  cases worker with
  | none => rfl
  | some p =>
      rw [View.wakeWorker]
      split
      · rfl
      · split
        · rfl
        · by_cases hp : keep p = true
          · rw [View.wrr_wake (hon p hp)]
          · have hspares : v.Spares {p} (v.wake p) := .wake (Set.mem_singleton p)
            refine hspares.order keep ?_
            rintro q rfl
            simpa using hp

/-- The running task is not woken. -/
theorem View.onRq_wakeWorker {v : View} (worker : Option Pid) :
    ((v.wakeWorker worker).attr v.curr).onRq = (v.attr v.curr).onRq := by
  cases worker with
  | none => rfl
  | some p =>
      rw [View.wakeWorker]
      split
      · rfl
      · rename_i hp
        split
        · rfl
        · rw [View.attr_wake, if_neg (Ne.symm hp)]

/-- Putting the running task to sleep leaves the order of the tasks that stay queued. -/
theorem View.filter_putToSleep {v : View} {keep : Pid → Bool} (preemptActive : Bool)
    (worker : Option Pid) (hon : ∀ q, keep q = true → (v.attr q).onRq = true)
    (hstay : ∀ q, keep q = true → ((v.putToSleep preemptActive worker).attr q).onRq = true) :
    (v.putToSleep preemptActive worker).wrr.queue.filter keep = v.wrr.queue.filter keep := by
  unfold View.putToSleep at hstay ⊢
  simp only [] at hstay ⊢
  split
  · rename_i hstate
    rw [if_pos hstate] at hstay
    split
    · rfl
    · rename_i hsignal
      rw [if_neg hsignal] at hstay
      unfold View.goToSleep at hstay ⊢
      have hoff : ∀ q, ((v.dequeue v.curr).modAttr v.curr fun t => { t with onRq := false }).attr q =
          if q = v.curr then { v.attr v.curr with onRq := false } else v.attr q := by
        intro q
        rw [View.attr_modAttr, View.attr_dequeue, View.attr_dequeue]
      have hspares : v.Spares {v.curr}
          ((v.dequeue v.curr).modAttr v.curr fun t => { t with onRq := false }) :=
        (View.Spares.dequeue (Set.mem_singleton _)).trans (.modAttr (Set.mem_singleton _) _)
      have hsame : ((v.dequeue v.curr).modAttr v.curr fun t => { t with onRq := false }).curr =
          v.curr := View.frame_dequeue.curr
      generalize (v.dequeue v.curr).modAttr v.curr (fun t => { t with onRq := false }) = w
        at hstay hoff hspares hsame ⊢
      -- the running task is off the queue now, so it is none of those that stay
      have hcurr : keep v.curr = false := by
        by_contra hkeep
        have hrun := hstay v.curr (by simpa using hkeep)
        rw [← hsame, View.onRq_wakeWorker, hsame, hoff, if_pos rfl] at hrun
        cases hrun
      have hon' : ∀ q, keep q = true → (w.attr q).onRq = true := by
        intro q hq
        have hne : q ≠ v.curr := by
          rintro rfl
          rw [hcurr] at hq
          cases hq
        rw [hoff, if_neg hne]
        exact hon q hq
      rw [View.filter_wakeWorker worker hon']
      refine hspares.order keep ?_
      rintro q rfl
      exact hcurr
  · rfl

/-- **Only an expiry changes the order of two undisturbed tasks.**  Of tasks that are queued before
and after an operation, are not disturbed by it and do not expire, it leaves the order. -/
theorem filter_step {o : Op} (hinv : Inv m s) (hstep : step m s o = some t) {keep : Pid → Bool}
    (hqueued : ∀ q, keep q = true → q ∈ s.rq.wrr.queue)
    (hqueued' : ∀ q, keep q = true → q ∈ t.rq.wrr.queue)
    (hleft : ∀ q, keep q = true → disturbs q s o = false)
    (hexpires : ∀ q, keep q = true → expires q s o = false) :
    t.rq.wrr.queue.filter keep = s.rq.wrr.queue.filter keep := by
  by_cases hspared : ∀ q ∈ targets m s o, keep q = false
  · exact (spares_step hinv hstep).order keep hspared
  simp only [not_forall] at hspared
  obtain ⟨q, hq, hkeep⟩ := hspared
  have hkeep : keep q = true := by simpa using hkeep
  obtain ⟨hon, hcls, hlisted⟩ := hinv.of_mem_queue (hqueued q hkeep)
  have hcls' : (t.tasks q).schedClass = .wrr := ((hinv.step hstep).of_mem_queue (hqueued' q hkeep)).2.1
  have hnodisturb := hleft q hkeep
  have hcall := callable_of_step hstep
  have hview := hinv.view_step hstep
  have hsame : t.view.wrr = s.view.wrr →
      t.rq.wrr.queue.filter keep = s.rq.wrr.queue.filter keep := by
    intro hwrr
    rw [show t.rq.wrr = s.rq.wrr from hwrr]
  cases o with
  | tryToWakeUp p state =>
      obtain rfl : q = p := hq
      refine hsame ?_
      rw [hview]
      split
      · rfl
      · exact View.wrr_wake hon
  | wakeUpNewTask p =>
      obtain rfl : q = p := hq
      simp [callable, hon] at hcall
  | schedFork child f =>
      obtain rfl : q = child := hq
      simp [callable, hlisted] at hcall
  | schedule preemptActive =>
      obtain ⟨worker, next, -, hv⟩ := hview
      show t.view.wrr.queue.filter keep = s.view.wrr.queue.filter keep
      rw [hv]
      refine View.filter_putToSleep preemptActive worker ?_ ?_
      · exact fun q hq => (hinv.of_mem_queue (hqueued q hq)).1
      · intro q hq
        have hon' : (t.view.attr q).onRq = true :=
          ((hinv.step hstep).of_mem_queue (hqueued' q hq)).1
        rw [hv] at hon'
        exact hon'
  | schedYield =>
      obtain rfl : q = s.rq.curr := hq
      simp [disturbs] at hnodisturb
  | schedulerTick =>
      obtain rfl : q = s.rq.curr := hq
      have hpolicy : (s.tasks s.rq.curr).policy = .wrr := (hinv.legal.task s.rq.curr).ok.wrr hcls
      have hslice : s.view.slice s.rq.curr ≠ 1 := by
        intro hone
        have hexp := hexpires s.rq.curr hkeep
        rw [expires, ticks_iff.mpr ⟨rfl, rfl, hcls⟩] at hexp
        simp only [Bool.true_and, decide_eq_false_iff_not] at hexp
        exact hexp (slice_eq_one.mpr hone)
      have htick : t.view = s.view.tickWrr m s.rq.curr := hview.trans (if_pos hcls)
      show t.view.wrr.queue.filter keep = s.view.wrr.queue.filter keep
      rw [htick, View.queue_tickWrr hpolicy, if_neg fun hc => hslice hc.1]
  | schedSetscheduler p policy prio user who seen =>
      obtain rfl : q = p := hq
      refine hsame ?_
      rcases hview with hv | ⟨c, hc, hv⟩
      · rw [hv]
      · -- a task that stays in the class keeps its policy, and then there is nothing to change
        exfalso
        have hown : (s.tasks q).policy = .wrr := (hinv.legal.task q).ok.wrr hcls
        have hattr : (t.view.attr q).schedClass = .wrr := hcls'
        rw [hv, View.attr_detached, if_pos rfl] at hattr
        have hpolicy := applyPolicy_schedClass.mp hattr
        have hchange := hc.change
        rw [show nothingToChange (s.view.attr q) c.policy prio = true from by
          show nothingToChange (s.tasks q).toAttr c.policy prio = true
          simp [nothingToChange, hpolicy, hown, rtPolicy]] at hchange
        cases hchange
  | rtMutexSetprio p prio =>
      obtain rfl : q = p := hq
      simp only [View.Step] at hview
      split at hview
      · exact hsame (by rw [hview])
      · exfalso
        have hattr : (t.view.attr q).schedClass = .wrr := hcls'
        rw [hview, View.attr_detached, if_pos rfl] at hattr
        exact setprioClass_ne_wrr prio hattr
  | setUserNice p nice =>
      obtain rfl : q = p := hq
      simp [disturbs] at hnodisturb
  | schedMoveTask p tg =>
      obtain rfl : q = p := hq
      simp [disturbs] at hnodisturb
  | normalizeRtTasks =>
      exfalso
      obtain ⟨-, hmm, hnorm⟩ := hq
      simp only [disturbs, hlisted, decide_true, Bool.true_and] at hnodisturb
      have hmm' : (s.tasks q).mm = true := hmm
      rw [hmm'] at hnodisturb
      rcases hnorm with hrt | hnice
      · have hrt' : rtPrio (s.tasks q).prio = true := hrt
        simp [hrt'] at hnodisturb
      · have hnice' : prioToNice (s.tasks q).staticPrio < 0 := hnice
        simp [hnice'] at hnodisturb
  | schedSetStopTask stop who seen =>
      exfalso
      rw [(hinv.stop_spared hcall hq).1] at hon
      cases hon
  | schedRrGetInterval p => exact absurd hq (Set.notMem_empty q)
  | doSchedRtPeriodTimer g overrun => exact absurd hq (Set.notMem_empty q)
  | releaseTask p =>
      refine hsame ?_
      rw [hview]
  | initIdleBootupTask | setCurrentState | foreign =>
      refine hsame ?_
      rw [hview]
      rfl

/-! ### Whose turn it is

`Turn` says that a task of the two that runs is the first of them, or is about to be
replaced.  It is established when `__schedule` picks, which takes the head; it
survives operations that keep the order; and an expiry, which breaks it, leaves a
pending reschedule.  Ticks wait for that.
-/

/-- **A WRR task that is picked is the head.** -/
theorem OnQueue.pick_head (h : OnQueue m s) (hidle : (s.tasks s.rq.idle).schedClass ≠ .wrr)
    {next : Pid} (hpick : pickNextTask m s = .ok (next, t))
    (hcls : (s.tasks next).schedClass = .wrr) : s.rq.wrr.queue.head? = some next := by
  have hnot : ∀ c, c ≠ SchedClass.wrr → (s.tasks next).schedClass ≠ c := by
    rintro c hc rfl
    exact hc hcls
  rw [h.pickNextTask_eq, forEachClass] at hpick
  have hpick := ((h.pickFromClasses_cons (by simp) hpick).resolve_left (hnot _ (by simp))).2
  have hpick := ((h.pickFromClasses_cons (by simp) hpick).resolve_left (hnot _ (by simp))).2
  have hlower : ∀ s', pickFromClasses m s [.fair, .idle] ≠ .ok (next, s') := by
    intro s' hlow
    have hidlePick := ((h.pickFromClasses_cons (by simp) hlow).resolve_left (hnot _ (by simp))).2
    simp only [pickFromClasses, SchedClass.pickNextTask, pickNextTaskIdle, Except.ok.injEq,
      Prod.mk.injEq] at hidlePick
    rw [← hidlePick.1] at hcls
    exact hidle hcls
  rw [pickFromClasses] at hpick
  simp only [SchedClass.pickNextTask, pickNextTaskWrr] at hpick
  by_cases hzero : s.rq.wrr.wrrNrRunning = 0
  · rw [if_pos hzero] at hpick
    exact absurd hpick (hlower t)
  · rw [if_neg hzero] at hpick
    cases hhead : s.rq.wrr.queue.head? with
    | none =>
        rw [hhead] at hpick
        cases hpick
    | some p =>
        rw [hhead] at hpick
        simp only [Except.ok.injEq, Prod.mk.injEq] at hpick
        rw [hpick.1]

/-- **A WRR task that `__schedule` switches to is the head.** -/
theorem head_of_schedule {preemptActive : Bool} (hinv : Inv m s)
    (hstep : step m s (.schedule preemptActive) = some t) (hcls : t.current.schedClass = .wrr) :
    t.rq.wrr.queue.head? = some t.rq.curr := by
  have hinv' := hinv.step hstep
  obtain ⟨next, s', hpick, rfl⟩ := schedule_of_step hstep
  have hput := hinv.onQueue_pick preemptActive
  have hview := view_switchTo_pick hpick
  generalize putPrevTask m s.rq.curr (putToSleep m preemptActive s) = s₁ at hpick hput hview
  have htasks : (switchTo next s').tasks = s₁.tasks := congrArg View.tasks hview
  have hqueue : (switchTo next s').rq.wrr = s₁.rq.wrr := congrArg View.wrr hview
  have hcurr : (switchTo next s').rq.curr = next := congrArg View.curr hview
  have hidle : (switchTo next s').rq.idle = s₁.rq.idle := congrArg View.idle hview
  rw [hcurr, hqueue]
  refine hput.pick_head ?_ hpick ?_
  · intro hc
    rw [← htasks, ← hidle] at hc
    have hlow := ((hinv'.legal.task (switchTo next s').rq.idle).idleLow rfl).2
    rw [show ((switchTo next s').view.attr (switchTo next s').rq.idle).schedClass = .wrr from hc]
      at hlow
    simp at hlow
  · rw [← htasks, ← hcurr]
    exact hcls

/-- Of two tasks, the one that runs comes first, or a reschedule is pending. -/
def Turn (i j : Pid) (s : State) : Prop :=
  s.rq.curr = i ∨ s.rq.curr = j → s.needResched = true ∨
    (Sequence.order i j s.rq.wrr.queue).head? = some s.rq.curr

/-- An orderly operation that is no expiry of the two leaves their order. -/
theorem order_step {o : Op} (hinv : Inv m s) (hstep : step m s o = some t)
    (horderly : orderly i j s o = true) (hi : i ∈ t.rq.wrr.queue) (hj : j ∈ t.rq.wrr.queue)
    (hexpires : expires i s o = false ∧ expires j s o = false) :
    Sequence.order i j t.rq.wrr.queue = Sequence.order i j s.rq.wrr.queue := by
  simp only [orderly, Bool.and_eq_true, decide_eq_true_eq, Bool.not_eq_true'] at horderly
  obtain ⟨⟨⟨⟨hi₀, hj₀⟩, hdi⟩, hdj⟩, -⟩ := horderly
  have hboth : ∀ {P : Pid → Prop}, P i → P j → ∀ q, decide (q = i ∨ q = j) = true → P q := by
    intro P hPi hPj q hq
    rcases of_decide_eq_true hq with rfl | rfl
    · exact hPi
    · exact hPj
  exact filter_step hinv hstep (hboth hi₀ hj₀) (hboth hi hj) (hboth hdi hdj)
    (hboth hexpires.1 hexpires.2)

/-- An expiry of one of the two puts it last, and asks for a reschedule. -/
theorem order_expires {o : Op} (hinv : Inv m s) (hstep : step m s o = some t) (hij : i ≠ j)
    (hi : i ∈ s.rq.wrr.queue) (hj : j ∈ s.rq.wrr.queue) (hexpires : expires i s o = true) :
    Sequence.order i j t.rq.wrr.queue = [j, i] ∧ t.needResched = true := by
  obtain ⟨A, hA, -⟩ := hinv.queued
  have hnodup : s.rq.wrr.queue.Nodup := hA.enq.nodup
  obtain ⟨hqueue, hn⟩ := givesWay_of_expires hinv hstep hexpires
    (Sequence.two_le_length hnodup hi hj hij)
  exact ⟨by rw [hqueue, Sequence.order_moveTail hnodup hj hij], hn⟩

/-- **It stays the turn of the one that runs** until a reschedule is pending. -/
theorem turn_step {o : Op} (hinv : Inv m s) (hstep : step m s o = some t) (hij : i ≠ j)
    (hturn : Turn i j s) (horderly : orderly i j s o = true) (hi : i ∈ t.rq.wrr.queue)
    (hj : j ∈ t.rq.wrr.queue) : Turn i j t := by
  have hinv' := hinv.step hstep
  by_cases hsched : ∃ b, o = .schedule b
  · obtain ⟨preemptActive, rfl⟩ := hsched
    intro hmine
    have hcurr : t.rq.curr ∈ t.rq.wrr.queue := by
      rcases hmine with h | h
      · exact h ▸ hi
      · exact h ▸ hj
    exact Or.inr (Sequence.head?_order
      (head_of_schedule hinv hstep (hinv'.of_mem_queue hcurr).2.1) hmine)
  · have hcurr : t.rq.curr = s.rq.curr :=
      (keeps_step hinv.legal (callable_of_step hstep) (fun b hb => hsched ⟨b, hb⟩)
        (hinv.view_step hstep)).curr
    have hqueued : i ∈ s.rq.wrr.queue ∧ j ∈ s.rq.wrr.queue := by
      simp only [orderly, Bool.and_eq_true, decide_eq_true_eq] at horderly
      exact ⟨horderly.1.1.1.1, horderly.1.1.1.2⟩
    intro hmine
    rw [hcurr] at hmine ⊢
    by_cases hexpires : expires i s o = true
    · exact Or.inl (order_expires hinv hstep hij hqueued.1 hqueued.2 hexpires).2
    by_cases hexpires' : expires j s o = true
    · exact Or.inl (order_expires hinv hstep hij.symm hqueued.2 hqueued.1 hexpires').2
    rw [order_step hinv hstep horderly hi hj ⟨by simpa using hexpires, by simpa using hexpires'⟩]
    exact (hturn hmine).imp_left (needResched_step hinv hstep fun b hb => hsched ⟨b, hb⟩)

/-- The expiries of the second task that come before the next of the first. -/
def due (i j : Pid) (s : State) : Nat :=
  if Sequence.order i j s.rq.wrr.queue = [j, i] then 1 else 0

theorem queued_of_orderly {o : Op} (h : orderly i j s o = true) :
    i ∈ s.rq.wrr.queue ∧ j ∈ s.rq.wrr.queue := by
  simp only [orderly, Bool.and_eq_true, decide_eq_true_eq] at h
  exact ⟨h.1.1.1.1, h.1.1.1.2⟩

theorem orderly_comm {o : Op} : orderly i j s o = orderly j i s o := by
  simp only [orderly]
  ac_rfl

theorem Turn.comm (h : Turn i j s) : Turn j i s := by
  intro hmine
  rw [Sequence.order_comm]
  exact h hmine.symm

/-- **Only the task that comes first expires.** -/
theorem head?_of_expires {o : Op} (hturn : Turn i j s) (horderly : orderly i j s o = true)
    (hexpires : expires i s o = true) :
    (Sequence.order i j s.rq.wrr.queue).head? = some i := by
  simp only [expires, Bool.and_eq_true] at hexpires
  obtain ⟨rfl, hcurr, -⟩ := ticks_iff.mp hexpires.1
  have hn : s.needResched = false := by
    simp only [orderly, served, Bool.and_eq_true, Bool.not_eq_true'] at horderly
    exact horderly.2
  have hhead := (hturn (Or.inl hcurr)).resolve_left (by rw [hn]; simp)
  rwa [hcurr] at hhead

theorem due_step {o : Op} (hinv : Inv m s) (hstep : step m s o = some t) (hij : i ≠ j)
    (hturn : Turn i j s) (horderly : orderly i j s o = true) (hi : i ∈ t.rq.wrr.queue)
    (hj : j ∈ t.rq.wrr.queue) (hfirst : expires i s o = false) :
    due i j t + (expires j s o).toNat = due i j s := by
  obtain ⟨hi₀, hj₀⟩ := queued_of_orderly horderly
  cases hsecond : expires j s o with
  | false =>
      rw [due, order_step hinv hstep horderly hi hj ⟨hfirst, hsecond⟩]
      rfl
  | true =>
      have hhead : (Sequence.order i j s.rq.wrr.queue).head? = some j := by
        rw [Sequence.order_comm]
        exact head?_of_expires hturn.comm (orderly_comm.symm.trans horderly) hsecond
      have hlast := (order_expires hinv hstep hij.symm hj₀ hi₀ hsecond).1
      obtain ⟨A, hA, -⟩ := hinv.queued
      have hnodup : s.rq.wrr.queue.Nodup := hA.enq.nodup
      have hbefore : Sequence.order i j s.rq.wrr.queue = [j, i] := by
        refine (Sequence.order_eq hnodup hi₀ hj₀ hij).resolve_left ?_
        intro hc
        rw [hc] at hhead
        exact hij (Option.some.inj hhead)
      have hafter : Sequence.order i j t.rq.wrr.queue ≠ [j, i] := by
        rw [Sequence.order_comm, hlast]
        intro hc
        exact hij (List.cons.inj hc).1
      rw [due, due, if_neg hafter, if_pos hbefore]
      rfl

/-! ### Runs

`due` counts how many times the second task expires before the first does again: once
if it is ahead in the queue, as it is when the first has just expired, and else not at
all.  Each step takes from it what happened, so along a run from one expiry to the
next exactly one is used up.  The ticks of the quantum are counted by
`ticksLeft_countdown`, which does not depend on the other task.
-/

/-- **Between two expiries of a task another one expires once.** -/
theorem countP_expires (hinv : Inv m s) {o o' : Op} (hij : i ≠ j) (hstep : step m s o = some t)
    (hfirst : expires i s o = true) {tr : List (State × Op)} (hrun : Run (step m) t tr u)
    (hnext : expires i u o' = true) (hbetween : ∀ e ∈ tr, expires i e.1 e.2 = false)
    (horderly : ∀ e ∈ (s, o) :: tr ++ [(u, o')], orderly i j e.1 e.2 = true) :
    tr.countP (fun e => expires j e.1 e.2) = 1 := by
  have hstart := horderly (s, o) (by simp)
  have hend := horderly (u, o') (by simp)
  have hmiddle : ∀ e ∈ tr, orderly i j e.1 e.2 = true := fun e he => horderly e (by simp [he])
  have hqueued : ∀ e ∈ tr, ∀ v, step m e.1 e.2 = some v →
      i ∈ v.rq.wrr.queue ∧ j ∈ v.rq.wrr.queue :=
    fun e he v hv => hrun.after (fun v => i ∈ v.rq.wrr.queue ∧ j ∈ v.rq.wrr.queue)
      (queued_of_orderly hend) (fun e he => queued_of_orderly (hmiddle e he)) he hv
  obtain ⟨hi, hj⟩ := queued_of_orderly hstart
  obtain ⟨hlast, hn⟩ := order_expires hinv hstep hij hi hj hfirst
  have hkeep : ∀ s o t, Inv m s ∧ Turn i j s → (orderly i j s o = true ∧ expires i s o = false ∧
      ∀ v, step m s o = some v → i ∈ v.rq.wrr.queue ∧ j ∈ v.rq.wrr.queue) →
      step m s o = some t → Inv m t ∧ Turn i j t :=
    fun s o t h ho hstep => ⟨h.1.step hstep,
      turn_step h.1 hstep hij h.2 ho.1 (ho.2.2 t hstep).1 (ho.2.2 t hstep).2⟩
  have hbegin : Inv m t ∧ Turn i j t := ⟨hinv.step hstep, fun _ => Or.inl hn⟩
  have hall : ∀ e ∈ tr, orderly i j e.1 e.2 = true ∧ expires i e.1 e.2 = false ∧
      ∀ v, step m e.1 e.2 = some v → i ∈ v.rq.wrr.queue ∧ j ∈ v.rq.wrr.queue :=
    fun e he => ⟨hmiddle e he, hbetween e he, hqueued e he⟩
  have hcount := hrun.countdown _ _ (due i j) (expires j) hkeep
    (fun s o t h ho hstep => due_step h.1 hstep hij h.2 ho.1 (ho.2.2 t hstep).1
      (ho.2.2 t hstep).2 ho.2.1) hbegin hall
  have hturn := (hrun.invariant _ _ hkeep hbegin hall).1.2
  have hone : due i j t = 1 := if_pos hlast
  have hzero : due i j u = 0 := by
    refine if_neg ?_
    intro hc
    have hhead := head?_of_expires hturn hend hnext
    rw [hc] at hhead
    exact hij (Option.some.inj hhead).symm
  omega

/-- **The round robin is fair.**  Between two consecutive expiries of a task it has the ticks of the
quantum of its group at the first, and every other task that stays queued with it expires once. -/
theorem roundRobin (hpath : WritesPath m) (hhz : 100 ∣ m.HZ) (h : Reachable m s) {o o' : Op}
    (hstep : step m s o = some t) (hfirst : expires i s o = true) {tr : List (State × Op)}
    (hrun : Run (step m) t tr u) (hnext : expires i u o' = true)
    (hbetween : ∀ e ∈ tr, keepsSlice i e.1 e.2)
    (hgroup : m.cgroup (s.tasks i).schedTaskGroup = foregroup ∨
      m.cgroup (s.tasks i).schedTaskGroup = backgroup) :
    tr.countP (fun e => ticks i e.1 e.2) + 1 =
        (quantum m (m.cgroup (s.tasks i).schedTaskGroup)).toNat ∧
      ∀ j, i ≠ j → (∀ e ∈ (s, o) :: tr ++ [(u, o')], orderly i j e.1 e.2 = true) →
        tr.countP (fun e => expires j e.1 e.2) = 1 := by
  have hinv := inv_of_reachable h
  constructor
  · have hticks : ticks i u o' = true := by
      simp only [expires, Bool.and_eq_true] at hnext
      exact hnext.1
    have hpos := (quantum_range hhz hgroup).1
    have hperiod := (period_of_expires hpath hinv hstep hfirst hrun hbetween hticks).mp hnext
    rwa [if_neg] at hperiod
    intro hzero
    rw [hzero] at hpos
    exact absurd hpos (by decide)
  · intro j hij horderly
    exact countP_expires hinv hij hstep hfirst hrun hnext (fun e he => (hbetween e he).2) horderly

/-- A slice, and the other task's, and the slice again. -/
def oneRound : List Op :=
  [.schedule false, .schedulerTick, .schedule false] ++ List.replicate 9 .schedulerTick

instance (p : Pid) (s : State) (o : Op) : Decidable (keepsSlice p s o) :=
  inferInstanceAs (Decidable (_ ∧ _))

/-- Ten ticks of the first task, and one expiry of the second. -/
theorem roundRobin_startTwoWrr : ∃ (s u : State) (tr : List (State × Op)),
    expires 1 s .schedulerTick = true ∧ expires 1 u .schedulerTick = true ∧
    Run (step (sampleMachine 1)) (schedulerTick (sampleMachine 1) s) tr u ∧
    tr.countP (fun e => ticks 1 e.1 e.2) + 1 = 10 ∧
    tr.countP (fun e => expires 2 e.1 e.2) = 1 := by
  have hexec : ((Run.exec (step (sampleMachine 1)) (boot (sampleMachine 1)) startTwoWrr).any
      fun s => decide (expires 1 s .schedulerTick = true ∧
        (sampleMachine 1).cgroup (s.tasks 1).schedTaskGroup = foregroup ∧
        orderly 1 2 s .schedulerTick = true ∧
        ((Run.trace (step (sampleMachine 1)) (schedulerTick (sampleMachine 1) s) oneRound).any
          fun r => decide (expires 1 r.2 .schedulerTick = true ∧
            orderly 1 2 r.2 .schedulerTick = true ∧ (∀ e ∈ r.1, keepsSlice 1 e.1 e.2) ∧
            ∀ e ∈ r.1, orderly 1 2 e.1 e.2 = true)) = true)) = true := by
    decide +kernel
  obtain ⟨s, hs, hfirst, hgroup, hstart, htrace⟩ := Run.exists_of_exec hexec
  obtain ⟨⟨tr, u⟩, hrun, hnext, hend, hbetween, hmiddle⟩ := Run.exists_of_trace htrace
  obtain ⟨hcount, hone⟩ := roundRobin (fun _ _ => rfl) (by decide) hs rfl hfirst hrun hnext hbetween
    (Or.inl hgroup)
  refine ⟨s, u, tr, hfirst, hnext, hrun, ?_, hone 2 (by decide) ?_⟩
  · rw [hcount, hgroup]
    decide
  · intro e he
    simp only [List.cons_append, List.mem_cons, List.mem_append, List.not_mem_nil, or_false] at he
    rcases he with rfl | he | rfl
    · exact hstart
    · exact hmiddle e he
    · exact hend

end WrrScheduler
