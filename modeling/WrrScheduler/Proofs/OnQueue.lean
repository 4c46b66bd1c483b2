/-
The run queue between two operations.

In the middle of an operation the queued tasks are whatever set has been reached.
Between two operations they are the tasks with `on_rq` set, and every operation of
`core.c` gets back there: it inserts or removes a task and sets or clears the flag,
or it detaches the task, changes it and re-attaches it.

So each lemma below goes through a function once.  Inside it the set is tracked by
`Queued`, which enqueueing and dequeueing move by one task; at its end the set is
compared with the flags, which is all that is left to do.
-/
import WrrScheduler.Proofs.Legal
import WrrScheduler.Proofs.Queued

namespace WrrScheduler

/-- The run queue holds the tasks with `on_rq` set. -/
def OnQueue (m : Machine) (s : State) : Prop :=
  ∃ A, Queued m s A ∧ ∀ p, p ∈ A ↔ (s.tasks p).onRq = true

variable {m : Machine} {s s' t : State} {p : Pid}

/-- A listed task is not in the idle class. -/
theorem View.Legal.cls_ne_idle {v : View} (h : v.Legal) (hp : p ∈ v.tasklist) :
    v.cls p ≠ .idle := by
  intro hc
  have hidle : p = v.idle := (h.task p).idleClass hc
  rw [hidle] at hp
  exact h.idle hp

theorem onRq_modAttr (f : Attr → Attr) (q : Pid) :
    ((s.modAttr p f).tasks q).onRq = if q = p then (f (s.tasks p).toAttr).onRq
      else (s.tasks q).onRq := by
  by_cases hqp : q = p
  · subst hqp
    simp [State.modAttr, State.modTask]
  · simp [State.modAttr, State.modTask, hqp]

/-- The assignments of `__setscheduler`, and the load weight. -/
theorem quiet_setscheduler (policy : Policy) (prio : Int) :
    Quiet m (s.modAttr p (applyPolicy policy prio)) (setscheduler p policy prio s) :=
  quiet_setLoadWeight

/-- And the flag beside them, in a call of `__sched_setscheduler`. -/
theorem quiet_setPolicy (c : Checked) (prio : Int) :
    Quiet m (s.modAttr p (setPolicy c prio)) (setscheduler p c.policy prio
      (s.modAttr p fun t => { t with schedResetOnFork := c.resetOnFork })) := by
  have hflag : s.modAttr p (setPolicy c prio) =
      (s.modAttr p fun t => { t with schedResetOnFork := c.resetOnFork }).modAttr p
        (applyPolicy c.policy prio) := by
    simp [State.modAttr, State.modTask, setPolicy]
  rw [hflag]
  exact quiet_setscheduler c.policy prio

/-- The assignments of `set_user_nice`, and the load weight between them. -/
theorem quiet_renice (nice : Int) : Quiet m (s.modAttr p (renice nice))
    ((setLoadWeight p (setStaticPrio nice p s)).modAttr p applyEffectivePrio) := by
  refine Quiet.of_eq ?_ rfl ?_
  · simp [setStaticPrio, View.modAttr, View.modTask, renice]
  · exact (@quiet_setLoadWeight m (setStaticPrio nice p s) p).resched

/-- `sched_fork` takes the child's copy of the real-time entity off the queue. -/
theorem rt_setUpFork {child : Pid} {f : Foreign} :
    (setUpFork child (dupTaskStruct child f s)).rq.rt =
      { s.rq.rt with runList := Function.update s.rq.rt.runList (.task child) .self } := by
  unfold setUpFork forkClass forkReset
  simp only []
  split <;> split <;> rfl

theorem tasks_setUpFork {child : Pid} {f : Foreign} (hchild : child ≠ s.rq.curr) (q : Pid) :
    (setUpFork child (dupTaskStruct child f s)).tasks q =
      if q = child then forkTask f s.current else s.tasks q := by
  show (setUpFork child (dupTaskStruct child f s)).view.tasks q = _
  rw [view_setUpFork hchild]
  by_cases hq : q = child
  · subst hq
    simp [View.modTask]
  · simp [View.modTask, hq, State.view]

/-! ### The set of tasks with `on_rq` set

Functions that queue nothing are `Quiet` and need no more.  For the others the flag is
written right after the queue, so the lemmas speak of the two together.  What is
written in between, as in `withDetached`, may change everything that decides on which
queue the task belongs.
-/

namespace OnQueue

theorem quiet (h : OnQueue m s) (hq : Quiet m s s') : OnQueue m s' := by
  obtain ⟨A, hA, hon⟩ := h
  refine ⟨A, hA.quiet hq, ?_⟩
  rw [tasks_of_view hq.view]
  exact hon

/-- The tasks, the queues and the counters are the same. -/
theorem of_parts (h : OnQueue m s) (htasks : s'.tasks = s.tasks) (hrt : s'.rq.rt = s.rq.rt)
    (hwrr : s'.rq.wrr = s.rq.wrr) (hcount : s'.rq.nrRunning = s.rq.nrRunning)
    (hcfs : s'.rq.cfs = s.rq.cfs) : OnQueue m s' := by
  obtain ⟨A, hA, hiff⟩ := h
  have hmem : ∀ q, s'.view.cls q = s.view.cls q := by
    intro q
    show (s'.tasks q).schedClass = (s.tasks q).schedClass
    rw [htasks]
  refine ⟨A, ⟨⟨?_, ?_, ?_, ?_, ?_, ?_, ?_⟩, hA.rt.frame hrt ?_ ?_⟩, ?_⟩
  · show s'.rq.wrr.queue.Nodup
    rw [hwrr]
    exact hA.enq.nodup
  · intro q
    show q ∈ s'.rq.wrr.queue ↔ _
    rw [hwrr, hmem]
    exact hA.enq.mem q
  · show s'.rq.wrr.wrrNrRunning = s'.rq.wrr.queue.length
    rw [hwrr]
    exact hA.enq.count
  · intro q
    show (s'.tasks q).wrr.runList = .linked ↔ q ∈ s'.rq.wrr.queue
    rw [hwrr, htasks]
    exact hA.enq.linked q
  · show s'.rq.nrRunning = A.card
    rw [hcount]
    exact hA.enq.nrRunning
  · show s'.rq.cfs.hNrRunning = _
    rw [hcfs]
    simp only [hmem]
    exact hA.enq.hNrRunning
  · intro q hq
    rw [hmem]
    exact hA.enq.notIdle q hq
  · intro q _ _
    rw [htasks]
  · intro q
    rw [hmem]
  · rw [htasks]
    exact hiff

/-- A change that no queue depends on. -/
theorem modAttr (h : OnQueue m s) {f : Attr → Attr} (hcls : ∀ t, (f t).schedClass = t.schedClass)
    (hgroup : ∀ t, (f t).schedTaskGroup = t.schedTaskGroup) (hon : ∀ t, (f t).onRq = t.onRq) :
    OnQueue m (s.modAttr p f) := by
  obtain ⟨A, hA, hiff⟩ := h
  refine ⟨A, hA.modAttr hcls hgroup, ?_⟩
  intro q
  rw [hiff q, onRq_modAttr, hon]
  split
  · rename_i hqp
    rw [hqp]
  · rfl

/-- A change of a task that is not queued. -/
theorem modAttr_off (h : OnQueue m s) {f : Attr → Attr} (hp : (s.tasks p).onRq = false)
    (hon : ∀ t, (f t).onRq = t.onRq) : OnQueue m (s.modAttr p f) := by
  obtain ⟨A, hA, hiff⟩ := h
  have hpA : p ∉ A := by
    rw [hiff, hp]
    simp
  refine ⟨A, hA.modAttr_off f hpA, ?_⟩
  intro q
  rw [hiff q, onRq_modAttr, hon]
  split
  · rename_i hqp
    rw [hqp]
  · rfl

/-- Put a task on the run queue. -/
theorem activate (h : OnQueue m s) (flags : EnqueueFlags) (hp : (s.tasks p).onRq = false)
    (hidle : (s.tasks p).schedClass ≠ .idle) :
    OnQueue m (setOnRq true p (activateTask m flags p s)) := by
  obtain ⟨A, hA, hiff⟩ := h
  have hpA : p ∉ A := by
    rw [hiff, hp]
    simp
  refine ⟨insert p A, (hA.activateTask flags hpA hidle).modAttr (fun _ => rfl) (fun _ => rfl), ?_⟩
  intro q
  rw [setOnRq, onRq_modAttr, Finset.mem_insert]
  split
  · simp [*]
  · rename_i hqp
    have hsame : ((activateTask m flags p s).tasks q).onRq = (s.tasks q).onRq := by
      show (((activateTask m flags p s).view).attr q).onRq = (s.view.attr q).onRq
      rw [view_activateTask, View.attr_enqueue]
    rw [hsame, ← hiff q]
    simp [hqp]

/-- Take the task off the run queue. -/
theorem deactivate (h : OnQueue m s) (hp : (s.tasks p).onRq = true) :
    OnQueue m (setOnRq false p (deactivateTask m p s)) := by
  obtain ⟨A, hA, hiff⟩ := h
  have hpA : p ∈ A := (hiff p).mpr hp
  refine ⟨A.erase p, (hA.deactivateTask hpA).modAttr (fun _ => rfl) (fun _ => rfl), ?_⟩
  intro q
  rw [setOnRq, onRq_modAttr, Finset.mem_erase]
  split
  · simp [*]
  · rename_i hqp
    have hsame : ((deactivateTask m p s).tasks q).onRq = (s.tasks q).onRq := by
      show (((deactivateTask m p s).view).attr q).onRq = (s.view.attr q).onRq
      rw [view_deactivateTask, View.attr_dequeue]
    rw [hsame, ← hiff q]
    simp [hqp]

theorem setTaskState (h : OnQueue m s) (state : Nat) : OnQueue m (setTaskState state p s) := by
  refine h.modAttr ?_ ?_ ?_ <;> exact fun _ => rfl

theorem ttwuDoWakeup (h : OnQueue m s) : OnQueue m (ttwuDoWakeup m p s) :=
  (h.quiet quiet_checkPreemptCurr).setTaskState taskRunning

/-- Wake a task, queued or not. -/
theorem wake (h : OnQueue m s) (hidle : (s.tasks p).schedClass ≠ .idle) :
    OnQueue m (WrrScheduler.ttwuDoWakeup m p
      (if (s.tasks p).onRq then s else ttwuActivate m p s)) := by
  by_cases hon : (s.tasks p).onRq = true
  · rw [if_pos hon]
    exact h.ttwuDoWakeup
  · rw [if_neg hon]
    exact (h.activate _ (by simpa using hon) hidle).ttwuDoWakeup

/-- **Detach, change, re-attach.** -/
theorem withDetached (h : OnQueue m s) (running : Bool) (flags : EnqueueFlags)
    {change : State → State} {f : Attr → Attr} (hf : Settles f)
    (hchange : ∀ s : State, Quiet m (s.modAttr p f) (change s)) :
    OnQueue m (withDetached m running flags p change s) := by
  obtain ⟨A, hA, hiff⟩ := h
  refine ⟨A, hA.withDetached (hiff p) running flags hchange hf.notIdle, ?_⟩
  intro q
  have hview := @view_withDetached m s p running flags change f
    (fun s => (hchange s).view.trans (view_modAttr f))
  have hattr : ((WrrScheduler.withDetached m running flags p change s).tasks q).toAttr =
      if q = p then f (s.view.attr p) else s.view.attr q := by
    show (WrrScheduler.withDetached m running flags p change s).view.attr q = _
    rw [hview]
    exact View.attr_detached f
  rw [hiff q, hattr]
  split
  · rename_i hqp
    rw [hqp, hf.onRq]
    rfl
  · rfl

theorem tryToWakeUpLocal (h : OnQueue m s) (hidle : (s.tasks p).schedClass ≠ .idle) :
    OnQueue m (tryToWakeUpLocal m p s) := by
  unfold WrrScheduler.tryToWakeUpLocal
  split
  · exact h
  · split
    · exact h
    · exact h.wake hidle

theorem setUserNice (h : OnQueue m s) (nice : Int) : OnQueue m (setUserNice m p nice s) := by
  unfold WrrScheduler.setUserNice
  split
  · exact h
  · rename_i hrange
    have hnice : -20 ≤ nice ∧ nice ≤ 19 := by
      simp only [Bool.or_eq_true, decide_eq_true_eq, not_or] at hrange
      omega
    split
    · refine h.modAttr ?_ ?_ ?_ <;> exact fun _ => rfl
    · exact quiet (withDetached h false {} (settles_renice hnice.1 hnice.2) fun _ => quiet_renice nice)
        (quiet_reschedTaskIf _)

theorem schedMoveTask (h : OnQueue m s) (tg : Gid) : OnQueue m (schedMoveTask m p tg s) :=
  withDetached h _ _ (settles_group tg) fun _ => quiet_taskMoveGroup _

theorem changePolicy (h : OnQueue m s) (c : Checked) {prio : Int} (h0 : 0 ≤ prio)
    (h99 : prio ≤ 99) : OnQueue m (changePolicy m p c prio s) := by
  exact quiet (withDetached h _ _ (settles_setPolicy c h0 h99) fun _ => quiet_setPolicy c prio)
    (quiet_checkClassChanged _ _)

theorem rtMutexSetprio (h : OnQueue m s) (prio : Int) : OnQueue m (rtMutexSetprio m p prio s) := by
  unfold WrrScheduler.rtMutexSetprio
  split
  · exact h
  · exact quiet (withDetached h _ _ (settles_setprio prio) fun s => Quiet.refl m _)
      (quiet_checkClassChanged _ _)

theorem normalizeTask (h : OnQueue m s) : OnQueue m (normalizeTask m p s) := by
  have hdetached := @withDetached m s p h false {} (setscheduler p .normal 0) _
    (settles_applyPolicy .normal (le_refl 0) (by decide)) fun _ => quiet_setscheduler _ _
  exact (hdetached.quiet (quiet_reschedTaskIf _)).quiet (quiet_checkClassChanged _ _)

theorem normalizeOne (h : OnQueue m s) : OnQueue m (normalizeOne m s p) := by
  unfold WrrScheduler.normalizeOne
  split
  · exact h
  · have hstamp : OnQueue m (s.modAcct p fun a => { a with se := { a.se with execStart := 0 } }) :=
      h.quiet (Quiet.modAcct fun _ h => h)
    simp only []
    split
    · split
      · exact hstamp.setUserNice 0
      · exact hstamp
    · exact hstamp.normalizeTask

theorem normalizeRtTasks (h : OnQueue m s) : OnQueue m (normalizeRtTasks m s) := by
  have hfold : ∀ (l : List Pid) (s : State), OnQueue m s →
      OnQueue m (l.foldl (WrrScheduler.normalizeOne m) s) := by
    intro l
    induction l with
    | nil => exact fun _ h => h
    | cons p l ih => exact fun s h => ih _ h.normalizeOne
  exact hfold s.tasklist s h

theorem schedSetscheduler (h : OnQueue m s) {policy : BitVec 32} {prio ret : Int} {user : Bool}
    {who : Caller} {seen : List Attr}
    (hcall : schedSetscheduler m p prio user who seen policy s = some (ret, t)) : OnQueue m t := by
  cases schedSetscheduler_done hcall with
  | failed _ => exact h
  | nothing _ _ _ _ => exact h
  | @changed c _ hnonneg hle _ _ => exact h.changePolicy c hnonneg hle

/-- A call of `__sched_setscheduler` changes neither `on_rq` nor the stop task. -/
theorem schedSetscheduler_onRq {policy : BitVec 32} {prio ret : Int} {user : Bool} {who : Caller}
    {seen : List Attr} (hcall : WrrScheduler.schedSetscheduler m p prio user who seen policy s =
      some (ret, t)) (q : Pid) : (t.tasks q).onRq = (s.tasks q).onRq ∧ t.rq.stop = s.rq.stop := by
  show (t.view.attr q).onRq = (s.view.attr q).onRq ∧ t.view.stop = s.view.stop
  rcases view_schedSetscheduler hcall with hsame | ⟨c, -, hview⟩
  · rw [hsame]
    exact ⟨rfl, rfl⟩
  · rw [hview, View.attr_detached]
    refine ⟨?_, (View.frame_detached _).stop⟩
    split
    · rename_i hqp
      rw [hqp]
      rfl
    · rfl

theorem replaceStop (h : OnQueue m s) (stop : Option Pid)
    (hold : ∀ old ∈ s.rq.stop, (s.tasks old).onRq = false) : OnQueue m (replaceStop stop s) := by
  have hset : OnQueue m (s.modRq fun r => { r with stop := stop }) :=
    h.of_parts rfl rfl rfl rfl rfl
  unfold WrrScheduler.replaceStop
  split
  · exact hset
  · rename_i old hstop
    exact hset.modAttr_off (hold old hstop) fun _ => rfl

theorem schedSetStopTask (h : OnQueue m s) {who : Caller} {seen : List Attr} {stop : Option Pid}
    (hnew : ∀ p ∈ stop, (s.tasks p).onRq = false)
    (hold : ∀ old ∈ s.rq.stop, (s.tasks old).onRq = false)
    (hcall : schedSetStopTask m who seen stop s = some t) : OnQueue m t := by
  cases stop with
  | none =>
      cases hcall
      exact h.replaceStop none hold
  | some p =>
      obtain ⟨s', hmake, rfl⟩ := Option.map_eq_some_iff.mp hcall
      unfold makeStop at hmake
      split at hmake
      · cases hmake
      · rename_i ret s'' hset
        cases hmake
        have hon := schedSetscheduler_onRq hset
        refine replaceStop (modAttr_off (h.schedSetscheduler hset) ?_ ?_) (some p) ?_
        · rw [(hon p).1]
          exact hnew p rfl
        · exact fun _ => rfl
        · intro old hmem
          have hmem' : old ∈ s.rq.stop := by
            rw [← (hon p).2]
            exact hmem
          rw [onRq_modAttr, (hon old).1, hold old hmem']
          split
          · show ((s''.tasks p).toAttr).onRq = false
            rw [(hon p).1]
            exact hnew p rfl
          · rfl

theorem goToSleep (h : OnQueue m s) (hlegal : s.view.Legal) (hon : s.current.onRq = true) :
    OnQueue m (goToSleep m s) := by
  have hoff : OnQueue m (setOnRq false s.rq.curr (deactivateTask m s.rq.curr s)) :=
    h.deactivate hon
  have hlegal' : (setOnRq false s.rq.curr (deactivateTask m s.rq.curr s)).view.Legal := by
    rw [view_setOnRq, view_deactivateTask]
    exact (hlegal.same View.frame_dequeue fun _ => View.attr_dequeue).setOnRq false (by simp)
  unfold WrrScheduler.goToSleep
  simp only []
  split
  · exact hoff
  · rename_i p _
    exact hoff.tryToWakeUpLocal (hlegal'.cls_ne_idle p.2)

theorem putToSleep (h : OnQueue m s) (hlegal : s.view.Legal)
    (hrun : s.rq.curr = s.rq.idle ∨ s.current.onRq = true) (preemptActive : Bool) :
    OnQueue m (putToSleep m preemptActive s) := by
  unfold WrrScheduler.putToSleep
  split
  · rename_i hstate
    split
    · exact h.setTaskState taskRunning
    · refine h.goToSleep hlegal ?_
      rcases hrun with hidle | hon
      · -- the idle task never wants to sleep
        have hruns : s.current.state = taskRunning := (hlegal.task s.rq.curr).idleRuns hidle
        rw [hruns] at hstate
        exact absurd hstate (by simp)
      · exact hon
  · exact h

/-- A change of a WRR entity that keeps its links. -/
theorem modWrrEntity (h : OnQueue m s) {f : SchedWrrEntity → SchedWrrEntity}
    (hf : ∀ w, (f w).runList = w.runList) : OnQueue m (s.modWrrEntity p f) := by
  obtain ⟨A, hA, hiff⟩ := h
  refine ⟨A, hA.modTask (hf _) (fun _ => rfl) (fun _ => rfl), ?_⟩
  intro q
  have hattr : ((s.modWrrEntity p f).tasks q).toAttr = (s.tasks q).toAttr :=
    @View.attr_modEntity s.view p q f
  rw [hattr]
  exact hiff q

theorem mem_queue (h : OnQueue m s) :
    p ∈ s.rq.wrr.queue ↔ (s.tasks p).onRq = true ∧ (s.tasks p).schedClass = .wrr := by
  obtain ⟨A, hA, hiff⟩ := h
  rw [← hiff p]
  exact hA.enq.mem p

theorem requeueTaskWrr (h : OnQueue m s) (hp : p ∈ s.rq.wrr.queue) :
    OnQueue m (requeueTaskWrr p false s) := by
  obtain ⟨A, hA, hiff⟩ := h
  have hattr : ∀ q, ((WrrScheduler.requeueTaskWrr p false s).tasks q).toAttr =
      (s.tasks q).toAttr := fun q => @View.attr_requeueWrr s.view p q
  refine ⟨A, ⟨hA.enq.requeueWrr hp, hA.rt.frame rfl ?_ ?_⟩, ?_⟩
  · intro q _ _
    rw [hattr]
  · intro q
    show (q ∈ A ∧ ((WrrScheduler.requeueTaskWrr p false s).tasks q).schedClass = .rt) ↔
      (q ∈ A ∧ (s.tasks q).schedClass = .rt)
    rw [hattr]
  · intro q
    rw [hattr]
    exact hiff q

theorem schedYield (h : OnQueue m s) (hon : s.current.onRq = true) :
    OnQueue m (schedYield m s) := by
  unfold WrrScheduler.schedYield
  cases hc : s.current.schedClass with
  | rt => exact h.quiet quiet_yieldTaskRt
  | wrr => exact h.requeueTaskWrr (h.mem_queue.mpr ⟨hon, hc⟩)
  | _ => exact h.quiet (quiet_outsideCall _ _)

theorem watchdogWrr (h : OnQueue m s) : OnQueue m (watchdogWrr m p s) := by
  unfold WrrScheduler.watchdogWrr
  split
  · exact h
  · have hcount := @modWrrEntity m s p h
      (fun w => { w with timeout := (s.tasks p).wrr.timeout + 1 }) fun _ => rfl
    exact hcount.quiet (quiet_expireSched _)

theorem expireTaskWrr (h : OnQueue m s) (hp : p ∈ s.rq.wrr.queue) :
    OnQueue m (expireTaskWrr m p s) := by
  have hrefill : OnQueue m ((WrrScheduler.readGroupPath m p s).modWrrEntity p
      (refill m (WrrScheduler.readGroupPath m p s).groupPath)) := by
    refine @modWrrEntity m (WrrScheduler.readGroupPath m p s) p (h.of_parts rfl rfl rfl rfl rfl) _ ?_
    intro w
    unfold refill
    split
    · rfl
    · split <;> rfl
  unfold WrrScheduler.expireTaskWrr
  simp only []
  split
  · exact (hrefill.requeueTaskWrr hp).quiet quiet_reschedTask
  · exact hrefill

theorem taskTickWrr (h : OnQueue m s) (hp : p ∈ s.rq.wrr.queue) :
    OnQueue m (taskTickWrr m p s) := by
  have hqueue : (WrrScheduler.watchdogWrr m p (updateCurrWrr s)).rq.wrr.queue =
      s.rq.wrr.queue := by
    show (WrrScheduler.watchdogWrr m p (updateCurrWrr s)).view.wrr.queue = s.view.wrr.queue
    rw [view_watchdogWrr, view_updateCurrWrr]
    unfold View.watchWrr
    split <;> rfl
  have hwatch : OnQueue m (WrrScheduler.watchdogWrr m p (updateCurrWrr s)) :=
    (h.quiet quiet_updateCurrWrr).watchdogWrr
  unfold WrrScheduler.taskTickWrr
  simp only []
  split
  · exact hwatch
  · have hspend := @modWrrEntity m _ p hwatch (fun w => { w with timeSlice := w.timeSlice - 1 })
      fun _ => rfl
    split
    · exact hspend
    · refine hspend.expireTaskWrr ?_
      show p ∈ (WrrScheduler.watchdogWrr m p (updateCurrWrr s)).rq.wrr.queue
      rw [hqueue]
      exact hp

theorem schedulerTick (h : OnQueue m s)
    (hon : s.current.schedClass = .wrr → s.current.onRq = true) :
    OnQueue m (schedulerTick m s) := by
  have hclock : OnQueue m (updateRqClock m s) := h.quiet quiet_updateRqClock
  have hview : (updateRqClock m s).view = s.view := view_updateRqClock
  have hcurr : (updateRqClock m s).current = s.current := by
    show (updateRqClock m s).view.tasks (updateRqClock m s).view.curr = s.view.tasks s.view.curr
    rw [hview]
  unfold WrrScheduler.schedulerTick
  simp only []
  cases hc : (updateRqClock m s).current.schedClass with
  | rt => exact hclock.quiet quiet_taskTickRt
  | wrr =>
      refine hclock.taskTickWrr (hclock.mem_queue.mpr ⟨?_, hc⟩)
      show (updateRqClock m s).current.onRq = true
      rw [hcurr] at hc ⊢
      exact hon hc
  | _ => exact hclock.quiet (quiet_outsideCall _ _)

theorem schedFork {child : Pid} {f : Foreign} (h : OnQueue m s)
    (hnew : (s.tasks child).onRq = false) (hchild : child ≠ s.rq.curr)
    (hcls : (forkTask f s.current).schedClass ≠ .wrr)
    (hfork : schedFork m child (dupTaskStruct child f s) = .ok t) : OnQueue m t := by
  have hview := @view_setUpFork s child f hchild
  have hrt := @rt_setUpFork s child f
  have htask := @tasks_setUpFork s child f hchild
  unfold WrrScheduler.schedFork at hfork
  simp only [] at hfork
  generalize setUpFork child (dupTaskStruct child f s) = s₁ at hview hrt htask hfork
  have hset : OnQueue m s₁ := by
    obtain ⟨A, hA, hiff⟩ := h
    have hchildA : child ∉ A := by
      rw [hiff, hnew]
      simp
    have hself : (s.view.tasks child).wrr.runList = .self := by
      cases hlink : (s.view.tasks child).wrr.runList with
      | self => rfl
      | linked =>
          exact absurd ((hA.enq.mem child).mp ((hA.enq.linked child).mp hlink)).1 hchildA
    have hsame : s₁.rq.rt = s.rq.rt := by
      have hunlinked : s.rq.rt.runList (.task child) = .self :=
        hA.rt.not_linked fun hc => hchildA hc.1
      rw [hrt, ← hunlinked, Function.update_eq_self]
    have hother : ∀ q ∈ A, s₁.tasks q = s.tasks q := by
      intro q hq
      refine (htask q).trans (if_neg ?_)
      rintro rfl
      exact hchildA hq
    refine ⟨A, ⟨?_, hA.rt.frame hsame ?_ ?_⟩, ?_⟩
    · rw [hview]
      exact hA.enq.modTask hself.symm fun hc => absurd hc hchildA
    · intro q hq _
      rw [hother q hq]
    · intro q
      refine and_congr_right ?_
      intro hq
      show (s₁.tasks q).schedClass = .rt ↔ _
      rw [hother q hq]
      rfl
    · intro q
      rw [htask]
      split
      · rename_i hq
        rw [hq, hiff, hnew, forkTask_onRq]
      · exact hiff q
  rw [htask child, if_pos rfl] at hfork
  cases hc : (forkTask f s.current).schedClass with
  | wrr => exact absurd hc hcls
  | rt =>
      rw [hc] at hfork
      cases hfork
      exact hset
  | _ =>
      rw [hc] at hfork
      cases hfork
      exact hset.quiet (quiet_outsideCall _ _)

/-! ### Picking -/

/-- What a class picks is queued, or idle. -/
theorem of_classPickNextTask (h : OnQueue m s) {c : SchedClass}
    (hpick : c.pickNextTask m s = .ok (some p, s')) :
    p = s.rq.idle ∨ (s.tasks p).onRq = true := by
  cases c with
  | rt =>
      simp only [SchedClass.pickNextTask, pickNextTaskRt] at hpick
      split at hpick
      · cases hpick
      · cases hpick
      · rename_i heq
        cases hpick
        obtain ⟨A, hA, hiff⟩ := h
        exact Or.inr ((hiff p).mp (Rt.TasksOk.of_pick hA.rt heq).1)
  | wrr =>
      simp only [SchedClass.pickNextTask, pickNextTaskWrr] at hpick
      split at hpick
      · cases hpick
      · split at hpick
        · cases hpick
        · rename_i hhead
          cases hpick
          exact Or.inr (h.mem_queue.mp (List.mem_of_head? hhead)).1
  | idle =>
      cases hpick
      exact Or.inl rfl
  | stop | fair =>
      simp only [SchedClass.pickNextTask, pickNextTaskOutside, Except.ok.injEq] at hpick
      split at hpick
      · cases hpick
      · rename_i q _
        cases hpick
        exact Or.inr q.2.2

/-- **What is picked is queued, or is the idle task.** -/
theorem of_pickNextTask (h : OnQueue m s) (hpick : pickNextTask m s = .ok (p, s')) :
    p = s.rq.idle ∨ (s.tasks p).onRq = true := by
  obtain ⟨c, hc⟩ := exists_classPickNextTask hpick
  exact h.of_classPickNextTask hc

theorem switchTo (h : OnQueue m s) (next : Pid) : OnQueue m (switchTo next s) := by
  unfold WrrScheduler.switchTo
  simp only []
  split <;> exact h.of_parts rfl rfl rfl rfl rfl

end OnQueue

end WrrScheduler
