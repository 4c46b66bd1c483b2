/-
The invariant of the scheduler.

Every task is legal, the run queue holds the tasks with `on_rq` set, and what runs
is one of them or the idle task.  Each third is kept by its own argument: the first
by the steps of views, the second operation by operation, and the third because only
`__schedule` changes who runs, and it picks a queued task.

The three need each other.  A task can be put on a run queue only if its class has
one, which legality says; a tick may requeue the running task only because it is
queued; and what is legal to do to a task that runs depends on its being listed.
-/
import WrrScheduler.Proofs.OnQueue

namespace WrrScheduler

/-- The invariant. -/
structure Inv (m : Machine) (s : State) : Prop where
  legal : s.view.Legal
  queued : OnQueue m s
  running : s.rq.curr = s.rq.idle ∨ s.current.onRq = true

variable {m : Machine} {s t : State} {p : Pid}

theorem callable_of_step {o : Op} (h : step m s o = some t) : callable s o = true :=
  (Option.ite_none_right_eq_some.mp h).1

theorem perform_of_step {o : Op} (h : step m s o = some t) : perform m s o = some t :=
  (Option.ite_none_right_eq_some.mp h).2

/-- `sched_fork` ran, and the child is listed. -/
theorem schedFork_of_step {child : Pid} {f : Foreign} (h : step m s (.schedFork child f) = some t) :
    ∃ s', schedFork m child (dupTaskStruct child f s) = .ok s' ∧
      t = { s' with tasklist := child :: s'.tasklist } := by
  obtain ⟨s', hs', rfl⟩ := Option.map_eq_some_iff.mp (perform_of_step h)
  cases hfork : schedFork m child (dupTaskStruct child f s) with
  | error b =>
      rw [hfork] at hs'
      cases hs'
  | ok s₁ =>
      rw [hfork] at hs'
      cases hs'
      exact ⟨s', rfl, rfl⟩

/-- `__schedule`: put the running task to sleep or back, pick, and switch. -/
theorem schedule_of_step {preemptActive : Bool} (h : step m s (.schedule preemptActive) = some t) :
    ∃ next s', pickNextTask m (putPrevTask m s.rq.curr (putToSleep m preemptActive s)) =
      .ok (next, s') ∧ t = switchTo next s' := by
  have hperform := perform_of_step h
  simp only [perform, schedule] at hperform
  split at hperform
  · cases hperform
  · rename_i next s' hpick
    cases hperform
    exact ⟨next, s', hpick, rfl⟩

/-- Where `__schedule` picks, the run queue holds the tasks with `on_rq` set. -/
theorem Inv.onQueue_pick (h : Inv m s) (preemptActive : Bool) :
    OnQueue m (putPrevTask m s.rq.curr (putToSleep m preemptActive s)) :=
  (h.queued.putToSleep h.legal h.running preemptActive).quiet quiet_putPrevTask

/-- Picking and switching changes who runs. -/
theorem view_switchTo_pick {next : Pid} (hpick : pickNextTask m s = .ok (next, t)) :
    (switchTo next t).view = { s.view with curr := next } :=
  (view_switchTo next).trans (congrArg (fun v : View => { v with curr := next })
    (view_pickNextTask hpick))

/-! ### Who runs

`Keeps` is what every operation but `__schedule` does to the running task: it stays,
and it stays queued.  It is stated of views, since queues do not enter into it, and
composes, so a loop or a sequence of changes keeps what each of its parts keeps.
-/

/-- The same task runs, and no queued task has left. -/
structure View.Keeps (v v' : View) : Prop where
  curr : v'.curr = v.curr
  idle : v'.idle = v.idle
  onRq : ∀ q, (v.attr q).onRq = true → (v'.attr q).onRq = true

namespace View.Keeps

variable {v v' : View}

theorem refl (v : View) : v.Keeps v := ⟨rfl, rfl, fun _ h => h⟩

theorem trans {v'' : View} (h : v.Keeps v') (h' : v'.Keeps v'') : v.Keeps v'' :=
  ⟨h'.curr.trans h.curr, h'.idle.trans h.idle, fun q hq => h'.onRq q (h.onRq q hq)⟩

theorem same (hframe : v.Frame v') (hattr : ∀ q, v'.attr q = v.attr q) : v.Keeps v' := by
  refine ⟨hframe.curr, hframe.idle, ?_⟩
  intro q hq
  rw [hattr]
  exact hq

theorem update {a : Attr} (hframe : v.Frame v')
    (hattr : ∀ q, v'.attr q = if q = p then a else v.attr q)
    (ha : (v.attr p).onRq = true → a.onRq = true) : v.Keeps v' := by
  refine ⟨hframe.curr, hframe.idle, ?_⟩
  intro q hq
  rw [hattr]
  split
  · rename_i hqp
    rw [hqp] at hq
    exact ha hq
  · exact hq

theorem modAttr {f : Attr → Attr} (ha : (v.attr p).onRq = true → (f (v.attr p)).onRq = true) :
    v.Keeps (v.modAttr p f) :=
  update (View.frame_modTask _) (fun _ => View.attr_modAttr f) ha

theorem detached (flags : EnqueueFlags) {f : Attr → Attr} (hf : ∀ a, (f a).onRq = a.onRq) :
    v.Keeps (v.detached flags p f) := by
  refine update (View.frame_detached f) (fun _ => View.attr_detached f) ?_
  rw [hf]
  exact fun h => h

theorem setUserNice (nice : Int) : v.Keeps (v.setUserNice p nice) := by
  unfold View.setUserNice
  split
  · exact refl v
  · split
    · exact modAttr fun h => h
    · exact detached {} fun _ => rfl

theorem normalizeOne : v.Keeps (v.normalizeOne p) := by
  unfold View.normalizeOne
  split
  · exact refl v
  · split
    · split
      · exact setUserNice 0
      · exact refl v
    · exact detached {} fun _ => rfl

theorem foldl_normalizeOne (l : List Pid) : v.Keeps (l.foldl View.normalizeOne v) := by
  induction l generalizing v with
  | nil => exact refl v
  | cons p l ih => exact normalizeOne.trans ih

theorem setschedulerStep {policy : BitVec 32} {prio : Int}
    (h : v.SetschedulerStep p policy prio v') : v.Keeps v' := by
  rcases h with rfl | ⟨c, -, rfl⟩
  · exact refl _
  · exact detached {} fun _ => rfl

theorem setStop (stop : Option Pid) : v.Keeps (v.setStop stop) := by
  have hv : v.Keeps { v with stop := stop } := ⟨rfl, rfl, fun _ h => h⟩
  unfold View.setStop
  simp only []
  split
  · exact hv
  · exact hv.trans (modAttr fun h => h)

end View.Keeps

/-- **Only `__schedule` changes who runs**, or takes a task off the run queue. -/
theorem keeps_step {o : Op} (hlegal : s.view.Legal) (hcall : callable s o = true)
    (ho : ∀ b, o ≠ .schedule b) (h : View.Step m s.view t.view o) : s.view.Keeps t.view := by
  cases o with
  | schedule preemptActive => exact absurd rfl (ho preemptActive)
  | tryToWakeUp p state =>
      rw [h]
      split
      · exact .refl _
      · exact .update View.frame_wake (fun _ => View.attr_wake) fun _ => rfl
  | wakeUpNewTask p =>
      rw [h]
      exact (View.Keeps.same View.frame_enqueue fun _ => View.attr_enqueue).trans
        (.modAttr fun _ => rfl)
  | schedFork child f =>
      have hcond : child ∉ s.tasklist ∧ child ≠ s.rq.idle := by simpa [callable] using hcall
      rw [h]
      refine ⟨rfl, rfl, ?_⟩
      intro q hq
      have hqc : q ≠ child := by
        rintro rfl
        exact hcond.1 ((hlegal.task q).listed hq)
      show (Function.update s.view.tasks child (forkTask f (s.view.tasks s.view.curr)) q).onRq = true
      rw [Function.update_of_ne hqc]
      exact hq
  | schedYield =>
      rw [h]
      split
      · exact .same ⟨rfl, rfl, rfl, rfl⟩ fun _ => View.attr_requeueWrr
      · exact .refl _
  | schedulerTick =>
      rw [h]
      split
      · exact .same (View.frame_tickWrr m) fun _ => View.attr_tickWrr m
      · exact .refl _
  | schedSetscheduler p policy prio user who seen => exact .setschedulerStep h
  | rtMutexSetprio p prio =>
      rw [h]
      split
      · exact .refl _
      · exact .detached _ fun _ => rfl
  | setUserNice p nice =>
      rw [h]
      exact .setUserNice nice
  | schedMoveTask p tg =>
      rw [h]
      exact .detached _ fun _ => rfl
  | normalizeRtTasks =>
      rw [h]
      exact .foldl_normalizeOne _
  | schedRrGetInterval p =>
      rw [h]
      split
      · exact ⟨rfl, rfl, fun _ h => h⟩
      · exact .refl _
  | doSchedRtPeriodTimer g overrun =>
      rw [h]
      exact .refl _
  | schedSetStopTask stop who seen =>
      cases stop with
      | none =>
          rw [h]
          exact .setStop none
      | some p =>
          obtain ⟨w, hw, hview⟩ := h
          rw [hview]
          exact (View.Keeps.setschedulerStep hw).trans
            ((View.Keeps.modAttr fun h => h).trans (.setStop (some p)))
  | initIdleBootupTask =>
      rw [h]
      exact .modAttr fun h => h
  | setCurrentState state =>
      rw [h]
      exact .modAttr fun h => h
  | releaseTask p =>
      rw [h]
      exact ⟨rfl, rfl, fun _ h => h⟩
  | foreign p f =>
      rw [h]
      exact .modAttr fun h => h

/-! ### Steps -/

namespace Inv

/-- A child is new, and not a WRR one. -/
theorem forkable (h : Inv m s) {child : Pid} (f : Foreign)
    (hcall : callable s (.schedFork child f) = true) :
    child ≠ s.rq.curr ∧ (forkTask f s.current).schedClass ≠ .wrr := by
  have hcond : child ∉ s.tasklist ∧ child ≠ s.rq.idle := by simpa [callable] using hcall
  have hparent : AttrOk (copyTask f s.current).toAttr := by
    have hok := (h.legal.task s.rq.curr).ok
    exact hok.frame rfl rfl rfl rfl id
  refine ⟨?_, settleAttr_ne_wrr hparent⟩
  rintro rfl
  rcases h.running with hidle | hon
  · exact hcond.2 hidle
  · exact hcond.1 ((h.legal.task s.rq.curr).listed hon)

/-- **A step of the scheduler is a step of its view.** -/
theorem view_step {o : Op} (h : Inv m s) (hstep : step m s o = some t) :
    View.Step m s.view t.view o := by
  refine WrrScheduler.view_step hstep ?_
  rintro child f rfl
  exact h.forkable f (callable_of_step hstep)

/-- The running task is on the WRR queue if its class is WRR. -/
theorem curr_onRq (h : Inv m s) (hcls : s.current.schedClass = .wrr) : s.current.onRq = true := by
  rcases h.running with hidle | hon
  · have ht := h.legal.task s.rq.curr
    have hwrr : s.current.policy = .wrr := ht.ok.wrr hcls
    have hnormal : s.current.policy = .normal := (ht.idleLow hidle).1
    rw [hwrr] at hnormal
    cases hnormal
  · exact hon

/-- A listed task is not the idle task. -/
theorem ne_idle {p : Pid} (h : Inv m s) (hp : p ∈ s.tasklist) : p ≠ s.rq.idle := by
  rintro rfl
  exact h.legal.idle hp

/-- The idle task is on no run queue. -/
theorem idle_off (h : Inv m s) : (s.tasks s.rq.idle).onRq = false := by
  by_contra hon
  have htrue : (s.tasks s.rq.idle).onRq = true := by simpa using hon
  exact h.legal.idle ((h.legal.task s.rq.idle).listed htrue)

/-- The running task is not one that is off the run queue and not idle. -/
theorem curr_ne {p : Pid} (h : Inv m s) (hoff : (s.tasks p).onRq = false) (hidle : p ≠ s.rq.idle) :
    s.rq.curr ≠ p := by
  rintro rfl
  rcases h.running with hcurr | hon
  · exact hidle hcurr
  · have hon' : (s.tasks s.rq.curr).onRq = true := hon
    rw [hoff] at hon'
    cases hon'

/-- Neither the old stop task nor the new one is queued, and neither runs. -/
theorem stop_spared {stop : Option Pid} {who : Caller} {seen : List Attr} {q : Pid} (h : Inv m s)
    (hcall : callable s (.schedSetStopTask stop who seen) = true)
    (hq : some q = stop ∨ some q = s.rq.stop) : (s.tasks q).onRq = false ∧ s.rq.curr ≠ q := by
  simp only [callable, Bool.and_eq_true, Option.all_eq_true, decide_eq_true_eq,
    Bool.not_eq_true'] at hcall
  rcases hq with hq | hq
  · obtain ⟨hlisted, hoff⟩ := hcall.1 q hq.symm
    exact ⟨hoff, h.curr_ne hoff (h.ne_idle hlisted)⟩
  · have hoff := hcall.2 q hq.symm
    refine ⟨hoff, h.curr_ne hoff ?_⟩
    rintro rfl
    exact h.legal.stop hq.symm

theorem onQueue_step {o : Op} (h : Inv m s) (hstep : step m s o = some t) : OnQueue m t := by
  have hq := h.queued
  have hcall := callable_of_step hstep
  have hview := h.view_step hstep
  have hperform := perform_of_step hstep
  cases o with
  | tryToWakeUp p state =>
      have hp : p ∈ s.tasklist := by simpa [callable] using hcall
      cases hperform
      show OnQueue m (tryToWakeUp m p state s).2
      unfold tryToWakeUp
      split
      · exact hq
      · have hwake := @OnQueue.wake m s p hq (h.legal.cls_ne_idle hp)
        split
        · rename_i hon
          rwa [if_pos hon] at hwake
        · rename_i hon
          rwa [if_neg hon] at hwake
  | wakeUpNewTask p =>
      have hcond : (p ∈ s.tasklist ∧ (s.tasks p).onRq = false) ∧
          (s.tasks p).state = taskRunning := by
        simpa [callable] using hcall
      cases hperform
      exact (hq.activate {} hcond.1.2 (h.legal.cls_ne_idle hcond.1.1)).quiet quiet_checkPreemptCurr
  | schedFork child f =>
      obtain ⟨hchild, hcls⟩ := h.forkable f hcall
      have hcond : child ∉ s.tasklist ∧ child ≠ s.rq.idle := by simpa [callable] using hcall
      have hnew : (s.tasks child).onRq = false := by
        by_contra hon
        have htrue : (s.tasks child).onRq = true := by simpa using hon
        exact hcond.1 ((h.legal.task child).listed htrue)
      obtain ⟨s', hfork, rfl⟩ := schedFork_of_step hstep
      exact (hq.schedFork hnew hchild hcls hfork).of_parts rfl rfl rfl rfl rfl
  | schedule preemptActive =>
      obtain ⟨next, s', hpick, rfl⟩ := schedule_of_step hstep
      exact ((h.onQueue_pick preemptActive).quiet (quiet_pickNextTask hpick)).switchTo next
  | schedYield =>
      have hne : s.rq.curr ≠ s.rq.idle := by simpa [callable] using hcall
      cases hperform
      exact hq.schedYield (h.running.resolve_left hne)
  | schedulerTick =>
      cases hperform
      exact hq.schedulerTick h.curr_onRq
  | schedSetscheduler p policy prio user who seen =>
      obtain ⟨⟨ret, s'⟩, hcall', rfl⟩ := Option.map_eq_some_iff.mp hperform
      exact hq.schedSetscheduler hcall'
  | rtMutexSetprio p prio =>
      cases hperform
      exact hq.rtMutexSetprio prio
  | setUserNice p nice =>
      cases hperform
      exact hq.setUserNice nice
  | schedMoveTask p tg =>
      cases hperform
      exact hq.schedMoveTask tg
  | normalizeRtTasks =>
      cases hperform
      exact hq.normalizeRtTasks
  | schedRrGetInterval p =>
      cases hperform
      show OnQueue m ((s.tasks p).schedClass.getRrInterval m p s).2
      cases (s.tasks p).schedClass with
      | wrr =>
          simp only [SchedClass.getRrInterval, getRrIntervalWrr]
          split
          · exact hq.of_parts rfl rfl rfl rfl rfl
          · split <;> exact hq.of_parts rfl rfl rfl rfl rfl
      | _ => exact hq
  | doSchedRtPeriodTimer g overrun =>
      cases hperform
      exact hq.quiet (quiet_doSchedRtPeriodTimer g overrun)
  | schedSetStopTask stop who seen =>
      refine hq.schedSetStopTask ?_ ?_ hperform
      · exact fun p hp => (h.stop_spared hcall (Or.inl hp.symm)).1
      · exact fun old hold => (h.stop_spared hcall (Or.inr hold.symm)).1
  | initIdleBootupTask =>
      have hidle : s.rq.curr = s.rq.idle := by simpa [callable] using hcall
      cases hperform
      refine hq.modAttr_off ?_ fun _ => rfl
      rw [hidle]
      exact h.idle_off
  | setCurrentState state =>
      cases hperform
      exact hq.setTaskState state
  | releaseTask p =>
      cases hperform
      exact hq.of_parts rfl rfl rfl rfl rfl
  | foreign p f =>
      cases hperform
      refine hq.modAttr ?_ ?_ ?_ <;> exact fun _ => rfl

theorem running_step {o : Op} (h : Inv m s) (hstep : step m s o = some t) :
    t.rq.curr = t.rq.idle ∨ t.current.onRq = true := by
  by_cases ho : ∃ b, o = .schedule b
  · obtain ⟨preemptActive, rfl⟩ := ho
    obtain ⟨next, s', hpick, rfl⟩ := schedule_of_step hstep
    have hput := h.onQueue_pick preemptActive
    have hquiet := quiet_pickNextTask hpick
    have hview := @view_switchTo s' next
    have hnext := hput.of_pickNextTask hpick
    show (switchTo next s').view.curr = (switchTo next s').view.idle ∨
      ((switchTo next s').view.tasks (switchTo next s').view.curr).onRq = true
    rw [hview]
    show next = s'.rq.idle ∨ (s'.tasks next).onRq = true
    rw [tasks_of_view hquiet.view, show s'.rq.idle = _ from congrArg View.idle hquiet.view]
    exact hnext
  · have hkeeps := keeps_step h.legal (callable_of_step hstep) (fun b hb => ho ⟨b, hb⟩)
      (h.view_step hstep)
    show t.view.curr = t.view.idle ∨ (t.view.attr t.view.curr).onRq = true
    rw [hkeeps.curr, hkeeps.idle]
    exact h.running.imp_right (hkeeps.onRq _)

/-- **Every step keeps the invariant.** -/
theorem step {o : Op} (h : Inv m s) (hstep : step m s o = some t) : Inv m t :=
  ⟨legal_step h.legal (callable_of_step hstep) (h.view_step hstep), h.onQueue_step hstep,
    h.running_step hstep⟩

end Inv

/-- The boot task is legal, and so would any copy of it be. -/
theorem attrOk_initTask : AttrOk (initTask m).toAttr := by
  refine ⟨?_, ?_, le_refl 0, ?_, rfl, ?_⟩
  · show (100 : Int) ≤ 140 - 20
    omega
  · show (140 : Int) - 20 < 140
    omega
  · show (0 : Int) ≤ 99
    omega
  · intro hc
    cases hc

theorem inv_boot : Inv m (boot m) := by
  have hattr : ∀ p, (boot m).view.attr p = (initTask m).toAttr := fun _ => rfl
  refine ⟨⟨List.not_mem_nil, by simp [State.view, boot], ?_⟩, ⟨∅, ⟨⟨List.nodup_nil, ?_, rfl, ?_, rfl, rfl, ?_⟩, ?_⟩, ?_⟩,
    Or.inl rfl⟩
  · intro p
    rw [hattr]
    refine ⟨attrOk_initTask, ?_, fun _ => rfl, ?_, fun _ => ⟨rfl, Or.inl rfl⟩⟩
    · intro hon
      cases hon
    · intro hc
      cases hc
  · intro p
    simp [State.view, boot, initWrrRq]
  · intro p
    simp [State.view, boot, initWrrRq, initTask]
  · intro p hp
    exact absurd hp (Finset.notMem_empty p)
  · refine ⟨∅, ⟨?_, ?_, ?_, ?_, ?_⟩, ?_⟩
    · intro e
      simp [boot]
    · intro g i e he
      cases he
    · intro g i
      exact List.nodup_nil
    · intro g
      rfl
    · intro g hg
      exact absurd hg (Finset.notMem_empty _)
    · intro p
      simp
  · intro p
    simp [boot, initTask]

/-- **What holds of every run**: the invariant. -/
theorem inv_of_reachable (h : Reachable m s) : Inv m s :=
  Run.Reachable.invariant (Inv m) (fun _ _ _ hs hstep => hs.step hstep) h inv_boot

end WrrScheduler
