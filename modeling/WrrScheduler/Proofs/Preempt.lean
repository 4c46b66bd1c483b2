/-
No lower class runs while WRR work waits.

Every operation that could leave a fair or idle task running beside a waiting WRR
task also asks for a reschedule, but for one.  `switched_to_wrr` asks when the
policy of the running task is not `SCHED_WRR`, where it should look at the class: a
task that has the policy and not the class (a child of a WRR task, or a task whose
boost ended) is not asked to give way.

`Covered` is the property with the reschedule in it, and it is what an induction can
carry.  It can be lost in three ways: a WRR task begins to wait, the running task
becomes a low one, or a request is withdrawn.  Each operation is asked which of the
three it can do, and what it does about it.
-/
import WrrScheduler.Proofs.Entering
import WrrScheduler.Proofs.PickNext
import WrrScheduler.Proofs.Resched
import WrrScheduler.Proofs.WrrQueue

namespace WrrScheduler

/-- A WRR task is runnable. -/
def Waits (s : State) : Prop := ∃ p, (s.tasks p).onRq = true ∧ (s.tasks p).schedClass = .wrr

/-- The running task is in a class below WRR. -/
def Low (s : State) : Prop := s.current.schedClass = .fair ∨ s.current.schedClass = .idle

/-- When WRR work waits and a lower class runs, a reschedule was asked for. -/
def Covered (s : State) : Prop := Waits s → Low s → s.needResched = true

/-- With no reschedule pending, no lower class runs while the WRR queue holds a task. -/
def NoLowerRuns (s : State) : Prop :=
  s.needResched = false → s.rq.wrr.queue ≠ [] →
    s.current.schedClass ≠ .fair ∧ s.current.schedClass ≠ .idle

/-- A queued task is to become a WRR one while the running task is one by its policy and not by its
class, and no reschedule is pending. -/
def overlooked (s : State) : Op → Bool
  | .schedSetscheduler p policy prio user who seen =>
    entersWrr s p (.schedSetscheduler p policy prio user who seen) && (s.tasks p).onRq &&
      p ≠ s.rq.curr && s.current.schedClass = .fair && s.current.policy = .wrr && !s.needResched
  | _ => false

variable {m : Machine} {s s' t : State} {p : Pid}

theorem OnQueue.waits_iff (h : OnQueue m s) : Waits s ↔ s.rq.wrr.queue ≠ [] := by
  rw [ne_eq, List.eq_nil_iff_forall_not_mem, not_forall]
  refine exists_congr ?_
  intro p
  rw [not_not, h.mem_queue]

theorem Covered.noLowerRuns (h : Covered s) (hq : OnQueue m s) : NoLowerRuns s := by
  intro hn hqueue
  have hwaits : Waits s := hq.waits_iff.mpr hqueue
  have hlow : ¬ Low s := by
    intro hlow
    rw [h hwaits hlow] at hn
    cases hn
  exact ⟨fun hc => hlow (Or.inl hc), fun hc => hlow (Or.inr hc)⟩

/-! ### Operations that change no more than they must

`frame` names the three ways and rules them out.  Most operations rule out all three
by what they leave alone; a wake-up puts a task on the run queue and then asks for
itself, through `check_preempt_curr`, if that task is a WRR one.
-/

theorem low_of_class (h : t.current.schedClass = s.current.schedClass) : Low t → Low s := by
  unfold Low
  rw [h]
  exact fun h => h

/-- The same task runs in the same class, no request is withdrawn, and no WRR task joins. -/
theorem Covered.frame (h : Covered s) (hcls : t.current.schedClass = s.current.schedClass)
    (hwaits : Waits t → Waits s) (hkeep : s.needResched = true → t.needResched = true) :
    Covered t :=
  fun hw hl => hkeep (h (hwaits hw) (low_of_class hcls hl))

/-- The class of a task, and whether it is on the run queue. -/
def standing (a : Attr) : SchedClass × Bool := (a.schedClass, a.onRq)

/-- No task joins or leaves a class or the run queue. -/
theorem Covered.untouched (h : Covered s) (hcurr : t.rq.curr = s.rq.curr)
    (hattr : ∀ q, standing (t.view.attr q) = standing (s.view.attr q))
    (hkeep : s.needResched = true → t.needResched = true) : Covered t := by
  have hcls : ∀ q, (t.tasks q).schedClass = (s.tasks q).schedClass :=
    fun q => congrArg Prod.fst (hattr q)
  have hon : ∀ q, (t.tasks q).onRq = (s.tasks q).onRq := fun q => congrArg Prod.snd (hattr q)
  refine h.frame ?_ ?_ hkeep
  · rw [State.current, hcurr, hcls]
    rfl
  · rintro ⟨q, hq, hc⟩
    exact ⟨q, (hon q).symm.trans hq, (hcls q).symm.trans hc⟩

theorem Covered.quiet (h : Covered s) (hq : Quiet m s t) : Covered t := by
  have hkeep : KeepsRequests s t := .of_quiet hq
  refine h.untouched (curr_of_view hq.view) ?_ (hkeep.needResched (curr_of_view hq.view))
  intro q
  rw [hq.view]

/-- A task that was put on the run queue asks for itself, if it is a WRR one. -/
theorem Covered.checkPreemptCurr (h : (s.tasks p).schedClass ≠ .wrr → Covered s) :
    Covered (checkPreemptCurr m p s) := by
  by_cases hp : (s.tasks p).schedClass = .wrr
  · have hcurrent : (WrrScheduler.checkPreemptCurr m p s).current = s.current :=
      congrArg (fun v : View => v.tasks v.curr) view_checkPreemptCurr
    intro _ hlow
    rw [Low, hcurrent] at hlow
    exact checkPreemptCurr_asks hp hlow
  · exact (h hp).quiet (@quiet_checkPreemptCurr m s p)

theorem Covered.ttwuDoWakeup (h : (s.tasks p).schedClass ≠ .wrr → Covered s) :
    Covered (ttwuDoWakeup m p s) := by
  have hstate : (WrrScheduler.ttwuDoWakeup m p s).view =
      (WrrScheduler.checkPreemptCurr m p s).view.modAttr p fun t => { t with state := taskRunning } := rfl
  refine (Covered.checkPreemptCurr h).untouched rfl ?_ fun hn => hn
  intro q
  rw [hstate]
  refine View.read_modAttr ?_
  exact fun _ => rfl

theorem attr_activate (flags : EnqueueFlags) (q : Pid) :
    (setOnRq true p (activateTask m flags p s)).view.attr q =
      if q = p then { s.view.attr p with onRq := true } else s.view.attr q := by
  rw [view_setOnRq, view_activateTask, View.attr_modAttr, View.attr_enqueue, View.attr_enqueue]

theorem schedClass_activate (flags : EnqueueFlags) (q : Pid) :
    ((setOnRq true p (activateTask m flags p s)).tasks q).schedClass = (s.tasks q).schedClass := by
  show ((setOnRq true p (activateTask m flags p s)).view.attr q).schedClass = _
  rw [attr_activate]
  split
  · rename_i hqp
    rw [hqp]
    rfl
  · rfl

/-- A task of another class that is put on the run queue leaves WRR work where it was. -/
theorem Covered.activate (h : Covered s) (flags : EnqueueFlags)
    (hp : (s.tasks p).schedClass ≠ .wrr) :
    Covered (setOnRq true p (activateTask m flags p s)) := by
  have hcurr : (setOnRq true p (activateTask m flags p s)).rq.curr = s.rq.curr := by
    show (setOnRq true p (activateTask m flags p s)).view.curr = s.view.curr
    rw [view_setOnRq, view_activateTask]
    exact View.frame_enqueue.curr
  have hkeep : KeepsRequests s (setOnRq true p (activateTask m flags p s)) := .activate flags
  refine h.frame ?_ ?_ (hkeep.needResched hcurr)
  · rw [State.current, schedClass_activate, hcurr]
    rfl
  · rintro ⟨q, hon, hc⟩
    rw [schedClass_activate] at hc
    have hqp : q ≠ p := by
      rintro rfl
      exact hp hc
    have hattr := @attr_activate m s p flags q
    rw [if_neg hqp] at hattr
    exact ⟨q, (congrArg Attr.onRq hattr).symm.trans hon, hc⟩

/-! ### Operations that change a class

Here both a waiting task and the running one can change sides.  `check_class_changed`
tells the new class, and the old one first; the fair class asks when the task that
switched to it is running (`FairAsks`), and `switched_to_wrr` asks in all cases but
the overlooked one.
-/

/-- **`check_class_changed` asks** where it must: for a task that became a fair one while it ran, and
for a queued task that became a WRR one. -/
theorem Covered.checkClassChanged (hm : FairAsks m) (h : Covered s) {oldprio : Int}
    (hcurr : s'.rq.curr = s.rq.curr)
    (hother : ∀ q, q ≠ p → (s'.tasks q).toAttr = (s.tasks q).toAttr)
    (hon : (s'.tasks p).onRq = (s.tasks p).onRq) (hkeep : KeepsRequests s s')
    (hrun : s.rq.curr = p → (s.tasks p).onRq = true) (hidle : (s'.tasks p).schedClass ≠ .idle)
    (hwrr : p ≠ s.rq.curr → (s.tasks p).onRq = true → (s'.tasks p).schedClass = .wrr →
      (s.tasks p).schedClass ≠ .wrr → s.current.policy = .wrr → Low s → s.needResched = true) :
    Covered (checkClassChanged m p (s.tasks p).schedClass oldprio s') := by
  have hview : (WrrScheduler.checkClassChanged m p (s.tasks p).schedClass oldprio s').view =
      s'.view := view_checkClassChanged _ _
  have hkeeps : s.needResched = true →
      (WrrScheduler.checkClassChanged m p (s.tasks p).schedClass oldprio s').needResched = true :=
    (hkeep.trans (.checkClassChanged _ _)).needResched ((curr_of_view hview).trans hcurr)
  intro hwaits hlow
  have hcurrent : (WrrScheduler.checkClassChanged m p (s.tasks p).schedClass oldprio s').current =
      s'.current := congrArg (fun v : View => v.tasks v.curr) hview
  rw [Low, hcurrent] at hlow
  obtain ⟨q, hq, hqc⟩ := hwaits
  rw [tasks_of_view hview] at hq hqc
  by_cases hpc : s.rq.curr = p
  · -- the running task changed: it is a fair one now
    have hp' : s'.rq.curr = p := hcurr.trans hpc
    rw [State.current, hp'] at hlow
    have hfair : (s'.tasks p).schedClass = .fair := hlow.resolve_right hidle
    have hqp : q ≠ p := by
      rintro rfl
      rw [hfair] at hqc
      cases hqc
    by_cases hsame : (s.tasks p).schedClass = .fair
    · refine hkeeps (h ⟨q, ?_, ?_⟩ (Or.inl ?_))
      · rw [← hother q hqp]
        exact hq
      · rw [← hother q hqp]
        exact hqc
      · rw [State.current, hpc]
        exact hsame
    · exact checkClassChanged_fair_asks hm hsame hfair hp' (hon.trans (hrun hpc))
  · -- another task changed: if it joined the WRR queue, it asked
    have hcurrAttr : s'.current.toAttr = s.current.toAttr := by
      rw [State.current, hcurr]
      exact hother _ hpc
    rw [hcurrAttr] at hlow
    by_cases hqp : q = p
    · subst hqp
      by_cases hsame : (s.tasks q).schedClass = .wrr
      · exact hkeeps (h ⟨q, hon.symm.trans hq, hsame⟩ hlow)
      · by_cases hpolicy : s.current.policy = .wrr
        · exact hkeeps (hwrr (Ne.symm hpc) (hon.symm.trans hq) hqc hsame hpolicy hlow)
        · refine checkClassChanged_wrr_asks hsame hqc ?_ hq ?_
          · rw [hcurr]
            exact hpc
          · rw [hcurrAttr]
            exact hpolicy
    · refine hkeeps (h ⟨q, ?_, ?_⟩ hlow)
      · rw [← hother q hqp]
        exact hq
      · rw [← hother q hqp]
        exact hqc

/-- The same for a task that was detached and changed. -/
theorem Covered.changed (hm : FairAsks m) (h : Covered s)
    (hrunning : s.rq.curr = s.rq.idle ∨ s.current.onRq = true) {flags : EnqueueFlags}
    {f : Attr → Attr} {oldprio : Int} (hview : s'.view = s.view.detached flags p f)
    (hon : ∀ a, (f a).onRq = a.onRq) (hkeep : KeepsRequests s s') (hp : p ≠ s.rq.idle)
    (hidle : (f (s.tasks p).toAttr).schedClass ≠ .idle)
    (hwrr : p ≠ s.rq.curr → (s.tasks p).onRq = true → (f (s.tasks p).toAttr).schedClass = .wrr →
      (s.tasks p).schedClass ≠ .wrr → s.current.policy = .wrr → Low s → s.needResched = true) :
    Covered (WrrScheduler.checkClassChanged m p (s.tasks p).schedClass oldprio s') := by
  have hattr : ∀ q, (s'.tasks q).toAttr =
      if q = p then f (s.tasks p).toAttr else (s.tasks q).toAttr := by
    intro q
    show s'.view.attr q = _
    rw [hview]
    exact View.attr_detached f
  have hself : (s'.tasks p).toAttr = f (s.tasks p).toAttr := (hattr p).trans (if_pos rfl)
  refine h.checkClassChanged hm ?_ ?_ ?_ hkeep ?_ ?_ ?_
  · show s'.view.curr = s.view.curr
    rw [hview]
    exact (View.frame_detached f).curr
  · exact fun q hq => (hattr q).trans (if_neg hq)
  · rw [hself]
    exact hon _
  · intro hpc
    rw [← hpc]
    refine hrunning.resolve_left ?_
    rw [hpc]
    exact hp
  · rw [hself]
    exact hidle
  · rw [hself]
    exact hwrr

theorem Covered.rtMutexSetprio (hm : FairAsks m) (h : Covered s) (hinv : Inv m s) (prio : Int) :
    Covered (rtMutexSetprio m p prio s) := by
  unfold WrrScheduler.rtMutexSetprio
  split
  · exact h
  · rename_i hp
    have hset : ∀ s : State, KeepsRequests s
        (s.modAttr p fun t => { t with schedClass := setprioClass prio, prio := prio }) :=
      fun _ => .of_acct rfl
    refine h.changed hm hinv.running (view_withDetached fun _ => view_modAttr _) (fun _ => rfl)
      (.withDetached hset) hp ?_ ?_
    · exact setprioClass_ne_idle prio
    · exact fun _ _ hc => absurd hc (setprioClass_ne_wrr prio)

theorem Covered.schedSetscheduler (hm : FairAsks m) (h : Covered s) (hinv : Inv m s)
    {policy : BitVec 32} {prio : Int} {user : Bool} {who : Caller} {seen : List Attr}
    (hstep : step m s (.schedSetscheduler p policy prio user who seen) = some t)
    (ho : overlooked s (.schedSetscheduler p policy prio user who seen) = false) : Covered t := by
  have hp : p ∈ s.tasklist := by simpa [callable] using callable_of_step hstep
  obtain ⟨⟨ret, t'⟩, hcall, rfl⟩ := Option.map_eq_some_iff.mp (perform_of_step hstep)
  cases schedSetscheduler_done hcall with
  | failed _ => exact h
  | nothing _ _ _ _ => exact h
  | @changed c _ h0 h99 _ _ =>
      refine h.changed hm hinv.running (view_withDetached fun s => view_setPolicy c prio) (fun _ => rfl)
        (.withDetached fun _ => .setPolicy m c prio) (hinv.ne_idle hp) ?_ ?_
      · exact setschedulerClass_ne_idle _ _
      · intro hpc hon hin hout hpolicy hlow
        have henters : entersWrr s p (.schedSetscheduler p policy prio user who seen) = true := by
          refine entersWrr_of_step hinv hstep hout ?_
          show ((changePolicy m p c prio s).tasks p).schedClass = .wrr
          rw [attr_changePolicy, if_pos rfl]
          exact hin
        have hfair : s.current.schedClass = .fair := by
          refine hlow.resolve_right ?_
          intro hc
          have hnormal := ((hinv.legal.task s.rq.curr).idleLow
            ((hinv.legal.task s.rq.curr).idleClass hc)).1
          rw [show (s.view.attr s.rq.curr).policy = .wrr from hpolicy] at hnormal
          cases hnormal
        simpa [overlooked, henters, hon, hpc, hfair, hpolicy] using ho

/-! ### The loop of `normalize_rt_tasks` -/

theorem Covered.setUserNice (h : Covered s) (nice : Int) : Covered (setUserNice m p nice s) := by
  have hview : (WrrScheduler.setUserNice m p nice s).view = s.view.setUserNice p nice :=
    view_setUserNice nice
  have hcurr : (WrrScheduler.setUserNice m p nice s).rq.curr = s.rq.curr := by
    show (WrrScheduler.setUserNice m p nice s).view.curr = s.view.curr
    rw [hview]
    exact (View.frame_setUserNice nice).curr
  have hkeep : KeepsRequests s (WrrScheduler.setUserNice m p nice s) := .setUserNice nice
  refine h.untouched hcurr ?_ (hkeep.needResched hcurr)
  intro q
  rw [hview]
  exact View.read_setUserNice (fun _ _ _ _ => rfl) nice

theorem Covered.normalizeTask (hm : FairAsks m) (h : Covered s)
    (hrunning : s.rq.curr = s.rq.idle ∨ s.current.onRq = true) (hp : p ≠ s.rq.idle) :
    Covered (normalizeTask m p s) := by
  have hdetached : KeepsRequests s (withDetached m false {} p (setscheduler p .normal 0) s) :=
    .withDetached fun _ => .setscheduler m .normal 0
  have hview : (reschedTaskIf ((withDetached m false {} p (setscheduler p .normal 0) s).tasks p).onRq
      (withDetached m false {} p (setscheduler p .normal 0) s).rq.curr
      (withDetached m false {} p (setscheduler p .normal 0) s)).view =
      s.view.detached {} p (applyPolicy .normal 0) := by
    rw [view_reschedTaskIf]
    exact view_withDetached fun _ => view_setscheduler _ _
  refine h.changed hm hrunning hview (fun _ => rfl)
    (hdetached.trans (.of_quiet (@quiet_reschedTaskIf m _ _ _))) hp ?_ ?_
  · exact setschedulerClass_ne_idle .normal _
  · exact fun _ _ hc => absurd (applyPolicy_schedClass.mp hc) (by simp)

theorem Covered.normalizeOne (hm : FairAsks m) (h : Covered s)
    (hrunning : s.rq.curr = s.rq.idle ∨ s.current.onRq = true) (hp : p ≠ s.rq.idle) :
    Covered (normalizeOne m s p) := by
  have hstamp : Covered (s.modAcct p fun a => { a with se := { a.se with execStart := 0 } }) :=
    h.quiet (@Quiet.modAcct m s p _ fun _ h => h)
  unfold WrrScheduler.normalizeOne
  split
  · exact h
  · simp only []
    split
    · split
      · exact hstamp.setUserNice 0
      · exact hstamp
    · exact hstamp.normalizeTask hm hrunning hp

/-- Each turn finds the same task running, and still queued. -/
theorem Covered.foldl_normalizeOne (hm : FairAsks m) (l : List Pid) (h : Covered s)
    (hrunning : s.rq.curr = s.rq.idle ∨ s.current.onRq = true) (hl : ∀ p ∈ l, p ≠ s.rq.idle) :
    Covered (l.foldl (WrrScheduler.normalizeOne m) s) := by
  induction l generalizing s with
  | nil => exact h
  | cons p l ih =>
      have hview : (WrrScheduler.normalizeOne m s p).view = s.view.normalizeOne p := view_normalizeOne
      have hkeeps : s.view.Keeps (WrrScheduler.normalizeOne m s p).view := by
        rw [hview]
        exact .normalizeOne
      refine ih (h.normalizeOne hm hrunning (hl p List.mem_cons_self)) ?_ ?_
      · show (WrrScheduler.normalizeOne m s p).view.curr = (WrrScheduler.normalizeOne m s p).view.idle ∨
          ((WrrScheduler.normalizeOne m s p).view.attr
            (WrrScheduler.normalizeOne m s p).view.curr).onRq = true
        rw [hkeeps.curr, hkeeps.idle]
        exact hrunning.imp_right (hkeeps.onRq _)
      · intro q hq
        show q ≠ (WrrScheduler.normalizeOne m s p).view.idle
        rw [hkeeps.idle]
        exact hl q (List.mem_cons_of_mem p hq)

/-! ### Steps

`__schedule` is the other way round: it withdraws the request, so it must not leave a
low task running.  It does not, because `pick_next_task` asks the WRR class before the
fair one and a class with a queued task does not decline.
-/

/-- **While WRR work waits, no lower class is picked.** -/
theorem OnQueue.pick_not_low (h : OnQueue m s) (hwaits : Waits s) {next : Pid}
    (hpick : pickNextTask m s = .ok (next, t)) :
    (s.tasks next).schedClass ≠ .fair ∧ (s.tasks next).schedClass ≠ .idle := by
  rw [h.pickNextTask_eq, forEachClass] at hpick
  rcases h.pickFromClasses_cons (by simp) hpick with hc | ⟨-, hpick⟩
  · simp [hc]
  rcases h.pickFromClasses_cons (by simp) hpick with hc | ⟨-, hpick⟩
  · simp [hc]
  rcases h.pickFromClasses_cons (by simp) hpick with hc | ⟨hnone, -⟩
  · simp [hc]
  · -- the WRR class cannot decline
    obtain ⟨A, hA, -⟩ := id h
    have hcount : s.rq.wrr.wrrNrRunning = s.rq.wrr.queue.length := hA.enq.count
    have hqueue : s.rq.wrr.queue ≠ [] := h.waits_iff.mp hwaits
    simp only [SchedClass.pickNextTask, pickNextTaskWrr] at hnone
    split at hnone
    · rename_i hzero
      exact absurd (List.eq_nil_of_length_eq_zero (hcount.symm.trans hzero)) hqueue
    · split at hnone <;> cases hnone

theorem covered_schedule (hinv : Inv m s) {preemptActive : Bool}
    (hstep : step m s (.schedule preemptActive) = some t) : Covered t := by
  obtain ⟨next, s', hpick, rfl⟩ := schedule_of_step hstep
  have hput := hinv.onQueue_pick preemptActive
  have hview := view_switchTo_pick hpick
  generalize putPrevTask m s.rq.curr (putToSleep m preemptActive s) = s₁ at hpick hput hview
  have htasks : (switchTo next s').tasks = s₁.tasks := congrArg View.tasks hview
  have hcurr : (switchTo next s').rq.curr = next := congrArg View.curr hview
  rintro ⟨q, hon, hc⟩ hlow
  rw [htasks] at hon hc
  rw [Low, State.current, htasks, hcurr] at hlow
  obtain ⟨hfair, hidle⟩ := hput.pick_not_low ⟨q, hon, hc⟩ hpick
  exact absurd hlow (by simp [hfair, hidle])

/-- `sched_set_stop_task` puts no task on the run queue. -/
theorem onRq_schedSetStopTask {stop : Option Pid} {who : Caller} {seen : List Attr}
    (h : View.Step m s.view t.view (.schedSetStopTask stop who seen)) {q : Pid} :
    (t.tasks q).onRq = (s.tasks q).onRq := by
  have hstop : ∀ (v : View) (stop : Option Pid),
      ((v.setStop stop).attr q).onRq = (v.attr q).onRq := by
    intro v stop
    unfold View.setStop
    simp only []
    split
    · rfl
    · refine View.read_modAttr ?_
      exact fun _ => rfl
  show (t.view.attr q).onRq = (s.view.attr q).onRq
  cases stop with
  | none =>
      rw [h, hstop]
  | some p =>
      obtain ⟨w, hw, hv⟩ := h
      have hset : (w.attr q).onRq = (s.view.attr q).onRq := by
        rcases hw with rfl | ⟨c, -, rfl⟩
        · rfl
        · refine View.read_detached ?_
          exact fun _ => rfl
      rw [hv, hstop, ← hset]
      refine View.read_modAttr ?_
      exact fun _ => rfl

/-- A child that is made is not queued, nor in the WRR class. -/
theorem Covered.schedFork (h : Covered s) (hinv : Inv m s) {child : Pid} {f : Foreign}
    (hstep : step m s (.schedFork child f) = some t)
    (hkeep : s.needResched = true → t.needResched = true) : Covered t := by
  have hview := hinv.view_step hstep
  obtain ⟨hchild, hcls⟩ := hinv.forkable f (callable_of_step hstep)
  have hother : ∀ q, q ≠ child → t.view.tasks q = s.view.tasks q := by
    intro q hq
    rw [hview]
    exact Function.update_of_ne hq _ _
  have hcurr : t.rq.curr = s.rq.curr := by
    show t.view.curr = s.view.curr
    rw [hview]
    rfl
  refine h.frame ?_ ?_ hkeep
  · show (t.view.tasks t.rq.curr).schedClass = _
    rw [hcurr, hother _ hchild.symm]
    rfl
  · rintro ⟨q, hon, hc⟩
    have hq : q ≠ child := by
      rintro rfl
      have hnew : (t.view.tasks q).schedClass = .wrr := hc
      rw [hview] at hnew
      simp only [View.modTask, Function.update_self] at hnew
      exact hcls hnew
    have htask : t.tasks q = s.tasks q := hother q hq
    rw [htask] at hon hc
    exact ⟨q, hon, hc⟩

/-- Neither the old stop task nor the new one is queued, and neither runs. -/
theorem Covered.schedSetStopTask (h : Covered s) (hinv : Inv m s) {stop : Option Pid} {who : Caller}
    {seen : List Attr} (hstep : step m s (.schedSetStopTask stop who seen) = some t)
    (hkeep : s.needResched = true → t.needResched = true) : Covered t := by
  have hcall := callable_of_step hstep
  have hview := hinv.view_step hstep
  have hspares := spares_step hinv hstep
  have hother : ∀ q, (s.tasks q).onRq = true → t.tasks q = s.tasks q := by
    intro q hon
    refine hspares.tasks q fun hq => ?_
    rw [(hinv.stop_spared hcall hq).1] at hon
    cases hon
  have hcurr : t.rq.curr = s.rq.curr := (keeps_step hinv.legal hcall (fun _ => nofun) hview).curr
  have hrunning : t.current = s.current := by
    rw [State.current, hcurr]
    exact hspares.tasks _ fun hq => (hinv.stop_spared hcall hq).2 rfl
  refine h.frame (by rw [hrunning]) ?_ hkeep
  rintro ⟨q, hon, hc⟩
  rw [onRq_schedSetStopTask hview] at hon
  rw [hother q hon] at hc
  exact ⟨q, hon, hc⟩

/-- The idle task ran before it was made the idle task: what it runs as was low already. -/
theorem Covered.initIdleBootupTask (h : Covered s) (hinv : Inv m s)
    (hstep : step m s .initIdleBootupTask = some t)
    (hkeep : s.needResched = true → t.needResched = true) : Covered t := by
  have hidle : s.rq.curr = s.rq.idle := by simpa [callable] using callable_of_step hstep
  have hview := hinv.view_step hstep
  have hlow : Low s := ((hinv.legal.task s.rq.curr).idleLow hidle).2
  rintro ⟨q, hon, hc⟩ -
  have hattr : t.view.attr q =
      if q = s.rq.curr then { s.view.attr s.rq.curr with schedClass := .idle }
      else s.view.attr q := by
    rw [hview]
    exact View.attr_modAttr _
  have hq : q ≠ s.rq.curr := by
    rintro rfl
    rw [if_pos rfl] at hattr
    exact absurd ((congrArg Attr.schedClass hattr).symm.trans hc) (by simp)
  rw [if_neg hq] at hattr
  exact hkeep (h ⟨q, (congrArg Attr.onRq hattr).symm.trans hon,
    (congrArg Attr.schedClass hattr).symm.trans hc⟩ hlow)

/-- **Every step but an overlooked one keeps WRR work covered.** -/
theorem covered_step (hm : FairAsks m) {o : Op} (hinv : Inv m s) (h : Covered s)
    (ho : overlooked s o = false) (hstep : step m s o = some t) : Covered t := by
  have hcall := callable_of_step hstep
  have hview := hinv.view_step hstep
  have hperform := perform_of_step hstep
  by_cases hsched : ∃ b, o = .schedule b
  · obtain ⟨preemptActive, rfl⟩ := hsched
    exact covered_schedule hinv hstep
  have hkeep : s.needResched = true → t.needResched = true :=
    needResched_step hinv hstep fun b hb => hsched ⟨b, hb⟩
  have hcurr : t.rq.curr = s.rq.curr :=
    (keeps_step hinv.legal hcall (fun b hb => hsched ⟨b, hb⟩) hview).curr
  have hsame : (∀ q, t.view.attr q = s.view.attr q) → Covered t := by
    intro hattr
    refine h.untouched hcurr ?_ hkeep
    intro q
    rw [hattr]
  cases o with
  | schedule preemptActive => exact absurd ⟨preemptActive, rfl⟩ hsched
  | tryToWakeUp p state =>
      cases hperform
      show Covered (tryToWakeUp m p state s).2
      unfold tryToWakeUp
      split
      · exact h
      · split
        · exact .ttwuDoWakeup fun _ => h
        · refine .ttwuDoWakeup ?_
          intro hp
          exact h.activate _ fun hc => hp ((schedClass_activate _ p).trans hc)
  | wakeUpNewTask p =>
      cases hperform
      refine .checkPreemptCurr ?_
      intro hp
      exact h.activate {} fun hc => hp ((schedClass_activate {} p).trans hc)
  | schedFork child f => exact h.schedFork hinv hstep hkeep
  | schedSetscheduler p policy prio user who seen => exact h.schedSetscheduler hm hinv hstep ho
  | rtMutexSetprio p prio =>
      cases hperform
      exact h.rtMutexSetprio hm hinv prio
  | setUserNice p nice =>
      cases hperform
      exact h.setUserNice nice
  | schedMoveTask p tg =>
      refine h.untouched hcurr ?_ hkeep
      intro q
      rw [hview]
      refine View.read_detached ?_
      exact fun _ => rfl
  | normalizeRtTasks =>
      cases hperform
      exact h.foldl_normalizeOne hm s.tasklist hinv.running fun p hp => hinv.ne_idle hp
  | schedSetStopTask stop who seen => exact h.schedSetStopTask hinv hstep hkeep
  | initIdleBootupTask => exact h.initIdleBootupTask hinv hstep hkeep
  | foreign p f =>
      refine h.untouched hcurr ?_ hkeep
      intro q
      rw [hview]
      refine View.read_modAttr ?_
      exact fun _ => rfl
  | setCurrentState state =>
      refine h.untouched hcurr ?_ hkeep
      intro q
      rw [hview]
      refine View.read_modAttr ?_
      exact fun _ => rfl
  | schedYield =>
      refine hsame ?_
      intro q
      rw [hview]
      split
      · exact View.attr_requeueWrr
      · rfl
  | schedulerTick =>
      refine hsame ?_
      intro q
      rw [hview]
      split
      · exact View.attr_tickWrr m
      · rfl
  | schedRrGetInterval p =>
      refine hsame ?_
      intro q
      rw [hview]
      split <;> rfl
  | doSchedRtPeriodTimer g overrun =>
      refine hsame ?_
      intro q
      rw [hview]
  | releaseTask p =>
      refine hsame ?_
      intro q
      rw [hview]
      rfl

/-! ### Runs -/

theorem covered_boot : Covered (boot m) := by
  rintro ⟨q, hon, -⟩ -
  cases hon

/-- **No lower class runs while WRR work waits**, in any state of a run that overlooks no task. -/
theorem noLowerRuns_of_run (hm : FairAsks m) {tr : List (State × Op)}
    (hrun : Run (step m) (boot m) tr s) (hall : ∀ e ∈ tr, overlooked e.1 e.2 = false) :
    NoLowerRuns s ∧ ∀ e ∈ tr, NoLowerRuns e.1 := by
  have hboth : ∀ s o t, Inv m s ∧ Covered s → overlooked s o = false → step m s o = some t →
      Inv m t ∧ Covered t :=
    fun s o t h ho hstep => ⟨h.1.step hstep, covered_step hm h.1 h.2 ho hstep⟩
  have hinvariant := hrun.invariant (fun s => Inv m s ∧ Covered s) _ hboth ⟨inv_boot, covered_boot⟩
    hall
  exact ⟨hinvariant.1.2.noLowerRuns hinvariant.1.1.queued,
    fun e he => (hinvariant.2 e he).2.noLowerRuns (hinvariant.2 e he).1.queued⟩

theorem fairAsks_sampleMachine (initTimeSlice : BitVec 32) :
    FairAsks (sampleMachine initTimeSlice) := by
  intro s p hp _
  simp [sampleMachine, hp]

/-- With two tasks of the class queued and no reschedule pending, a WRR task runs. -/
theorem noLowerRuns_startTwoWrr : ∃ s : State, s.needResched = false ∧ s.rq.wrr.queue = [1, 2] ∧
    s.current.schedClass ≠ .fair ∧ s.current.schedClass ≠ .idle := by
  have htrace : ((Run.trace (step (sampleMachine 10)) (boot (sampleMachine 10)) startTwoWrr).any
      fun r => decide ((∀ e ∈ r.1, overlooked e.1 e.2 = false) ∧
        r.2.needResched = false ∧ r.2.rq.wrr.queue = [1, 2])) = true := by decide +kernel
  obtain ⟨⟨tr, s⟩, hrun, hall, hn, hqueue⟩ := Run.exists_of_trace htrace
  refine ⟨s, hn, hqueue, (noLowerRuns_of_run (fairAsks_sampleMachine 10) hrun hall).1 hn ?_⟩
  rw [show s.rq.wrr.queue = [1, 2] from hqueue]
  simp

/-- A WRR task forks and sleeps, so its child runs, a fair task with the WRR policy.  Then the other
task becomes a WRR one. -/
def forkThenSetscheduler : List Op :=
  let seen := [(initTask (sampleMachine 0)).toAttr]
  [.initIdleBootupTask, .schedFork 1 sampleForeign, .wakeUpNewTask 1, .schedule false,
    .schedFork 3 sampleForeign, .wakeUpNewTask 3, sampleSetscheduler 1 Policy.wrr.code 1 seen,
    .schedFork 2 sampleForeign, .wakeUpNewTask 2, .setCurrentState taskInterruptible,
    .schedule false, sampleSetscheduler 3 Policy.wrr.code 1 seen]

/-- That task waits, a fair task runs, and no reschedule is pending. -/
theorem wrr_waits_for_fair : ∃ m s, FairAsks m ∧ Reachable m s ∧ ¬ NoLowerRuns s := by
  have hexec : ((Run.exec (step (sampleMachine 10)) (boot (sampleMachine 10))
      forkThenSetscheduler).any fun s => decide (s.needResched = false ∧ s.rq.wrr.queue = [3] ∧
        s.current.schedClass = .fair)) = true := by decide +kernel
  obtain ⟨s, hs, hn, hqueue, hfair⟩ := Run.exists_of_exec hexec
  refine ⟨sampleMachine 10, s, fairAsks_sampleMachine 10, hs, ?_⟩
  intro hlower
  exact (hlower hn (by simp [hqueue])).1 hfair

end WrrScheduler
