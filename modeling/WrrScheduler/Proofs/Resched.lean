/-
Requests to reschedule.

Only `__schedule` withdraws a request, and only that of the task it switches from;
a fork clears the flag of the child.  Everything else may add requests.  That is
half of what preemption needs.  The other half is where a request is made:
`check_preempt_curr` when a task of a higher class is woken, and
`check_class_changed` when the running task, or a queued one, changes class.
-/
import WrrScheduler.Proofs.Invariant

namespace WrrScheduler

/-- No request to reschedule is withdrawn. -/
def KeepsRequests (s s' : State) : Prop :=
  ∀ p, (s.acct p).needResched = true → (s'.acct p).needResched = true

variable {m : Machine} {s s' s'' t : State} {p : Pid}

namespace KeepsRequests

theorem refl (s : State) : KeepsRequests s s := fun _ h => h

theorem trans (h : KeepsRequests s s') (h' : KeepsRequests s' s'') : KeepsRequests s s'' :=
  fun p hp => h' p (h p hp)

theorem of_quiet (h : Quiet m s s') : KeepsRequests s s' := h.resched

/-- The accounting was not touched. -/
theorem of_acct (h : s'.acct = s.acct) : KeepsRequests s s' := by
  intro p hp
  rw [h]
  exact hp

theorem ite {b : Bool} (h : KeepsRequests s s') (h' : KeepsRequests s s'') :
    KeepsRequests s (if b then s' else s'') := by
  cases b
  · exact h'
  · exact h

theorem classEnqueueTask (c : SchedClass) (flags : EnqueueFlags) :
    KeepsRequests s (c.enqueueTask m flags p s) := by
  cases c with
  | rt =>
      have hreset : Quiet m s (s.modRtEntity p fun e => { e with timeout := 0 }) :=
        Quiet.modAcct fun _ h => h
      exact (of_quiet (Quiet.ite hreset (Quiet.refl m s))).trans (of_acct rfl)
  | wrr =>
      refine of_acct ?_
      simp only [SchedClass.enqueueTask, enqueueTaskWrr]
      split <;> rfl
  | _ => exact (of_quiet (@quiet_outsideCall m s p _ .enqueueTask)).trans (of_acct rfl)

theorem classDequeueTask (c : SchedClass) : KeepsRequests s (c.dequeueTask m p s) := by
  cases c with
  | rt => exact (of_quiet (@quiet_updateCurrRt m s)).trans (of_acct rfl)
  | wrr => exact (of_quiet (@quiet_updateCurrWrr m s)).trans (of_acct rfl)
  | _ => exact (of_quiet (@quiet_outsideCall m s p _ .dequeueTask)).trans (of_acct rfl)

theorem enqueueTask (flags : EnqueueFlags) : KeepsRequests s (enqueueTask m flags p s) :=
  (of_quiet (@quiet_updateRqClock m s)).trans (classEnqueueTask _ flags)

theorem dequeueTask : KeepsRequests s (dequeueTask m p s) :=
  (of_quiet (@quiet_updateRqClock m s)).trans (classDequeueTask _)

theorem withDetached {running : Bool} {flags : EnqueueFlags} {change : State → State}
    (hchange : ∀ s, KeepsRequests s (change s)) :
    KeepsRequests s (withDetached m running flags p change s) := by
  have hput : ∀ s, KeepsRequests s (if running then (s.tasks p).schedClass.putPrevTask m p s
      else s) := fun s => ite (of_quiet (@quiet_classPutPrevTask m s p _)) (refl s)
  have hset : ∀ s, KeepsRequests s (if running then (s.tasks p).schedClass.setCurrTask m s
      else s) := fun s => ite (of_quiet (@quiet_setCurrTask m s _)) (refl s)
  have hadd : ∀ s, KeepsRequests s (WrrScheduler.enqueueTask m flags p s) :=
    fun s => enqueueTask flags
  unfold WrrScheduler.withDetached
  cases (s.tasks p).onRq
  · exact (hput s).trans ((hchange _).trans (hset _))
  · exact dequeueTask.trans ((hput _).trans ((hchange _).trans ((hset _).trans (hadd _))))

theorem activate (flags : EnqueueFlags) :
    KeepsRequests s (setOnRq true p (activateTask m flags p s)) :=
  (of_quiet (@quiet_countUninterruptible m s p (-1))).trans
    ((enqueueTask flags).trans (of_acct rfl))

theorem ttwuDoWakeup : KeepsRequests s (ttwuDoWakeup m p s) :=
  (of_quiet (@quiet_checkPreemptCurr m s p)).trans (of_acct rfl)

theorem setUserNice (nice : Int) : KeepsRequests s (setUserNice m p nice s) := by
  unfold WrrScheduler.setUserNice
  split
  · exact refl s
  · split
    · exact of_acct rfl
    · refine (withDetached ?_).trans (of_quiet (@quiet_reschedTaskIf m _ _ _))
      intro s
      have hstatic : KeepsRequests s (setStaticPrio nice p s) := of_acct rfl
      exact (hstatic.trans (of_quiet (@quiet_setLoadWeight m _ p))).trans (of_acct rfl)

theorem setscheduler (m : Machine) (policy : Policy) (prio : Int) :
    KeepsRequests s (setscheduler p policy prio s) := by
  have happly : KeepsRequests s (s.modAttr p (applyPolicy policy prio)) := of_acct rfl
  exact happly.trans (of_quiet (@quiet_setLoadWeight m _ p))

theorem checkClassChanged (c : SchedClass) (oldprio : Int) :
    KeepsRequests s (checkClassChanged m p c oldprio s) :=
  of_quiet (quiet_checkClassChanged c oldprio)

/-- The change `changePolicy` makes to the detached task. -/
theorem setPolicy (m : Machine) (c : Checked) (prio : Int) :
    KeepsRequests s (WrrScheduler.setscheduler p c.policy prio
      (s.modAttr p fun t => { t with schedResetOnFork := c.resetOnFork })) := by
  have hflag : KeepsRequests s
      (s.modAttr p fun t => { t with schedResetOnFork := c.resetOnFork }) := of_acct rfl
  exact hflag.trans (setscheduler m c.policy prio)

theorem schedSetscheduler {policy : BitVec 32} {prio ret : Int} {user : Bool} {who : Caller}
    {seen : List Attr}
    (hcall : schedSetscheduler m p prio user who seen policy s = some (ret, t)) :
    KeepsRequests s t := by
  cases schedSetscheduler_done hcall with
  | failed _ => exact refl s
  | nothing _ _ _ _ => exact refl s
  | @changed c _ _ _ _ _ =>
      exact (withDetached fun _ => setPolicy m c prio).trans (checkClassChanged _ _)

theorem rtMutexSetprio (prio : Int) : KeepsRequests s (rtMutexSetprio m p prio s) := by
  unfold WrrScheduler.rtMutexSetprio
  split
  · exact refl s
  · have hset : ∀ s : State, KeepsRequests s
        (s.modAttr p fun t => { t with schedClass := setprioClass prio, prio := prio }) :=
      fun _ => of_acct rfl
    exact (withDetached hset).trans (checkClassChanged _ _)

theorem schedMoveTask (tg : Gid) : KeepsRequests s (schedMoveTask m p tg s) := by
  refine withDetached ?_
  intro s
  have hgroup : KeepsRequests s (s.modAttr p fun t => { t with schedTaskGroup := tg }) := of_acct rfl
  exact hgroup.trans (of_quiet (@quiet_taskMoveGroup m _ p _))

theorem normalizeTask : KeepsRequests s (normalizeTask m p s) := by
  have hdetached : KeepsRequests s
      (WrrScheduler.withDetached m false {} p (WrrScheduler.setscheduler p .normal 0) s) :=
    withDetached fun _ => setscheduler m .normal 0
  exact (hdetached.trans (of_quiet (@quiet_reschedTaskIf m _ _ _))).trans (checkClassChanged _ _)

theorem normalizeOne : KeepsRequests s (normalizeOne m s p) := by
  have hstamp : KeepsRequests s
      (s.modAcct p fun a => { a with se := { a.se with execStart := 0 } }) :=
    of_quiet (@Quiet.modAcct m s p _ fun _ h => h)
  unfold WrrScheduler.normalizeOne
  split
  · exact refl s
  · simp only []
    split
    · split
      · exact hstamp.trans (setUserNice 0)
      · exact hstamp
    · exact hstamp.trans normalizeTask

theorem foldl_normalizeOne (l : List Pid) :
    KeepsRequests s (l.foldl (WrrScheduler.normalizeOne m) s) := by
  induction l generalizing s with
  | nil => exact refl s
  | cons p l ih => exact normalizeOne.trans ih

theorem schedYield : KeepsRequests s (schedYield m s) := by
  unfold WrrScheduler.schedYield
  cases s.current.schedClass with
  | rt => exact of_quiet (@quiet_yieldTaskRt m s)
  | wrr => exact of_acct rfl
  | _ => exact of_quiet (@quiet_outsideCall m s _ _ _)

theorem expireTaskWrr : KeepsRequests s (expireTaskWrr m p s) := by
  unfold WrrScheduler.expireTaskWrr
  simp only []
  split
  · refine trans ?_ (of_quiet (@quiet_reschedTask m _ p))
    exact of_acct rfl
  · exact of_acct rfl

theorem taskTickWrr : KeepsRequests s (taskTickWrr m p s) := by
  have hwatch : ∀ s, KeepsRequests s (watchdogWrr m p s) := by
    intro s
    unfold watchdogWrr
    split
    · exact refl s
    · refine trans ?_ (of_quiet (@quiet_expireSched m _ p _))
      exact of_acct rfl
  have hspend : ∀ s : State, KeepsRequests s
      (s.modWrrEntity p fun w => { w with timeSlice := w.timeSlice - 1 }) := fun _ => of_acct rfl
  unfold WrrScheduler.taskTickWrr
  refine (of_quiet (@quiet_updateCurrWrr m s)).trans ((hwatch _).trans ?_)
  simp only []
  split
  · exact refl _
  · split
    · exact hspend _
    · exact (hspend _).trans expireTaskWrr

theorem schedulerTick : KeepsRequests s (schedulerTick m s) := by
  refine (of_quiet (@quiet_updateRqClock m s)).trans ?_
  show KeepsRequests _ ((updateRqClock m s).current.schedClass.taskTick m _ _)
  cases (updateRqClock m s).current.schedClass with
  | rt => exact of_quiet quiet_taskTickRt
  | wrr => exact taskTickWrr
  | _ => exact of_quiet (@quiet_outsideCall m _ _ _ _)

theorem tryToWakeUp (state : Nat) : KeepsRequests s (tryToWakeUp m p state s).2 := by
  unfold WrrScheduler.tryToWakeUp
  split
  · exact refl s
  · split
    · exact ttwuDoWakeup
    · exact (activate { wakeup := true }).trans ttwuDoWakeup

theorem schedSetStopTask {stop : Option Pid} {who : Caller} {seen : List Attr}
    (hcall : schedSetStopTask m who seen stop s = some t) : KeepsRequests s t := by
  have hreplace : ∀ (stop : Option Pid) (s : State), KeepsRequests s (replaceStop stop s) := by
    intro stop s
    unfold replaceStop
    split <;> exact of_acct rfl
  cases stop with
  | none =>
      cases hcall
      exact hreplace none s
  | some p =>
      obtain ⟨s', hmake, rfl⟩ := Option.map_eq_some_iff.mp hcall
      unfold makeStop at hmake
      split at hmake
      · cases hmake
      · rename_i ret s'' hset
        cases hmake
        have hclass : KeepsRequests s'' (s''.modAttr p fun t => { t with schedClass := .stop }) :=
          of_acct rfl
        exact (schedSetscheduler hset).trans (hclass.trans (hreplace (some p) _))

theorem setUpFork (m : Machine) : KeepsRequests s (setUpFork p s) := by
  have hbasic : KeepsRequests s (setTaskState taskRunning p (basicSchedFork p s)) := by
    have hstart : KeepsRequests s (s.modAcct p fun a =>
        { a with se := { a.se with execStart := 0, sumExecRuntime := 0 } }) :=
      of_quiet (@Quiet.modAcct m s p _ fun _ h => h)
    exact hstart.trans (of_acct rfl)
  have hreset : ∀ s, KeepsRequests s (forkReset p s) := by
    intro s
    unfold forkReset
    split
    · have hattr : KeepsRequests s (s.modAttr p resetOnFork) := of_acct rfl
      exact hattr.trans (of_quiet (@quiet_setLoadWeight m _ p))
    · exact refl s
  have hclass : ∀ s, KeepsRequests s (forkClass p s) := by
    intro s
    unfold forkClass
    split
    · exact of_acct rfl
    · exact refl s
  refine hbasic.trans (trans ?_ ((hreset _).trans (hclass _)))
  exact of_acct rfl

theorem taskFork {c : SchedClass} (h : c.taskFork m p s = .ok t) : KeepsRequests s t := by
  cases c with
  | rt =>
      cases h
      exact refl s
  | wrr =>
      simp only [SchedClass.taskFork, taskForkWrr] at h
      split at h
      · cases h
      · cases h
        exact of_acct rfl
  | _ =>
      cases h
      exact of_quiet (@quiet_outsideCall m s p _ .taskFork)

/-- A fork withdraws no request but that of the child. -/
theorem schedFork {child : Pid} {f : Foreign}
    (h : schedFork m child (dupTaskStruct child f s) = .ok t) (hp : p ≠ child)
    (hn : (s.acct p).needResched = true) : (t.acct p).needResched = true := by
  refine ((setUpFork m).trans (taskFork h)) p ?_
  simp only [dupTaskStruct, State.modAcct, Function.update_of_ne hp]
  exact hn

end KeepsRequests

/-- A request to the running task stays if the task does. -/
theorem KeepsRequests.needResched (h : KeepsRequests s t) (hcurr : t.rq.curr = s.rq.curr)
    (hn : s.needResched = true) : t.needResched = true := by
  show (t.acct t.rq.curr).needResched = true
  rw [hcurr]
  exact h _ hn

theorem acct_schedRrGetInterval : (schedRrGetInterval m p s).2.acct = s.acct := by
  unfold schedRrGetInterval
  cases (s.tasks p).schedClass with
  | wrr =>
      simp only [SchedClass.getRrInterval, getRrIntervalWrr]
      split
      · rfl
      · split <;> rfl
  | _ => rfl

/-- **Only `__schedule` withdraws a request** of the running task. -/
theorem needResched_step {o : Op} (hinv : Inv m s) (hstep : step m s o = some t)
    (ho : ∀ b, o ≠ .schedule b) (hn : s.needResched = true) : t.needResched = true := by
  have hcall := callable_of_step hstep
  have hcurr : t.rq.curr = s.rq.curr := (keeps_step hinv.legal hcall ho (hinv.view_step hstep)).curr
  have hperform := perform_of_step hstep
  show (t.acct t.rq.curr).needResched = true
  rw [hcurr]
  revert hn
  show (s.acct s.rq.curr).needResched = true → _
  cases o with
  | schedule preemptActive => exact absurd rfl (ho preemptActive)
  | schedFork child f =>
      obtain ⟨hchild, -⟩ := hinv.forkable f hcall
      obtain ⟨s', hfork, rfl⟩ := schedFork_of_step hstep
      exact @KeepsRequests.schedFork m s s' _ child f hfork hchild.symm
  | schedSetscheduler p policy prio user who seen =>
      obtain ⟨⟨ret, s'⟩, hset, rfl⟩ := Option.map_eq_some_iff.mp hperform
      exact KeepsRequests.schedSetscheduler hset _
  | schedSetStopTask stop who seen => exact KeepsRequests.schedSetStopTask hperform _
  | tryToWakeUp p state =>
      cases hperform
      exact KeepsRequests.tryToWakeUp state _
  | wakeUpNewTask p =>
      cases hperform
      exact (KeepsRequests.activate {}).trans (.of_quiet (@quiet_checkPreemptCurr m _ p)) _
  | schedYield =>
      cases hperform
      exact KeepsRequests.schedYield _
  | schedulerTick =>
      cases hperform
      exact KeepsRequests.schedulerTick _
  | rtMutexSetprio p prio =>
      cases hperform
      exact KeepsRequests.rtMutexSetprio prio _
  | setUserNice p nice =>
      cases hperform
      exact KeepsRequests.setUserNice nice _
  | schedMoveTask p tg =>
      cases hperform
      exact KeepsRequests.schedMoveTask tg _
  | normalizeRtTasks =>
      cases hperform
      exact KeepsRequests.foldl_normalizeOne _ _
  | schedRrGetInterval p =>
      cases hperform
      exact KeepsRequests.of_acct acct_schedRrGetInterval _
  | doSchedRtPeriodTimer g overrun =>
      cases hperform
      exact KeepsRequests.of_quiet (quiet_doSchedRtPeriodTimer g overrun) _
  | initIdleBootupTask | setCurrentState | releaseTask | foreign =>
      cases hperform
      exact fun hn => hn

/-! ### Where a request is made -/

/-- A class above the fair one preempts it, and the idle class too. -/
theorem preempts_low {c : SchedClass} (hc : c = .fair ∨ c = .idle) :
    preempts c .wrr forEachClass = true := by
  rcases hc with rfl | rfl <;> decide

theorem needResched_reschedTask (h : p = s.rq.curr) : (reschedTask p s).needResched = true := by
  subst h
  simp [reschedTask, State.needResched, State.modAcct]

/-- **A WRR task that is woken preempts** a fair task and the idle task. -/
theorem checkPreemptCurr_asks (hp : (s.tasks p).schedClass = .wrr)
    (hlow : s.current.schedClass = .fair ∨ s.current.schedClass = .idle) :
    (checkPreemptCurr m p s).needResched = true := by
  have hne : (s.tasks p).schedClass ≠ s.current.schedClass := by
    rw [hp]
    rcases hlow with hc | hc <;> simp [hc]
  have hasked : (reschedTaskIf (preempts s.current.schedClass (s.tasks p).schedClass forEachClass)
      s.rq.curr s).needResched = true := by
    rw [hp, preempts_low hlow]
    exact needResched_reschedTask rfl
  unfold checkPreemptCurr
  rw [if_neg hne]
  simp only []
  split
  · exact hasked
  · exact hasked

/-- The fair class asks for a reschedule when the running task has become a fair one. -/
def FairAsks (m : Machine) : Prop :=
  ∀ s p, s.rq.curr = p → (s.tasks p).onRq = true → m.asksResched .fair .switchedTo s p = true

theorem switchedTo_fair_asks (hm : FairAsks m) (hp : s.rq.curr = p) (hon : (s.tasks p).onRq = true) :
    (SchedClass.fair.switchedTo m p s).needResched = true := by
  have hclock : ∀ b : Bool, (if b then updateRqClock m s else s).view = s.view := by
    intro b
    cases b
    · rfl
    · exact view_updateRqClock
  show (reschedTaskIf _ _ (writeEntities m .fair .switchedTo _)).needResched = true
  generalize hs₁ : (if m.updatesClock .fair .switchedTo s p then updateRqClock m s else s) = s₁
  have hview : s₁.view = s.view := by rw [← hs₁, hclock]
  have hasks : m.asksResched .fair .switchedTo s₁ p = true := by
    refine hm s₁ p ?_ ?_
    · exact (curr_of_view hview).trans hp
    · rw [tasks_of_view hview]
      exact hon
  rw [hasks]
  exact needResched_reschedTask rfl

/-- **A WRR task that was queued in another class preempts** a task of another policy. -/
theorem switchedTo_wrr_asks (hp : s.rq.curr ≠ p) (hon : (s.tasks p).onRq = true)
    (hpolicy : s.current.policy ≠ .wrr) :
    (SchedClass.wrr.switchedTo m p s).needResched = true := by
  simp only [SchedClass.switchedTo, switchedToWrr]
  rw [if_pos (by simp [hon, hp]), reschedTaskIf, if_pos (by simpa using hpolicy)]
  exact needResched_reschedTask rfl

/-- `check_class_changed` tells the new class, once the class did change; a class that is left alters
nothing the new one looks at. -/
theorem checkClassChanged_of_ne {c c' : SchedClass} {oldprio : Int} (hc : c ≠ c')
    (hp : (s.tasks p).schedClass = c') :
    ∃ s', s'.view = s.view ∧ checkClassChanged m p c oldprio s = c'.switchedTo m p s' := by
  refine ⟨c.switchedFrom m p s, view_switchedFrom c, ?_⟩
  have hcls : ((c.switchedFrom m p s).tasks p).schedClass = c' := by
    rw [tasks_of_view (view_switchedFrom c), hp]
  rw [checkClassChanged, if_pos (by rw [hp]; exact hc), ← hcls]

theorem checkClassChanged_fair_asks (hm : FairAsks m) {c : SchedClass} {oldprio : Int}
    (hc : c ≠ .fair) (hcls : (s.tasks p).schedClass = .fair) (hp : s.rq.curr = p)
    (hon : (s.tasks p).onRq = true) : (checkClassChanged m p c oldprio s).needResched = true := by
  obtain ⟨s', hview, heq⟩ := @checkClassChanged_of_ne m s p c .fair oldprio hc hcls
  rw [heq]
  refine switchedTo_fair_asks hm ((curr_of_view hview).trans hp) ?_
  rw [tasks_of_view hview]
  exact hon

theorem checkClassChanged_wrr_asks {c : SchedClass} {oldprio : Int} (hc : c ≠ .wrr)
    (hcls : (s.tasks p).schedClass = .wrr) (hp : s.rq.curr ≠ p) (hon : (s.tasks p).onRq = true)
    (hpolicy : s.current.policy ≠ .wrr) :
    (checkClassChanged m p c oldprio s).needResched = true := by
  obtain ⟨s', hview, heq⟩ := @checkClassChanged_of_ne m s p c .wrr oldprio hc hcls
  rw [heq]
  refine switchedTo_wrr_asks ?_ ?_ ?_
  · rw [curr_of_view hview]
    exact hp
  · rw [tasks_of_view hview]
    exact hon
  · rw [State.current, tasks_of_view hview, curr_of_view hview]
    exact hpolicy

end WrrScheduler
