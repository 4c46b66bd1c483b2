/-
Every queued real-time task is in its place, in every run.

A task is put on the queue of its group at the priority it has then, and nothing
changes either while it is queued: what does takes the task off first and puts it
back.  The rest of the scheduler leaves the queues alone, moves groups, or sends a
task to the end of the queue it is on.

The place of a task is read off `spots`, the number of times it stands on each
queue, and not off the queues themselves.  The order within a queue, and where
groups stand, change all the time and do not show in `spots`; and that a task stands
somewhere once and nowhere else is one equation.

So the work is divided by what an operation can do to `spots`.  `Still` operations
do nothing to any task.  An enqueue or a dequeue does something to one task, and the
lemmas say that it is on no queue before the first and after the second.  Everything
in `core.c` is put together from these, in the order in which the code does it, and
at the end of each operation the one task that was touched is looked at by itself.
-/
import WrrScheduler.Proofs.Invariant
import WrrScheduler.Proofs.RtSpots

namespace WrrScheduler

variable {m : Machine} {s s' t : State} {p q : Pid}

/-! ### The real-time queues of a state -/

@[simp] theorem rt_reschedTaskIf (b : Bool) : (reschedTaskIf b p s).rq.rt = s.rq.rt := by
  unfold reschedTaskIf
  split <;> rfl

@[simp] theorem rt_updateRqClock : (updateRqClock m s).rq.rt = s.rq.rt := by
  unfold updateRqClock
  split <;> rfl

@[simp] theorem rt_outsideCall (c : SchedClass) (f : ClassFn) :
    (outsideCall m c f p s).rq.rt = s.rq.rt := by
  unfold outsideCall
  rw [rt_reschedTaskIf]
  split
  · exact rt_updateRqClock
  · rfl

@[simp] theorem rt_checkClassChanged (c : SchedClass) (oldprio : Int) :
    (checkClassChanged m p c oldprio s).rq.rt = s.rq.rt := by
  have hfrom : ∀ (c : SchedClass) (s : State), (c.switchedFrom m p s).rq.rt = s.rq.rt := by
    intro c s
    cases c <;> first | rfl | exact rt_outsideCall _ _
  have hto : ∀ (c : SchedClass) (s : State), (c.switchedTo m p s).rq.rt = s.rq.rt := by
    intro c s
    cases c with
    | rt =>
        unfold SchedClass.switchedTo switchedToRt
        dsimp only
        split
        · exact rt_reschedTaskIf _
        · rfl
    | wrr =>
        unfold SchedClass.switchedTo switchedToWrr
        dsimp only
        split
        · exact rt_reschedTaskIf _
        · rfl
    | _ => exact rt_outsideCall _ _
  unfold checkClassChanged
  split
  · exact (hto _ _).trans (hfrom _ _)
  · split
    · cases (s.tasks p).schedClass with
      | rt =>
          unfold SchedClass.prioChanged prioChangedRt
          dsimp only
          split
          · rfl
          · split
            · exact rt_reschedTaskIf _
            · exact rt_reschedTaskIf _
      | wrr => rfl
      | _ => exact rt_outsideCall _ _
    · rfl

@[simp] theorem rt_countUninterruptible (n : Int) :
    (countUninterruptible n p s).rq.rt = s.rq.rt := by
  unfold countUninterruptible
  split <;> rfl

@[simp] theorem rt_checkPreemptCurr : (checkPreemptCurr m p s).rq.rt = s.rq.rt := by
  have hclass : ∀ c : SchedClass, (c.checkPreemptCurr m p s).rq.rt = s.rq.rt := by
    intro c
    cases c with
    | rt => exact rt_reschedTaskIf _
    | wrr => rfl
    | _ => exact rt_outsideCall _ _
  have hask : (if (s.tasks p).schedClass = s.current.schedClass then
      s.current.schedClass.checkPreemptCurr m p s
      else reschedTaskIf (preempts s.current.schedClass (s.tasks p).schedClass forEachClass)
        s.rq.curr s).rq.rt = s.rq.rt := by
    split
    · exact hclass _
    · exact rt_reschedTaskIf _
  have hskip : ∀ s : State, (if s.current.onRq && s.needResched then
      s.modRq fun r => { r with skipClockUpdate := 1 } else s).rq.rt = s.rq.rt := by
    intro s
    split <;> rfl
  exact (hskip _).trans hask

@[simp] theorem rt_expireSched (timeout : BitVec 32) :
    (expireSched m p timeout s).rq.rt = s.rq.rt := by
  unfold expireSched
  split <;> rfl

theorem rt_classPickNextTask {c : SchedClass} {next : Option Pid}
    (h : c.pickNextTask m s = .ok (next, s')) : s'.rq.rt = s.rq.rt := by
  rcases classPickNextTask_cases h with rfl | ⟨p, rfl⟩ | ⟨c, p, rfl⟩
  · rfl
  · rfl
  · exact rt_outsideCall _ _

theorem rt_pickNextTask {next : Pid} (h : pickNextTask m s = .ok (next, s')) :
    s'.rq.rt = s.rq.rt := by
  obtain ⟨c, hc⟩ := exists_classPickNextTask h
  exact rt_classPickNextTask hc

theorem rt_taskTickWrr : (taskTickWrr m p s).rq.rt = s.rq.rt := by
  have hcharge : (updateCurrWrr s).rq.rt = s.rq.rt := by
    unfold updateCurrWrr
    split <;> rfl
  have hwatch : (watchdogWrr m p (updateCurrWrr s)).rq.rt = s.rq.rt := by
    rw [← hcharge]
    unfold watchdogWrr
    split
    · rfl
    · exact rt_expireSched _
  rw [← hwatch]
  unfold taskTickWrr expireTaskWrr
  dsimp only
  split
  · rfl
  · split
    · rfl
    · split <;> rfl

theorem spots_updateCurrRt : (updateCurrRt m s).rq.rt.spots q = s.rq.rt.spots q := by
  rw [rt_updateCurrRt]
  split
  · exact Rt.spots_chargeRt _
  · rfl

/-! ### Enqueueing and dequeueing

A task that stands nowhere is enqueued at its place, as its group and priority are
*then*.  The other tasks stand where they stood, although the groups above them may
have come or gone.
-/

theorem spots_enqueueTask_of_ne (flags : EnqueueFlags) (hqp : q ≠ p) :
    (enqueueTask m flags p s).rq.rt.spots q = s.rq.rt.spots q := by
  unfold enqueueTask
  simp only []
  rw [← @rt_updateRqClock m s]
  generalize updateRqClock m s = s₁
  cases (s₁.tasks p).schedClass with
  | rt =>
      show (enqueueTaskRt m flags p s₁).rq.rt.spots q = _
      rw [rt_enqueueTaskRt]
      exact Rt.spots_enqueueRtEntity_of_ne _ (by simpa using Ne.symm hqp)
  | wrr =>
      unfold SchedClass.enqueueTask enqueueTaskWrr
      dsimp only
      split <;> rfl
  | stop | fair | idle =>
      refine congrArg (fun r => Rt.spots r q) ?_
      exact (@rt_outsideCall m s₁ p _ .enqueueTask)

theorem spots_dequeueTask_of_ne (hqp : q ≠ p) :
    (dequeueTask m p s).rq.rt.spots q = s.rq.rt.spots q := by
  unfold dequeueTask
  simp only []
  rw [← @rt_updateRqClock m s]
  generalize updateRqClock m s = s₁
  cases (s₁.tasks p).schedClass with
  | rt =>
      show (dequeueTaskRt m p s₁).rq.rt.spots q = _
      rw [rt_dequeueTaskRt, Rt.spots_dequeueRtEntity_of_ne (by simpa using Ne.symm hqp)]
      exact spots_updateCurrRt
  | wrr =>
      show (dequeueTaskWrr p s₁).rq.rt.spots q = _
      unfold dequeueTaskWrr updateCurrWrr
      split <;> rfl
  | stop | fair | idle =>
      refine congrArg (fun r => Rt.spots r q) ?_
      exact (@rt_outsideCall m s₁ p _ .dequeueTask)

/-- A task is on the real-time queue of its group at its priority, once, and on no other. -/
def RtPlaced (s : State) (p : Pid) : Prop :=
  ∀ g i, s.rq.rt.spots p g i =
    if g = (s.tasks p).schedTaskGroup ∧ i = (s.tasks p).prio then 1 else 0

theorem rtPlaced_enqueueTask (flags : EnqueueFlags) (hoff : s.rq.rt.Nowhere p)
    (hrt : (s.tasks p).schedClass = .rt) : RtPlaced (enqueueTask m flags p s) p := by
  have htasks : (updateRqClock m s).tasks = s.tasks := tasks_of_view view_updateRqClock
  rw [← @rt_updateRqClock m s] at hoff
  rw [← htasks] at hrt
  unfold enqueueTask
  simp only []
  generalize updateRqClock m s = s₁ at hoff hrt
  intro g i
  rw [hrt]
  have hview : (enqueueTaskRt m flags p s₁).rtView m = s₁.rtView m := rtView_enqueueTaskRt flags
  have hgroup : ((enqueueTaskRt m flags p s₁).tasks p).schedTaskGroup =
      (s₁.tasks p).schedTaskGroup := congrArg (fun v : RtView => v.group p) hview
  have hprio : ((enqueueTaskRt m flags p s₁).tasks p).prio = (s₁.tasks p).prio :=
    congrArg (fun v : RtView => v.prio p) hview
  show (enqueueTaskRt m flags p s₁).rq.rt.spots p g i = _
  rw [rt_enqueueTaskRt, hoff.spots_enqueueTask]
  show _ = if g = ((enqueueTaskRt m flags p s₁).tasks p).schedTaskGroup ∧
    i = ((enqueueTaskRt m flags p s₁).tasks p).prio then 1 else 0
  rw [hgroup, hprio]
  rfl

/-! ### What leaves every task where it is -/

/-- No task has changed, nor where it is queued. -/
structure Still (s s' : State) : Prop where
  attr : ∀ q, (s'.tasks q).toAttr = (s.tasks q).toAttr
  spots : ∀ q, s'.rq.rt.spots q = s.rq.rt.spots q

namespace Still

theorem trans {s'' : State} (h : Still s s') (h' : Still s' s'') : Still s s'' :=
  ⟨fun q => (h'.attr q).trans (h.attr q), fun q => (h'.spots q).trans (h.spots q)⟩

theorem of_spots (hview : s'.view = s.view) (hspots : ∀ q, s'.rq.rt.spots q = s.rq.rt.spots q) :
    Still s s' := by
  refine ⟨?_, hspots⟩
  intro q
  rw [tasks_of_view hview]

theorem of_rt (hview : s'.view = s.view) (hrt : s'.rq.rt = s.rq.rt) : Still s s' :=
  of_spots hview fun q => by rw [hrt]

end Still

theorem still_outsideCall (c : SchedClass) (f : ClassFn) : Still s (outsideCall m c f p s) :=
  .of_rt (view_outsideCall c f) (rt_outsideCall c f)

theorem still_classPutPrevTask (c : SchedClass) : Still s (c.putPrevTask m p s) := by
  refine .of_spots (view_putPrevTask c) ?_
  intro q
  cases c with
  | rt => exact spots_updateCurrRt
  | wrr =>
      show (putPrevTaskWrr p s).rq.rt.spots q = _
      unfold putPrevTaskWrr updateCurrWrr
      split <;> rfl
  | stop | fair | idle => exact (still_outsideCall _ _).spots q

theorem still_setCurrTask (c : SchedClass) : Still s (c.setCurrTask m s) := by
  refine .of_rt (view_setCurrTask c) ?_
  cases c with
  | rt => rfl
  | wrr => rfl
  | _ => exact rt_outsideCall _ _

theorem still_putPrevTask : Still s (putPrevTask m p s) := by
  have hclock : Still s (if (s.tasks p).onRq || s.rq.skipClockUpdate < 0 then updateRqClock m s
      else s) := by
    split
    · exact .of_rt view_updateRqClock rt_updateRqClock
    · exact .of_rt rfl rfl
  exact hclock.trans (still_classPutPrevTask _)

/-! ### Every queued real-time task

The invariant asks something of a task only while it is queued and in the real-time
class.  A change to one task leaves the others what they were, so `of_ne` asks about
that one.
-/

/-- Every queued real-time task is in its place. -/
def RtSettled (s : State) : Prop :=
  ∀ p, (s.tasks p).onRq = true → (s.tasks p).schedClass = .rt → RtPlaced s p

theorem RtPlaced.congr (h : RtPlaced s p) (hspots : s'.rq.rt.spots p = s.rq.rt.spots p)
    (hgroup : (s'.tasks p).schedTaskGroup = (s.tasks p).schedTaskGroup)
    (hprio : (s'.tasks p).prio = (s.tasks p).prio) : RtPlaced s' p := by
  intro g i
  rw [hspots, hgroup, hprio]
  exact h g i

namespace RtSettled

/-- One task is looked at by itself, the others have not changed. -/
theorem of_ne (h : RtSettled s) (hattr : ∀ q, q ≠ p → (s'.tasks q).toAttr = (s.tasks q).toAttr)
    (hspots : ∀ q, q ≠ p → s'.rq.rt.spots q = s.rq.rt.spots q)
    (hp : (s'.tasks p).onRq = true → (s'.tasks p).schedClass = .rt → RtPlaced s' p) :
    RtSettled s' := by
  intro q hon hcls
  by_cases hqp : q = p
  · subst hqp
    exact hp hon hcls
  · rw [hattr q hqp] at hon hcls
    exact (h q hon hcls).congr (hspots q hqp) (by rw [hattr q hqp]) (by rw [hattr q hqp])

theorem still (h : RtSettled s) (hs : Still s s') : RtSettled s' := by
  intro q hon hcls
  rw [hs.attr q] at hon hcls
  exact (h q hon hcls).congr (hs.spots q) (by rw [hs.attr q]) (by rw [hs.attr q])

theorem attr_modAttr_of_ne (f : Attr → Attr) (hqp : q ≠ p) :
    ((s.modAttr p f).tasks q).toAttr = (s.tasks q).toAttr := by
  simp [State.modAttr, State.modTask, hqp]

theorem attr_modAttr_self (f : Attr → Attr) :
    ((s.modAttr p f).tasks p).toAttr = f (s.tasks p).toAttr := by
  simp [State.modAttr, State.modTask]

/-- A change that no place depends on. -/
theorem modAttr (h : RtSettled s) {f : Attr → Attr} (hcls : ∀ t, (f t).schedClass = t.schedClass)
    (hgroup : ∀ t, (f t).schedTaskGroup = t.schedTaskGroup) (hprio : ∀ t, (f t).prio = t.prio)
    (hon : ∀ t, (f t).onRq = t.onRq) : RtSettled (s.modAttr p f) := by
  refine h.of_ne (fun q => attr_modAttr_of_ne f) (fun _ _ => rfl) ?_
  intro honp hclsp
  rw [attr_modAttr_self, hon] at honp
  rw [attr_modAttr_self, hcls] at hclsp
  refine (h p honp hclsp).congr rfl ?_ ?_
  · rw [attr_modAttr_self, hgroup]
  · rw [attr_modAttr_self, hprio]

/-- A change of a task that is not queued afterwards. -/
theorem modAttr_off (h : RtSettled s) {f : Attr → Attr} (hoff : (f (s.tasks p).toAttr).onRq = false) :
    RtSettled (s.modAttr p f) := by
  refine h.of_ne (fun q => attr_modAttr_of_ne f) (fun _ _ => rfl) ?_
  intro honp
  rw [attr_modAttr_self, hoff] at honp
  cases honp

theorem setTaskState (h : RtSettled s) (state : Nat) : RtSettled (setTaskState state p s) := by
  refine h.modAttr ?_ ?_ ?_ ?_ <;> exact fun _ => rfl

/-! ### On the run queue and off it

Waking puts a task on its queue, after which its place is what the enqueue made it;
sleeping clears `on_rq`, after which nothing is asked.  Between the two halves of
`withDetached` the task stands nowhere, and its group and priority may change.
-/

theorem activate (h : RtSettled s) (hq : OnQueue m s) (flags : EnqueueFlags)
    (hp : (s.tasks p).onRq = false) : RtSettled (setOnRq true p (activateTask m flags p s)) := by
  have hattr : ∀ q, ((activateTask m flags p s).tasks q).toAttr = (s.tasks q).toAttr := by
    intro q
    show (activateTask m flags p s).view.attr q = s.view.attr q
    rw [view_activateTask, View.attr_enqueue]
  refine @of_ne _ _ p h ?_ ?_ ?_
  · intro q hqp
    rw [setOnRq, attr_modAttr_of_ne _ hqp, hattr]
  · intro q hqp
    show (activateTask m flags p s).rq.rt.spots q = _
    rw [activateTask, spots_enqueueTask_of_ne flags hqp, rt_countUninterruptible]
  · intro _ hcls
    rw [setOnRq, attr_modAttr_self, hattr] at hcls
    obtain ⟨A, hA, hiff⟩ := hq
    have hpA : p ∉ A := by
      rw [hiff, hp]
      simp
    have hplaced : RtPlaced (activateTask m flags p s) p := by
      refine rtPlaced_enqueueTask flags ?_ ?_
      · rw [rt_countUninterruptible]
        exact hA.rt.nowhere fun hc => hpA hc.1
      · rw [tasks_of_view (view_countUninterruptible _)]
        exact hcls
    refine hplaced.congr rfl ?_ ?_ <;> rw [setOnRq, attr_modAttr_self]

theorem deactivate (h : RtSettled s) : RtSettled (setOnRq false p (deactivateTask m p s)) := by
  refine @of_ne _ _ p h ?_ ?_ ?_
  · intro q hqp
    rw [setOnRq, attr_modAttr_of_ne _ hqp]
    show (deactivateTask m p s).view.attr q = s.view.attr q
    rw [view_deactivateTask, View.attr_dequeue]
  · intro q hqp
    show (deactivateTask m p s).rq.rt.spots q = _
    rw [deactivateTask, spots_dequeueTask_of_ne hqp, rt_countUninterruptible]
  · intro hon
    rw [setOnRq, attr_modAttr_self] at hon
    cases hon

section Detached

variable {change : State → State} {f : Attr → Attr} {flags : EnqueueFlags} {running : Bool}

/-- Between the moment a task leaves the queue and the moment it is put back nothing is queued, and
only the task changes. -/
theorem still_between (hchange : ∀ s : State, Quiet m (s.modAttr p f) (change s))
    (hrt : ∀ s : State, (change s).rq.rt = s.rq.rt) (s : State) :
    ∃ s', (if running then
        ((change (if running then (s.tasks p).schedClass.putPrevTask m p s else s)).tasks
          p).schedClass.setCurrTask m
            (change (if running then (s.tasks p).schedClass.putPrevTask m p s else s))
        else change (if running then (s.tasks p).schedClass.putPrevTask m p s else s)) = s' ∧
      (s'.tasks p).toAttr = f (s.tasks p).toAttr ∧ ∀ q, s'.rq.rt.spots q = s.rq.rt.spots q := by
  have hput : Still s (if running then (s.tasks p).schedClass.putPrevTask m p s else s) := by
    split
    · exact still_classPutPrevTask _
    · exact .of_rt rfl rfl
  generalize (if running then (s.tasks p).schedClass.putPrevTask m p s else s) = s₁ at hput
  have hset : Still (change s₁) (if running then
      ((change s₁).tasks p).schedClass.setCurrTask m (change s₁) else change s₁) := by
    split
    · exact still_setCurrTask _
    · exact .of_rt rfl rfl
  refine ⟨_, rfl, ?_, ?_⟩
  · rw [hset.attr, tasks_of_view (hchange s₁).view, attr_modAttr_self, hput.attr]
  · intro q
    rw [hset.spots, hrt, hput.spots]

/-- **Detach, change, re-attach.** -/
theorem withDetached (h : RtSettled s) (hq : OnQueue m s)
    (hchange : ∀ s : State, Quiet m (s.modAttr p f) (change s))
    (hrt : ∀ s : State, (change s).rq.rt = s.rq.rt) (hon : ∀ a, (f a).onRq = a.onRq) :
    RtSettled (withDetached m running flags p change s) := by
  have hattr : ∀ q, ((WrrScheduler.withDetached m running flags p change s).tasks q).toAttr =
      if q = p then f (s.tasks p).toAttr else (s.tasks q).toAttr := by
    intro q
    show (WrrScheduler.withDetached m running flags p change s).view.attr q = _
    rw [view_withDetached fun s => (hchange s).view.trans (view_modAttr f)]
    exact View.attr_detached f
  refine @of_ne _ _ p h ?_ ?_ ?_
  · intro q hqp
    rw [hattr, if_neg hqp]
  · intro q hqp
    unfold WrrScheduler.withDetached
    simp only []
    by_cases honRq : (s.tasks p).onRq = true
    · obtain ⟨s', hs', -, hspots⟩ := @still_between m p change f running hchange hrt (dequeueTask m p s)
      rw [if_pos honRq, if_pos honRq, hs', spots_enqueueTask_of_ne _ hqp, hspots,
        spots_dequeueTask_of_ne hqp]
    · obtain ⟨s', hs', -, hspots⟩ := @still_between m p change f running hchange hrt s
      rw [if_neg honRq, if_neg honRq, hs', hspots]
  · intro honp hcls
    rw [hattr, if_pos rfl] at honp hcls
    rw [hon] at honp
    obtain ⟨A, hA, hiff⟩ := hq
    obtain ⟨s', hs', hself, hspots⟩ :=
      @still_between m p change f running hchange hrt (dequeueTask m p s)
    unfold WrrScheduler.withDetached
    simp only []
    rw [if_pos honp, if_pos honp, hs']
    refine rtPlaced_enqueueTask _ ?_ ?_
    · intro g i
      rw [hspots]
      exact (hA.dequeueTask ((hiff p).mpr honp)).rt.nowhere (fun hc => Finset.notMem_erase p A hc.1) g i
    · have hdequeue : ((dequeueTask m p s).tasks p).toAttr = (s.tasks p).toAttr := by
        show (dequeueTask m p s).view.attr p = s.view.attr p
        rw [view_dequeueTask, View.attr_dequeue]
      rw [hself, hdequeue]
      exact hcls

end Detached

/-! ### The operations

One lemma for each, and the step that dispatches.  A yield and a tick requeue: those
send a task to the end of the queue it is on, provided it was in its place: there the
invariant is used of the task itself, and elsewhere only of the others.
-/

theorem checkClassChanged (h : RtSettled s) (c : SchedClass) (oldprio : Int) :
    RtSettled (checkClassChanged m p c oldprio s) :=
  h.still (.of_rt (view_checkClassChanged c oldprio) (rt_checkClassChanged c oldprio))

theorem changePolicy (h : RtSettled s) (hq : OnQueue m s) (c : Checked) (prio : Int) :
    RtSettled (changePolicy m p c prio s) := by
  have hdetached : RtSettled (WrrScheduler.withDetached m (taskCurrent s p) {} p
      (fun s => setscheduler p c.policy prio
        (s.modAttr p fun t => { t with schedResetOnFork := c.resetOnFork })) s) :=
    h.withDetached hq (fun _ => quiet_setPolicy c prio) (fun _ => rfl) fun _ => rfl
  exact hdetached.checkClassChanged _ _

theorem schedSetscheduler (h : RtSettled s) (hq : OnQueue m s) {policy : BitVec 32}
    {prio ret : Int} {user : Bool} {who : Caller} {seen : List Attr}
    (hcall : schedSetscheduler m p prio user who seen policy s = some (ret, t)) : RtSettled t := by
  cases schedSetscheduler_done hcall with
  | failed _ => exact h
  | nothing _ _ _ _ => exact h
  | @changed c _ _ _ _ _ => exact h.changePolicy hq c prio

theorem rtMutexSetprio (h : RtSettled s) (hq : OnQueue m s) (prio : Int) :
    RtSettled (rtMutexSetprio m p prio s) := by
  unfold WrrScheduler.rtMutexSetprio
  split
  · exact h
  · refine checkClassChanged ?_ _ _
    exact h.withDetached hq (fun s => Quiet.refl m _) (fun _ => rfl) fun _ => rfl

theorem setUserNice (h : RtSettled s) (hq : OnQueue m s) (nice : Int) :
    RtSettled (setUserNice m p nice s) := by
  unfold WrrScheduler.setUserNice
  split
  · exact h
  · split
    · refine h.modAttr ?_ ?_ ?_ ?_ <;> exact fun _ => rfl
    · have hdetached : RtSettled (WrrScheduler.withDetached m false {} p
          (fun s => (setLoadWeight p (setStaticPrio nice p s)).modAttr p applyEffectivePrio) s) :=
        h.withDetached hq (fun _ => quiet_renice nice) (fun _ => rfl) fun _ => rfl
      exact hdetached.still (.of_rt (view_reschedTaskIf _) (rt_reschedTaskIf _))

theorem schedMoveTask (h : RtSettled s) (hq : OnQueue m s) (tg : Gid) :
    RtSettled (schedMoveTask m p tg s) := by
  have hmove : ∀ (s : State) (c : SchedClass), (c.taskMoveGroup m p s).rq.rt = s.rq.rt := by
    intro s c
    cases c with
    | rt => rfl
    | wrr => rfl
    | _ => exact rt_outsideCall _ _
  exact h.withDetached hq (fun _ => quiet_taskMoveGroup _) (fun _ => hmove _ _) fun _ => rfl

theorem normalizeOne (h : RtSettled s) (hq : OnQueue m s) : RtSettled (normalizeOne m s p) := by
  unfold WrrScheduler.normalizeOne
  split
  · exact h
  · have hstamp : RtSettled (s.modAcct p fun a => { a with se := { a.se with execStart := 0 } }) := h
    have hqstamp : OnQueue m (s.modAcct p fun a => { a with se := { a.se with execStart := 0 } }) :=
      hq.quiet (Quiet.modAcct fun _ h => h)
    simp only []
    split
    · split
      · exact hstamp.setUserNice hqstamp 0
      · exact hstamp
    · refine checkClassChanged ?_ _ _
      refine still (s := WrrScheduler.withDetached m false {} p (setscheduler p .normal 0) _) ?_
        (.of_rt (view_reschedTaskIf _) (rt_reschedTaskIf _))
      exact hstamp.withDetached hqstamp (fun _ => quiet_setscheduler _ _) (fun _ => rfl) fun _ => rfl

theorem normalizeRtTasks (h : RtSettled s) (hq : OnQueue m s) : RtSettled (normalizeRtTasks m s) := by
  have hfold : ∀ (l : List Pid) (s : State), OnQueue m s → RtSettled s →
      RtSettled (l.foldl (WrrScheduler.normalizeOne m) s) := by
    intro l
    induction l with
    | nil => exact fun _ _ h => h
    | cons p l ih => exact fun s hq h => ih _ hq.normalizeOne (h.normalizeOne hq)
  exact hfold s.tasklist s hq h

/-- A task is linked only if it is queued, and then in its place. -/
theorem placed_of_linked (h : RtSettled s) (hq : OnQueue m s)
    (hp : s.rq.rt.runList (.task p) = .linked) : RtPlaced s p := by
  obtain ⟨A, hA, hiff⟩ := hq
  have hmem : p ∈ A ∧ s.view.cls p = .rt := by
    by_contra hnot
    rw [hA.rt.not_linked hnot] at hp
    cases hp
  exact h p ((hiff p).mp hmem.1) hmem.2

theorem requeueTaskRt (hq : OnQueue m s) (h : RtSettled s) :
    RtSettled (s.modRt fun r => Rt.requeueTaskRt (s.rtView m) false r p) :=
  h.still (.of_spots rfl fun _ => Rt.spots_requeueTaskRt false (h.placed_of_linked hq))

theorem schedYield (h : RtSettled s) (hq : OnQueue m s) : RtSettled (schedYield m s) := by
  unfold WrrScheduler.schedYield
  cases s.current.schedClass with
  | rt => exact requeueTaskRt hq h
  | wrr => exact h.still ⟨fun q => @View.attr_requeueWrr s.view s.rq.curr q, fun _ => rfl⟩
  | _ => exact h.still (still_outsideCall _ _)

theorem taskTickRt (h : RtSettled s) (hq : OnQueue m s) : RtSettled (taskTickRt m p s) := by
  have hwatch : ∀ s : State, (watchdogRt m p s).rq.rt = s.rq.rt := by
    intro s
    unfold watchdogRt
    split
    · rfl
    · exact rt_expireSched _
  have hcharged : Still s (watchdogRt m p (updateCurrRt m s)) := by
    refine .of_spots (quiet_updateCurrRt.trans quiet_watchdogRt).view ?_
    intro q
    rw [hwatch, spots_updateCurrRt]
  have h₁ := h.still hcharged
  have hq₁ : OnQueue m (watchdogRt m p (updateCurrRt m s)) :=
    hq.quiet (quiet_updateCurrRt.trans quiet_watchdogRt)
  have hslice : ∀ (s : State) (n : BitVec 32 → BitVec 32), RtSettled s → OnQueue m s →
      RtSettled (s.modRtEntity p fun e => { e with timeSlice := n e.timeSlice }) ∧
        OnQueue m (s.modRtEntity p fun e => { e with timeSlice := n e.timeSlice }) :=
    fun s n h hq => ⟨h, hq.quiet (Quiet.modAcct fun _ h => h)⟩
  unfold WrrScheduler.taskTickRt
  generalize watchdogRt m p (updateCurrRt m s) = s₁ at h₁ hq₁
  simp only []
  split
  · exact h₁
  · obtain ⟨h₂, hq₂⟩ := hslice s₁ (fun n => n - 1) h₁ hq₁
    split
    · exact h₂
    · obtain ⟨h₃, hq₃⟩ := hslice _ (fun _ => rrTimeslice m) h₂ hq₂
      split
      · exact (requeueTaskRt hq₃ h₃).still (.of_rt rfl rfl)
      · exact h₃

theorem schedulerTick (h : RtSettled s) (hq : OnQueue m s) : RtSettled (schedulerTick m s) := by
  have hclock : RtSettled (updateRqClock m s) := h.still (.of_rt view_updateRqClock rt_updateRqClock)
  have hqclock : OnQueue m (updateRqClock m s) := hq.quiet quiet_updateRqClock
  unfold WrrScheduler.schedulerTick
  generalize updateRqClock m s = s₁ at hclock hqclock
  simp only []
  cases s₁.current.schedClass with
  | rt => exact hclock.taskTickRt hqclock
  | wrr =>
      have hrt : (taskTickWrr m s₁.rq.curr s₁).rq.rt = s₁.rq.rt := rt_taskTickWrr
      refine hclock.still ⟨?_, fun q => congrArg (fun r => Rt.spots r q) hrt⟩
      intro q
      show (taskTickWrr m s₁.rq.curr s₁).view.attr q = s₁.view.attr q
      rw [view_taskTickWrr, View.attr_tickWrr]
  | _ => exact hclock.still (still_outsideCall _ _)

theorem ttwuDoWakeup (h : RtSettled s) : RtSettled (ttwuDoWakeup m p s) :=
  (h.still (.of_rt view_checkPreemptCurr rt_checkPreemptCurr)).setTaskState taskRunning

theorem wake (h : RtSettled s) (hq : OnQueue m s) : RtSettled (WrrScheduler.ttwuDoWakeup m p
    (if (s.tasks p).onRq then s else ttwuActivate m p s)) := by
  by_cases hon : (s.tasks p).onRq = true
  · rw [if_pos hon]
    exact h.ttwuDoWakeup
  · rw [if_neg hon]
    exact (h.activate hq _ (by simpa using hon)).ttwuDoWakeup

theorem tryToWakeUpLocal (h : RtSettled s) (hq : OnQueue m s) :
    RtSettled (tryToWakeUpLocal m p s) := by
  unfold WrrScheduler.tryToWakeUpLocal
  split
  · exact h
  · split
    · exact h
    · exact h.wake hq

theorem schedFork {child : Pid} {f : Foreign} (h : RtSettled s) (hchild : child ≠ s.rq.curr)
    (hfork : schedFork m child (dupTaskStruct child f s) = .ok t) : RtSettled t := by
  have htask := @tasks_setUpFork s child f hchild
  have hset : RtSettled (setUpFork child (dupTaskStruct child f s)) := by
    refine @of_ne _ _ child h ?_ ?_ ?_
    · intro q hq
      rw [htask, if_neg hq]
    · intro q _
      rw [rt_setUpFork]
      rfl
    · intro hon
      rw [htask, if_pos rfl, forkTask_onRq] at hon
      cases hon
  unfold WrrScheduler.schedFork at hfork
  simp only [] at hfork
  generalize setUpFork child (dupTaskStruct child f s) = s₁ at hset hfork
  cases hc : (s₁.tasks child).schedClass with
  | rt =>
      rw [hc] at hfork
      cases hfork
      exact hset
  | wrr =>
      rw [hc] at hfork
      simp only [SchedClass.taskFork, taskForkWrr] at hfork
      split at hfork
      · cases hfork
      · rename_i parent _
        cases hfork
        exact hset.still ⟨fun q => @View.attr_modEntity s₁.view child q
          fun w => { w with timeSlice := (s₁.tasks parent).wrr.timeSlice }, fun _ => rfl⟩
  | _ =>
      rw [hc] at hfork
      cases hfork
      exact hset.still (still_outsideCall _ _)

theorem replaceStop (h : RtSettled s) (stop : Option Pid)
    (hold : ∀ old ∈ s.rq.stop, (s.tasks old).onRq = false) : RtSettled (replaceStop stop s) := by
  have hset : RtSettled (s.modRq fun r => { r with stop := stop }) := h
  unfold WrrScheduler.replaceStop
  split
  · exact hset
  · rename_i old hstop
    exact hset.modAttr_off (hold old hstop)

theorem schedSetStopTask (h : RtSettled s) (hq : OnQueue m s) {who : Caller} {seen : List Attr}
    {stop : Option Pid} (hnew : ∀ p ∈ stop, (s.tasks p).onRq = false)
    (hold : ∀ old ∈ s.rq.stop, (s.tasks old).onRq = false)
    (hcall : schedSetStopTask m who seen stop s = some t) : RtSettled t := by
  cases stop with
  | none =>
      cases hcall
      exact h.replaceStop none hold
  | some p =>
      obtain ⟨s', hmake, rfl⟩ := Option.map_eq_some_iff.mp hcall
      unfold makeStop at hmake
      split at hmake
      · cases hmake
      · rename_i ret s'' hset
        cases hmake
        have hon := OnQueue.schedSetscheduler_onRq hset
        refine replaceStop (modAttr_off (h.schedSetscheduler hq hset) ?_) (some p) ?_
        · show ((s''.tasks p).toAttr).onRq = false
          rw [(hon p).1]
          exact hnew p rfl
        · intro old hmem
          have hmem' : old ∈ s.rq.stop := by
            rw [← (hon p).2]
            exact hmem
          rw [onRq_modAttr, (hon old).1, hold old hmem']
          split
          · show ((s''.tasks p).toAttr).onRq = false
            rw [(hon p).1]
            exact hnew p rfl
          · rfl

theorem goToSleep (h : RtSettled s) (hq : OnQueue m s) (hon : s.current.onRq = true) :
    RtSettled (goToSleep m s) := by
  have hoff : RtSettled (setOnRq false s.rq.curr (deactivateTask m s.rq.curr s)) := h.deactivate
  unfold WrrScheduler.goToSleep
  simp only []
  split
  · exact hoff
  · exact hoff.tryToWakeUpLocal (hq.deactivate hon)

theorem putToSleep (h : RtSettled s) (hinv : Inv m s) (preemptActive : Bool) :
    RtSettled (putToSleep m preemptActive s) := by
  unfold WrrScheduler.putToSleep
  split
  · rename_i hstate
    split
    · exact h.setTaskState taskRunning
    · refine h.goToSleep hinv.queued (hinv.running.resolve_left fun hidle => ?_)
      have hruns : s.current.state = taskRunning := (hinv.legal.task s.rq.curr).idleRuns hidle
      simp [hruns] at hstate
  · exact h

theorem schedule {next : Pid} (h : RtSettled s) (hinv : Inv m s) (preemptActive : Bool)
    (hpick : pickNextTask m (putPrevTask m s.rq.curr (WrrScheduler.putToSleep m preemptActive s)) =
      .ok (next, s')) : RtSettled (switchTo next s') := by
  have hpicked : RtSettled s' := ((h.putToSleep hinv preemptActive).still still_putPrevTask).still
    (.of_rt (view_pickNextTask hpick) (rt_pickNextTask hpick))
  refine hpicked.still ⟨?_, ?_⟩
  · intro q
    show (switchTo next s').view.attr q = s'.view.attr q
    rw [view_switchTo]
    rfl
  · intro q
    unfold switchTo
    simp only []
    split <;> rfl

/-- **Every step leaves every queued real-time task in its place.** -/
theorem step {o : Op} (h : RtSettled s) (hinv : Inv m s) (hstep : step m s o = some t) :
    RtSettled t := by
  have hq := hinv.queued
  have hcall := callable_of_step hstep
  have hperform := perform_of_step hstep
  cases o with
  | tryToWakeUp p state =>
      cases hperform
      show RtSettled (tryToWakeUp m p state s).2
      unfold tryToWakeUp
      split
      · exact h
      · have hwake := @wake m s p h hq
        split
        · rename_i hon
          rwa [if_pos hon] at hwake
        · rename_i hon
          rwa [if_neg hon] at hwake
  | wakeUpNewTask p =>
      have hcond : (p ∈ s.tasklist ∧ (s.tasks p).onRq = false) ∧
          (s.tasks p).state = taskRunning := by
        simpa [callable] using hcall
      cases hperform
      exact (h.activate hq {} hcond.1.2).still (.of_rt view_checkPreemptCurr rt_checkPreemptCurr)
  | schedFork child f =>
      obtain ⟨hchild, -⟩ := hinv.forkable f hcall
      obtain ⟨s', hfork, rfl⟩ := schedFork_of_step hstep
      have hforked : RtSettled s' := h.schedFork hchild hfork
      exact hforked
  | schedule preemptActive =>
      obtain ⟨next, s', hpick, rfl⟩ := schedule_of_step hstep
      exact h.schedule hinv preemptActive hpick
  | schedYield =>
      cases hperform
      exact h.schedYield hq
  | schedulerTick =>
      cases hperform
      exact h.schedulerTick hq
  | schedSetscheduler p policy prio user who seen =>
      obtain ⟨⟨ret, s'⟩, hcall', rfl⟩ := Option.map_eq_some_iff.mp hperform
      exact h.schedSetscheduler hq hcall'
  | rtMutexSetprio p prio =>
      cases hperform
      exact h.rtMutexSetprio hq prio
  | setUserNice p nice =>
      cases hperform
      exact h.setUserNice hq nice
  | schedMoveTask p tg =>
      cases hperform
      exact h.schedMoveTask hq tg
  | normalizeRtTasks =>
      cases hperform
      exact h.normalizeRtTasks hq
  | schedRrGetInterval p =>
      cases hperform
      show RtSettled ((s.tasks p).schedClass.getRrInterval m p s).2
      cases (s.tasks p).schedClass with
      | wrr =>
          simp only [SchedClass.getRrInterval, getRrIntervalWrr]
          split
          · exact h
          · split <;> exact h
      | _ => exact h
  | doSchedRtPeriodTimer g overrun =>
      cases hperform
      refine h.still (.of_spots (view_doSchedRtPeriodTimer g overrun) fun q => ?_)
      rw [rt_doSchedRtPeriodTimer, Rt.spots_afterPeriod]
  | schedSetStopTask stop who seen =>
      refine h.schedSetStopTask hq ?_ ?_ hperform
      · exact fun p hp => (hinv.stop_spared hcall (Or.inl hp.symm)).1
      · exact fun old hold => (hinv.stop_spared hcall (Or.inr hold.symm)).1
  | initIdleBootupTask =>
      have hidle : s.rq.curr = s.rq.idle := by simpa [callable] using hcall
      cases hperform
      refine h.modAttr_off ?_
      rw [hidle]
      exact hinv.idle_off
  | setCurrentState state =>
      cases hperform
      exact h.setTaskState state
  | releaseTask p =>
      cases hperform
      exact h
  | foreign p f =>
      cases hperform
      refine h.modAttr ?_ ?_ ?_ ?_ <;> exact fun _ => rfl

end RtSettled

theorem rtSettled_boot : RtSettled (boot m) := by
  intro p hon
  cases hon

/-- **In every run every queued real-time task is in its place.** -/
theorem rtSettled_of_reachable (h : Reachable m s) : RtSettled s := by
  have hboth : Inv m s ∧ RtSettled s := by
    refine Run.Reachable.invariant (fun s => Inv m s ∧ RtSettled s) ?_ h ⟨inv_boot, rtSettled_boot⟩
    intro s o t hs hstep
    exact ⟨hs.1.step hstep, hs.2.step hs.1 hstep⟩
  exact hboth.2

end WrrScheduler
