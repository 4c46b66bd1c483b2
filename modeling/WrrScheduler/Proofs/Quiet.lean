/-
Functions that do nothing but keep the books.

A function is `Quiet` when it leaves the view alone, keeps the RT run queues
consistent with whatever tasks they hold, and never withdraws a request to
reschedule.  The clock, the charging of run time, the preemption checks and every
class outside the repository are quiet, in any combination.
-/
import WrrScheduler.Proofs.View
import WrrScheduler.Proofs.RtQueue

namespace WrrScheduler

/-- The RT run queues hold the real-time tasks of `A`. -/
def RtOk (m : Machine) (s : State) (A : Finset Pid) : Prop :=
  Rt.TasksOk (s.rtView m) s.rq.rt fun p => p ∈ A ∧ s.view.cls p = .rt

/-- Nothing a task or a queue could tell has changed. -/
structure Quiet (m : Machine) (s s' : State) : Prop where
  view : s'.view = s.view
  rt : ∀ A, RtOk m s A → RtOk m s' A
  resched : ∀ p, (s.acct p).needResched = true → (s'.acct p).needResched = true

variable {m : Machine} {s s' s'' : State} {p : Pid}

theorem rtView_of_view (h : s'.view = s.view) : s'.rtView m = s.rtView m := by
  have htasks : s'.tasks = s.tasks := tasks_of_view h
  have hcurr : s'.rq.curr = s.rq.curr := curr_of_view h
  simp only [State.rtView, htasks, hcurr]

namespace Quiet

theorem refl (m : Machine) (s : State) : Quiet m s s := ⟨rfl, fun _ h => h, fun _ h => h⟩

theorem trans (h : Quiet m s s') (h' : Quiet m s' s'') : Quiet m s s'' :=
  ⟨h'.view.trans h.view, fun A hA => h'.rt A (h.rt A hA), fun p hp => h'.resched p (h.resched p hp)⟩

/-- The RT run queues were changed into some that are as good. -/
theorem of_rt (hview : s'.view = s.view)
    (hrt : ∀ T, Rt.TasksOk (s.rtView m) s.rq.rt T → Rt.TasksOk (s.rtView m) s'.rq.rt T)
    (hresched : ∀ p, (s.acct p).needResched = true → (s'.acct p).needResched = true) :
    Quiet m s s' := by
  refine ⟨hview, ?_, hresched⟩
  intro A hA
  unfold RtOk
  rw [rtView_of_view hview, hview]
  exact hrt _ hA

/-- The RT run queues were not touched. -/
theorem of_eq (hview : s'.view = s.view) (hrt : s'.rq.rt = s.rq.rt)
    (hresched : ∀ p, (s.acct p).needResched = true → (s'.acct p).needResched = true) :
    Quiet m s s' := by
  refine of_rt hview ?_ hresched
  intro T hT
  rwa [hrt]

theorem modAcct {f : Acct → Acct} (h : ∀ a, a.needResched = true → (f a).needResched = true) :
    Quiet m s (s.modAcct p f) := by
  refine of_eq rfl rfl ?_
  intro q hq
  by_cases hqp : q = p
  · subst hqp
    simpa [State.modAcct] using h _ hq
  · simpa [State.modAcct, hqp] using hq

/-- A change of the run queue's clocks and statistics. -/
theorem modRq {f : Rq → Rq} (hview : (s.modRq f).view = s.view) (hrt : (f s.rq).rt = s.rq.rt) :
    Quiet m s (s.modRq f) :=
  of_eq hview hrt (fun _ h => h)

theorem ite {b : Bool} (h : Quiet m s s') (h' : Quiet m s s'') :
    Quiet m s (if b then s' else s'') := by
  cases b
  · exact h'
  · exact h

end Quiet

/-! ### What the functions of the model do -/

open Quiet

theorem quiet_reschedTask : Quiet m s (reschedTask p s) := modAcct fun _ _ => rfl

theorem quiet_reschedTaskIf (b : Bool) : Quiet m s (reschedTaskIf b p s) :=
  ite quiet_reschedTask (refl m s)

theorem quiet_updateRqClock : Quiet m s (updateRqClock m s) := by
  unfold updateRqClock
  split
  · exact refl m s
  · exact of_eq rfl rfl (fun _ h => h)

theorem quiet_chargeCurr : Quiet m s (chargeCurr s) := modAcct fun _ h => h

theorem quiet_stampExecStart : Quiet m s (stampExecStart p s) := modAcct fun _ h => h

theorem quiet_expireSched (timeout : BitVec 32) : Quiet m s (expireSched m p timeout s) := by
  unfold expireSched
  split
  · exact modAcct fun _ h => h
  · exact refl m s

theorem quiet_setLoadWeight : Quiet m s (setLoadWeight p s) := by
  unfold setLoadWeight
  refine modAcct ?_
  intro a ha
  split <;> exact ha

theorem quiet_countUninterruptible (n : Int) : Quiet m s (countUninterruptible n p s) := by
  unfold countUninterruptible
  split
  · exact modRq rfl rfl
  · exact refl m s

theorem quiet_updateCurrWrr : Quiet m s (updateCurrWrr s) := by
  unfold updateCurrWrr
  split
  · exact refl m s
  · exact quiet_chargeCurr.trans (of_eq rfl rfl fun _ h => h)

theorem quiet_updateCurrRt : Quiet m s (updateCurrRt m s) := by
  unfold updateCurrRt
  split
  · exact refl m s
  · split
    · exact quiet_chargeCurr
    · refine Quiet.trans ?_ (quiet_reschedTaskIf _)
      refine of_rt rfl (fun T hT => hT.chargeRt _) ?_
      intro q hq
      exact (@quiet_chargeCurr m s).resched q hq

theorem quiet_writeEntities (c : SchedClass) (f : ClassFn) : Quiet m s (writeEntities m c f s) := by
  refine of_eq rfl rfl ?_
  intro q hq
  simp only [writeEntities]
  split <;> exact hq

theorem quiet_outsideCall (c : SchedClass) (f : ClassFn) : Quiet m s (outsideCall m c f p s) := by
  have hclock : Quiet m s (if m.updatesClock c f s p then updateRqClock m s else s) :=
    ite quiet_updateRqClock (refl m s)
  exact hclock.trans ((quiet_writeEntities c f).trans (quiet_reschedTaskIf _))

theorem quiet_classPutPrevTask (c : SchedClass) : Quiet m s (c.putPrevTask m p s) := by
  cases c with
  | rt => exact quiet_updateCurrRt
  | wrr =>
      have hreset : Quiet m (updateCurrWrr s) (putPrevTaskWrr p s) := modAcct fun _ h => h
      exact quiet_updateCurrWrr.trans hreset
  | _ => exact quiet_outsideCall _ _

theorem quiet_setCurrTask (c : SchedClass) : Quiet m s (c.setCurrTask m s) := by
  cases c with
  | rt => exact quiet_stampExecStart
  | wrr => exact quiet_stampExecStart
  | _ => exact quiet_outsideCall _ _

theorem quiet_taskMoveGroup (c : SchedClass) : Quiet m s (c.taskMoveGroup m p s) := by
  cases c with
  | rt => exact refl m s
  | wrr => exact refl m s
  | _ => exact quiet_outsideCall _ _

theorem quiet_classCheckPreemptCurr (c : SchedClass) : Quiet m s (c.checkPreemptCurr m p s) := by
  cases c with
  | rt => exact quiet_reschedTaskIf _
  | wrr => exact refl m s
  | _ => exact quiet_outsideCall _ _

theorem quiet_checkPreemptCurr : Quiet m s (checkPreemptCurr m p s) := by
  have hask : Quiet m s (if (s.tasks p).schedClass = s.current.schedClass then
      s.current.schedClass.checkPreemptCurr m p s
      else reschedTaskIf (preempts s.current.schedClass (s.tasks p).schedClass forEachClass)
        s.rq.curr s) := by
    split
    · exact quiet_classCheckPreemptCurr _
    · exact quiet_reschedTaskIf _
  exact hask.trans (ite (modRq rfl rfl) (refl m _))

theorem quiet_switchedFrom (c : SchedClass) : Quiet m s (c.switchedFrom m p s) := by
  cases c with
  | rt => exact refl m s
  | wrr => exact refl m s
  | _ => exact quiet_outsideCall _ _

theorem quiet_switchedTo (c : SchedClass) : Quiet m s (c.switchedTo m p s) := by
  cases c with
  | rt => exact ite (quiet_reschedTaskIf _) (refl m s)
  | wrr => exact ite (quiet_reschedTaskIf _) (refl m s)
  | _ => exact quiet_outsideCall _ _

theorem quiet_prioChanged (c : SchedClass) (oldprio : Int) :
    Quiet m s (c.prioChanged m p oldprio s) := by
  cases c with
  | rt =>
      simp only [SchedClass.prioChanged, prioChangedRt]
      split
      · exact refl m s
      · split <;> exact quiet_reschedTaskIf _
  | wrr => exact refl m s
  | _ => exact quiet_outsideCall _ _

theorem quiet_checkClassChanged (c : SchedClass) (oldprio : Int) :
    Quiet m s (checkClassChanged m p c oldprio s) := by
  unfold checkClassChanged
  split
  · exact (quiet_switchedFrom c).trans (quiet_switchedTo _)
  · split
    · exact quiet_prioChanged _ _
    · exact refl m s

theorem quiet_putPrevTask : Quiet m s (putPrevTask m p s) :=
  Quiet.trans (ite quiet_updateRqClock (refl m s)) (quiet_classPutPrevTask _)

theorem quiet_watchdogRt : Quiet m s (watchdogRt m p s) := by
  unfold watchdogRt
  split
  · exact refl m s
  · refine Quiet.trans ?_ (quiet_expireSched _)
    exact modAcct fun _ h => h

theorem quiet_taskTickRt : Quiet m s (taskTickRt m p s) := by
  have hslice : ∀ (s : State) (n : BitVec 32 → BitVec 32), Quiet m s
      (s.modRtEntity p fun e => { e with timeSlice := n e.timeSlice }) :=
    fun s n => modAcct fun _ h => h
  have hrequeue : ∀ s : State, Quiet m s
      (s.modRt fun r => Rt.requeueTaskRt (s.rtView m) false r p) :=
    fun s => of_rt rfl (fun T hT => hT.requeueTaskRt false p) (fun _ h => h)
  have hwatch : Quiet m s (watchdogRt m p (updateCurrRt m s)) :=
    quiet_updateCurrRt.trans quiet_watchdogRt
  unfold taskTickRt
  refine hwatch.trans ?_
  generalize watchdogRt m p (updateCurrRt m s) = s₁
  simp only []
  split
  · exact refl m s₁
  · have htick := hslice s₁ fun n => n - 1
    split
    · exact htick
    · refine htick.trans ((hslice _ fun _ => rrTimeslice m).trans ?_)
      split
      · exact (hrequeue _).trans quiet_reschedTask
      · exact refl m _

theorem quiet_yieldTaskRt : Quiet m s (yieldTaskRt m s) :=
  of_rt rfl (fun _ hT => hT.requeueTaskRt false _) (fun _ h => h)

theorem quiet_replenishRtRq (g : Gid) (overrun : Nat) :
    Quiet m s (replenishRtRq g overrun s) := by
  have hrefill : Quiet m s
      (s.modRt fun r => r.modify g fun _ => (Rt.replenish overrun (s.rq.rt.rtRq g)).1) :=
    of_rt rfl (fun T hT => hT.replenish g overrun) (fun _ h => h)
  exact hrefill.trans (ite (modRq rfl rfl) (refl m _))

theorem quiet_doSchedRtPeriodTimer (g : Gid) (overrun : Nat) :
    Quiet m s (doSchedRtPeriodTimer m g overrun s) := by
  have henqueue : ∀ s : State, Quiet m s
      (s.modRt fun _ => (Rt.schedRtRqEnqueue (s.rtView m) s.rq.rt g).1) :=
    fun s => of_rt rfl (fun T hT => hT.schedRtRqEnqueue g) (fun _ h => h)
  unfold doSchedRtPeriodTimer
  refine (quiet_replenishRtRq g overrun).trans ?_
  exact ite ((henqueue _).trans (quiet_reschedTaskIf _)) (refl m _)

theorem quiet_classPickNextTask {c : SchedClass} {next : Option Pid}
    (h : c.pickNextTask m s = .ok (next, s')) : Quiet m s s' := by
  rcases classPickNextTask_cases h with rfl | ⟨p, rfl⟩ | ⟨c, p, rfl⟩
  · exact refl m s'
  · exact quiet_stampExecStart
  · exact quiet_outsideCall _ _

theorem quiet_pickNextTask {next : Pid} (h : pickNextTask m s = .ok (next, s')) :
    Quiet m s s' := by
  obtain ⟨c, hc⟩ := exists_classPickNextTask h
  exact quiet_classPickNextTask hc

end WrrScheduler
