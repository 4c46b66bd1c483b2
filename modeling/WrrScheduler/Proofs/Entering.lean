/-
The door into the WRR class.

A task gets into the class by a call of `__sched_setscheduler` that gives it the
policy, and in no other way: `rt_mutex_setprio`, `sched_fork` and `normalize_task`
never choose the class, and nothing else chooses any.  Which calls open the door
can be told beforehand, from the arguments and the state.
-/
import WrrScheduler.Proofs.Invariant

namespace WrrScheduler

/-- A call of `__sched_setscheduler` that is going to make a task of another policy a WRR one: the
number says so, and the checks pass. -/
def entersWrr (s : State) (p : Pid) : Op → Bool
  | .schedSetscheduler q policy prio user who seen =>
    q = p && s.rq.stop ≠ some p && (s.tasks p).policy ≠ .wrr && 0 ≤ policy.toInt &&
      match seen with
      | [] => false
      | a :: _ =>
        match check a policy prio user who with
        | .ok c => c.policy = .wrr
        | .error _ => false
  | _ => false

variable {m : Machine} {s t : State} {p q : Pid}

/-! ### Calls of `__sched_setscheduler`

`entersWrr` recomputes the checks of the function on what it is about to read.  Both
directions are needed: that the call it predicts does put the task in the class, and
that no other does.
-/

theorem attr_changePolicy (c : Checked) (prio : Int) :
    ((changePolicy m p c prio s).tasks q).toAttr =
      if q = p then setPolicy c prio (s.tasks p).toAttr else (s.tasks q).toAttr := by
  show (changePolicy m p c prio s).view.attr q = _
  rw [view_changePolicy]
  exact View.attr_detached _

/-- A call that gives a task the policy is one that was going to. -/
theorem entersWrr_of_changed {policy : BitVec 32} {prio ret : Int} {user : Bool} {who : Caller}
    {seen : List Attr} (hcall : schedSetscheduler m p prio user who seen policy s = some (ret, t))
    (hout : (s.tasks p).policy ≠ .wrr) (hin : (t.tasks p).policy = .wrr) :
    entersWrr s p (.schedSetscheduler p policy prio user who seen) = true := by
  cases schedSetscheduler_done hcall with
  | failed _ => exact absurd hin hout
  | nothing _ _ _ _ => exact absurd hin hout
  | @changed c hasked h0 h99 hchange hstop =>
      have hwrr : c.policy = .wrr := by
        rw [attr_changePolicy, if_pos rfl] at hin
        exact hin
      have hpos : 0 ≤ policy.toInt := by
        by_contra hneg
        exact hout ((hasked.kept (by omega)).1.symm.trans hwrr)
      cases seen with
      | nil => cases hcall
      | cons a rest =>
          rw [schedSetscheduler] at hcall
          split at hcall
          · -- a failed check would have left the policy alone
            have hsame := (Prod.mk.inj (Option.some.inj hcall)).2
            rw [← hsame] at hin
            exact absurd hin hout
          · rename_i c' hcheck
            have hsame : c'.policy = c.policy := by
              rcases requested_cases (check_ok hcheck).1 with ⟨hneg, -⟩ | ⟨-, hpol, -, -⟩
              · omega
              · rw [(hasked.given hpos).1] at hpol
                exact (Option.some.inj hpol).symm
            simp [entersWrr, hstop, hout, hpos, hcheck, hsame, hwrr]

/-- A call that was going to does give the task the policy and the class. -/
theorem changed_of_entersWrr {policy : BitVec 32} {prio ret : Int} {user : Bool} {who : Caller}
    {seen : List Attr} (hcall : schedSetscheduler m q prio user who seen policy s = some (ret, t))
    (henters : entersWrr s p (.schedSetscheduler q policy prio user who seen) = true) :
    q = p ∧ (t.tasks p).policy = .wrr ∧ (t.tasks p).schedClass = .wrr := by
  simp only [entersWrr, Bool.and_eq_true, decide_eq_true_eq] at henters
  obtain ⟨⟨⟨⟨rfl, hstop⟩, hout⟩, hpos⟩, hchecks⟩ := henters
  refine ⟨rfl, ?_⟩
  cases seen with
  | nil => cases hchecks
  | cons a rest =>
      rw [schedSetscheduler] at hcall
      simp only [] at hchecks
      split at hchecks
      · rename_i c hcheck
        have hwrr : c.policy = .wrr := of_decide_eq_true hchecks
        have hnone : c.oldpolicy = none := by
          rcases requested_cases (check_ok hcheck).1 with ⟨hneg, -⟩ | ⟨-, -, hnone, -⟩
          · omega
          · exact hnone
        have hlocked : locked m q c prio user s = .done 0 (changePolicy m q c prio s) := by
          simp [locked, Ne.symm hstop, nothingToChange, hwrr, Ne.symm hout, hnone, rtPolicy]
        rw [hcheck] at hcall
        simp only [hlocked, Option.some.injEq, Prod.mk.injEq] at hcall
        obtain ⟨-, rfl⟩ := hcall
        rw [attr_changePolicy, if_pos rfl]
        refine ⟨hwrr, ?_⟩
        show setschedulerClass c.policy _ = .wrr
        rw [hwrr]
        rfl
      · cases hchecks

/-! ### Steps -/

/-- `__setscheduler` chooses the WRR class by the policy. -/
theorem applyPolicy_schedClass {policy : Policy} {prio : Int} {a : Attr} :
    (applyPolicy policy prio a).schedClass = .wrr ↔ policy = .wrr := setschedulerClass_eq_wrr

/-- `normalize_rt_tasks` puts no task in the class. -/
theorem foldl_normalizeOne_ne_wrr (l : List Pid) {v : View} (h : v.cls q ≠ .wrr) :
    (l.foldl View.normalizeOne v).cls q ≠ .wrr := by
  have hread : ∀ (v : View) (p : Pid) (nice : Int), (v.setUserNice p nice).cls q = v.cls q :=
    fun _ _ nice => @View.read_setUserNice _ _ q _ Attr.schedClass (fun _ _ _ _ => rfl) nice
  induction l generalizing v with
  | nil => exact h
  | cons p l ih =>
      refine ih ?_
      unfold View.normalizeOne
      split
      · exact h
      · split
        · split
          · rw [hread]
            exact h
          · exact h
        · show ((v.detached {} p (applyPolicy .normal 0)).attr q).schedClass ≠ .wrr
          rw [View.attr_detached]
          split
          · exact fun hc => absurd (applyPolicy_schedClass.mp hc) (by simp)
          · exact h

/-- Resetting the old stop task puts no task in the class. -/
theorem setStop_ne_wrr (stop : Option Pid) {v : View} (h : v.cls q ≠ .wrr) :
    (v.setStop stop).cls q ≠ .wrr := by
  unfold View.setStop
  simp only []
  split
  · exact h
  · rename_i old _
    show ((View.modAttr old _ _).attr q).schedClass ≠ .wrr
    rw [View.attr_modAttr]
    split
    · simp
    · exact h

/-- Nor does making the new one: it is given the class above all others. -/
theorem makeStop_ne_wrr {policy : BitVec 32} {prio : Int} {v w : View} (h : v.cls q ≠ .wrr)
    (hset : v.SetschedulerStep p policy prio w) :
    (w.modAttr p fun t => { t with schedClass := .stop }).cls q ≠ .wrr := by
  show ((View.modAttr p _ w).attr q).schedClass ≠ .wrr
  rw [View.attr_modAttr]
  split
  · simp
  · rename_i hqp
    rcases hset with rfl | ⟨c, -, rfl⟩
    · exact h
    · rw [View.attr_detached, if_neg hqp]
      exact h

/-- **The only door**: an operation that puts a task in the class is a call of
`__sched_setscheduler` that was going to. -/
theorem entersWrr_of_step {o : Op} (h : Inv m s) (hstep : step m s o = some t)
    (hout : (s.tasks p).schedClass ≠ .wrr) (hin : (t.tasks p).schedClass = .wrr) :
    entersWrr s p o = true := by
  have hview := h.view_step hstep
  have hclass : (s.view.attr p).schedClass ≠ .wrr := hout
  have hplain : (t.view.attr p).schedClass ≠ (s.view.attr p).schedClass := by
    intro hsame
    exact hclass (hsame.symm.trans hin)
  have hdetached : ∀ (q : Pid) (flags : EnqueueFlags) (f : Attr → Attr),
      t.view = s.view.detached flags q f → p = q ∧ (f (s.view.attr q)).schedClass = .wrr := by
    intro q flags f hv
    have hattr : (t.view.attr p).schedClass = .wrr := hin
    rw [hv, View.attr_detached] at hattr
    split at hattr
    · rename_i hpq
      exact ⟨hpq, hattr⟩
    · exact absurd hattr hclass
  cases o with
  | schedSetscheduler q policy prio user who seen =>
      obtain ⟨⟨ret, t'⟩, hcall, rfl⟩ := Option.map_eq_some_iff.mp (perform_of_step hstep)
      rcases hview with hsame | ⟨c, hc, hv⟩
      · rw [hsame] at hplain
        exact absurd rfl hplain
      · obtain ⟨rfl, hwrr⟩ := hdetached q {} _ hv
        have hpolicy : c.policy = .wrr := applyPolicy_schedClass.mp hwrr
        refine entersWrr_of_changed hcall ?_ ?_
        · -- a task that has the policy would have nothing to change
          intro hown
          have hnothing : nothingToChange (s.view.attr p) c.policy prio = true := by
            show nothingToChange (s.tasks p).toAttr c.policy prio = true
            simp [nothingToChange, hpolicy, hown, rtPolicy]
          rw [hc.change] at hnothing
          cases hnothing
        · show (t'.view.attr p).policy = .wrr
          rw [hv, View.attr_detached, if_pos rfl]
          exact hpolicy
  | schedFork child f =>
      exfalso
      rw [hview] at hplain
      by_cases hpc : p = child
      · subst hpc
        have hchild : (t.view.tasks p).schedClass = .wrr := hin
        rw [hview] at hchild
        simp only [View.modTask, Function.update_self] at hchild
        exact (h.forkable f (callable_of_step hstep)).2 hchild
      · exact hplain (by simp [View.attr, View.modTask, hpc])
  | rtMutexSetprio q prio =>
      exfalso
      simp only [View.Step] at hview
      split at hview
      · rw [hview] at hplain
        exact hplain rfl
      · obtain ⟨-, hwrr⟩ := hdetached q _ _ hview
        exact setprioClass_ne_wrr prio hwrr
  | setUserNice q nice =>
      exfalso
      rw [hview] at hplain
      exact hplain (View.read_setUserNice (fun _ _ _ _ => rfl) nice)
  | schedMoveTask q tg =>
      obtain ⟨rfl, hwrr⟩ := hdetached q {} _ hview
      exact absurd hwrr hclass
  | normalizeRtTasks =>
      exfalso
      have hin' : t.view.cls p = .wrr := hin
      rw [hview] at hin'
      exact foldl_normalizeOne_ne_wrr _ hout hin'
  | schedSetStopTask stop who seen =>
      exfalso
      cases stop with
      | none =>
          have hin' : t.view.cls p = .wrr := hin
          rw [hview] at hin'
          exact setStop_ne_wrr none hout hin'
      | some q =>
          obtain ⟨w, hw, hv⟩ := hview
          have hin' : t.view.cls p = .wrr := hin
          rw [hv] at hin'
          exact setStop_ne_wrr (some q) (makeStop_ne_wrr hout hw) hin'
  | initIdleBootupTask =>
      exfalso
      have hattr : (t.view.attr p).schedClass = .wrr := hin
      rw [hview, View.attr_modAttr] at hattr
      split at hattr
      · cases hattr
      · exact hclass hattr
  | foreign q f =>
      rw [hview] at hplain
      refine absurd (View.read_modAttr ?_) hplain
      exact fun _ => rfl
  | tryToWakeUp | wakeUpNewTask | schedule | schedYield | schedulerTick | schedRrGetInterval
  | doSchedRtPeriodTimer | setCurrentState | releaseTask =>
      exact absurd (read_plain_step hview rfl (fun _ _ _ => rfl) p) hplain

theorem schedClass_of_entersWrr {o : Op} (hstep : step m s o = some t)
    (henters : entersWrr s p o = true) : (t.tasks p).schedClass = .wrr := by
  cases o with
  | schedSetscheduler q policy prio user who seen =>
      obtain ⟨⟨ret, t'⟩, hcall, rfl⟩ := Option.map_eq_some_iff.mp (perform_of_step hstep)
      exact (changed_of_entersWrr hcall henters).2.2
  | _ => cases henters

end WrrScheduler
