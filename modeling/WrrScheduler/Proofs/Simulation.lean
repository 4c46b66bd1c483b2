/-
Every step of the scheduler is a step of its view.

`View.Step` gives the operations their meaning on views: which task is woken,
changed or rotated, and what the counters become.  It is deterministic but for
what a view cannot know, which is what class picks whom and whom a sleeping worker
wakes.  `view_step` says the model never does anything else, so an invariant of
views that `View.Step` keeps is an invariant of the scheduler.
-/
import WrrScheduler.Proofs.View

namespace WrrScheduler

/-- The attributes of a task in a view. -/
def View.attr (v : View) (p : Pid) : Attr := (v.tasks p).toAttr

/-- A call of `__sched_setscheduler` that gets as far as changing the task. -/
structure View.PolicyChange (v : View) (p : Pid) (policy : BitVec 32) (prio : Int) (c : Checked) :
    Prop where
  prio_nonneg : 0 ≤ prio
  prio_le : prio ≤ 99
  notStop : v.stop ≠ some p
  change : nothingToChange (v.attr p) c.policy prio = false
  asked : 0 ≤ policy.toInt → Policy.ofCode (policy &&& ~~~schedResetOnForkFlag) = some c.policy
  kept : policy.toInt < 0 → c.policy = (v.attr p).policy

namespace View

/-- `sched_set_stop_task` on views, after the new stop task was made a `SCHED_FIFO` one. -/
def setStop (stop : Option Pid) (v : View) : View :=
  let v' := { v with stop := stop }
  match v.stop with
  | none => v'
  | some old => v'.modAttr old fun t => { t with schedClass := .rt }

/-- A call of `__sched_setscheduler`: nothing, or a change of one task. -/
def SetschedulerStep (p : Pid) (policy : BitVec 32) (prio : Int) (v v' : View) : Prop :=
  v' = v ∨ ∃ c, v.PolicyChange p policy prio c ∧ v' = v.detached {} p (setPolicy c prio)

/-- The operations on views. -/
def Step (m : Machine) (v v' : View) : Op → Prop
  | .tryToWakeUp p state => v' = if (v.tasks p).state &&& state = 0 then v else v.wake p
  | .wakeUpNewTask p => v' = (v.enqueue {} p).modAttr p fun t => { t with onRq := true }
  | .schedFork child f =>
    v' = { v.modTask child (fun _ => forkTask f (v.tasks v.curr)) with
      tasklist := child :: v.tasklist }
  | .schedule preemptActive =>
    ∃ worker next, (∀ p ∈ worker, p ∈ v.tasklist) ∧
      v' = { v.putToSleep preemptActive worker with curr := next }
  | .schedYield => v' = if v.cls v.curr = .wrr then v.requeueWrr v.curr else v
  | .schedulerTick => v' = if v.cls v.curr = .wrr then v.tickWrr m v.curr else v
  | .schedSetscheduler p policy prio _ _ _ => v.SetschedulerStep p policy prio v'
  | .rtMutexSetprio p prio =>
    v' = if p = v.idle then v
      else v.detached { head := (v.tasks p).prio < prio } p fun t =>
        { t with schedClass := setprioClass prio, prio := prio }
  | .setUserNice p nice => v' = v.setUserNice p nice
  | .schedMoveTask p tg => v' = v.detached {} p fun t => { t with schedTaskGroup := tg }
  | .normalizeRtTasks => v' = v.tasklist.foldl normalizeOne v
  | .schedRrGetInterval p =>
    v' = if v.cls p = .wrr then
        { v with groupPath := m.cgroupPath (m.cgroup (v.tasks p).schedTaskGroup) v.groupPath }
      else v
  | .doSchedRtPeriodTimer _ _ => v' = v
  | .schedSetStopTask none _ _ => v' = v.setStop none
  | .schedSetStopTask (some p) _ _ =>
    ∃ w, v.SetschedulerStep p Policy.fifo.code 99 w ∧
      v' = (w.modAttr p fun t => { t with schedClass := .stop }).setStop (some p)
  | .initIdleBootupTask => v' = v.modAttr v.curr fun t => { t with schedClass := .idle }
  | .setCurrentState state => v' = v.modAttr v.curr fun t => { t with state := state }
  | .releaseTask p => v' = { v with tasklist := v.tasklist.erase p }
  | .foreign p f => v' = v.modAttr p fun t => { t with toForeign := f }

end View

variable {m : Machine} {s t : State} {p : Pid}

/-! ### Calls of `__sched_setscheduler` -/

theorem check_ok {t : Attr} {policy : BitVec 32} {prio : Int} {user : Bool} {who : Caller}
    {c : Checked} (h : check t policy prio user who = .ok c) :
    requested t policy = some c ∧ 0 ≤ prio ∧ prio ≤ 99 := by
  unfold check at h
  split at h
  · cases h
  · rename_i c' hreq
    split at h
    · cases h
    · rename_i hrange
      have hprio : 0 ≤ prio ∧ prio ≤ 99 := by
        simp only [maxRtPrio, Bool.or_eq_true, Bool.and_eq_true, decide_eq_true_eq, not_or, not_and,
          Bool.not_eq_true'] at hrange
        obtain ⟨⟨hneg, huser⟩, hkernel⟩ := hrange
        cases hmm : t.mm with
        | true =>
            have hle := huser hmm
            omega
        | false =>
            have hle := hkernel hmm
            omega
      split at h
      · cases h
      · split at h
        · cases h
        · split at h
          · cases h
          · cases h
            exact ⟨hreq, hprio⟩

theorem requested_cases {t : Attr} {policy : BitVec 32} {c : Checked}
    (h : requested t policy = some c) :
    (policy.toInt < 0 ∧ c.policy = t.policy ∧ c.oldpolicy = some t.policy ∧
        c.resetOnFork = t.schedResetOnFork) ∨
      (0 ≤ policy.toInt ∧ Policy.ofCode (policy &&& ~~~schedResetOnForkFlag) = some c.policy ∧
        c.oldpolicy = none ∧
        c.resetOnFork = decide (policy &&& schedResetOnForkFlag ≠ 0)) := by
  unfold requested at h
  split at h
  · rename_i hneg
    cases h
    exact Or.inl ⟨hneg, rfl, rfl, rfl⟩
  · rename_i hneg
    obtain ⟨pol, hpol, rfl⟩ := Option.map_eq_some_iff.mp h
    exact Or.inr ⟨by omega, hpol, rfl, rfl⟩

/-- The checks never fail with zero. -/
theorem check_error {t : Attr} {policy : BitVec 32} {prio e : Int} {user : Bool} {who : Caller}
    (h : check t policy prio user who = .error e) : e ≠ 0 := by
  unfold check at h
  split at h
  · cases h
    decide
  · split at h
    · cases h
      decide
    · split at h
      · cases h
        decide
      · split at h
        · cases h
          decide
        · split at h
          · rename_i hsec
            cases h
            simp only [Bool.and_eq_true, decide_eq_true_eq] at hsec
            exact hsec.2
          · cases h

/-- The part under the lock changes the task, or changes nothing; and it only reports success
without a change if there was nothing to change. -/
theorem locked_done {c : Checked} {prio ret : Int} {user : Bool}
    (h : locked m p c prio user s = .done ret t) :
    (t = s ∧ (ret = 0 → nothingToChange (s.tasks p).toAttr c.policy prio = true)) ∨
      (ret = 0 ∧ t = changePolicy m p c prio s ∧ s.rq.stop ≠ some p ∧
        nothingToChange (s.tasks p).toAttr c.policy prio = false ∧
        (c.oldpolicy = none ∨ c.oldpolicy = some (s.tasks p).policy)) := by
  unfold locked at h
  simp only [] at h
  split at h
  · cases h
    exact Or.inl ⟨rfl, fun hret => absurd hret (by decide)⟩
  · rename_i hstop
    split at h
    · rename_i hnothing
      cases h
      exact Or.inl ⟨rfl, fun _ => hnothing⟩
    · rename_i hchange
      split at h
      · cases h
        exact Or.inl ⟨rfl, fun hret => absurd hret (by decide)⟩
      · split at h
        · cases h
        · rename_i hold
          cases h
          refine Or.inr ⟨rfl, rfl, fun hp => hstop hp.symm, by simpa using hchange, ?_⟩
          by_cases hnone : c.oldpolicy = none
          · exact Or.inl hnone
          · exact Or.inr (by simpa [hnone] using hold)

theorem locked_recheck {c : Checked} {prio : Int} {user : Bool}
    (h : locked m p c prio user s = .recheck) : c.oldpolicy ≠ none := by
  unfold locked at h
  simp only [] at h
  split at h
  · cases h
  · split at h
    · cases h
    · split at h
      · cases h
      · split at h
        · rename_i hold
          simp only [Bool.and_eq_true, decide_eq_true_eq] at hold
          exact hold.1
        · cases h

/-- What a call asks for: the policy and the flag in its number, or those the task has.  Its own
flag is the one an unlocked read saw. -/
structure Asked (t : Attr) (policy : BitVec 32) (seen : List Attr) (c : Checked) : Prop where
  given : 0 ≤ policy.toInt → Policy.ofCode (policy &&& ~~~schedResetOnForkFlag) = some c.policy ∧
    c.resetOnFork = decide (policy &&& schedResetOnForkFlag ≠ 0)
  kept : policy.toInt < 0 → c.policy = t.policy ∧ ∃ a ∈ seen, c.resetOnFork = a.schedResetOnFork

/-- A turn that ends under the lock asked for what the call asks for. -/
theorem asked_of_requested {t a : Attr} {policy : BitVec 32} {rest : List Attr} {c : Checked}
    (hreq : requested a policy = some c) (hown : policy.toInt < 0 → c.policy = t.policy) :
    Asked t policy (a :: rest) c := by
  rcases requested_cases hreq with ⟨hneg, -, -, hflag⟩ | ⟨hpos, hpol, -, hflag⟩
  · exact ⟨fun hpos => absurd hneg (by omega),
      fun hneg => ⟨hown hneg, a, List.mem_cons_self, hflag⟩⟩
  · exact ⟨fun _ => ⟨hpol, hflag⟩, fun hneg => absurd hpos (by omega)⟩

/-- The policy a negative number stands for is still the task's own when a turn ends. -/
theorem own_policy {t a : Attr} {policy : BitVec 32} {c : Checked} (hreq : requested a policy = some c)
    (hold : c.oldpolicy = none ∨ c.oldpolicy = some t.policy) (hneg : policy.toInt < 0) :
    c.policy = t.policy := by
  rcases requested_cases hreq with ⟨-, hpol, hown, -⟩ | ⟨hpos, -, -, -⟩
  · rcases hold with hnone | hsame
    · rw [hnone] at hown
      cases hown
    · rw [hown, Option.some.injEq] at hsame
      exact hpol.trans hsame
  · omega

/-- How a call of `__sched_setscheduler` ends: with nothing changed, which is a success only if there
was nothing to change, or with the change that was asked for. -/
inductive SetschedulerDone (m : Machine) (p : Pid) (policy : BitVec 32) (prio : Int)
    (seen : List Attr) (s : State) : Int → State → Prop
  | failed {ret : Int} : ret ≠ 0 → SetschedulerDone m p policy prio seen s ret s
  | nothing {c : Checked} : Asked (s.tasks p).toAttr policy seen c → 0 ≤ prio → prio ≤ 99 →
      nothingToChange (s.tasks p).toAttr c.policy prio = true →
      SetschedulerDone m p policy prio seen s 0 s
  | changed {c : Checked} : Asked (s.tasks p).toAttr policy seen c → 0 ≤ prio → prio ≤ 99 →
      nothingToChange (s.tasks p).toAttr c.policy prio = false → s.rq.stop ≠ some p →
      SetschedulerDone m p policy prio seen s 0 (changePolicy m p c prio s)

/-- **What a call of `__sched_setscheduler` does**, by the turns of its loop: one that starts over
goes on with a negative policy number, as it must have begun. -/
theorem schedSetscheduler_done {policy : BitVec 32} {prio ret : Int} {user : Bool} {who : Caller}
    {seen : List Attr} (h : schedSetscheduler m p prio user who seen policy s = some (ret, t)) :
    SetschedulerDone m p policy prio seen s ret t := by
  induction seen generalizing policy with
  | nil => cases h
  | cons a rest ih =>
      rw [schedSetscheduler] at h
      split at h
      · rename_i e hcheck
        cases h
        exact .failed (check_error hcheck)
      · rename_i c hcheck
        obtain ⟨hreq, hnonneg, hle⟩ := check_ok hcheck
        split at h
        · rename_i ret' t' hlocked
          cases h
          rcases locked_done hlocked with ⟨rfl, hzero⟩ | ⟨rfl, rfl, hstop, hchange, hold⟩
          · by_cases hret : ret = 0
            · subst hret
              have hnothing := hzero rfl
              have hown : c.policy = (t.tasks p).policy := by
                simp only [nothingToChange, Bool.and_eq_true, decide_eq_true_eq] at hnothing
                exact hnothing.1
              exact .nothing (asked_of_requested hreq fun _ => hown) hnonneg hle hnothing
            · exact .failed hret
          · exact .changed (asked_of_requested hreq (own_policy hreq hold)) hnonneg hle hchange hstop
        · rename_i hrecheck
          have hnegative : policy.toInt < 0 := by
            rcases requested_cases hreq with ⟨hneg, -, -, -⟩ | ⟨-, -, hnone, -⟩
            · exact hneg
            · exact absurd hnone (locked_recheck hrecheck)
          have hasked : ∀ {c : Checked}, Asked (s.tasks p).toAttr (-1) rest c →
              Asked (s.tasks p).toAttr policy (a :: rest) c := by
            intro c hc
            obtain ⟨hown, b, hb, hflag⟩ := hc.kept (by decide)
            exact ⟨fun hpos => absurd hpos (by omega),
              fun _ => ⟨hown, b, List.mem_cons_of_mem _ hb, hflag⟩⟩
          cases ih h with
          | failed hret => exact .failed hret
          | nothing hc hnonneg hle hnothing => exact .nothing (hasked hc) hnonneg hle hnothing
          | changed hc hnonneg hle hchange hstop =>
              exact .changed (hasked hc) hnonneg hle hchange hstop

theorem view_schedSetscheduler {policy : BitVec 32} {prio ret : Int} {user : Bool} {who : Caller}
    {seen : List Attr} (h : schedSetscheduler m p prio user who seen policy s = some (ret, t)) :
    s.view.SetschedulerStep p policy prio t.view := by
  cases schedSetscheduler_done h with
  | failed _ => exact Or.inl rfl
  | nothing _ _ _ _ => exact Or.inl rfl
  | @changed c hc hnonneg hle hchange hstop =>
      exact Or.inr ⟨c, ⟨hnonneg, hle, hstop, hchange, fun hpos => (hc.given hpos).1,
        fun hneg => (hc.kept hneg).1⟩, view_changePolicy c prio⟩

theorem view_replaceStop (stop : Option Pid) :
    (replaceStop stop s).view = s.view.setStop stop := by
  have hstop : s.view.stop = s.rq.stop := rfl
  rw [View.setStop, hstop, replaceStop]
  cases s.rq.stop <;> rfl

/-- **Every step is a step of the view.**  Fork needs to know that the child is new, and not a
WRR one. -/
theorem view_step {o : Op} (h : step m s o = some t)
    (hfork : ∀ child f, o = .schedFork child f →
      child ≠ s.rq.curr ∧ (forkTask f s.current).schedClass ≠ .wrr) :
    View.Step m s.view t.view o := by
  unfold step at h
  split at h
  · cases o with
    | tryToWakeUp p state =>
        cases h
        exact view_tryToWakeUp state
    | wakeUpNewTask p =>
        cases h
        exact view_wakeUpNewTask
    | schedFork child f =>
        obtain ⟨hchild, hcls⟩ := hfork child f rfl
        obtain ⟨s', hs', hview⟩ := @view_schedFork m s child f hchild hcls
        simp only [perform, hs', survive, Option.map_some, Option.some.injEq] at h
        subst h
        show { s'.view with tasklist := child :: s'.view.tasklist } = _
        rw [hview]
        rfl
    | schedule preemptActive =>
        simp only [perform, schedule] at h
        split at h
        · cases h
        · rename_i next s' hpick
          cases h
          refine ⟨wokenWorker m s, next, wokenWorker_listed, ?_⟩
          rw [view_switchTo, view_pickNextTask hpick, view_corePutPrevTask, view_putToSleep]
    | schedYield =>
        cases h
        exact view_schedYield
    | schedulerTick =>
        cases h
        exact view_schedulerTick
    | schedSetscheduler p policy prio user who seen =>
        obtain ⟨⟨ret, s'⟩, hcall, rfl⟩ := Option.map_eq_some_iff.mp h
        exact view_schedSetscheduler hcall
    | rtMutexSetprio p prio =>
        cases h
        exact view_rtMutexSetprio prio
    | setUserNice p nice =>
        cases h
        exact view_setUserNice nice
    | schedMoveTask p tg =>
        cases h
        exact view_schedMoveTask tg
    | normalizeRtTasks =>
        cases h
        have hfold : ∀ (l : List Pid) (s : State),
            (l.foldl (normalizeOne m) s).view = l.foldl View.normalizeOne s.view := by
          intro l
          induction l with
          | nil => exact fun _ => rfl
          | cons p l ih =>
              intro s
              rw [List.foldl_cons, List.foldl_cons, ih, view_normalizeOne]
        exact hfold s.tasklist s
    | schedRrGetInterval p =>
        cases h
        exact view_schedRrGetInterval
    | doSchedRtPeriodTimer g overrun =>
        cases h
        exact view_doSchedRtPeriodTimer g overrun
    | schedSetStopTask stop who seen =>
        cases stop with
        | none =>
            cases h
            exact view_replaceStop none
        | some p =>
            obtain ⟨s', hmake, rfl⟩ := Option.map_eq_some_iff.mp h
            unfold makeStop at hmake
            split at hmake
            · cases hmake
            · rename_i ret s'' hcall
              cases hmake
              exact ⟨s''.view, view_schedSetscheduler hcall, view_replaceStop (some p)⟩
    | initIdleBootupTask =>
        cases h
        rfl
    | setCurrentState state =>
        cases h
        rfl
    | releaseTask p =>
        cases h
        rfl
    | foreign p f =>
        cases h
        rfl
  · cases h

end WrrScheduler
