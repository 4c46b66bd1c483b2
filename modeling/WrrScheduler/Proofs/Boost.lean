/-
The class of a task that is boosted, de-boosted and given new policies.

Two functions choose a class.  `__setscheduler` asks for the policy first and for
the priority second; `rt_mutex_setprio` only asks for the priority.  They agree on
every task but a `SCHED_WRR` one: the first leaves it in the WRR class however high
it is boosted, and the second moves it to the fair class when the boost ends.

`Harmless` is what a call must find for the class it leaves to be the right one, and
over a run of such calls the class is right throughout exactly if every call was
harmless.  The condition is on the state before the call and on its arguments, so a
run can be judged call by call; that it is exact for one call is what makes it exact
for a run, since the first call that is not harmless leaves a wrong class.
-/
import WrrScheduler.Proofs.Setscheduler
import WrrScheduler.Proofs.WrrQueue

namespace WrrScheduler

/-- The class a policy and an effective priority call for. -/
def effectiveClass (policy : Policy) (prio : Int) : SchedClass :=
  if rtPrio prio then .rt else if policy = .wrr then .wrr else .fair

/-- A task is in the class its policy and priority call for. -/
def ClassAgrees (a : Attr) : Prop := a.schedClass = effectiveClass a.policy a.prio

/-- A successful call of one of the two functions on a task. -/
def PiCall (m : Machine) (p : Pid) (s : State) : Op → Prop
  | .schedSetscheduler q policy prio user who seen =>
    q = p ∧ ∃ t, schedSetscheduler m q prio user who seen policy s = some (0, t)
  | .rtMutexSetprio q _ => q = p
  | _ => False

/-- The call finds nothing to change. -/
def NothingToDo (p : Pid) (s : State) : Op → Prop
  | .schedSetscheduler _ policy prio _ _ _ =>
    ∃ c, requested (s.tasks p).toAttr policy = some c ∧
      nothingToChange (s.tasks p).toAttr c.policy prio = true
  | _ => False

/-- A change to `SCHED_WRR` finds no waiter of real-time priority, and a priority that is not a
real-time one is set under another policy. -/
def Harmless (p : Pid) (s : State) : Op → Prop
  | .schedSetscheduler q policy prio _ _ _ => q = p →
    ∀ c, requested (s.tasks p).toAttr policy = some c → c.policy = .wrr →
      nothingToChange (s.tasks p).toAttr c.policy prio = false →
      ∀ w ∈ (s.tasks p).topWaiter, rtPrio w = false
  | .rtMutexSetprio q prio => q = p → rtPrio prio = true ∨ (s.tasks p).policy ≠ .wrr
  | _ => True

/-- The other operations that leave a task's policy, priority and class alone. -/
def Elsewhere (p : Pid) : Op → Prop
  | .schedFork q _ | .schedSetscheduler q _ _ _ _ _ | .rtMutexSetprio q _ | .setUserNice q _ => q ≠ p
  | .normalizeRtTasks | .schedSetStopTask _ _ _ => False
  | _ => True

variable {m : Machine} {s t : State} {p : Pid} {o : Op}

/-! ### The two choices of a class

Both conditions are read off the priorities.  `rt_mutex_setprio` is right for a
real-time priority, and for any other if the policy is not `SCHED_WRR`;
`__setscheduler` is right unless the policy is `SCHED_WRR` and a waiter has pushed the
effective priority into the real-time range.
-/

theorem setprioClass_eq_effective {policy : Policy} {prio : Int} :
    setprioClass prio = effectiveClass policy prio ↔ rtPrio prio = true ∨ policy ≠ .wrr := by
  unfold setprioClass effectiveClass
  cases rtPrio prio with
  | true => simp
  | false =>
      by_cases hpol : policy = .wrr
      · simp [hpol]
      · simp [hpol]

theorem setschedulerClass_eq_effective {policy : Policy} {prio : Int} :
    setschedulerClass policy prio = effectiveClass policy prio ↔
      (policy = .wrr → rtPrio prio = false) := by
  unfold setschedulerClass effectiveClass
  by_cases hpol : policy = .wrr
  · cases rtPrio prio <;> simp [hpol]
  · cases rtPrio prio <;> simp [hpol]

/-- Under `SCHED_WRR` only a waiter gives a task a real-time priority. -/
theorem rtPrio_setPolicy {a : Attr} (ha : AttrOk a) {c : Checked} (hc : c.policy = .wrr) (prio : Int) :
    rtPrio (setPolicy c prio a).prio = false ↔ ∀ w ∈ a.topWaiter, rtPrio w = false := by
  have hge := ha.static_ge
  have hprio : (setPolicy c prio a).prio = rtMutexGetprio (setPolicy c prio a) := rfl
  have htop : (setPolicy c prio a).topWaiter = a.topWaiter := rfl
  have hnormal : (setPolicy c prio a).normalPrio = a.staticPrio := by
    show normalPrio _ = a.staticPrio
    exact normalPrio_of_not_rt (by rw [hc]; rfl)
  rw [hprio, rtMutexGetprio, htop, hnormal]
  cases a.topWaiter with
  | none =>
      simp only [rtPrio, decide_eq_false_iff_not, Int.not_lt]
      simpa using hge
  | some w =>
      simp only [rtPrio, decide_eq_false_iff_not, Int.not_lt, Option.mem_some_iff, forall_eq']
      omega

theorem attr_rtMutexSetprio (hp : p ≠ s.rq.idle) (prio : Int) :
    ((rtMutexSetprio m p prio s).tasks p).toAttr =
      { (s.tasks p).toAttr with schedClass := setprioClass prio, prio := prio } := by
  show (rtMutexSetprio m p prio s).view.attr p = _
  rw [view_rtMutexSetprio]
  exact (congrArg (View.attr · p) (if_neg hp)).trans
    ((View.attr_detached _).trans (if_pos rfl))

/-- What a call asks for is what it would ask for if it read the task under the lock. -/
theorem requested_of_asked {a : Attr} {policy : BitVec 32} {seen : List Attr} {c : Checked}
    (h : Asked a policy seen c) : ∃ c', requested a policy = some c' ∧ c'.policy = c.policy := by
  unfold requested
  by_cases hneg : policy.toInt < 0
  · exact ⟨_, if_pos hneg, (h.kept hneg).1.symm⟩
  · rw [if_neg hneg, (h.given (by omega)).1]
    exact ⟨_, rfl, rfl⟩

/-! ### One call

A call that changes something writes the class anew, so whether it was right before
does not matter.  A call that finds nothing to change returns early and leaves what
was there, which is the one case where it does.
-/

/-- **After one call the class is right exactly if** the call was harmless, and was right before
where the call found nothing to change. -/
theorem classAgrees_call_iff (h : Inv m s) (hp : p ≠ s.rq.idle) (hcall : PiCall m p s o)
    (hstep : step m s o = some t) :
    ClassAgrees (t.tasks p).toAttr ↔
      Harmless p s o ∧ (NothingToDo p s o → ClassAgrees (s.tasks p).toAttr) := by
  have hperform := perform_of_step hstep
  cases o with
  | rtMutexSetprio q prio =>
      obtain rfl : q = p := hcall
      cases hperform
      have hcls : ClassAgrees ((rtMutexSetprio m q prio s).tasks q).toAttr ↔
          setprioClass prio = effectiveClass (s.tasks q).policy prio := by
        rw [attr_rtMutexSetprio hp]
        exact Iff.rfl
      rw [hcls, setprioClass_eq_effective]
      simp [Harmless, NothingToDo]
  | schedSetscheduler q policy prio user who seen =>
      obtain ⟨rfl, t', hret⟩ := hcall
      obtain rfl : t' = t := by
        simpa [perform, hret] using hperform
      have ha : AttrOk (s.tasks q).toAttr := (h.legal.task q).ok
      cases schedSetscheduler_done hret with
      | failed hne => exact absurd rfl hne
      | @nothing c hasked h0 h99 hnothing =>
          obtain ⟨c', hreq, hpol⟩ := requested_of_asked hasked
          rw [← hpol] at hnothing
          constructor
          · intro hagrees
            refine ⟨?_, fun _ => hagrees⟩
            intro _ c'' hreq' _ hchange
            rw [hreq, Option.some.injEq] at hreq'
            rw [← hreq', hnothing] at hchange
            cases hchange
          · intro hcond
            exact hcond.2 ⟨c', hreq, hnothing⟩
      | @changed c hasked h0 h99 hchange hstop =>
          obtain ⟨c', hreq, hpol⟩ := requested_of_asked hasked
          have hcls : ClassAgrees ((changePolicy m q c prio s).tasks q).toAttr ↔
              setschedulerClass c.policy (setPolicy c prio (s.tasks q).toAttr).prio =
                effectiveClass c.policy (setPolicy c prio (s.tasks q).toAttr).prio := by
            rw [attr_changePolicy, if_pos rfl]
            exact Iff.rfl
          rw [hcls, setschedulerClass_eq_effective]
          rw [← hpol] at hchange
          constructor
          · intro hwrr
            refine ⟨?_, ?_⟩
            · intro _ c'' hreq' hc'' _
              rw [hreq, Option.some.injEq] at hreq'
              have hc : c.policy = .wrr := by rw [← hpol, hreq', hc'']
              exact (rtPrio_setPolicy ha hc prio).mp (hwrr hc)
            · rintro ⟨c'', hreq', hnothing⟩
              rw [hreq, Option.some.injEq] at hreq'
              rw [← hreq', hchange] at hnothing
              cases hnothing
          · rintro ⟨hharmless, -⟩ hc
            refine (rtPrio_setPolicy ha hc prio).mpr ?_
            exact hharmless rfl c' hreq (hpol.trans hc) hchange
  | _ => exact absurd hcall id

/-! ### Runs of calls -/

/-- Elsewhere the policy, the priority and the class stay. -/
theorem elsewhere_step (h : Inv m s) (hp : p ≠ s.rq.idle) (ho : Elsewhere p o)
    (hstep : step m s o = some t) :
    (t.tasks p).policy = (s.tasks p).policy ∧ (t.tasks p).prio = (s.tasks p).prio ∧
      (t.tasks p).schedClass = (s.tasks p).schedClass := by
  have hview := h.view_step hstep
  have hspare : p ∉ targets m s o →
      (t.tasks p).policy = (s.tasks p).policy ∧ (t.tasks p).prio = (s.tasks p).prio ∧
        (t.tasks p).schedClass = (s.tasks p).schedClass := by
    intro hnot
    have htask : t.tasks p = s.tasks p := (spares_step h hstep).tasks p hnot
    rw [htask]
    exact ⟨rfl, rfl, rfl⟩
  by_cases hplain : o.plain = true
  · have hread : ∀ {β : Type} (read : Attr → β),
        (∀ a b n, read { a with onRq := b, state := n } = read a) →
        read (t.tasks p).toAttr = read (s.tasks p).toAttr :=
      fun _ hread => read_plain_step hview hplain hread p
    exact ⟨hread Attr.policy fun _ _ _ => rfl, hread Attr.prio fun _ _ _ => rfl,
      hread Attr.schedClass fun _ _ _ => rfl⟩
  · cases o with
    | schedFork q | schedSetscheduler q | rtMutexSetprio q | setUserNice q =>
        exact hspare fun hmem => ho (Eq.symm hmem)
    | normalizeRtTasks | schedSetStopTask => exact absurd ho id
    | initIdleBootupTask =>
        have hidle : s.rq.curr = s.rq.idle := by
          simpa [callable] using callable_of_step hstep
        exact hspare fun hmem => hp (Eq.trans hmem hidle)
    | schedMoveTask q tg =>
        have hattr : (t.tasks p).toAttr = if p = q then
            { (s.tasks q).toAttr with schedTaskGroup := tg } else (s.tasks p).toAttr := by
          show t.view.attr p = _
          rw [hview]
          exact View.attr_detached _
        rw [hattr]
        split
        · rename_i hpq
          subst hpq
          exact ⟨rfl, rfl, rfl⟩
        · exact ⟨rfl, rfl, rfl⟩
    | foreign q f =>
        have hattr : (t.tasks p).toAttr = if p = q then
            { (s.tasks q).toAttr with toForeign := f } else (s.tasks p).toAttr := by
          show t.view.attr p = _
          rw [hview]
          exact View.attr_modAttr _
        rw [hattr]
        split
        · rename_i hpq
          subst hpq
          exact ⟨rfl, rfl, rfl⟩
        · exact ⟨rfl, rfl, rfl⟩
    | _ => exact absurd rfl hplain

/-- One operation of such a run. -/
theorem classAgrees_step_iff (h : Inv m s) (hp : p ≠ s.rq.idle)
    (ho : PiCall m p s o ∨ Elsewhere p o) (hstart : ClassAgrees (s.tasks p).toAttr)
    (hstep : step m s o = some t) : ClassAgrees (t.tasks p).toAttr ↔ Harmless p s o := by
  rcases ho with hcall | helse
  · rw [classAgrees_call_iff h hp hcall hstep]
    exact and_iff_left fun _ => hstart
  · obtain ⟨hpolicy, hprio, hcls⟩ := elsewhere_step h hp helse hstep
    have hagrees : ClassAgrees (t.tasks p).toAttr := by
      rw [ClassAgrees, hpolicy, hprio, hcls]
      exact hstart
    refine iff_of_true hagrees ?_
    cases o with
    | schedSetscheduler q | rtMutexSetprio q => exact fun hq => absurd hq helse
    | _ => exact trivial

/-- **Over a run**, by one operation after another: the class is right throughout exactly if every
call is harmless. -/
theorem classAgrees_run_iff {tr : List (State × Op)} (hrun : Run (step m) s tr t) (h : Inv m s)
    (hp : p ≠ s.rq.idle) (hops : ∀ e ∈ tr, PiCall m p e.1 e.2 ∨ Elsewhere p e.2)
    (hstart : ClassAgrees (s.tasks p).toAttr) :
    (∀ e ∈ tr, ∀ u, step m e.1 e.2 = some u → ClassAgrees (u.tasks p).toAttr) ↔
      ∀ e ∈ tr, Harmless p e.1 e.2 := by
  induction hrun with
  | nil => simp
  | @cons s u t o tr hstep _ ih =>
      have hone := classAgrees_step_iff h hp (hops (s, o) List.mem_cons_self) hstart hstep
      have hidle : u.rq.idle = s.rq.idle := idle_step (h.view_step hstep)
      have hrest : ClassAgrees (u.tasks p).toAttr →
          ((∀ e ∈ tr, ∀ u, step m e.1 e.2 = some u → ClassAgrees (u.tasks p).toAttr) ↔
            ∀ e ∈ tr, Harmless p e.1 e.2) :=
        ih (h.step hstep) (by rwa [hidle]) fun e he => hops e (List.mem_cons_of_mem _ he)
      constructor
      · intro hall
        have hu : ClassAgrees (u.tasks p).toAttr := hall (s, o) List.mem_cons_self u hstep
        refine List.forall_mem_cons.mpr ⟨hone.mp hu, (hrest hu).mp ?_⟩
        exact fun e he => hall e (List.mem_cons_of_mem _ he)
      · intro hall
        obtain ⟨hfirst, htail⟩ := List.forall_mem_cons.mp hall
        have hu : ClassAgrees (u.tasks p).toAttr := hone.mpr hfirst
        refine List.forall_mem_cons.mpr ⟨?_, (hrest hu).mpr htail⟩
        intro v hv
        rw [hstep, Option.some.injEq] at hv
        rwa [← hv]

/-! ### A boost and its end, and a boost around a change of policy -/

theorem idle_rtMutexSetprio (prio : Int) : (rtMutexSetprio m p prio s).rq.idle = s.rq.idle := by
  show (rtMutexSetprio m p prio s).view.idle = s.view.idle
  rw [view_rtMutexSetprio]
  split
  · rfl
  · exact (View.frame_detached _).idle

/-- A boost and the matching de-boost restore the class exactly if the priority it had is a
real-time one or the policy is not `SCHED_WRR`. -/
theorem deboost_restores_iff (hp : p ≠ s.rq.idle) (hstart : ClassAgrees (s.tasks p).toAttr)
    (prio : Int) :
    ((rtMutexSetprio m p (s.tasks p).prio (rtMutexSetprio m p prio s)).tasks p).schedClass =
        (s.tasks p).schedClass ↔
      rtPrio (s.tasks p).prio = true ∨ (s.tasks p).policy ≠ .wrr := by
  have hp' : p ≠ (rtMutexSetprio m p prio s).rq.idle := by rwa [idle_rtMutexSetprio]
  have hcls : ((rtMutexSetprio m p (s.tasks p).prio (rtMutexSetprio m p prio s)).tasks
      p).schedClass = setprioClass (s.tasks p).prio :=
    congrArg Attr.schedClass (attr_rtMutexSetprio hp' _)
  rw [hcls, hstart]
  exact setprioClass_eq_effective

/-- Boosting before and after a call of `__sched_setscheduler` give the same class exactly if the
call is harmless. -/
theorem boost_order_iff (hp : p ≠ s.rq.idle) {w prio : Int} {policy : BitVec 32} {user : Bool}
    {who : Caller} {seen : List Attr} {a b : State} (hwaiter : (s.tasks p).topWaiter = some w)
    (hw : rtPrio w = true)
    (ha : schedSetscheduler m p prio user who seen policy (rtMutexSetprio m p w s) = some (0, a))
    (hb : schedSetscheduler m p prio user who seen policy s = some (0, b)) :
    (a.tasks p).schedClass = ((rtMutexSetprio m p w b).tasks p).schedClass ↔
      Harmless p s (.schedSetscheduler p policy prio user who seen) := by
  have hb' : p ≠ b.rq.idle := by
    have hidle : b.view.idle = s.view.idle := by
      rcases view_schedSetscheduler hb with hsame | ⟨c, -, hview⟩
      · rw [hsame]
      · rw [hview]
        exact (View.frame_detached _).idle
    intro hpb
    exact hp (hpb.trans hidle)
  have hafter : ((rtMutexSetprio m p w b).tasks p).schedClass = .rt := by
    refine (congrArg Attr.schedClass (attr_rtMutexSetprio hb' w)).trans ?_
    show setprioClass w = .rt
    rw [setprioClass, hw]
    rfl
  have hboosted := @attr_rtMutexSetprio m s p hp w
  have hreq : ∀ c, requested ((rtMutexSetprio m p w s).tasks p).toAttr policy = some c ↔
      requested (s.tasks p).toAttr policy = some c := by
    intro c
    rw [hboosted]
    exact Iff.rfl
  have hsame : ∀ pol, nothingToChange ((rtMutexSetprio m p w s).tasks p).toAttr pol prio =
      nothingToChange (s.tasks p).toAttr pol prio := by
    intro pol
    rw [hboosted]
    rfl
  rw [hafter]
  cases schedSetscheduler_done ha with
  | failed hne => exact absurd rfl hne
  | @nothing c hasked h0 h99 hnothing =>
      obtain ⟨c', hc', hpol⟩ := requested_of_asked hasked
      rw [← hpol, hsame] at hnothing
      refine iff_of_true ?_ ?_
      · rw [hboosted]
        show setprioClass w = .rt
        rw [setprioClass, hw]
        rfl
      · intro _ c'' hc'' _ hchange
        rw [(hreq c').mp hc', Option.some.injEq] at hc''
        rw [← hc'', hnothing] at hchange
        cases hchange
  | @changed c hasked h0 h99 hchange hstop =>
      obtain ⟨c', hc', hpol⟩ := requested_of_asked hasked
      rw [← hpol, hsame] at hchange
      have hprio : rtPrio (setPolicy c prio ((rtMutexSetprio m p w s).tasks p).toAttr).prio =
          true := by
        have hmin : (setPolicy c prio ((rtMutexSetprio m p w s).tasks p).toAttr).prio =
            min w (setPolicy c prio ((rtMutexSetprio m p w s).tasks p).toAttr).normalPrio := by
          show rtMutexGetprio _ = _
          unfold rtMutexGetprio
          have htop : ((rtMutexSetprio m p w s).tasks p).topWaiter = some w := by
            rw [hboosted]
            exact hwaiter
          simp only [htop]
          rfl
        rw [hmin]
        simp only [rtPrio, decide_eq_true_eq] at hw ⊢
        omega
      have hcls : ((changePolicy m p c prio (rtMutexSetprio m p w s)).tasks p).schedClass =
          if c.policy = .wrr then .wrr else .rt := by
        rw [attr_changePolicy, if_pos rfl]
        show setschedulerClass c.policy
          (setPolicy c prio ((rtMutexSetprio m p w s).tasks p).toAttr).prio = _
        rw [setschedulerClass, hprio]
        rfl
      rw [hcls]
      by_cases hwrr : c.policy = .wrr
      · rw [if_pos hwrr]
        refine iff_of_false (by simp) ?_
        intro hharmless
        have hnone := hharmless rfl c' ((hreq c').mp hc') (hpol.trans hwrr) hchange w hwaiter
        rw [hnone] at hw
        cases hw
      · rw [if_neg hwrr]
        refine iff_of_true rfl ?_
        intro _ c'' hc'' hwrr'
        rw [(hreq c').mp hc', Option.some.injEq] at hc''
        exact absurd (by rw [← hpol, hc'', hwrr']) hwrr

/-- **The class is a function of policy and effective priority exactly where the calls are
harmless**: after one call from any state, throughout a run from a state where it is, around a
boost and its end, and whichever of a boost and a change of policy comes first. -/
theorem schedClass_of_calls (h : Reachable m s) (hp : p ≠ s.rq.idle) :
    (∀ o t, PiCall m p s o → step m s o = some t → (ClassAgrees (t.tasks p).toAttr ↔
      Harmless p s o ∧ (NothingToDo p s o → ClassAgrees (s.tasks p).toAttr))) ∧
    (∀ tr t, Run (step m) s tr t → (∀ e ∈ tr, PiCall m p e.1 e.2 ∨ Elsewhere p e.2) →
      ClassAgrees (s.tasks p).toAttr →
      ((∀ e ∈ tr, ∀ u, step m e.1 e.2 = some u → ClassAgrees (u.tasks p).toAttr) ↔
        ∀ e ∈ tr, Harmless p e.1 e.2)) ∧
    (ClassAgrees (s.tasks p).toAttr → ∀ prio,
      (((rtMutexSetprio m p (s.tasks p).prio (rtMutexSetprio m p prio s)).tasks p).schedClass =
          (s.tasks p).schedClass ↔
        rtPrio (s.tasks p).prio = true ∨ (s.tasks p).policy ≠ .wrr)) ∧
    (∀ w prio policy user who seen a b, (s.tasks p).topWaiter = some w → rtPrio w = true →
      schedSetscheduler m p prio user who seen policy (rtMutexSetprio m p w s) = some (0, a) →
      schedSetscheduler m p prio user who seen policy s = some (0, b) →
      ((a.tasks p).schedClass = ((rtMutexSetprio m p w b).tasks p).schedClass ↔
        Harmless p s (.schedSetscheduler p policy prio user who seen))) := by
  have hinv := inv_of_reachable h
  refine ⟨?_, ?_, ?_, ?_⟩
  · exact fun o t hcall hstep => classAgrees_call_iff hinv hp hcall hstep
  · exact fun tr t hrun hops hstart => classAgrees_run_iff hrun hinv hp hops hstart
  · exact fun hstart prio => deboost_restores_iff hp hstart prio
  · exact fun w prio policy user who seen a b hwaiter hw ha hb =>
      boost_order_iff hp hwaiter hw ha hb

/-- A `SCHED_WRR` task, for whose mutex a real-time task waits. -/
def wrrWithWaiter : List Op :=
  startTwoWrr ++ [.foreign 1 { sampleForeign with topWaiter := some 50 }]

/-- The task becomes a `SCHED_FIFO` one, with priority 10. -/
def becomeFifo (s : State) : Option (Int × State) :=
  schedSetscheduler (sampleMachine 10) 1 10 true sampleCaller
    [(initTask (sampleMachine 0)).toAttr] Policy.fifo.code s

/-- It is boosted and becomes a `SCHED_FIFO` task: its class is right all along, and would be the
same had it been boosted last; only the end of the boost would have left it in the fair class. -/
theorem schedClass_of_boost : ∃ (s t a b : State) (tr : List (State × Op)),
    ((s.tasks 1).policy = .wrr ∧ (s.tasks 1).prio = 120 ∧ (s.tasks 1).topWaiter = some 50 ∧
      step (sampleMachine 10) s (.rtMutexSetprio 1 50) = some t ∧
      becomeFifo t = some (0, a) ∧ becomeFifo s = some (0, b) ∧
      Run (step (sampleMachine 10)) s tr a ∧ tr.length = 2) ∧
    ClassAgrees (t.tasks 1).toAttr ∧
    (∀ e ∈ tr, ∀ u, step (sampleMachine 10) e.1 e.2 = some u → ClassAgrees (u.tasks 1).toAttr) ∧
    ((rtMutexSetprio (sampleMachine 10) 1 (s.tasks 1).prio t).tasks 1).schedClass ≠
      (s.tasks 1).schedClass ∧
    (a.tasks 1).schedClass = ((rtMutexSetprio (sampleMachine 10) 1 50 b).tasks 1).schedClass := by
  have hexec : ((Run.exec (step (sampleMachine 10)) (boot (sampleMachine 10)) wrrWithWaiter).any
      fun s => decide ((1 ≠ s.rq.idle ∧ 1 ∈ s.tasklist) ∧ ((s.tasks 1).schedClass = .wrr ∧
        (s.tasks 1).policy = .wrr ∧ (s.tasks 1).prio = 120 ∧ (s.tasks 1).topWaiter = some 50) ∧
        ((becomeFifo s).any fun r => r.1 = 0) = true ∧
        ((becomeFifo (rtMutexSetprio (sampleMachine 10) 1 50 s)).any fun r => r.1 = 0) = true ∧
        1 ∈ (rtMutexSetprio (sampleMachine 10) 1 50 s).tasklist)) = true := by
    decide +kernel
  obtain ⟨s, hs, ⟨hidle, hlisted⟩, ⟨hcls, hpolicy, hprio, hwaiter⟩, hlast, hfirst, hlisted'⟩ :=
    Run.exists_of_exec hexec
  obtain ⟨⟨_, b⟩, hb, hzero⟩ := (Option.any_eq_true _ _).mp hlast
  obtain rfl := of_decide_eq_true hzero
  obtain ⟨⟨_, a⟩, ha, hzero⟩ := (Option.any_eq_true _ _).mp hfirst
  obtain rfl := of_decide_eq_true hzero
  set t := rtMutexSetprio (sampleMachine 10) 1 50 s with ht
  have hboost : step (sampleMachine 10) s (.rtMutexSetprio 1 50) = some t := by
    simp [step, callable, perform, hlisted, maxPrio, ht]
  have hchange : step (sampleMachine 10) t
      (.schedSetscheduler 1 Policy.fifo.code 10 true sampleCaller
        [(initTask (sampleMachine 0)).toAttr]) = some a := by
    have hperform := congrArg (Option.map Prod.snd) ha
    simpa [step, callable, perform, hlisted', becomeFifo] using hperform
  have hcalls := schedClass_of_calls hs hidle
  have hagrees : ClassAgrees (s.tasks 1).toAttr := by
    rw [ClassAgrees, hcls, hpolicy, hprio]
    decide
  have hfifo : ∀ u : State, Harmless 1 u (.schedSetscheduler 1 Policy.fifo.code 10 true sampleCaller
      [(initTask (sampleMachine 0)).toAttr]) := by
    intro u _ c hc hwrr
    have hfifo : requested (u.tasks 1).toAttr Policy.fifo.code =
        some { policy := .fifo, resetOnFork := false, oldpolicy := none } := rfl
    rw [hfifo, Option.some.injEq] at hc
    rw [← hc] at hwrr
    cases hwrr
  have hharmless : Harmless 1 s (.rtMutexSetprio 1 50) := fun _ => .inl rfl
  refine ⟨s, t, a, b, [(s, _), (t, _)], ⟨hpolicy, hprio, hwaiter, hboost, ha, hb,
    .cons hboost (.cons hchange .nil), rfl⟩, ?_, ?_, ?_, ?_⟩
  · exact (hcalls.1 (.rtMutexSetprio 1 50) t rfl hboost).mpr ⟨hharmless, False.elim⟩
  · refine (hcalls.2.1 _ a (.cons hboost (.cons hchange .nil)) ?_ hagrees).mpr ?_
    · intro e he
      simp only [List.mem_cons, List.not_mem_nil, or_false] at he
      rcases he with rfl | rfl
      · exact .inl rfl
      · exact .inl ⟨rfl, a, ha⟩
    · simpa using ⟨hharmless, hfifo t⟩
  · rw [ne_eq, hcalls.2.2.1 hagrees 50, hpolicy, hprio]
    decide
  · exact (hcalls.2.2.2 50 10 _ true sampleCaller _ a b hwaiter rfl ha hb).mpr (hfifo s)

/-- A `SCHED_WRR` task that is boosted and de-boosted ends in the fair class. -/
theorem wrr_deboosted_to_fair : ∃ s t u, Reachable (sampleMachine 10) s ∧
    (s.tasks 1).schedClass = .wrr ∧ ClassAgrees (s.tasks 1).toAttr ∧
    step (sampleMachine 10) s (.rtMutexSetprio 1 50) = some t ∧
    step (sampleMachine 10) t (.rtMutexSetprio 1 (s.tasks 1).prio) = some u ∧
    (u.tasks 1).policy = .wrr ∧ (u.tasks 1).schedClass = .fair ∧
    ¬ ClassAgrees (u.tasks 1).toAttr := by
  have hexec : ((Run.exec (step (sampleMachine 10)) (boot (sampleMachine 10)) startTwoWrr).any
      fun s => decide ((s.tasks 1).schedClass = .wrr ∧ (s.tasks 1).policy = .wrr ∧
        (s.tasks 1).prio = 120 ∧ ((step (sampleMachine 10) s (.rtMutexSetprio 1 50)).any fun t =>
          (step (sampleMachine 10) t (.rtMutexSetprio 1 (s.tasks 1).prio)).any fun u =>
            (u.tasks 1).policy = .wrr && (u.tasks 1).schedClass = .fair &&
              (u.tasks 1).prio = 120) = true)) = true := by decide +kernel
  obtain ⟨s, hs, hcls, hpolicy, hprio, hsteps⟩ := Run.exists_of_exec hexec
  obtain ⟨t, ht, hstep⟩ := (Option.any_eq_true _ _).mp hsteps
  obtain ⟨u, hu, hlost⟩ := (Option.any_eq_true _ _).mp hstep
  simp only [Bool.and_eq_true, decide_eq_true_eq] at hlost
  obtain ⟨⟨hwrr, hfair⟩, hback⟩ := hlost
  refine ⟨s, t, u, hs, hcls, ?_, ht, hu, hwrr, hfair, ?_⟩
  · rw [ClassAgrees, hcls, hpolicy, hprio]
    decide
  · rw [ClassAgrees, hfair, hwrr, hback]
    decide

end WrrScheduler
