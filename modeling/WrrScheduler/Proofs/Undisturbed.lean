/-
Real-time tasks do not disturb the round robin.

Two runs that begin with the same WRR queue and slices and see the same WRR events
have the same queue and slices after each of them, however many other tasks wake
up, run and sleep in one of the runs in between.  A run is the replay of its events,
and replays that begin alike go on alike.

Nor need the events tell whom a tick is charged to.  If reschedules are served
before ticks, a WRR task that runs is the first of the queue or is about to be
rescheduled, so the ticks of both runs fall on the same tasks.
-/
import WrrScheduler.Proofs.RoundRobin
import WrrScheduler.Proofs.WrrEvents

namespace WrrScheduler

variable {m : Machine} {s t : State} {p q : Pid}

/-! ### Replays -/

namespace WrrState

/-- Two states of the class that agree.  What `cgroup_path` wrote last does not matter if it always
writes. -/
structure Agrees (m : Machine) (w w' : WrrState) : Prop where
  queue : w.queue = w'.queue
  slice : w.slice = w'.slice
  group : w.group = w'.group
  path : WritesPath m ∨ w.path = w'.path

variable {w w' : WrrState}

theorem Agrees.spend (h : w.Agrees m w') (p : Pid) (g : Gid) :
    (w.spend m p g).Agrees m (w'.spend m p g) := by
  have hpath : m.cgroupPath (m.cgroup g) w.path = m.cgroupPath (m.cgroup g) w'.path := by
    rcases h.path with hwrites | hsame
    · rw [hwrites, hwrites]
    · rw [hsame]
  unfold WrrState.spend
  rw [← h.slice, ← h.queue, ← hpath]
  split
  · exact ⟨rfl, rfl, h.group, Or.inr rfl⟩
  · exact ⟨rfl, rfl, h.group, h.path⟩

theorem Agrees.tick (h : w.Agrees m w') (p : Pid) : (w.tick m p).Agrees m (w'.tick m p) := by
  unfold WrrState.tick
  rw [← h.group]
  cases w.group p with
  | none => exact h
  | some g => exact h.spend p g

/-- An event does the same to both. -/
theorem Agrees.act (h : w.Agrees m w') (e : WrrEvent) : (w.act m e).Agrees m (w'.act m e) := by
  cases e with
  | tick who =>
      cases who with
      | some p => exact h.tick p
      | none =>
          simp only [WrrState.act, ← h.queue]
          cases w.queue.head? with
          | none => exact h
          | some p => exact h.tick p
  | sleep p => exact ⟨congrArg (Sequence.del p) h.queue, h.slice, h.group, h.path⟩
  | wake p => exact ⟨congrArg (Sequence.addTail p) h.queue, h.slice, h.group, h.path⟩
  | yield p => exact ⟨congrArg (Sequence.moveTail p) h.queue, h.slice, h.group, h.path⟩

/-- **Replays of the same events agree.** -/
theorem Agrees.replay (h : w.Agrees m w') (es : List WrrEvent) :
    (es.foldl (WrrState.act m) w).Agrees m (es.foldl (WrrState.act m) w') := by
  induction es generalizing w w' with
  | nil => exact h
  | cons e es ih => exact ih (h.act e)

end WrrState

/-- **A routine run is the replay of its events.** -/
theorem wrrState_run {tr : List (State × Op)} (hrun : Run (step m) s tr t) (hinv : Inv m s)
    (hall : ∀ e ∈ tr, routine e.1 e.2 = true) :
    t.view.wrrState = (Run.emitted (wrrEvents m) tr).foldl (WrrState.act m) s.view.wrrState := by
  refine hrun.replayed (fun s tr => Inv m s ∧ ∀ e ∈ tr, routine e.1 e.2 = true) (wrrEvents m)
    (fun s => s.view.wrrState) (WrrState.act m) ?_ ⟨hinv, hall⟩
  rintro s o t tr ⟨hinv, hall⟩ hstep
  exact ⟨wrrState_step hinv hstep (hall (s, o) List.mem_cons_self), hinv.step hstep,
    fun e he => hall e (List.mem_cons_of_mem _ he)⟩

/-! ### Whom a tick is charged to

A tick is charged to the task that runs, and a replay knows only the queue.  `InTurn`
says that these are the same wherever a tick may come: a task is picked as the head,
and what could move it from there, a yield or an expiry, is followed by a reschedule
before the next tick.
-/

/-- A WRR task that runs is the first of the queue, or it is about to be rescheduled: by request, or
because it yielded. -/
def InTurn (yielded : Bool) (s : State) : Prop :=
  s.current.schedClass = .wrr →
    yielded = true ∨ s.needResched = true ∨ s.rq.wrr.queue.head? = some s.rq.curr

/-- A yield is outstanding until the next `schedule`. -/
def yieldedAfter (yielded : Bool) : Op → Bool
  | .schedule _ => false
  | .schedYield => true
  | _ => yielded

/-- A tick comes after the reschedules asked for, and after the `schedule` of a `sched_yield`. -/
def inTime (yielded : Bool) (s : State) : Op → Bool
  | .schedulerTick => !yielded && !s.needResched
  | _ => true

/-- Every tick of a run does. -/
def servedInTime : Bool → List (State × Op) → Bool
  | _, [] => true
  | yielded, (s, o) :: tr => inTime yielded s o && servedInTime (yieldedAfter yielded o) tr

/-- A routine operation keeps the class of every task. -/
theorem cls_routine {o : Op} (hinv : Inv m s) (hstep : step m s o = some t)
    (ho : routine s o = true) (q : Pid) : (t.tasks q).schedClass = (s.tasks q).schedClass := by
  have hview := hinv.view_step hstep
  have hread : o.plain = true → (t.view.attr q).schedClass = (s.view.attr q).schedClass :=
    fun hplain => @read_plain_step m _ _ o _ Attr.schedClass hview hplain (fun _ _ _ => rfl) q
  cases o with
  | foreign p f =>
      show (t.view.attr q).schedClass = (s.view.attr q).schedClass
      rw [hview]
      exact @View.read_modAttr _ p q _ Attr.schedClass _ fun _ => rfl
  | tryToWakeUp | wakeUpNewTask | schedule | schedYield | schedulerTick | schedRrGetInterval
  | doSchedRtPeriodTimer | setCurrentState | releaseTask => exact hread rfl
  | schedFork | schedSetscheduler | rtMutexSetprio | setUserNice | schedMoveTask
  | normalizeRtTasks | schedSetStopTask | initIdleBootupTask => cases ho

/-- The head of the queue stays, but for a tick, a yield and a reschedule. -/
theorem head?_routine {o : Op} (hinv : Inv m s) (hstep : step m s o = some t)
    (ho : routine s o = true) (hsched : ∀ b, o ≠ .schedule b) (hyield : o ≠ .schedYield)
    (htick : o ≠ .schedulerTick) (hhead : s.rq.wrr.queue.head? = some p) :
    t.rq.wrr.queue.head? = some p := by
  have hqueue : t.rq.wrr.queue =
      ((wrrEvents m s o).foldl (WrrState.act m) s.view.wrrState).queue :=
    congrArg WrrState.queue (wrrState_step hinv hstep ho)
  have henqueues : ∀ q, ((s.view.enqueues q).foldl (WrrState.act m) s.view.wrrState).queue.head? =
      some p := by
    intro q
    unfold View.enqueues
    split
    · exact Sequence.head?_addTail hhead
    · exact hhead
  rw [hqueue]
  cases o with
  | schedule b => exact absurd rfl (hsched b)
  | schedYield => exact absurd rfl hyield
  | schedulerTick => exact absurd rfl htick
  | tryToWakeUp q state =>
      simp only [wrrEvents, View.events, View.wakes]
      split
      · exact hhead
      · split
        · exact hhead
        · exact henqueues q
  | wakeUpNewTask q => exact henqueues q
  | schedRrGetInterval | doSchedRtPeriodTimer | setCurrentState | releaseTask | foreign =>
      exact hhead
  | schedFork | schedSetscheduler | rtMutexSetprio | setUserNice | schedMoveTask
  | normalizeRtTasks | schedSetStopTask | initIdleBootupTask => cases ho

/-- A tick leaves the head of the queue, or asks for a reschedule. -/
theorem head?_tick (hinv : Inv m s) (hstep : step m s .schedulerTick = some t)
    (hcls : s.current.schedClass = .wrr) :
    t.needResched = true ∨ t.rq.wrr.queue = s.rq.wrr.queue := by
  obtain ⟨A, hA, -⟩ := hinv.queued
  have hpolicy : (s.tasks s.rq.curr).policy = .wrr := (hinv.legal.task s.rq.curr).ok.wrr hcls
  have hview : t.view = s.view.tickWrr m s.rq.curr := (hinv.view_step hstep).trans (if_pos hcls)
  by_cases hexpires : expires s.rq.curr s .schedulerTick = true ∧ 2 ≤ s.rq.wrr.queue.length
  · exact Or.inl (givesWay_of_expires hinv hstep hexpires.1 hexpires.2).2
  · right
    show t.view.wrr.queue = s.view.wrr.queue
    rw [hview, View.queue_tickWrr hpolicy, if_neg]
    rintro ⟨hone, hends⟩
    refine hexpires ⟨?_, (Sequence.getLast?_ne_head? hA.enq.nodup).mp hends⟩
    rw [expires, ticks_iff.mpr ⟨rfl, rfl, hcls⟩, Bool.true_and]
    exact decide_eq_true (slice_eq_one.mpr hone)

/-- **The task that runs stays in turn.** -/
theorem inTurn_step {yielded : Bool} {o : Op} (hinv : Inv m s) (hstep : step m s o = some t)
    (ho : routine s o = true) (hturn : InTurn yielded s) : InTurn (yieldedAfter yielded o) t := by
  intro hcls
  by_cases hsched : ∃ b, o = .schedule b
  · obtain ⟨b, rfl⟩ := hsched
    exact Or.inr (Or.inr (head_of_schedule hinv hstep hcls))
  by_cases hyield : o = .schedYield
  · subst hyield
    exact Or.inl rfl
  have hyielded : yieldedAfter yielded o = yielded := by
    cases o <;> first | rfl | exact absurd rfl hyield | exact absurd ⟨_, rfl⟩ hsched
  have hsched' : ∀ b, o ≠ .schedule b := fun b hb => hsched ⟨b, hb⟩
  have hcurr : t.rq.curr = s.rq.curr :=
    (keeps_step hinv.legal (callable_of_step hstep) hsched' (hinv.view_step hstep)).curr
  have hcls' : s.current.schedClass = .wrr := by
    have hown : (t.tasks t.rq.curr).schedClass = .wrr := hcls
    rwa [cls_routine hinv hstep ho, hcurr] at hown
  rw [hyielded]
  rcases hturn hcls' with hpending | hresched | hhead
  · exact Or.inl hpending
  · exact Or.inr (Or.inl (needResched_step hinv hstep hsched' hresched))
  · right
    by_cases htick : o = .schedulerTick
    · subst htick
      rw [hcurr]
      refine (head?_tick hinv hstep hcls').imp_right fun hqueue => ?_
      rw [hqueue, hhead]
    · right
      rw [hcurr]
      exact head?_routine hinv hstep ho hsched' hyield htick hhead

theorem map_wakes (v : View) (p : Pid) : (v.wakes p).map WrrEvent.anyTick = v.wakes p := by
  unfold View.wakes View.enqueues
  split
  · rfl
  · split <;> rfl

/-- Only a tick tells whom it is charged to. -/
theorem map_events {o : Op} (htick : o ≠ .schedulerTick) :
    (wrrEvents m s o).map WrrEvent.anyTick = wrrEvents m s o := by
  have hworker : ∀ worker : Option Pid,
      (s.view.wakesWorker worker).map WrrEvent.anyTick = s.view.wakesWorker worker := by
    intro worker
    cases worker with
    | none => rfl
    | some p =>
        rw [View.wakesWorker]
        split
        · rfl
        · split
          · rfl
          · exact map_wakes s.view p
  cases o with
  | schedulerTick => exact absurd rfl htick
  | tryToWakeUp p state =>
      simp only [wrrEvents, View.events]
      split
      · rfl
      · exact map_wakes s.view p
  | wakeUpNewTask p =>
      simp only [wrrEvents, View.events, View.enqueues]
      split <;> rfl
  | schedule preemptActive =>
      simp only [wrrEvents, View.events, View.sleeps]
      split
      · split
        · rfl
        · rw [List.map_append, hworker]
          split <;> rfl
      · rfl
  | schedYield =>
      simp only [wrrEvents, View.events]
      split <;> rfl
  | _ => rfl

/-- In turn and in time, a step is the replay of what any tick does. -/
theorem anyTick_step {yielded : Bool} {o : Op} (hinv : Inv m s) (hstep : step m s o = some t)
    (ho : routine s o = true) (hturn : InTurn yielded s) (htime : inTime yielded s o = true) :
    t.view.wrrState =
      ((wrrEvents m s o).map WrrEvent.anyTick).foldl (WrrState.act m) s.view.wrrState := by
  rw [wrrState_step hinv hstep ho]
  by_cases htick : o = .schedulerTick
  · subst htick
    simp only [wrrEvents, View.events]
    split
    · rename_i hcls
      have hhead : s.rq.wrr.queue.head? = some s.rq.curr := by
        simp only [inTime, Bool.and_eq_true, Bool.not_eq_true'] at htime
        rcases hturn hcls with hpending | hresched | hhead
        · rw [htime.1] at hpending
          cases hpending
        · rw [htime.2] at hresched
          cases hresched
        · exact hhead
      have hqueue : s.view.wrrState.queue.head? = some s.rq.curr := hhead
      simp only [List.map_cons, List.map_nil, List.foldl_cons, List.foldl_nil, WrrEvent.anyTick,
        WrrState.act, hqueue, Option.elim_some]
      rfl
    · rfl
  · rw [map_events htick]

/-- **A run that is served in time is the replay of what any tick does.** -/
theorem wrrState_run_anyTick {tr : List (State × Op)} (hrun : Run (step m) s tr t)
    (hinv : Inv m s) (hall : ∀ e ∈ tr, routine e.1 e.2 = true) (hturn : InTurn false s)
    (htime : servedInTime false tr = true) :
    t.view.wrrState =
      ((Run.emitted (wrrEvents m) tr).map WrrEvent.anyTick).foldl (WrrState.act m)
        s.view.wrrState := by
  rw [← Run.emitted_map]
  refine hrun.replayed (fun s tr => Inv m s ∧ (∀ e ∈ tr, routine e.1 e.2 = true) ∧
    ∃ yielded, InTurn yielded s ∧ servedInTime yielded tr = true)
    (fun s o => (wrrEvents m s o).map WrrEvent.anyTick) (fun s => s.view.wrrState)
    (WrrState.act m) ?_ ⟨hinv, hall, false, hturn, htime⟩
  rintro s o t tr ⟨hinv, hall, yielded, hturn, htime⟩ hstep
  have ho := hall (s, o) List.mem_cons_self
  obtain ⟨hnow, hrest⟩ := Bool.and_eq_true_iff.mp htime
  exact ⟨anyTick_step hinv hstep ho hturn hnow, hinv.step hstep,
    fun e he => hall e (List.mem_cons_of_mem _ he), _, inTurn_step hinv hstep ho hturn, hrest⟩

/-! ### Two runs -/

/-- Two runs see the same events.  Whom the ticks are charged to is part of what they see, unless
both runs begin with the right task and are served in time. -/
def SameEvents (m : Machine) (s t : State) (tr tr' : List (State × Op)) : Prop :=
  Run.emitted (wrrEvents m) tr = Run.emitted (wrrEvents m) tr' ∨
    ((InTurn false s ∧ servedInTime false tr = true) ∧
      (InTurn false t ∧ servedInTime false tr' = true) ∧
      (Run.emitted (wrrEvents m) tr).map WrrEvent.anyTick =
        (Run.emitted (wrrEvents m) tr').map WrrEvent.anyTick)

/-- What is the same after each event: the queue, the slices, which task of the class is next, and
which one a reschedule puts on the CPU. -/
structure Undisturbed (m : Machine) (s t : State) : Prop where
  queue : s.rq.wrr.queue = t.rq.wrr.queue
  timeSlice : ∀ p, (s.tasks p).wrr.timeSlice = (t.tasks p).wrr.timeSlice
  next : (pickNextTaskWrr s).map Prod.fst = (pickNextTaskWrr t).map Prod.fst
  runs : ∀ {b b' s' t'}, step m s (.schedule b) = some s' → step m t (.schedule b') = some t' →
    wrrEvents m s (.schedule b) = wrrEvents m t (.schedule b') →
    s'.current.schedClass = .wrr → t'.current.schedClass = .wrr → s'.rq.curr = t'.rq.curr

/-- The choice of `pick_next_task_wrr` is the head of the queue. -/
theorem pickNextTaskWrr_eq (h : Inv m s) :
    (pickNextTaskWrr s).map Prod.fst = .ok s.rq.wrr.queue.head? := by
  obtain ⟨A, hA, -⟩ := h.queued
  have hcount : s.rq.wrr.wrrNrRunning = s.rq.wrr.queue.length := hA.enq.count
  unfold pickNextTaskWrr
  cases hqueue : s.rq.wrr.queue with
  | nil => simp [hcount, hqueue, Except.map]
  | cons p l => simp [hcount, hqueue, Except.map]

/-- States in which the class keeps the same are undisturbed. -/
theorem undisturbed_of_agrees (hs : Inv m s) (ht : Inv m t)
    (h : s.view.wrrState.Agrees m t.view.wrrState) : Undisturbed m s t := by
  have hqueue : s.rq.wrr.queue = t.rq.wrr.queue := h.queue
  refine ⟨hqueue, fun p => congrFun h.slice p, ?_, ?_⟩
  · rw [pickNextTaskWrr_eq hs, pickNextTaskWrr_eq ht, hqueue]
  · intro b b' s' t' hstep hstep' hevents hcls hcls'
    have hagree : s'.view.wrrState.Agrees m t'.view.wrrState := by
      rw [wrrState_step hs hstep rfl, wrrState_step ht hstep' rfl, ← hevents]
      exact h.replay _
    have hqueue' : s'.rq.wrr.queue = t'.rq.wrr.queue := hagree.queue
    have hhead := head_of_schedule hs hstep hcls
    rw [hqueue', head_of_schedule ht hstep' hcls'] at hhead
    exact (Option.some.inj hhead).symm

/-- **Real-time tasks do not disturb the round robin.**  Two runs that begin with the same queue and
slices, of the same tasks in the same groups, agree wherever they have seen the same events. -/
theorem wrr_undisturbed {s₀ t₀ : State} {tr tr' : List (State × Op)} (hs : Reachable m s₀)
    (ht : Reachable m t₀) (hstart : s₀.view.wrrState.Agrees m t₀.view.wrrState)
    (hrun : Run (step m) s₀ tr s) (hrun' : Run (step m) t₀ tr' t)
    (hall : ∀ e ∈ tr, routine e.1 e.2 = true) (hall' : ∀ e ∈ tr', routine e.1 e.2 = true)
    (hevents : SameEvents m s₀ t₀ tr tr') : Undisturbed m s t := by
  have hinv := inv_of_reachable hs
  have hinv' := inv_of_reachable ht
  have hkeeps : ∀ {s t : State} {tr}, Run (step m) s tr t → Inv m s → Inv m t :=
    fun hrun hinv => (hrun.invariant (Inv m) (fun _ _ => True) (fun _ _ _ h _ => h.step) hinv
      fun _ _ => trivial).1
  refine undisturbed_of_agrees (hkeeps hrun hinv) (hkeeps hrun' hinv') ?_
  rcases hevents with hsame | ⟨⟨hturn, htime⟩, ⟨hturn', htime'⟩, hsame⟩
  · rw [wrrState_run hrun hinv hall, wrrState_run hrun' hinv' hall', hsame]
    exact hstart.replay _
  · rw [wrrState_run_anyTick hrun hinv hall hturn htime,
      wrrState_run_anyTick hrun' hinv' hall' hturn' htime', hsame]
    exact hstart.replay _

/-- Two WRR tasks, and a `SCHED_FIFO` one that ran first and sleeps. -/
def startFifoAsleep : List Op :=
  let seen := [(initTask (sampleMachine 2)).toAttr]
  startTwoWrr ++ [.schedFork 3 sampleForeign, .wakeUpNewTask 3,
    sampleSetscheduler 3 Policy.fifo.code 5 seen, .schedule true,
    .setCurrentState taskInterruptible, .schedule false]

/-- It wakes up, runs and sleeps. -/
def fifoRuns : List Op :=
  [.tryToWakeUp 3 taskInterruptible, .schedule true, .schedulerTick,
    .setCurrentState taskInterruptible, .schedule false]

/-- The first task uses up its slice and the second one is next, whether the real-time task ran in
between or not. -/
theorem wrr_undisturbed_fifo : ∃ s t : State, s.rq.nrSwitches ≠ t.rq.nrSwitches ∧
    s.rq.wrr.queue = [2, 1] ∧ Undisturbed (sampleMachine 2) s t := by
  have hexec : ((Run.exec (step (sampleMachine 2)) (boot (sampleMachine 2)) startFifoAsleep).any
      fun s₀ => decide (((Run.trace (step (sampleMachine 2)) s₀
          [.schedulerTick, .schedulerTick, .schedule false, .schedulerTick]).any fun r =>
        decide (((Run.trace (step (sampleMachine 2)) s₀
            ([.schedulerTick] ++ fifoRuns ++ [.schedulerTick] ++ fifoRuns ++
              [.schedulerTick])).any fun r' =>
          decide (((∀ e ∈ r.1, routine e.1 e.2 = true) ∧ (∀ e ∈ r'.1, routine e.1 e.2 = true) ∧
            Run.emitted (wrrEvents (sampleMachine 2)) r.1 =
              Run.emitted (wrrEvents (sampleMachine 2)) r'.1) ∧
            r.2.rq.nrSwitches ≠ r'.2.rq.nrSwitches ∧ r.2.rq.wrr.queue = [2, 1])) = true)) =
        true)) = true := by
    decide +kernel
  obtain ⟨s₀, hs, htrace⟩ := Run.exists_of_exec hexec
  obtain ⟨⟨tr, s⟩, hrun, htrace'⟩ := Run.exists_of_trace htrace
  obtain ⟨⟨tr', t⟩, hrun', ⟨hall, hall', hsame⟩, hswitches, hqueue⟩ := Run.exists_of_trace htrace'
  exact ⟨s, t, hswitches, hqueue, wrr_undisturbed hs hs ⟨rfl, rfl, rfl, Or.inr rfl⟩ hrun hrun' hall
    hall' (Or.inl hsame)⟩

end WrrScheduler
