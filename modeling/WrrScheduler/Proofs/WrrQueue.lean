/-
The WRR queue over whole runs.

Two things are true of it in every state a run reaches.  It holds exactly the
runnable tasks of the class, once each, and the counter and the links agree with
it.  And an operation on one task leaves the others where they are: without the
tasks an operation is applied to, the queue is the same sequence before and after.

The second needs no invariant.  Whatever the state, the operations of `wrr.c` move
one element, so `Spares` is proved of views, function by function.
-/
import WrrScheduler.Proofs.Invariant

namespace WrrScheduler

/-- Outside the tasks of `T`, the queue keeps its order and the tasks stay as they were. -/
structure View.Spares (T : Set Pid) (v v' : View) : Prop where
  order : ∀ keep : Pid → Bool, (∀ q ∈ T, keep q = false) →
    v'.wrr.queue.filter keep = v.wrr.queue.filter keep
  tasks : ∀ q, q ∉ T → v'.tasks q = v.tasks q

namespace View.Spares

variable {v v' v'' : View} {p : Pid} {T : Set Pid} {flags : EnqueueFlags}

theorem refl (T : Set Pid) (v : View) : v.Spares T v := ⟨fun _ _ => rfl, fun _ _ => rfl⟩

theorem trans (h : v.Spares T v') (h' : v'.Spares T v'') : v.Spares T v'' :=
  ⟨fun keep hk => (h'.order keep hk).trans (h.order keep hk),
    fun q hq => (h'.tasks q hq).trans (h.tasks q hq)⟩

/-- A change of one task. -/
theorem modTask (hp : p ∈ T) (f : Task → Task) : v.Spares T (v.modTask p f) := by
  refine ⟨fun _ _ => rfl, ?_⟩
  intro q hq
  have hqp : q ≠ p := by
    rintro rfl
    exact hq hp
  exact Function.update_of_ne hqp _ _

theorem modAttr (hp : p ∈ T) (f : Attr → Attr) : v.Spares T (v.modAttr p f) := modTask hp _

theorem modEntity (hp : p ∈ T) (f : SchedWrrEntity → SchedWrrEntity) :
    v.Spares T (v.modEntity p f) := modTask hp _

/-- A change of one task and of its place in the queue. -/
private theorem moved (hp : p ∈ T) (htasks : ∀ q, q ≠ p → v'.tasks q = v.tasks q)
    (hqueue : ∀ keep : Pid → Bool, keep p = false →
      v'.wrr.queue.filter keep = v.wrr.queue.filter keep) : v.Spares T v' := by
  refine ⟨fun keep hk => hqueue keep (hk p hp), ?_⟩
  intro q hq
  refine htasks q ?_
  rintro rfl
  exact hq hp

theorem enqueue (hp : p ∈ T) (flags : EnqueueFlags) : v.Spares T (v.enqueue flags p) := by
  unfold View.enqueue
  split
  · refine moved hp (fun q hq => Function.update_of_ne hq _ _) ?_
    intro keep hk
    show (if flags.head then Sequence.add p v.wrr.queue
      else Sequence.addTail p v.wrr.queue).filter keep = v.wrr.queue.filter keep
    split
    · exact Sequence.filter_add hk
    · exact Sequence.filter_addTail hk
  · exact ⟨fun _ _ => rfl, fun _ _ => rfl⟩
  · exact refl T v
  · exact ⟨fun _ _ => rfl, fun _ _ => rfl⟩

theorem dequeue (hp : p ∈ T) : v.Spares T (v.dequeue p) := by
  unfold View.dequeue
  split
  · refine moved hp (fun q hq => Function.update_of_ne hq _ _) ?_
    exact fun _ hk => Sequence.filter_del hk
  · exact ⟨fun _ _ => rfl, fun _ _ => rfl⟩
  · exact refl T v
  · exact ⟨fun _ _ => rfl, fun _ _ => rfl⟩

theorem requeueWrr (hp : p ∈ T) : v.Spares T (v.requeueWrr p) :=
  moved hp (fun _ hq => Function.update_of_ne hq _ _) fun _ hk => Sequence.filter_moveTail hk

theorem detached (hp : p ∈ T) (flags : EnqueueFlags) (f : Attr → Attr) :
    v.Spares T (v.detached flags p f) := by
  unfold View.detached
  split
  · exact (dequeue hp).trans ((modTask hp _).trans (enqueue hp flags))
  · exact modTask hp _

theorem wake (hp : p ∈ T) : v.Spares T (v.wake p) := by
  have hqueued : v.Spares T (if (v.tasks p).onRq then v
      else (v.enqueue { wakeup := true } p).modAttr p fun t => { t with onRq := true }) := by
    split
    · exact refl T v
    · exact (enqueue hp _).trans (modAttr hp _)
  exact hqueued.trans (modAttr hp _)

theorem wakeWorker {worker : Option Pid} (hworker : ∀ p ∈ worker, p ∈ T) :
    v.Spares T (v.wakeWorker worker) := by
  cases worker with
  | none => exact refl T v
  | some p =>
      rw [View.wakeWorker]
      split
      · exact refl T v
      · split
        · exact refl T v
        · exact wake (hworker p rfl)

theorem putToSleep (preemptActive : Bool) {worker : Option Pid} (hcurr : v.curr ∈ T)
    (hworker : ∀ p ∈ worker, p ∈ T) : v.Spares T (v.putToSleep preemptActive worker) := by
  unfold View.putToSleep
  simp only []
  split
  · split
    · exact modAttr hcurr _
    · exact ((dequeue hcurr).trans (modAttr hcurr _)).trans (wakeWorker hworker)
  · exact refl T v

theorem tickWrr (m : Machine) (hp : p ∈ T) : v.Spares T (v.tickWrr m p) := by
  have hwatch : v.Spares T (v.watchWrr p) := by
    unfold View.watchWrr
    split
    · exact refl T v
    · exact modTask hp _
  have hexpire : ∀ v : View, v.Spares T (v.expireWrr m p) := by
    intro v
    have hpath : ∀ path, v.Spares T { v with groupPath := path } :=
      fun _ => ⟨fun _ _ => rfl, fun _ _ => rfl⟩
    unfold View.expireWrr
    simp only []
    split
    · exact ((hpath _).trans (modEntity hp _)).trans (requeueWrr hp)
    · exact (hpath _).trans (modEntity hp _)
  unfold View.tickWrr
  simp only []
  split
  · exact hwatch
  · split
    · exact hwatch.trans (modEntity hp _)
    · exact (hwatch.trans (modEntity hp _)).trans (hexpire _)

theorem setUserNice (hp : p ∈ T) (nice : Int) : v.Spares T (v.setUserNice p nice) := by
  unfold View.setUserNice
  split
  · exact refl T v
  · split
    · exact modTask hp _
    · exact detached hp _ _

theorem setschedulerStep (hp : p ∈ T) {policy : BitVec 32} {prio : Int}
    (h : v.SetschedulerStep p policy prio v') : v.Spares T v' := by
  rcases h with rfl | ⟨c, -, rfl⟩
  · exact refl T _
  · exact detached hp _ _

theorem setStop {stop : Option Pid} (hold : ∀ p ∈ v.stop, p ∈ T) : v.Spares T (v.setStop stop) := by
  have hv : v.Spares T { v with stop := stop } := ⟨fun _ _ => rfl, fun _ _ => rfl⟩
  unfold View.setStop
  simp only []
  split
  · exact hv
  · rename_i old hstop
    exact hv.trans (modTask (hold old hstop) _)

end View.Spares

/-! ### The loop of `normalize_rt_tasks`

The tasks that the loop changes are told from the attributes they have at its
beginning.  That is right because a turn changes no task but its own, so each is found
as it was then.
-/

/-- The tasks `normalize_rt_tasks` changes: with an address space, and a real-time priority or a
negative nice value. -/
def View.normalized (v : View) : Set Pid :=
  {p | (v.tasks p).mm = true ∧
    (rtPrio (v.tasks p).prio = true ∨ prioToNice (v.tasks p).staticPrio < 0)}

theorem View.Spares.normalizeOne {v : View} {p : Pid} {T : Set Pid} (hp : p ∈ v.normalized → p ∈ T) :
    v.Spares T (v.normalizeOne p) := by
  unfold View.normalizeOne
  split
  · exact refl T v
  · rename_i hmm
    have hmm' : (v.tasks p).mm = true := by simpa using hmm
    split
    · split
      · rename_i hnice
        exact setUserNice (hp ⟨hmm', Or.inr hnice⟩) 0
      · exact refl T v
    · rename_i hrt
      have hrt' : rtPrio (v.tasks p).prio = true := by simpa using hrt
      exact detached (hp ⟨hmm', Or.inl hrt'⟩) _ _

/-- A turn of the loop leaves alone every task that is not its own, so the tasks the whole loop
changes are those that were to be changed when it began. -/
theorem View.Spares.foldl_normalizeOne {v : View} {T : Set Pid} (l : List Pid)
    (hT : ∀ p ∈ l, p ∈ v.normalized → p ∈ T) : v.Spares T (l.foldl View.normalizeOne v) := by
  induction l generalizing v with
  | nil => exact refl T v
  | cons p l ih =>
      have hone : v.Spares T (v.normalizeOne p) := normalizeOne (hT p List.mem_cons_self)
      refine hone.trans (ih ?_)
      intro q hq hnorm
      by_cases hqT : q ∈ T
      · exact hqT
      · refine hT q (List.mem_cons_of_mem _ hq) ?_
        rw [View.normalized, Set.mem_ofPred_eq, hone.tasks q hqT] at hnorm
        exact hnorm

/-! ### Steps -/

/-- The tasks an operation is applied to. -/
def targets (m : Machine) (s : State) : Op → Set Pid
  | .tryToWakeUp p _ | .wakeUpNewTask p | .schedSetscheduler p _ _ _ _ _ | .rtMutexSetprio p _
  | .setUserNice p _ | .schedMoveTask p _ | .releaseTask p | .foreign p _ => {p}
  | .schedFork child _ => {child}
  | .schedule _ => {p | p = s.rq.curr ∨ some p = wokenWorker m s}
  | .schedYield | .schedulerTick | .initIdleBootupTask | .setCurrentState _ => {s.rq.curr}
  | .normalizeRtTasks => {p | p ∈ s.tasklist ∧ p ∈ s.view.normalized}
  | .schedSetStopTask stop _ _ => {p | some p = stop ∨ some p = s.rq.stop}
  | .schedRrGetInterval _ | .doSchedRtPeriodTimer _ _ => ∅

variable {m : Machine} {s t : State}

/-- **An operation spares the tasks it is not applied to.** -/
theorem spares_step {o : Op} (h : Inv m s) (hstep : step m s o = some t) :
    s.view.Spares (targets m s o) t.view := by
  have hview := h.view_step hstep
  cases o with
  | tryToWakeUp p state =>
      rw [hview]
      split
      · exact .refl _ _
      · exact .wake (Set.mem_singleton p)
  | wakeUpNewTask p =>
      rw [hview]
      exact (View.Spares.enqueue (Set.mem_singleton p) _).trans (.modAttr (Set.mem_singleton p) _)
  | schedFork child f =>
      rw [hview]
      have hchild : s.view.Spares {child}
          (s.view.modTask child fun _ => forkTask f (s.view.tasks s.view.curr)) :=
        .modTask (Set.mem_singleton child) _
      exact ⟨hchild.order, hchild.tasks⟩
  | schedule preemptActive =>
      obtain ⟨next, s', hpick, rfl⟩ := schedule_of_step hstep
      rw [view_switchTo, view_pickNextTask hpick, view_corePutPrevTask, view_putToSleep]
      have hsleep : s.view.Spares (targets m s (.schedule preemptActive))
          (s.view.putToSleep preemptActive (wokenWorker m s)) := by
        refine .putToSleep preemptActive (Or.inl rfl) ?_
        intro p hp
        exact Or.inr hp.symm
      exact ⟨hsleep.order, hsleep.tasks⟩
  | schedYield =>
      rw [hview]
      split
      · exact .requeueWrr (Set.mem_singleton s.rq.curr)
      · exact .refl _ _
  | schedulerTick =>
      rw [hview]
      split
      · exact .tickWrr m (Set.mem_singleton s.rq.curr)
      · exact .refl _ _
  | schedSetscheduler p policy prio user who seen => 
      exact .setschedulerStep (Set.mem_singleton p) hview
  | rtMutexSetprio p prio =>
      rw [hview]
      split
      · exact .refl _ _
      · exact .detached (Set.mem_singleton p) _ _
  | setUserNice p nice =>
      rw [hview]
      exact .setUserNice (Set.mem_singleton p) nice
  | schedMoveTask p tg =>
      rw [hview]
      exact .detached (Set.mem_singleton p) _ _
  | normalizeRtTasks =>
      rw [hview]
      exact .foldl_normalizeOne _ fun p hp hnorm => ⟨hp, hnorm⟩
  | schedRrGetInterval p =>
      rw [hview]
      split
      · exact ⟨fun _ _ => rfl, fun _ _ => rfl⟩
      · exact .refl _ _
  | doSchedRtPeriodTimer g overrun =>
      rw [hview]
      exact .refl _ _
  | schedSetStopTask stop who seen =>
      cases stop with
      | none =>
          rw [hview]
          refine .setStop ?_
          intro p hp
          exact Or.inr hp.symm
      | some p =>
          obtain ⟨w, hw, hview⟩ := hview
          have hp : p ∈ targets m s (.schedSetStopTask (some p) who seen) := Or.inl rfl
          have hset := View.Spares.setschedulerStep hp hw
          have hstop : w.stop = s.rq.stop := by
            rcases hw with rfl | ⟨c, -, rfl⟩
            · rfl
            · exact (View.frame_detached _).stop
          rw [hview]
          refine hset.trans ((View.Spares.modAttr hp _).trans (.setStop ?_))
          intro q hq
          refine Or.inr (Eq.symm ?_)
          rw [← hstop]
          exact hq
  | initIdleBootupTask =>
      rw [hview]
      exact .modAttr (Set.mem_singleton s.rq.curr) _
  | setCurrentState state =>
      rw [hview]
      exact .modAttr (Set.mem_singleton s.rq.curr) _
  | releaseTask p =>
      rw [hview]
      exact ⟨fun _ _ => rfl, fun _ _ => rfl⟩
  | foreign p f =>
      rw [hview]
      exact .modAttr (Set.mem_singleton p) _

/-! ### Runs -/

/-- The queue holds the runnable tasks of the class, once each, and is counted and linked so. -/
structure WrrQueueOk (s : State) : Prop where
  mem : ∀ p, p ∈ s.rq.wrr.queue ↔ (s.tasks p).onRq = true ∧ (s.tasks p).schedClass = .wrr
  nodup : s.rq.wrr.queue.Nodup
  count : s.rq.wrr.wrrNrRunning = s.rq.wrr.queue.length
  unlinked : ∀ p, p ∉ s.rq.wrr.queue → (s.tasks p).wrr.runList = .self

theorem OnQueue.wrrQueueOk (h : OnQueue m s) : WrrQueueOk s := by
  obtain ⟨A, hA, hiff⟩ := id h
  refine ⟨fun p => h.mem_queue, hA.enq.nodup, hA.enq.count, ?_⟩
  intro p hp
  cases hlink : (s.tasks p).wrr.runList with
  | self => rfl
  | linked => exact absurd ((hA.enq.linked p).mp hlink) hp

/-- **The WRR queue over whole runs**: in every state a run reaches it is right, and no operation
from there reorders the tasks it is not applied to, or touches their slices and timeouts.  The
turns of `normalize_rt_tasks` do so each for its own task. -/
theorem wrrQueue_of_reachable (h : Reachable m s) :
    WrrQueueOk s ∧
      (∀ o t, step m s o = some t →
        (∀ keep : Pid → Bool, (∀ q ∈ targets m s o, keep q = false) →
          t.rq.wrr.queue.filter keep = s.rq.wrr.queue.filter keep) ∧
        ∀ q, q ∉ targets m s o →
          (t.tasks q).wrr.timeSlice = (s.tasks q).wrr.timeSlice ∧
          (t.tasks q).wrr.timeout = (s.tasks q).wrr.timeout) ∧
      ∀ (s' : State) (p : Pid), s'.view.Spares {p} (normalizeOne m s' p).view := by
  have hinv := inv_of_reachable h
  refine ⟨hinv.queued.wrrQueueOk, ?_, ?_⟩
  · intro o t hstep
    have hspares := spares_step hinv hstep
    refine ⟨hspares.order, ?_⟩
    intro q hq
    have htask : t.tasks q = s.tasks q := hspares.tasks q hq
    rw [htask]
    exact ⟨rfl, rfl⟩
  · intro s' p
    rw [view_normalizeOne]
    exact .normalizeOne fun _ => Set.mem_singleton p

/-- Two tasks of the class, queued in the order they came. -/
theorem wrrQueue_startTwoWrr : ∃ s, s.rq.wrr.queue = [1, 2] ∧ WrrQueueOk s := by
  have hexec : ((Run.exec (step (sampleMachine 10)) (boot (sampleMachine 10)) startTwoWrr).any
      fun s => decide (s.rq.wrr.queue = [1, 2])) = true := by decide +kernel
  obtain ⟨s, hs, hqueue⟩ := Run.exists_of_exec hexec
  exact ⟨s, hqueue, (wrrQueue_of_reachable hs).1⟩

end WrrScheduler
