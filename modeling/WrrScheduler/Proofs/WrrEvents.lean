/-
What the WRR class sees.

Of all that happens to the scheduler little concerns the WRR class: a tick is
charged to one of its tasks, one goes to sleep or wakes up, one yields.  `WrrState`
is what the class keeps, and `WrrState.act` what each event does to it.  Tasks of
other classes run, sleep, wake up and preempt without an event, so the class keeps
what it has: a routine operation is the replay of its events.
-/
import WrrScheduler.Proofs.SliceBound

namespace WrrScheduler

/-- What the class keeps: the queue, the slices, the path it read last, and the groups of its tasks,
which it refills by. -/
structure WrrState where
  queue : List Pid
  slice : Pid → BitVec 32
  path : String
  group : Pid → Option Gid

/-- What happens to the class.  A tick is charged to the task it names, or, if it names none, to the
first of the queue. -/
inductive WrrEvent
  | tick (p : Option Pid)
  | sleep (p : Pid)
  | wake (p : Pid)
  | yield (p : Pid)
  deriving DecidableEq

/-- A tick, whoever it is charged to. -/
def WrrEvent.anyTick : WrrEvent → WrrEvent
  | .tick _ => .tick none
  | e => e

namespace WrrState

/-- A tick charged to a task of a group. -/
def spend (m : Machine) (p : Pid) (g : Gid) (w : WrrState) : WrrState :=
  if w.slice p = 1 then
    let path := m.cgroupPath (m.cgroup g) w.path
    { w with
      queue := if w.queue.getLast? ≠ w.queue.head? then Sequence.moveTail p w.queue else w.queue
      slice := Function.update w.slice p (quantum m path)
      path := path }
  else { w with slice := Function.update w.slice p (w.slice p - 1) }

/-- A tick charged to a task of the class. -/
def tick (m : Machine) (p : Pid) (w : WrrState) : WrrState :=
  (w.group p).elim w fun g => w.spend m p g

/-- What an event does. -/
def act (m : Machine) (w : WrrState) : WrrEvent → WrrState
  | .tick (some p) => w.tick m p
  | .tick none => w.queue.head?.elim w fun p => w.tick m p
  | .sleep p => { w with queue := Sequence.del p w.queue }
  | .wake p => { w with queue := Sequence.addTail p w.queue }
  | .yield p => { w with queue := Sequence.moveTail p w.queue }

end WrrState

/-- The group of a WRR task. -/
def wrrGroup (a : Attr) : Option Gid := if a.schedClass = .wrr then some a.schedTaskGroup else none

/-- What the class keeps, in a view. -/
def View.wrrState (v : View) : WrrState where
  queue := v.wrr.queue
  slice := v.slice
  path := v.groupPath
  group p := wrrGroup (v.attr p)

namespace View

/-- The event of putting a task on its queue. -/
def enqueues (p : Pid) (v : View) : List WrrEvent := if v.cls p = .wrr then [.wake p] else []

/-- The event of waking a task. -/
def wakes (p : Pid) (v : View) : List WrrEvent := if (v.tasks p).onRq then [] else v.enqueues p

/-- The event of waking a worker. -/
def wakesWorker : Option Pid → View → List WrrEvent
  | none, _ => []
  | some p, v =>
    if p = v.curr then [] else if (v.tasks p).state &&& taskNormal = 0 then [] else v.wakes p

/-- The events of what `__schedule` does first. -/
def sleeps (preemptActive : Bool) (worker : Option Pid) (v : View) : List WrrEvent :=
  let t := v.tasks v.curr
  if t.state ≠ taskRunning && !preemptActive then
    if signalPendingState t.state t.toAttr then []
    else (if v.cls v.curr = .wrr then [.sleep v.curr] else []) ++ v.wakesWorker worker
  else []

/-- The events of an operation, when the worker that is woken is the argument. -/
def events (worker : Option Pid) (v : View) : Op → List WrrEvent
  | .tryToWakeUp p state => if (v.tasks p).state &&& state = 0 then [] else v.wakes p
  | .wakeUpNewTask p => v.enqueues p
  | .schedule preemptActive => v.sleeps preemptActive worker
  | .schedYield => if v.cls v.curr = .wrr then [.yield v.curr] else []
  | .schedulerTick => if v.cls v.curr = .wrr then [.tick (some v.curr)] else []
  | _ => []

end View

/-- The events of an operation. -/
def wrrEvents (m : Machine) (s : State) (o : Op) : List WrrEvent :=
  s.view.events (wokenWorker m s) o

/-- The operations by which tasks run, sleep and wake up.  None of them boosts a task, or changes
its policy or group. -/
def routine (s : State) : Op → Bool
  | .tryToWakeUp _ _ | .wakeUpNewTask _ | .schedule _ | .schedYield | .schedulerTick
  | .doSchedRtPeriodTimer _ _ | .setCurrentState _ | .releaseTask _ | .foreign _ _ => true
  | .schedRrGetInterval p => (s.tasks p).schedClass ≠ .wrr
  | _ => false

variable {m : Machine} {v : View} {s t : State} {p q : Pid}

/-! ### The operations on views

Each operation of a view emits the events of what it does to WRR tasks and none for
the others. An operation made of two emits the events of the first and then those of
the second, in the state between them.
-/

namespace View

theorem wrrState_modAttr {f : Attr → Attr}
    (hf : ∀ a, wrrGroup (f a) = wrrGroup a) : (v.modAttr p f).wrrState = v.wrrState := by
  have hslice : (v.modAttr p f).slice = v.slice := funext fun _ => slice_modAttr f
  have hgroup : ∀ q, wrrGroup ((v.modAttr p f).attr q) = wrrGroup (v.attr q) :=
    fun _ => read_modAttr hf
  simp only [wrrState, hslice, hgroup]
  rfl

theorem wrrState_enqueue {flags : EnqueueFlags} (hhead : flags.head = false) :
    (v.enqueue flags p).wrrState = (v.enqueues p).foldl (WrrState.act m) v.wrrState := by
  have hslice : (v.enqueue flags p).slice = v.slice := funext fun _ => slice_enqueue
  have hgroup : ∀ q, wrrGroup ((v.enqueue flags p).attr q) = wrrGroup (v.attr q) :=
    fun _ => congrArg wrrGroup attr_enqueue
  simp only [wrrState, hslice, hgroup, enqueues]
  unfold enqueue
  cases v.cls p <;> simp [WrrState.act, enqueueWrr, hhead, modEntity, modTask]

theorem wrrState_dequeue :
    (v.dequeue p).wrrState =
      (if v.cls p = .wrr then [.sleep p] else []).foldl (WrrState.act m) v.wrrState := by
  have hslice : (v.dequeue p).slice = v.slice := funext fun _ => slice_dequeue
  have hgroup : ∀ q, wrrGroup ((v.dequeue p).attr q) = wrrGroup (v.attr q) :=
    fun _ => congrArg wrrGroup attr_dequeue
  simp only [wrrState, hslice, hgroup]
  unfold dequeue
  cases v.cls p <;> simp [WrrState.act, dequeueWrr, modEntity, modTask]

theorem wrrState_wake : (v.wake p).wrrState = (v.wakes p).foldl (WrrState.act m) v.wrrState := by
  unfold wake wakes
  refine (wrrState_modAttr ?_).trans ?_
  · exact fun _ => rfl
  · split
    · rfl
    · refine (wrrState_modAttr ?_).trans (wrrState_enqueue rfl)
      exact fun _ => rfl

theorem wrrState_wakeWorker (worker : Option Pid) :
    (v.wakeWorker worker).wrrState =
      (v.wakesWorker worker).foldl (WrrState.act m) v.wrrState := by
  cases worker with
  | none => rfl
  | some p =>
      rw [wakeWorker, wakesWorker]
      split
      · rfl
      · split
        · rfl
        · exact wrrState_wake

/-- Taking the running task off the queue wakes nobody else. -/
theorem wakesWorker_off (worker : Option Pid) :
    ((v.dequeue v.curr).modAttr v.curr fun t => { t with onRq := false }).wakesWorker worker =
      v.wakesWorker worker := by
  have hattr : ∀ q, q ≠ v.curr →
      ((v.dequeue v.curr).modAttr v.curr fun t => { t with onRq := false }).attr q = v.attr q := by
    intro q hq
    rw [attr_modAttr, if_neg hq, attr_dequeue]
  have hcurr : ((v.dequeue v.curr).modAttr v.curr fun t => { t with onRq := false }).curr = v.curr :=
    frame_dequeue.curr
  generalize (v.dequeue v.curr).modAttr v.curr (fun t => { t with onRq := false }) = w at hattr hcurr
  cases worker with
  | none => rfl
  | some p =>
      rw [wakesWorker, wakesWorker, hcurr]
      by_cases hp : p = v.curr
      · rw [if_pos hp, if_pos hp]
      · have hsame := hattr p hp
        have hstate : (w.tasks p).state = (v.tasks p).state := congrArg Attr.state hsame
        have hon : (w.tasks p).onRq = (v.tasks p).onRq := congrArg Attr.onRq hsame
        have hcls : w.cls p = v.cls p := congrArg Attr.schedClass hsame
        rw [if_neg hp, if_neg hp, wakes, wakes, enqueues, enqueues, hstate, hon, hcls]

theorem wrrState_putToSleep (preemptActive : Bool) (worker : Option Pid) :
    (v.putToSleep preemptActive worker).wrrState =
      (v.sleeps preemptActive worker).foldl (WrrState.act m) v.wrrState := by
  unfold putToSleep sleeps
  simp only []
  split
  · split
    · exact wrrState_modAttr fun _ => rfl
    · rw [List.foldl_append, ← wrrState_dequeue, goToSleep, wrrState_wakeWorker (m := m),
        wakesWorker_off]
      congr 1
      exact wrrState_modAttr fun _ => rfl
  · rfl

/-- A tick charged to a WRR task. -/
theorem wrrState_tickWrr (hcls : v.cls p = .wrr) (hpolicy : (v.tasks p).policy = .wrr) :
    (v.tickWrr m p).wrrState = v.wrrState.tick m p := by
  have hother : ∀ q, q ≠ p → (v.tickWrr m p).slice q = v.slice q := by
    intro q hq
    have hspares : v.Spares {p} (v.tickWrr m p) := .tickWrr m (Set.mem_singleton _)
    rw [slice, hspares.tasks q hq]
    rfl
  have hgroup : ∀ q, wrrGroup ((v.tickWrr m p).attr q) = wrrGroup (v.attr q) :=
    fun _ => congrArg wrrGroup (attr_tickWrr m)
  have hown : wrrGroup (v.attr p) = some (v.tasks p).schedTaskGroup := if_pos hcls
  have hslice : (v.tickWrr m p).slice = Function.update v.slice p ((v.tickWrr m p).slice p) := by
    funext q
    by_cases hq : q = p
    · rw [hq, Function.update_self]
    · rw [Function.update_of_ne hq, hother q hq]
  simp only [wrrState, hgroup, WrrState.tick, hown, Option.elim_some, WrrState.spend]
  rw [hslice, slice_tickWrr hpolicy, queue_tickWrr hpolicy, path_tickWrr hpolicy]
  by_cases hone : v.slice p = 1
  · simp only [hone, if_true, true_and]
    rfl
  · simp only [hone, if_false, false_and]

end View

/-! ### Steps -/

/-- **A routine operation is the replay of its events.** -/
theorem wrrState_step {o : Op} (hinv : Inv m s) (hstep : step m s o = some t)
    (ho : routine s o = true) :
    t.view.wrrState = (wrrEvents m s o).foldl (WrrState.act m) s.view.wrrState := by
  have hview := hinv.view_step hstep
  cases o with
  | tryToWakeUp p state =>
      rw [hview]
      simp only [wrrEvents, View.events]
      split
      · rfl
      · exact View.wrrState_wake
  | wakeUpNewTask p =>
      rw [hview]
      refine (View.wrrState_modAttr ?_).trans (View.wrrState_enqueue rfl)
      exact fun _ => rfl
  | schedule preemptActive =>
      rw [view_schedule hstep]
      exact View.wrrState_putToSleep preemptActive _
  | schedYield =>
      rw [hview]
      simp only [wrrEvents, View.events]
      split
      · have hslice : (s.view.requeueWrr s.view.curr).slice = s.view.slice :=
          funext fun _ => View.slice_requeueWrr
        have hgroup : ∀ q, wrrGroup ((s.view.requeueWrr s.view.curr).attr q) =
            wrrGroup (s.view.attr q) := fun _ => congrArg wrrGroup View.attr_requeueWrr
        simp only [View.wrrState, hslice, hgroup]
        rfl
      · rfl
  | schedulerTick =>
      rw [hview]
      simp only [wrrEvents, View.events]
      split
      · rename_i hcls
        exact View.wrrState_tickWrr hcls ((hinv.legal.task s.rq.curr).ok.wrr hcls)
      · rfl
  | schedRrGetInterval p =>
      have hcls : ¬ s.view.cls p = .wrr := of_decide_eq_true ho
      rw [hview, if_neg hcls]
      rfl
  | doSchedRtPeriodTimer g overrun =>
      rw [hview]
      rfl
  | setCurrentState | foreign =>
      rw [hview]
      refine View.wrrState_modAttr ?_
      exact fun _ => rfl
  | releaseTask p =>
      rw [hview]
      rfl
  | schedFork | schedSetscheduler | rtMutexSetprio | setUserNice | schedMoveTask
  | normalizeRtTasks | schedSetStopTask | initIdleBootupTask => cases ho

end WrrScheduler
