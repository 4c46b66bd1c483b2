/-
`kernel/sched/wrr.c`, the weighted round robin.

The queue is one circular list, so an element is put at an end, taken out, or
moved to the tail; `wrr_nr_running` is counted beside it.  Nothing here checks
whether a task is on the queue: the callers in `core.c` do.
-/
import WrrScheduler.Kernel.State
import WrrScheduler.Lib.Sequence

namespace WrrScheduler

/-- `FOREGROUP`. -/
def foregroup : String := "/"

/-- `BACKGROUP`. -/
def backgroup : String := "/bg_non_interactive"

/-- `WRR_FORE_TIMESLICE`: 100 ms in ticks. -/
def wrrForeTimeslice (m : Machine) : BitVec 32 := BitVec.ofNat 32 (100 * m.HZ / 1000)

/-- `WRR_BACK_TIMESLICE`: 10 ms in ticks. -/
def wrrBackTimeslice (m : Machine) : BitVec 32 := BitVec.ofNat 32 (10 * m.HZ / 1000)

/-- Change the queue of the class. -/
def State.modWrr (s : State) (f : WrrRq → WrrRq) : State := s.modRq fun r => { r with wrr := f r.wrr }

/-- Change the WRR entity of a task. -/
def State.modWrrEntity (s : State) (p : Pid) (f : SchedWrrEntity → SchedWrrEntity) : State :=
  s.modTask p fun t => { t with wrr := f t.wrr }

/-- `init_wrr_rq`. -/
def initWrrRq : WrrRq where
  wrrNrRunning := 0
  queue := []

/-- `enqueue_wrr_entity`. -/
def enqueueWrrEntity (p : Pid) (head : Bool) (s : State) : State :=
  (s.modWrrEntity p fun w => { w with runList := .linked }).modWrr fun q =>
    { queue := if head then Sequence.add p q.queue else Sequence.addTail p q.queue
      wrrNrRunning := q.wrrNrRunning + 1 }

/-- `enqueue_task_wrr`. -/
def enqueueTaskWrr (flags : EnqueueFlags) (p : Pid) (s : State) : State :=
  let s := if flags.wakeup then s.modWrrEntity p fun w => { w with timeout := 0 } else s
  incNrRunning (enqueueWrrEntity p flags.head s)

/-- `update_curr_wrr`. -/
def updateCurrWrr (s : State) : State :=
  if s.current.schedClass ≠ .wrr then s
  else
    { chargeCurr s with
      wrrCharged :=
        Function.update s.wrrCharged s.rq.curr (s.wrrCharged s.rq.curr + (deltaExec s).toNat) }

/-- `dequeue_wrr_entity`. -/
def dequeueWrrEntity (p : Pid) (s : State) : State :=
  (s.modWrrEntity p fun w => { w with runList := .self }).modWrr fun q =>
    { queue := Sequence.del p q.queue
      wrrNrRunning := q.wrrNrRunning - 1 }

/-- `dequeue_task_wrr`. -/
def dequeueTaskWrr (p : Pid) (s : State) : State :=
  decNrRunning (dequeueWrrEntity p (updateCurrWrr s))

/-- `requeue_task_wrr`. -/
def requeueTaskWrr (p : Pid) (head : Bool) (s : State) : State :=
  (s.modWrrEntity p fun w => { w with runList := .linked }).modWrr fun q =>
    { q with queue := if head then Sequence.move p q.queue else Sequence.moveTail p q.queue }

/-- `yield_task_wrr`. -/
def yieldTaskWrr (s : State) : State := requeueTaskWrr s.rq.curr false s

/-- `pick_next_task_wrr`. -/
def pickNextTaskWrr (s : State) : Except Bug (Option Pid × State) :=
  if s.rq.wrr.wrrNrRunning = 0 then .ok (none, s)
  else match s.rq.wrr.queue.head? with
    | none => .error .wrrQueue
    | some p => .ok (some p, stampExecStart p s)

/-- `put_prev_task_wrr`. -/
def putPrevTaskWrr (p : Pid) (s : State) : State :=
  (updateCurrWrr s).modAcct p fun a => { a with se := { a.se with execStart := 0 } }

/-- `task_fork_wrr`. -/
def taskForkWrr (p : Pid) (s : State) : Except Bug State :=
  match (s.tasks p).wrr.parent with
  | none => .error .nullParent
  | some q => .ok (s.modWrrEntity p fun w => { w with timeSlice := (s.tasks q).wrr.timeSlice })

/-- `set_curr_task_wrr`. -/
def setCurrTaskWrr (s : State) : State := stampExecStart s.rq.curr s

/-- `watchdog` of `wrr.c`. -/
def watchdogWrr (m : Machine) (p : Pid) (s : State) : State :=
  if (s.tasks p).rlim.rttimeCur = rlimInfinity then s
  else
    let timeout := (s.tasks p).wrr.timeout + 1
    expireSched m p timeout (s.modWrrEntity p fun w => { w with timeout := timeout })

/-- Write a task's path into `group_path`, as `cgroup_path` does. -/
def readGroupPath (m : Machine) (p : Pid) (s : State) : State :=
  { s with groupPath := m.cgroupPath (m.cgroup (s.tasks p).schedTaskGroup) s.groupPath }

/-- The slice `task_tick_wrr` gives a task whose slice is used up. -/
def refill (m : Machine) (path : String) (w : SchedWrrEntity) : SchedWrrEntity :=
  if path = foregroup then { w with timeSlice := wrrForeTimeslice m }
  else if path = backgroup then { w with timeSlice := wrrBackTimeslice m }
  else w

/-- The part of `task_tick_wrr` that runs when a slice is used up. -/
def expireTaskWrr (m : Machine) (p : Pid) (s : State) : State :=
  let s := readGroupPath m p s
  let s := s.modWrrEntity p (refill m s.groupPath)
  if s.rq.wrr.queue.getLast? ≠ s.rq.wrr.queue.head? then
    reschedTask p (requeueTaskWrr p false s)
  else s

/-- `task_tick_wrr`. -/
def taskTickWrr (m : Machine) (p : Pid) (s : State) : State :=
  let s := watchdogWrr m p (updateCurrWrr s)
  if (s.tasks p).policy ≠ .wrr then s
  else
    let s := s.modWrrEntity p fun w => { w with timeSlice := w.timeSlice - 1 }
    if (s.tasks p).wrr.timeSlice ≠ 0 then s
    else expireTaskWrr m p s

/-- `get_rr_interval_wrr`. -/
def getRrIntervalWrr (m : Machine) (p : Pid) (s : State) : BitVec 32 × State :=
  let s := readGroupPath m p s
  if (s.tasks p).policy = .wrr && s.groupPath = foregroup then (wrrForeTimeslice m, s)
  else if (s.tasks p).policy = .wrr && s.groupPath = backgroup then (wrrBackTimeslice m, s)
  else (0, s)

/-- `switched_to_wrr`. -/
def switchedToWrr (p : Pid) (s : State) : State :=
  if (s.tasks p).onRq && s.rq.curr ≠ p then
    reschedTaskIf (s.current.policy ≠ .wrr) s.rq.curr s
  else s

end WrrScheduler
