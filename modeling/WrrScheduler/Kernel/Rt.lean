/-
The real-time run queues of `kernel/sched/rt.c`, with task groups.

Every group has a priority array of its own and, unless it is the root, an entity
by which it is queued on its parent.  The functions here change those arrays and
nothing else; what they read of the tasks comes in as an `RtView`.  Asking for a
reschedule of the running task is returned as a flag, because that is the one
thing they do to it.
-/
import WrrScheduler.Kernel.Types
import WrrScheduler.Lib.Sequence

namespace WrrScheduler

/-- `RUNTIME_INF`. -/
def runtimeInf : BitVec 64 := BitVec.allOnes 64

/-- What `rt.c` reads of the tasks and groups. -/
structure RtView where
  prio : Pid → Int
  normalPrio : Pid → Int
  group : Pid → Gid
  curr : Pid
  tg : GroupTree
  rtBandwidth : Gid → RtBandwidth

/-- `init_rt_rq` and `init_tg_rt_entry`. -/
def initRtRq (rtRuntime : BitVec 64) : RtRq where
  bitmap i := i = maxRtPrio
  queue _ := []
  rtNrRunning := 0
  highestPrio := maxRtPrio
  rtThrottled := false
  rtTime := 0
  rtRuntime := rtRuntime
  rtNrBoosted := 0

namespace Rt

/-- Change the run queue of one group. -/
def modify (r : Rt) (g : Gid) (f : RtRq → RtRq) : Rt :=
  { r with rtRq := Function.update r.rtRq g (f (r.rtRq g)) }

/-- `rt_rq_of_se`: the run queue an entity is, or is to be, queued on. -/
def rtRqOfSe (v : RtView) : RtEntity → Gid
  | .task p => v.group p
  | .group g => (v.tg.parent g).getD v.tg.root

/-- The entities of a group and its ancestors, bottom up; the root has none. -/
def groupEntities (tg : GroupTree) : Nat → Gid → List RtEntity
  | 0, _ => []
  | n + 1, g =>
    match tg.parent g with
    | none => []
    | some h => .group g :: groupEntities tg n h

/-- `for_each_sched_rt_entity`: an entity and those above it. -/
def schedRtEntities (v : RtView) : RtEntity → List RtEntity
  | .task p => .task p :: groupEntities v.tg (v.tg.depth (v.group p)) (v.group p)
  | .group g => groupEntities v.tg (v.tg.depth g) g

/-- `on_rt_rq`. -/
def onRtRq (r : Rt) (e : RtEntity) : Bool := r.runList e = .linked

/-- `rt_rq_throttled`. -/
def rtRqThrottled (q : RtRq) : Bool := q.rtThrottled && q.rtNrBoosted == 0

/-- `rt_se_prio`. -/
def rtSePrio (v : RtView) (r : Rt) : RtEntity → Int
  | .task p => v.prio p
  | .group g => (r.rtRq g).highestPrio

/-- `rt_se_boosted`. -/
def rtSeBoosted (v : RtView) (r : Rt) : RtEntity → Bool
  | .task p => v.prio p ≠ v.normalPrio p
  | .group g => (r.rtRq g).rtNrBoosted ≠ 0

/-- `sched_find_first_bit`, with the delimiter at `MAX_RT_PRIO`. -/
def schedFindFirstBit (bitmap : Int → Bool) : Int :=
  Int.ofNat (((List.range 100).find? fun i => bitmap (Int.ofNat i)).getD 100)

/-- `inc_rt_prio`. -/
def incRtPrio (prio : Int) (q : RtRq) : RtRq :=
  if prio < q.highestPrio then { q with highestPrio := prio } else q

/-- `dec_rt_prio`. -/
def decRtPrio (prio : Int) (q : RtRq) : RtRq :=
  if q.rtNrRunning ≠ 0 then
    if prio = q.highestPrio then { q with highestPrio := schedFindFirstBit q.bitmap } else q
  else { q with highestPrio := maxRtPrio }

/-- `inc_rt_group`. -/
def incRtGroup (boosted : Bool) (q : RtRq) : RtRq :=
  if boosted then { q with rtNrBoosted := q.rtNrBoosted + 1 } else q

/-- `dec_rt_group`. -/
def decRtGroup (boosted : Bool) (q : RtRq) : RtRq :=
  if boosted then { q with rtNrBoosted := q.rtNrBoosted - 1 } else q

/-- `inc_rt_tasks`. -/
def incRtTasks (prio : Int) (boosted : Bool) (q : RtRq) : RtRq :=
  incRtGroup boosted (incRtPrio prio { q with rtNrRunning := q.rtNrRunning + 1 })

/-- `dec_rt_tasks`. -/
def decRtTasks (prio : Int) (boosted : Bool) (q : RtRq) : RtRq :=
  decRtGroup boosted (decRtPrio prio { q with rtNrRunning := q.rtNrRunning - 1 })

/-- `list_add` or `list_add_tail`. -/
def put (head : Bool) (e : RtEntity) (l : List RtEntity) : List RtEntity :=
  if head then Sequence.add e l else Sequence.addTail e l

/-- Put an entity on one queue of a run queue. -/
def push (prio : Int) (head : Bool) (e : RtEntity) (q : RtRq) : RtRq :=
  { q with queue := Function.update q.queue prio (put head e (q.queue prio)) }

/-- Link an entity to one queue of a group. -/
def link (r : Rt) (g : Gid) (prio : Int) (e : RtEntity) (head : Bool) : Rt :=
  { r.modify g (push prio head e) with runList := Function.update r.runList e .linked }

/-- `list_del_init` of an entity, from whatever queue it is on. -/
def unlink (r : Rt) (e : RtEntity) : Rt where
  rtRq g := { r.rtRq g with queue := fun i => Sequence.del e ((r.rtRq g).queue i) }
  runList := Function.update r.runList e .self

/-- Whether `__enqueue_rt_entity` turns an entity away: a throttled or empty group. -/
def refuses (r : Rt) : RtEntity → Bool
  | .task _ => false
  | .group g => rtRqThrottled (r.rtRq g) || (r.rtRq g).rtNrRunning == 0

/-- `__enqueue_rt_entity`. -/
def rawEnqueueRtEntity (v : RtView) (head : Bool) (r : Rt) (e : RtEntity) : Rt :=
  if r.refuses e then r
  else
    let prio := rtSePrio v r e
    let boosted := rtSeBoosted v r e
    (r.link (rtRqOfSe v e) prio e head).modify (rtRqOfSe v e) fun q =>
      incRtTasks prio boosted { q with bitmap := Function.update q.bitmap prio true }

/-- `__dequeue_rt_entity`. -/
def rawDequeueRtEntity (v : RtView) (r : Rt) (e : RtEntity) : Rt :=
  let prio := rtSePrio v r e
  let boosted := rtSeBoosted v r e
  (r.unlink e).modify (rtRqOfSe v e) fun q =>
    decRtTasks prio boosted
      (if (q.queue prio).isEmpty then { q with bitmap := Function.update q.bitmap prio false }
       else q)

/-- One turn of the second loop of `dequeue_rt_stack`. -/
def dequeueIfOn (v : RtView) (r : Rt) (e : RtEntity) : Rt :=
  if r.onRtRq e then rawDequeueRtEntity v r e else r

/-- `dequeue_rt_stack`: the entity and those above it leave, top down. -/
def dequeueRtStack (v : RtView) (r : Rt) (e : RtEntity) : Rt :=
  (schedRtEntities v e).reverse.foldl (dequeueIfOn v) r

/-- `enqueue_rt_entity`. -/
def enqueueRtEntity (v : RtView) (head : Bool) (r : Rt) (e : RtEntity) : Rt :=
  (schedRtEntities v e).foldl (rawEnqueueRtEntity v head) (dequeueRtStack v r e)

/-- One turn of the loop of `dequeue_rt_entity`: a group that still has entities goes back. -/
def requeueGroup (v : RtView) (r : Rt) : RtEntity → Rt
  | .task _ => r
  | .group g =>
    if (r.rtRq g).rtNrRunning ≠ 0 then rawEnqueueRtEntity v false r (.group g) else r

/-- `dequeue_rt_entity`. -/
def dequeueRtEntity (v : RtView) (r : Rt) (e : RtEntity) : Rt :=
  (schedRtEntities v e).foldl (requeueGroup v) (dequeueRtStack v r e)

/-- `requeue_rt_entity`. -/
def requeueRtEntity (v : RtView) (head : Bool) (r : Rt) (e : RtEntity) : Rt :=
  if r.onRtRq e then (r.unlink e).link (rtRqOfSe v e) (rtSePrio v r e) e head else r

/-- `requeue_task_rt`. -/
def requeueTaskRt (v : RtView) (head : Bool) (r : Rt) (p : Pid) : Rt :=
  (schedRtEntities v (.task p)).foldl (requeueRtEntity v head) r

/-- `rt_se->run_list.prev != rt_se->run_list.next`: the entity is not alone on its queue. -/
def sharesQueue (v : RtView) (r : Rt) (e : RtEntity) : Bool :=
  (List.range 100).any fun i =>
    let queue := (r.rtRq (rtRqOfSe v e)).queue (Int.ofNat i)
    decide (e ∈ queue) && decide (2 ≤ queue.length)

/-- `sched_rt_rq_enqueue`; the flag is `resched_task(curr)`. -/
def schedRtRqEnqueue (v : RtView) (r : Rt) (g : Gid) : Rt × Bool :=
  if (r.rtRq g).rtNrRunning ≠ 0 then
    let r' :=
      if (v.tg.parent g).isSome && !r.onRtRq (.group g) then
        enqueueRtEntity v false r (.group g)
      else r
    (r', (r'.rtRq g).highestPrio < v.prio v.curr)
  else (r, false)

/-- `sched_rt_rq_dequeue`. -/
def schedRtRqDequeue (v : RtView) (r : Rt) (g : Gid) : Rt :=
  if (v.tg.parent g).isSome && r.onRtRq (.group g) then dequeueRtEntity v r (.group g) else r

/-- `sched_rt_runtime_exceeded`, on a uniprocessor, where `balance_runtime` does nothing. -/
def schedRtRuntimeExceeded (v : RtView) (r : Rt) (g : Gid) : Rt × Bool :=
  let q := r.rtRq g
  if q.rtThrottled then (r, rtRqThrottled q)
  else if (v.rtBandwidth g).rtPeriod ≤ q.rtRuntime then (r, false)
  else if q.rtRuntime = runtimeInf then (r, false)
  else if q.rtRuntime < q.rtTime then
    let r :=
      if (v.rtBandwidth g).rtRuntime ≠ 0 then r.modify g fun q => { q with rtThrottled := true }
      else r.modify g fun q => { q with rtTime := 0 }
    if rtRqThrottled (r.rtRq g) then (schedRtRqDequeue v r g, true) else (r, false)
  else (r, false)

/-- One turn of the loop of `update_curr_rt`. -/
def chargeRtRq (v : RtView) (deltaExec : BitVec 64) (acc : Rt × Bool) (e : RtEntity) : Rt × Bool :=
  let g := rtRqOfSe v e
  if (acc.1.rtRq g).rtRuntime = runtimeInf then acc
  else
    let (r, exceeded) := schedRtRuntimeExceeded v
      (acc.1.modify g fun q => { q with rtTime := q.rtTime + deltaExec }) g
    (r, acc.2 || exceeded)

/-- The loop of `update_curr_rt` over the entities of the running task. -/
def chargeRt (v : RtView) (deltaExec : BitVec 64) (r : Rt) : Rt × Bool :=
  (schedRtEntities v (.task v.curr)).foldl (chargeRtRq v deltaExec) (r, false)

/-- The changes `do_sched_rt_period_timer` makes to a run queue, and whether it enqueues it. -/
def replenish (overrun : Nat) (q : RtRq) : RtRq × Bool :=
  if q.rtTime ≠ 0 then
    let refill := BitVec.ofNat 64 overrun * q.rtRuntime
    let q := { q with rtTime := q.rtTime - (if q.rtTime ≤ refill then q.rtTime else refill) }
    if q.rtThrottled && decide (q.rtTime < q.rtRuntime) then
      ({ q with rtThrottled := false }, true)
    else (q, false)
  else (q, q.rtNrRunning != 0 && !rtRqThrottled q)

/-- `pick_next_rt_entity`. -/
def pickNextRtEntity (q : RtRq) : Except Bug RtEntity :=
  let idx := schedFindFirstBit q.bitmap
  if maxRtPrio ≤ idx then .error .rtBitmap
  else match (q.queue idx).head? with
    | some e => .ok e
    | none => .error .rtBitmap

/-- The loop of `_pick_next_task_rt`, down from a group to a task. -/
def descend (r : Rt) : Nat → Gid → Except Bug Pid
  | 0, _ => .error .rtBitmap
  | n + 1, g =>
    match pickNextRtEntity (r.rtRq g) with
    | .error b => .error b
    | .ok (.task p) => .ok p
    | .ok (.group h) => descend r n h

/-- `_pick_next_task_rt`, less its time stamp. -/
def pickNextTask (tg : GroupTree) (r : Rt) : Except Bug (Option Pid) :=
  if (r.rtRq tg.root).rtNrRunning = 0 then .ok none
  else if rtRqThrottled (r.rtRq tg.root) then .ok none
  else (r.descend (tg.height + 1) tg.root).map some

end Rt

end WrrScheduler
