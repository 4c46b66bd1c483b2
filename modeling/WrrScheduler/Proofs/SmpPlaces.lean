/-
Every task is in one place.

The kernel spreads where a task is over many fields: `on_rq`, `on_cpu`, `state`, the
queues, the wake lists, the `curr` of every CPU and what each CPU is in the middle
of.  Here a task has a place, and the fields only encode it.  The encoding is an
invariant of every step, and with it a task is on one queue, runs on one CPU, and is
woken by one other at a time.

The encoding is taken apart by CPU: `CpuFits` says what one CPU has to look like to
a task in a place, and `TaskFits` what the task itself does.  A step writes one or
two CPUs and mostly one task.  To every other task the CPUs look the same (`Same`),
and to its own task all other CPUs show what they did before (`Unseen`), so that for
each step only the CPU that takes it has to be looked at.
-/
import Mathlib.Logic.Relation
import WrrScheduler.Proofs.SmpEffect

namespace WrrScheduler.Smp

/-- Where a task is in its life. -/
inductive Place
  | unborn
  /-- Between `sched_fork` and `wake_up_new_task`. -/
  | newborn
  /-- On a run queue, and not running. -/
  | ready (c : Nat)
  | running (c : Nat)
  /-- Off its run queue, while its CPU is still in `__schedule` on its behalf. -/
  | blocking (c : Nat)
  /-- Switched out but not yet off its CPU; on the run queue, or off it. -/
  | outgoing (c : Nat)
  | departing (c : Nat)
  | asleep
  /-- A CPU is choosing a run queue for it. -/
  | placed (b : Nat)
  /-- On the wake list of a CPU. -/
  | listed (c : Nat)
  deriving DecidableEq

namespace Place

/-- The life cycle of a task. -/
inductive Step : Place → Place → Prop
  | fork : Step unborn newborn
  | start (c : Nat) : Step newborn (ready c)
  | run (c : Nat) : Step (ready c) (running c)
  | preempt (c : Nat) : Step (running c) (outgoing c)
  | saved (c : Nat) : Step (outgoing c) (ready c)
  | sleep (c : Nat) : Step (running c) (blocking c)
  | depart (c : Nat) : Step (blocking c) (departing c)
  | off (c : Nat) : Step (departing c) asleep
  /-- Another CPU wakes it, and it goes to a run queue or by way of a wake list. -/
  | wake (b : Nat) : Step asleep (placed b)
  | queue (b c : Nat) : Step (placed b) (ready c)
  | list (b c : Nat) : Step (placed b) (listed c)
  | pending (c : Nat) : Step (listed c) (ready c)
  /-- Its own CPU wakes it. -/
  | wakeLocal (c : Nat) : Step asleep (ready c)
  | migrate (c d : Nat) : Step (ready c) (ready d)

/-- One step of the life cycle, or none. -/
abbrev Moves : Place → Place → Prop := Relation.ReflGen Step

/-- The run queue that has the task. -/
def queuedOn : Place → Option Nat
  | ready c | running c | outgoing c => some c
  | _ => none

/-- The CPU whose `curr` it is. -/
def currentOn : Place → Option Nat
  | running c | blocking c => some c
  | _ => none

/-- The CPU that is about to clear its `on_cpu`. -/
def leavingFrom : Place → Option Nat
  | outgoing c | departing c => some c
  | _ => none

/-- The CPU whose wake list has it. -/
def listedOn : Place → Option Nat
  | listed c => some c
  | _ => none

/-- The CPU that chooses a run queue for it. -/
def placedBy : Place → Option Nat
  | placed b => some b
  | _ => none

/-- What `task_cpu` says. -/
def home : Place → Option Nat
  | ready c | running c | blocking c | outgoing c | departing c | listed c => some c
  | _ => none

/-- It is off every run queue and nobody has woken it. -/
def blocked : Place → Bool
  | blocking _ | departing _ | asleep => true
  | _ => false

/-- It has been woken and is not on a run queue yet. -/
def waking : Place → Bool
  | placed _ | listed _ => true
  | _ => false

/-- It has been put on a run queue for the first time. -/
def started : Place → Bool
  | unborn | newborn => false
  | _ => true

/-- It is on its way out, or can be. -/
def mortal : Place → Bool
  | running _ | blocking _ | departing _ | asleep => true
  | _ => false

end Place

namespace Pc

/-- The list that `sched_ttwu_pending` has taken. -/
def pending : Pc → List Pid
  | ttwuPending llist => llist
  | _ => []

/-- The task whose `on_cpu` is about to be cleared. -/
def leaving : Pc → Option Pid
  | switched prev | finishing prev _ => prev
  | _ => none

/-- The task for which a run queue is being chosen. -/
def placing : Pc → Option Pid
  | selectRq p | queue p _ => some p
  | _ => none

/-- The task whose `pi_lock` is held. -/
def piHeld : Pc → Option Pid
  | readOnRq p | readRq p | lockRq p _ | waitOnCpu p | selectRq p | queue p _
  | sendReschedule p _ => some p
  | _ => none

/-- `__schedule` has not picked a task yet. -/
def scheduling : Pc → Bool
  | picking | balancing => true
  | _ => false

end Pc

/-- What a CPU has to look like to a task in a place. -/
structure CpuFits (r : Cpu) (c : Nat) (q : Pid) (t : Task) (l : Place) : Prop where
  queue : r.queue.count q = (decide (l.queuedOn = some c)).toNat
  lists : r.wakeList.count q + r.pc.pending.count q = (decide (l.listedOn = some c)).toNat
  curr : r.curr = some q ↔ l.currentOn = some c
  leaving : r.pc.leaving = some q ↔ l.leavingFrom = some c
  placing : r.pc.placing = some q ↔ l.placedBy = some c
  held : r.pc.piHeld = some q ↔ t.piLock = some c
  pursuing : r.pc.pursuing = some q → l.started = true ∧ l.waking = false
  waiting : r.pc = .waitOnCpu q → l.blocked = true
  scheduling : l = .blocking c → r.pc.scheduling = true
  alive : l = .running c → r.pc.scheduling = true → t.state ≠ taskDead
  target : ∀ cpu, r.pc = .queue q cpu → t.cpu = cpu
  mask : ∀ state, r.pc = .wake q state → state &&& Unwakeable = 0

/-- What the fields of a task have to be in a place. -/
structure TaskFits (forked : Prop) (t : Task) (l : Place) : Prop where
  onRq : t.onRq = l.queuedOn.isSome
  onCpu : t.onCpu = (l.currentOn.isSome || l.leavingFrom.isSome)
  home : ∀ c, l.home = some c → t.cpu = c
  waking : t.state = taskWaking ↔ l.waking = true
  blocked : l.blocked = true → t.state ≠ taskRunning
  unstarted : l.started = false → t.state = taskRunning ∧ t.piLock = none
  dead : t.state = taskDead → t.piLock = none ∧ l.mortal = true
  forked : forked ↔ l ≠ .unborn
  started : t.started = l.started

/-- The fields encode that the task is in a place. -/
structure Fits (s : State) (q : Pid) (l : Place) : Prop where
  task : TaskFits (q < s.nextPid) (s.tasks q) l
  cpus : ∀ c, CpuFits (s.cpus c) c q (s.tasks q) l

/-- Every task is in a place. -/
def Inv (s : State) : Prop := ∀ q, ∃ l, Fits s q l

/-- Every task moves along its life cycle by at most one step. -/
def Moves (s s' : State) : Prop := ∀ q l, Fits s q l → ∃ l', l.Moves l' ∧ Fits s' q l'

/-- Every task stays where it is. -/
def Stays (s s' : State) : Prop := ∀ q l, Fits s q l → Fits s' q l

section

variable {s s' s'' : State}

theorem Stays.refl (s : State) : Stays s s := fun _ _ hl => hl

theorem Stays.trans (h : Stays s s') (h' : Stays s' s'') : Stays s s'' :=
  fun q l hl => h' q l (h q l hl)

theorem Stays.moves (h : Stays s s') : Moves s s' := fun q l hl => ⟨l, .refl, h q l hl⟩

theorem Stays.trans_moves (h : Stays s s') (h' : Moves s' s'') : Moves s s'' :=
  fun q l hl => h' q l (h q l hl)

theorem Moves.trans_stays (h : Moves s s') (h' : Stays s' s'') : Moves s s'' := by
  intro q l hl
  obtain ⟨l', hmoves, hl'⟩ := h q l hl
  exact ⟨l', hmoves, h' q l' hl'⟩

theorem Inv.moves (h : Inv s) (hmoves : Moves s s') : Inv s' := by
  intro q
  obtain ⟨l, hl⟩ := h q
  obtain ⟨l', -, hl'⟩ := hmoves q l hl
  exact ⟨l', hl'⟩

end

/-! ### What a step means to the tasks it is not about

A CPU that goes on with one task may change its queue, its wake list and its program
counter, but another task only finds itself there as often as before.  `Frame p`
collects that for all CPUs and all tasks but `p`; it composes, so that the frame of an
operation is that of its writes.
-/

/-- A CPU looks the same to a task as before. -/
structure Same (q : Pid) (r r' : Cpu) : Prop where
  queue : r'.queue.count q = r.queue.count q
  lists : r'.wakeList.count q + r'.pc.pending.count q = r.wakeList.count q + r.pc.pending.count q
  curr : r'.curr = some q ↔ r.curr = some q
  leaving : r'.pc.leaving = some q ↔ r.pc.leaving = some q
  placing : r'.pc.placing = some q ↔ r.pc.placing = some q
  held : r'.pc.piHeld = some q ↔ r.pc.piHeld = some q
  pursuing : r'.pc.pursuing = some q → r.pc.pursuing = some q
  waiting : r'.pc = .waitOnCpu q → r.pc = .waitOnCpu q
  scheduling : r.curr = some q → r'.pc.scheduling = r.pc.scheduling
  target : ∀ cpu, r'.pc = .queue q cpu → r.pc = .queue q cpu
  mask : ∀ state, r'.pc = .wake q state → r.pc = .wake q state

section

variable {q p : Pid} {r r' r'' : Cpu} {c : Nat} {t : Task} {l : Place}

theorem Same.refl (q : Pid) (r : Cpu) : Same q r r :=
  ⟨rfl, rfl, .rfl, .rfl, .rfl, .rfl, id, id, fun _ => rfl, fun _ => id, fun _ => id⟩

theorem Same.trans (h : Same q r r') (h' : Same q r' r'') : Same q r r'' where
  queue := h'.queue.trans h.queue
  lists := h'.lists.trans h.lists
  curr := h'.curr.trans h.curr
  leaving := h'.leaving.trans h.leaving
  placing := h'.placing.trans h.placing
  held := h'.held.trans h.held
  pursuing := h.pursuing ∘ h'.pursuing
  waiting := h.waiting ∘ h'.waiting
  scheduling hcurr := (h'.scheduling (h.curr.mpr hcurr)).trans (h.scheduling hcurr)
  target cpu := h.target cpu ∘ h'.target cpu
  mask state := h.mask state ∘ h'.mask state

theorem CpuFits.same (h : CpuFits r c q t l) (hs : Same q r r') : CpuFits r' c q t l where
  queue := hs.queue.trans h.queue
  lists := hs.lists.trans h.lists
  curr := hs.curr.trans h.curr
  leaving := hs.leaving.trans h.leaving
  placing := hs.placing.trans h.placing
  held := hs.held.trans h.held
  pursuing := h.pursuing ∘ hs.pursuing
  waiting := h.waiting ∘ hs.waiting
  scheduling hl := (hs.scheduling (h.curr.mpr (by rw [hl]; rfl))).trans (h.scheduling hl)
  alive hl hpc := h.alive hl ((hs.scheduling (h.curr.mpr (by rw [hl]; rfl))).symm.trans hpc)
  target cpu := h.target cpu ∘ hs.target cpu
  mask state := h.mask state ∘ hs.mask state

end

/-- The task a program counter is about. -/
def Pc.about : Pc → Option Pid
  | wake p _ | readOnRq p | readRq p | lockRq p _ | waitOnCpu p | selectRq p | queue p _
  | sendReschedule p _ => some p
  | switched prev | finishing prev _ => prev
  | _ => none

section

variable {q : Pid} {pc : Pc}

theorem Pc.about_of_leaving (h : pc.leaving = some q) : pc.about = some q := by
  cases pc <;> first | exact h | cases h

theorem Pc.about_of_placing (h : pc.placing = some q) : pc.about = some q := by
  cases pc <;> first | exact h | cases h

theorem Pc.about_of_piHeld (h : pc.piHeld = some q) : pc.about = some q := by
  cases pc <;> first | exact h | cases h

theorem Pc.piHeld_of_pursuing (h : pc.pursuing = some q) : pc.piHeld = some q := by
  cases pc <;> first | exact h | cases h

/-- Going on at another place is nothing to a task that neither place is about. -/
theorem Same.goTo {r : Cpu} (hold : r.pc.about ≠ some q) (hnew : pc.about ≠ some q)
    (hpending : pc.pending.count q = r.pc.pending.count q)
    (hsched : r.curr = some q → pc.scheduling = r.pc.scheduling) :
    Same q r { r with pc := pc } where
  queue := rfl
  lists := congrArg _ hpending
  curr := .rfl
  leaving := iff_of_false (hnew ∘ Pc.about_of_leaving) (hold ∘ Pc.about_of_leaving)
  placing := iff_of_false (hnew ∘ Pc.about_of_placing) (hold ∘ Pc.about_of_placing)
  held := iff_of_false (hnew ∘ Pc.about_of_piHeld) (hold ∘ Pc.about_of_piHeld)
  pursuing h := absurd (Pc.about_of_piHeld (Pc.piHeld_of_pursuing h)) hnew
  waiting h := absurd (congrArg Pc.about h) hnew
  scheduling := hsched
  target _ h := absurd (congrArg Pc.about h) hnew
  mask _ h := absurd (congrArg Pc.about h) hnew

end

/-- A step that is about one task. -/
structure Frame (p : Pid) (s s' : State) : Prop where
  nextPid : s'.nextPid = s.nextPid
  tasks : ∀ q, q ≠ p → s'.tasks q = s.tasks q
  cpus : ∀ q, q ≠ p → ∀ c, Same q (s.cpus c) (s'.cpus c)

/-- The parts of a CPU that a task can see are as they were. -/
theorem Same.of_eq {q : Pid} {r r' : Cpu} (hqueue : r'.queue = r.queue)
    (hwake : r'.wakeList = r.wakeList) (hcurr : r'.curr = r.curr) (hpc : r'.pc = r.pc) :
    Same q r r' := by
  refine ⟨?_, ?_, ?_, ?_, ?_, ?_, ?_, ?_, ?_, ?_, ?_⟩ <;>
    simp only [hqueue, hwake, hcurr, hpc] <;> tauto

theorem Same.enqueue {p q : Pid} (h : q ≠ p) (r : Cpu) :
    Same q r { r with queue := p :: r.queue } :=
  ⟨List.count_cons_of_ne h.symm, rfl, .rfl, .rfl, .rfl, .rfl, id, id, fun _ => rfl, fun _ => id,
    fun _ => id⟩

theorem Same.dequeue {p q : Pid} (h : q ≠ p) (r : Cpu) :
    Same q r { r with queue := r.queue.erase p } :=
  ⟨List.count_erase_of_ne h, rfl, .rfl, .rfl, .rfl, .rfl, id, id, fun _ => rfl, fun _ => id,
    fun _ => id⟩

theorem Same.list {p q : Pid} (h : q ≠ p) (r : Cpu) :
    Same q r { r with wakeList := p :: r.wakeList } :=
  ⟨rfl, congrArg (· + _) (List.count_cons_of_ne h.symm), .rfl, .rfl, .rfl, .rfl, id, id,
    fun _ => rfl, fun _ => id, fun _ => id⟩

namespace Frame

variable {p : Pid} {s s' s'' : State} {c : Nat}

theorem trans (h : Frame p s s') (h' : Frame p s' s'') : Frame p s s'' where
  nextPid := h'.nextPid.trans h.nextPid
  tasks q hq := (h'.tasks q hq).trans (h.tasks q hq)
  cpus q hq c := (h.cpus q hq c).trans (h'.cpus q hq c)

theorem modTask (p : Pid) (f : Task → Task) (s : State) : Frame p s (s.modTask p f) :=
  ⟨rfl, fun _ hq => s.tasks_modTask_of_ne p f hq, fun q _ _ => .refl q _⟩

theorem modCpu {g : Cpu → Cpu} (h : ∀ q, q ≠ p → Same q (s.cpus c) (g (s.cpus c))) :
    Frame p s (s.modCpu c g) := by
  refine ⟨rfl, fun _ _ => rfl, ?_⟩
  intro q hq d
  by_cases hd : d = c
  · subst hd
    rw [State.cpus_modCpu_self]
    exact h q hq
  · rw [State.cpus_modCpu_of_ne s c g hd]
    exact .refl q _

theorem addUninterruptible (p : Pid) (c : Nat) (n : BitVec 32) (s : State) :
    Frame p s (addUninterruptible c n s) :=
  modCpu fun _ _ => .of_eq rfl rfl rfl rfl

theorem incNrRunning (p : Pid) (c : Nat) (s : State) : Frame p s (incNrRunning c s) :=
  modCpu fun _ _ => .of_eq rfl rfl rfl rfl

theorem decNrRunning (p : Pid) (c : Nat) (s : State) : Frame p s (decNrRunning c s) :=
  modCpu fun _ _ => .of_eq rfl rfl rfl rfl

theorem enqueueTask (c : Nat) (p : Pid) (s : State) : Frame p s (enqueueTask c p s) :=
  Frame.trans (modCpu fun _ hq => .enqueue hq _) (incNrRunning p c _)

theorem dequeueTask (c : Nat) (p : Pid) (s : State) : Frame p s (dequeueTask c p s) :=
  Frame.trans (modCpu fun _ hq => .dequeue hq _) (decNrRunning p c _)

theorem activateTask (c : Nat) (p : Pid) (s : State) : Frame p s (activateTask c p s) :=
  (addUninterruptible p c _ s).trans (enqueueTask c p _)

theorem deactivateTask (c : Nat) (p : Pid) (s : State) : Frame p s (deactivateTask c p s) :=
  (addUninterruptible p c _ s).trans (dequeueTask c p _)

theorem setOnRq (b : Bool) (p : Pid) (s : State) : Frame p s (setOnRq b p s) := modTask p _ s

theorem setState (state : Nat) (p : Pid) (s : State) : Frame p s (setState state p s) :=
  modTask p _ s

theorem setTaskCpu (cpu : Nat) (p : Pid) (s : State) : Frame p s (setTaskCpu cpu p s) :=
  modTask p _ s

theorem ttwuActivate (c : Nat) (p : Pid) (s : State) : Frame p s (ttwuActivate c p s) :=
  (activateTask c p s).trans (setOnRq true p _)

theorem ttwuDoActivate (c : Nat) (p : Pid) (s : State) : Frame p s (ttwuDoActivate c p s) :=
  ((addUninterruptible p c _ s).trans (ttwuActivate c p _)).trans (setState _ p _)

/-- Going on at another place, when both places are about the task or about none. -/
theorem goTo {pc : Pc} (hold : ∀ q, (s.cpus c).pc.about = some q → q = p)
    (hnew : ∀ q, pc.about = some q → q = p) (hpending : pc.pending = (s.cpus c).pc.pending)
    (hsched : (s.cpus c).curr = some p ∨ pc.scheduling = (s.cpus c).pc.scheduling) :
    Frame p s (s.goTo c pc) := by
  refine modCpu fun q hq => ?_
  refine .goTo (fun h => hq (hold q h)) (fun h => hq (hnew q h)) (by rw [hpending]) ?_
  intro hcurr
  rcases hsched with h | h
  · exact absurd (Option.some.inj (hcurr.symm.trans h)) hq
  · exact h

end Frame

/-- A step about one task leaves the others where they are. -/
theorem Frame.stays {s s' : State} {p q : Pid} {l : Place} (h : Frame p s s') (hq : q ≠ p)
    (hl : Fits s q l) : Fits s' q l := by
  refine ⟨?_, ?_⟩
  · rw [h.tasks q hq, h.nextPid]
    exact hl.task
  · intro c
    rw [h.tasks q hq]
    exact (hl.cpus c).same (h.cpus q hq c)

/-- **A step about one task** is a move if it is one for that task. -/
theorem Moves.change {s s' : State} {p : Pid} (hframe : Frame p s s')
    (hp : ∀ l, Fits s p l → ∃ l', l.Moves l' ∧ Fits s' p l') : Moves s s' := by
  intro q l hl
  by_cases hq : q = p
  · subst hq
    exact hp l hl
  · exact ⟨l, .refl, hframe.stays hq hl⟩

theorem Stays.change {s s' : State} {p : Pid} (hframe : Frame p s s')
    (hp : ∀ l, Fits s p l → Fits s' p l) : Stays s s' := by
  intro q l hl
  by_cases hq : q = p
  · subst hq
    exact hp l hl
  · exact hframe.stays hq hl

/-- A step that no task can see. -/
theorem Stays.same {s s' : State} (hnext : s'.nextPid = s.nextPid)
    (htasks : s'.tasks = s.tasks) (hcpus : ∀ q c, Same q (s.cpus c) (s'.cpus c)) : Stays s s' := by
  intro q l hl
  refine ⟨?_, ?_⟩
  · rw [htasks, hnext]
    exact hl.task
  · intro c
    rw [htasks]
    exact (hl.cpus c).same (hcpus q c)

/-- Writing what no task can see of a CPU. -/
theorem Stays.modCpu {s : State} {c : Nat} {g : Cpu → Cpu}
    (hg : ∀ q, Same q (s.cpus c) (g (s.cpus c))) : Stays s (s.modCpu c g) := by
  refine .same rfl rfl fun q d => ?_
  by_cases hd : d = c
  · subst hd
    rw [State.cpus_modCpu_self]
    exact hg q
  · rw [State.cpus_modCpu_of_ne s c g hd]
    exact .refl q _

/-! ### What a step means to its own task

The place of the task may change, and with it what each CPU has to look like.  What a
CPU sees of a place is five bits, whether the task is queued there, current there and
so on: a CPU for which they are the same in both places need not be looked at.
-/

attribute [simp] Place.queuedOn Place.currentOn Place.leavingFrom Place.listedOn Place.placedBy
  Place.home Place.blocked Place.waking Place.started Place.mortal

attribute [simp] Pc.pending Pc.leaving Pc.placing Pc.pursuing Pc.piHeld Pc.scheduling Pc.about

/-- What a CPU sees of a place. -/
def Place.seenFrom (l : Place) (c : Nat) : Bool × Bool × Bool × Bool × Bool :=
  (l.queuedOn = some c, l.listedOn = some c, l.currentOn = some c, l.leavingFrom = some c,
    l.placedBy = some c)

/-- What a CPU sees of a place, and of who is waking the task, is as before. -/
structure Unseen (c : Nat) (t t' : Task) (l l' : Place) : Prop where
  seen : l'.seenFrom c = l.seenFrom c
  piLock : t'.piLock = some c ↔ t.piLock = some c
  target : l.placedBy = some c → t'.cpu = t.cpu
  pursued : t.piLock = some c → l.started = true → l.waking = false →
    l'.started = true ∧ l'.waking = false
  blocked : t.piLock = some c → l.blocked = true → l'.blocked = true
  dead : l'.currentOn = some c → t'.state = taskDead → t.state = taskDead

/-- The task stays where it is. -/
theorem Unseen.stay {c : Nat} {t t' : Task} {l : Place}
    (hpi : t'.piLock = some c ↔ t.piLock = some c) (hcpu : t'.cpu = t.cpu)
    (hdead : l.currentOn = some c → t'.state = taskDead → t.state = taskDead) :
    Unseen c t t' l l :=
  ⟨rfl, hpi, fun _ => hcpu, fun _ h1 h2 => ⟨h1, h2⟩, fun _ h => h, hdead⟩

theorem CpuFits.elsewhere {r : Cpu} {c : Nat} {q : Pid} {t t' : Task} {l l' : Place}
    (h : CpuFits r c q t l) (hu : Unseen c t t' l l') : CpuFits r c q t' l' := by
  have hseen := hu.seen
  simp only [Place.seenFrom, Prod.mk.injEq, decide_eq_decide] at hseen
  obtain ⟨hqueue, hlist, hcurr, hleaving, hplacing⟩ := hseen
  refine ⟨?_, ?_, h.curr.trans hcurr.symm, h.leaving.trans hleaving.symm,
    h.placing.trans hplacing.symm, h.held.trans hu.piLock.symm, ?_, ?_, ?_, ?_, ?_, h.mask⟩
  · rw [h.queue, decide_eq_decide.mpr hqueue]
  · rw [h.lists, decide_eq_decide.mpr hlist]
  · intro hr
    obtain ⟨hstarted, hwaking⟩ := h.pursuing hr
    exact hu.pursued (h.held.mp (Pc.piHeld_of_pursuing hr)) hstarted hwaking
  · intro hr
    exact hu.blocked (h.held.mp (by rw [hr]; rfl)) (h.waiting hr)
  · intro hl
    subst hl
    refine h.scheduling ?_
    have hc : l.currentOn = some c := hcurr.mp rfl
    have hq : l.queuedOn ≠ some c := fun h => by simpa using hqueue.mpr h
    cases l <;> simp_all
  · intro hl hr hdead
    subst hl
    have hc : l.currentOn = some c := hcurr.mp rfl
    have hq : l.queuedOn = some c := hqueue.mp rfl
    obtain rfl : l = .running c := by cases l <;> simp_all
    exact h.alive rfl hr (hu.dead rfl hdead)
  · intro cpu hr
    rw [hu.target (h.placing.mp (by rw [hr]; rfl))]
    exact h.target cpu hr

/-- A step that changes at most two CPUs. -/
theorem Fits.update₂ {s s' : State} {p : Pid} {l l' : Place} {c d : Nat} (h : Fits s p l)
    (hcpus : ∀ e, e ≠ c → e ≠ d → s'.cpus e = s.cpus e)
    (hunseen : ∀ e, e ≠ c → e ≠ d → Unseen e (s.tasks p) (s'.tasks p) l l')
    (htask : TaskFits (p < s'.nextPid) (s'.tasks p) l')
    (hc : CpuFits (s'.cpus c) c p (s'.tasks p) l')
    (hd : CpuFits (s'.cpus d) d p (s'.tasks p) l') : Fits s' p l' := by
  refine ⟨htask, ?_⟩
  intro e
  by_cases hec : e = c
  · rw [hec]
    exact hc
  · by_cases hed : e = d
    · rw [hed]
      exact hd
    · rw [hcpus e hec hed]
      exact (h.cpus e).elsewhere (hunseen e hec hed)

/-- A step that changes one CPU. -/
theorem Fits.update {s s' : State} {p : Pid} {l l' : Place} {c : Nat} (h : Fits s p l)
    (hcpus : ∀ d, d ≠ c → s'.cpus d = s.cpus d)
    (hunseen : ∀ d, d ≠ c → Unseen d (s.tasks p) (s'.tasks p) l l')
    (htask : TaskFits (p < s'.nextPid) (s'.tasks p) l')
    (hcpu : CpuFits (s'.cpus c) c p (s'.tasks p) l') : Fits s' p l' :=
  h.update₂ (fun d hd _ => hcpus d hd) (fun d hd _ => hunseen d hd) htask hcpu hcpu

end WrrScheduler.Smp
