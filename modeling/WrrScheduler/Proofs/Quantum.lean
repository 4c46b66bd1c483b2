/-
What the quantum of a task depends on.

`task_tick_wrr` and `get_rr_interval_wrr` read the path of a task's group into a
buffer all tasks share, and compare what they find there, whether `cgroup_path`
wrote it or not.  So a path that does not fit in the buffer is taken for the last
one that did, and the quantum of a task is that of some other task's group.
-/
import WrrScheduler.Proofs.RrInterval

namespace WrrScheduler

/-- `PATH_MAX`. -/
def pathMax : Nat := 4096

/-- A path fits in the buffer, with the byte that ends it. -/
def PathFits (path : String) : Prop := path.utf8ByteSize + 1 ≤ pathMax

instance (path : String) : Decidable (PathFits path) := inferInstanceAs (Decidable (_ ≤ _))

/-- `cgroup_path` writes a path that fits, and otherwise leaves the buffer as it is. -/
def WritesIfFits (m : Machine) : Prop :=
  ∀ path old, m.cgroupPath path old = if PathFits path then path else old

/-- A call of the class on a task. -/
inductive QuantumCall
  | taskTick (q : Pid)
  | getRrInterval (q : Pid)

namespace QuantumCall

def task : QuantumCall → Pid
  | taskTick q => q
  | getRrInterval q => q

def perform (m : Machine) (s : State) : QuantumCall → State
  | taskTick q => taskTickWrr m q s
  | getRrInterval q => (getRrIntervalWrr m q s).2

end QuantumCall

/-- The state a history of calls leads to. -/
def State.after (m : Machine) (s : State) (h : List QuantumCall) : State :=
  h.foldl (QuantumCall.perform m) s

/-- The path of a task's group. -/
def State.path (m : Machine) (s : State) (p : Pid) : String := m.cgroup (s.tasks p).schedTaskGroup

/-- Another task of the class. -/
def IsOther (s : State) (p q : Pid) : Prop :=
  q ≠ p ∧ q ∈ s.tasklist ∧ (s.tasks q).schedClass = .wrr

/-- Whatever was called for the other tasks, the slice the task gets when it has used up its own, and
the interval that is reported, are the same. -/
def QuantumOwn (m : Machine) (p : Pid) (s : State) : Prop :=
  ∀ h h' : List QuantumCall, (∀ c ∈ h, IsOther s p c.task) → (∀ c ∈ h', IsOther s p c.task) →
    ((s.tasks p).wrr.timeSlice = 1 →
      ((taskTickWrr m p (s.after m h)).tasks p).wrr.timeSlice =
        ((taskTickWrr m p (s.after m h')).tasks p).wrr.timeSlice) ∧
    (getRrIntervalWrr m p (s.after m h)).1 = (getRrIntervalWrr m p (s.after m h')).1

variable {m : Machine} {s t : State} {p q : Pid}

/-- What is said of a task whose quantum is looked at, and of the others, where calls for the others
lead: the buffer is as it was, or holds the path of one of them. -/
structure Kept (m : Machine) (p : Pid) (s t : State) : Prop where
  task : t.tasks p = s.tasks p
  attr : ∀ q, t.view.attr q = s.view.attr q
  tasklist : t.tasklist = s.tasklist
  buffer : t.groupPath = s.groupPath ∨
    ∃ q, IsOther s p q ∧ PathFits (s.path m q) ∧ t.groupPath = s.path m q

/-! ### One call -/

theorem View.tickWrr_of_ne {v : View} (hpolicy : (v.tasks p).policy ≠ .wrr) :
    v.tickWrr m p = v.watchWrr p := by
  have hattr : (v.watchWrr p).attr p = v.attr p := attr_watchWrr
  have hpolicy' : ((v.watchWrr p).tasks p).policy ≠ .wrr := by
    rw [show ((v.watchWrr p).tasks p).policy = (v.tasks p).policy from congrArg Attr.policy hattr]
    exact hpolicy
  unfold tickWrr
  exact if_pos hpolicy'

/-- What a tick leaves in the buffer: what was there, or the path of its task as it was read. -/
theorem groupPath_taskTickWrr : (taskTickWrr m q s).groupPath = s.groupPath ∨
    (taskTickWrr m q s).groupPath = m.cgroupPath (s.path m q) s.groupPath := by
  have htick : (taskTickWrr m q s).groupPath = (s.view.tickWrr m q).groupPath :=
    congrArg View.groupPath view_taskTickWrr
  rw [htick]
  by_cases hpolicy : (s.view.tasks q).policy = .wrr
  · rw [View.path_tickWrr hpolicy]
    split
    · exact Or.inr rfl
    · exact Or.inl rfl
  · rw [View.tickWrr_of_ne hpolicy]
    unfold View.watchWrr
    split <;> exact Or.inl rfl

theorem Kept.perform (hpath : WritesIfFits m) {c : QuantumCall} (hc : IsOther s p c.task) :
    Kept m p s (c.perform m s) := by
  have hwritten : ∀ q, IsOther s p q → m.cgroupPath (s.path m q) s.groupPath = s.groupPath ∨
      ∃ r, IsOther s p r ∧ PathFits (s.path m r) ∧
        m.cgroupPath (s.path m q) s.groupPath = s.path m r := by
    intro q hq
    by_cases hfits : PathFits (s.path m q)
    · exact Or.inr ⟨q, hq, hfits, (hpath _ _).trans (if_pos hfits)⟩
    · exact Or.inl ((hpath _ _).trans (if_neg hfits))
  cases c with
  | getRrInterval q =>
      have hperform : QuantumCall.perform m s (.getRrInterval q) = readGroupPath m q s :=
        congrArg Prod.snd getRrIntervalWrr_eq
      rw [hperform]
      exact ⟨rfl, fun _ => rfl, rfl, hwritten q hc⟩
  | taskTick q =>
      have hview : (taskTickWrr m q s).view = s.view.tickWrr m q := view_taskTickWrr
      have hspares : s.view.Spares {q} (s.view.tickWrr m q) := .tickWrr m (Set.mem_singleton q)
      show Kept m p s (taskTickWrr m q s)
      constructor
      · show (taskTickWrr m q s).view.tasks p = s.view.tasks p
        rw [hview]
        exact hspares.tasks p fun hpq => hc.1 hpq.symm
      · intro r
        rw [hview]
        exact View.attr_tickWrr m
      · exact (congrArg View.tasklist hview).trans (View.frame_tickWrr m).tasklist
      · rcases @groupPath_taskTickWrr m s q with hsame | hread
        · exact Or.inl hsame
        · rw [hread]
          exact hwritten q hc

/-! ### Histories

`Kept` is reflexive and composes, so a history is an induction on its calls.  It
leaves the buffer in one of two conditions, and both are reached: with no call, and
with one call for the task whose path it is.
-/

theorem Kept.isOther_iff {r : Pid} (h : Kept m p s t) : IsOther t p r ↔ IsOther s p r := by
  have hcls : (t.tasks r).schedClass = (s.tasks r).schedClass := congrArg Attr.schedClass (h.attr r)
  unfold IsOther
  rw [h.tasklist, hcls]

theorem Kept.trans {u : State} (h : Kept m p s t) (h' : Kept m p t u) : Kept m p s u := by
  have hpath : ∀ q, t.path m q = s.path m q := by
    intro q
    have hgroup : (t.tasks q).schedTaskGroup = (s.tasks q).schedTaskGroup :=
      congrArg Attr.schedTaskGroup (h.attr q)
    unfold State.path
    rw [hgroup]
  refine ⟨h'.task.trans h.task, fun q => (h'.attr q).trans (h.attr q),
    h'.tasklist.trans h.tasklist, ?_⟩
  rcases h'.buffer with hsame | ⟨q, hq, hfits, hread⟩
  · rw [hsame]
    exact h.buffer
  · rw [hpath] at hfits hread
    exact Or.inr ⟨q, h.isOther_iff.mp hq, hfits, hread⟩

/-- **A history of calls for others** leaves the task alone, and in the buffer what was there or the
path of one of them. -/
theorem Kept.after (hpath : WritesIfFits m) {h : List QuantumCall}
    (hall : ∀ c ∈ h, IsOther s p c.task) : Kept m p s (s.after m h) := by
  induction h generalizing s with
  | nil => exact ⟨rfl, fun _ => rfl, rfl, Or.inl rfl⟩
  | cons c h ih =>
      have hone : Kept m p s (c.perform m s) := Kept.perform hpath (hall c List.mem_cons_self)
      exact hone.trans (ih fun d hd => hone.isOther_iff.mpr (hall d (List.mem_cons_of_mem _ hd)))

/-! ### What is installed, and what is reported

Both functions read the path first, so with a path that fits they never see what the
buffer held.  With one that does not fit they see nothing else.
-/

/-- The slice after a tick. -/
theorem slice_taskTickWrr : ((taskTickWrr m p s).tasks p).wrr.timeSlice =
    if (s.tasks p).policy = .wrr then
      if (s.tasks p).wrr.timeSlice = 1 then quantum m (readGroupPath m p s).groupPath
      else (s.tasks p).wrr.timeSlice - 1
    else (s.tasks p).wrr.timeSlice := by
  show (taskTickWrr m p s).view.slice p = _
  rw [view_taskTickWrr]
  split
  · rename_i hpolicy
    exact View.slice_tickWrr hpolicy
  · rename_i hpolicy
    rw [View.tickWrr_of_ne hpolicy]
    exact View.slice_watchWrr

theorem groupPath_of_fits (hpath : WritesIfFits m) (hfits : PathFits (s.path m p)) :
    (readGroupPath m p s).groupPath = s.path m p := (hpath _ _).trans (if_pos hfits)

/-- A path that does not fit leaves in the buffer whatever is there. -/
theorem groupPath_of_long (hpath : WritesIfFits m) (hlong : ¬ PathFits (s.path m p)) :
    (readGroupPath m p s).groupPath = s.groupPath := (hpath _ _).trans (if_neg hlong)

/-- What is reported for a task with such a path depends on the task that was asked for before. -/
theorem own_of_long (hpath : WritesIfFits m) (hown : QuantumOwn m p s)
    (hpolicy : (s.tasks p).policy = .wrr) (hlong : ¬ PathFits (s.path m p)) (hq : IsOther s p q)
    (hfits : PathFits (s.path m q)) : quantum m (s.path m q) = quantum m s.groupPath := by
  have hcall := (hown [] [.getRrInterval q] (by simp) (by simpa [QuantumCall.task] using hq)).2
  have hnone : s.after m [] = s := rfl
  have hone : s.after m [.getRrInterval q] = readGroupPath m q s :=
    congrArg Prod.snd getRrIntervalWrr_eq
  have hlong' : ¬ PathFits ((readGroupPath m q s).path m p) := hlong
  have hpolicy' : ((readGroupPath m q s).tasks p).policy = .wrr := hpolicy
  rw [hnone, hone, getRrIntervalWrr_eq, getRrIntervalWrr_eq, if_pos hpolicy, if_pos hpolicy',
    groupPath_of_long hpath hlong, groupPath_of_long hpath hlong', groupPath_of_fits hpath hfits]
    at hcall
  exact hcall.symm

/-- **A path that fits, or a buffer worth as much**: the quantum after a history is the one at its
start. -/
theorem quantum_after (hpath : WritesIfFits m) (hown : PathFits (s.path m p) ∨
      ∀ q, IsOther s p q → PathFits (s.path m q) →
        quantum m (s.path m q) = quantum m s.groupPath)
    (hkept : Kept m p s t) : quantum m (readGroupPath m p t).groupPath =
      quantum m (readGroupPath m p s).groupPath := by
  have hsame : t.path m p = s.path m p := by
    unfold State.path
    rw [hkept.task]
  show quantum m (m.cgroupPath (t.path m p) t.groupPath) =
    quantum m (m.cgroupPath (s.path m p) s.groupPath)
  rw [hsame, hpath, hpath]
  split
  · rfl
  · rename_i hlong
    rcases hkept.buffer with hbuf | ⟨q, hq, hfits, hread⟩
    · rw [hbuf]
    · rw [hread]
      exact (hown.resolve_left hlong) q hq hfits

/-- **The quantum of a task is its own, exactly if** its path fits in the buffer, or what others put
there is worth what is there. -/
theorem quantumOwn_iff (hpath : WritesIfFits m) : QuantumOwn m p s ↔
    (s.tasks p).policy ≠ .wrr ∨ PathFits (s.path m p) ∨
      ∀ q, IsOther s p q → PathFits (s.path m q) →
        quantum m (s.path m q) = quantum m s.groupPath := by
  constructor
  · intro hown
    by_cases hpolicy : (s.tasks p).policy = .wrr
    · right
      by_contra hnot
      obtain ⟨hlong, hother⟩ := not_or.mp hnot
      exact hother fun q hq hfits => own_of_long hpath hown hpolicy hlong hq hfits
    · exact Or.inl hpolicy
  · intro hcond h h' hall hall'
    have hkept := Kept.after hpath hall
    have hkept' := Kept.after hpath hall'
    rw [slice_taskTickWrr, slice_taskTickWrr, getRrIntervalWrr_eq, getRrIntervalWrr_eq, hkept.task,
      hkept'.task]
    rcases hcond with hpolicy | hown
    · rw [if_neg hpolicy, if_neg hpolicy, if_neg hpolicy, if_neg hpolicy]
      exact ⟨fun _ => rfl, rfl⟩
    · rw [quantum_after hpath hown hkept, quantum_after hpath hown hkept']
      exact ⟨fun _ => rfl, rfl⟩

/-- A path of so many bytes after the first. -/
def longPath (n : Nat) : String := String.ofList ('/' :: List.replicate n 'a')

theorem utf8ByteSize_longPath (n : Nat) : (longPath n).utf8ByteSize = 1 + n := by
  have hrest : (String.ofList (List.replicate n 'a')).utf8ByteSize = n := by
    induction n with
    | zero => rfl
    | succ n ih =>
        rw [List.replicate_succ', String.ofList_append, String.utf8ByteSize_append, ih]
        rfl
  rw [longPath, ← List.singleton_append, String.ofList_append, String.utf8ByteSize_append, hrest]
  rfl

theorem not_pathFits_longPath {n : Nat} (hn : 4095 ≤ n) : ¬ PathFits (longPath n) := by
  unfold PathFits pathMax
  rw [utf8ByteSize_longPath]
  omega

/-- A machine with the buffer, where the third group has a path that does not fit. -/
def longPathMachine : Machine where
  __ := sampleMachine 1
  cgroupPath := fun path old => if PathFits path then path else old
  cgroup := fun g => if g = 0 then foregroup else if g = 1 then backgroup else longPath 4095

/-- In the root group a task's quantum is its own. -/
theorem quantumOwn_foreground : ∃ s, Reachable longPathMachine s ∧ (s.tasks 1).schedClass = .wrr ∧
    QuantumOwn longPathMachine 1 s := by
  have hexec : ((Run.exec (step longPathMachine) (boot longPathMachine) startTwoWrr).any fun s =>
      decide ((s.tasks 1).schedClass = .wrr ∧ (s.tasks 1).schedTaskGroup = 0)) = true := by
    decide +kernel
  obtain ⟨s, hs, hcls, hgroup⟩ := Run.exists_of_exec hexec
  have hpath : s.path longPathMachine 1 = foregroup := by
    unfold State.path
    rw [hgroup]
    rfl
  refine ⟨s, hs, hcls, (quantumOwn_iff fun _ _ => rfl).mpr (Or.inr (Or.inl ?_))⟩
  rw [hpath]
  decide

/-- **A path that does not fit**: once the interval of another task was asked for, the task whose
path is too long is told ten ticks, and before it none. -/
theorem quantum_of_another : ∃ s, Reachable longPathMachine s ∧ (s.tasks 1).schedClass = .wrr ∧
    IsOther s 1 2 ∧ ¬ QuantumOwn longPathMachine 1 s := by
  have hexec : ((Run.exec (step longPathMachine) (boot longPathMachine) startInOtherGroup).any
      fun s => decide (((s.tasks 1).schedClass = .wrr ∧ (s.tasks 1).policy = .wrr ∧
        (s.tasks 1).schedTaskGroup = 2) ∧ (2 ∈ s.tasklist ∧ (s.tasks 2).schedClass = .wrr ∧
        (s.tasks 2).schedTaskGroup = 0) ∧ s.groupPath = "")) = true := by
    decide +kernel
  obtain ⟨s, hs, ⟨hcls, hpolicy, hgroup⟩, ⟨hlisted, hcls', hgroup'⟩, hbuf⟩ :=
    Run.exists_of_exec hexec
  have hother : IsOther s 1 2 := ⟨by decide, hlisted, hcls'⟩
  have hlong : s.path longPathMachine 1 = longPath 4095 := by
    unfold State.path
    rw [hgroup]
    rfl
  have hfore : s.path longPathMachine 2 = foregroup := by
    unfold State.path
    rw [hgroup']
    rfl
  refine ⟨s, hs, hcls, hother, fun hown => ?_⟩
  have hsame := own_of_long (fun _ _ => rfl) hown hpolicy (hlong ▸ not_pathFits_longPath le_rfl) hother
    (by rw [hfore]; decide)
  rw [hfore, hbuf] at hsame
  exact absurd hsame (by decide)

end WrrScheduler
