/-
No task is lost to the load average.

A task a CPU has sampled is in exactly one place: in `calc_load_tasks`, in one of the
two idle buckets, or in the locals of a call that folded it and has not added it yet.
A fold moves the snapshot of its CPU and the locals of its call by the same amount, an
add or an exchange moves what it carries, and nothing else touches either side.  Which
bucket the index and the window choose, and when, makes no difference.
-/
import WrrScheduler.Kernel.LoadAvg
import WrrScheduler.Lib.Share

namespace WrrScheduler

variable {n HZ : Nat}

/-- The delta a call has folded and not yet added. -/
def LoadPc.delta : LoadPc n → Int
  | accountAdd _ delta => delta
  | enterIdx delta => delta
  | enterWindow delta _ => delta
  | enterAdd delta _ => delta
  | globalAdd delta => delta
  | _ => 0

/-- What the CPUs have sampled. -/
def LoadAvg.sampled (s : LoadAvg n) : Int := ∑ cpu, (s.rq cpu).calcLoadActive

/-- The deltas folded but not yet added. -/
def LoadSys.pending (s : LoadSys n) : Int := (s.calls.map LoadPc.delta).sum

/-! ### What each part of a step moves -/

theorem fold_delta (q : LoadRq) :
    (calcLoadFoldActive q).2.calcLoadActive = q.calcLoadActive + (calcLoadFoldActive q).1 := by
  by_cases h : q.nrRunning + q.nrUninterruptible ≠ q.calcLoadActive
  · simp only [calcLoadFoldActive, if_pos h]
    omega
  · simp only [calcLoadFoldActive, if_neg h]
    omega

@[simp] theorem booked_modRq (s : LoadAvg n) (cpu : Fin n) (f : LoadRq → LoadRq) :
    (s.modRq cpu f).booked = s.booked := rfl

theorem sampled_modRq (s : LoadAvg n) (cpu : Fin n) (f : LoadRq → LoadRq) :
    (s.modRq cpu f).sampled =
      s.sampled + ((f (s.rq cpu)).calcLoadActive - (s.rq cpu).calcLoadActive) :=
  Share.sum_amount LoadRq.calcLoadActive s.rq cpu (f (s.rq cpu))

/-- Changing what is no snapshot leaves what is sampled. -/
theorem sampled_modRq_same (s : LoadAvg n) (cpu : Fin n) (f : LoadRq → LoadRq)
    (h : (f (s.rq cpu)).calcLoadActive = (s.rq cpu).calcLoadActive) :
    (s.modRq cpu f).sampled = s.sampled := by
  rw [sampled_modRq, h]
  omega

theorem booked_idle (s : LoadAvg n) (idx : Fin 2) (v : Int) :
    { s with calcLoadIdle := Function.update s.calcLoadIdle idx v : LoadAvg n }.booked =
      s.booked + (v - s.calcLoadIdle idx) := by
  match idx with
  | 0 =>
      have hother : Function.update s.calcLoadIdle 0 v 1 = s.calcLoadIdle 1 :=
        Function.update_of_ne Fin.zero_ne_one.symm v _
      simp only [LoadAvg.booked, Function.update_self, hother]
      omega
  | 1 =>
      have hother : Function.update s.calcLoadIdle 1 v 0 = s.calcLoadIdle 0 :=
        Function.update_of_ne Fin.zero_ne_one v _
      simp only [LoadAvg.booked, Function.update_self, hother]
      omega

theorem ifDelta_delta (delta : Int) {pc other : LoadPc n} (hpc : pc.delta = delta)
    (hother : other.delta = 0) :
    (ifDelta delta (some pc) (some other)).elim 0 LoadPc.delta = delta := by
  by_cases h : delta = 0
  · simp [ifDelta, h, hother]
  · simp [ifDelta, h, hpc]

theorem ifDelta_none (delta : Int) {pc : LoadPc n} (hpc : pc.delta = delta) :
    (ifDelta delta (some pc) none).elim 0 LoadPc.delta = delta := by
  by_cases h : delta = 0
  · simp [ifDelta, h]
  · simp [ifDelta, h, hpc]

theorem test_delta (early : Bool) {pc : LoadPc n} (hpc : pc.delta = 0) :
    (if early then none else some pc).elim 0 LoadPc.delta = 0 := by
  cases early with
  | true => rfl
  | false => exact hpc

/-! ### One step

The balance of a step that folds: the snapshot and the call's own delta grow alike.
Every other step moves a delta from a call to a counter, from a bucket to a call, or
does neither, so the sum of the two does not change.
-/

/-- A fold books what it samples, in the locals of its call. -/
theorem fold_balance (s : LoadAvg n) (cpu : Fin n) :
    (s.modRq cpu fun _ => (calcLoadFoldActive (s.rq cpu)).2).sampled =
      s.sampled + (calcLoadFoldActive (s.rq cpu)).1 := by
  rw [sampled_modRq, fold_delta]
  omega

/-- **A step of a call keeps the balance** of what is booked and carried with what is sampled. -/
theorem run_balance (s : LoadAvg n) (pc : LoadPc n) :
    (pc.run HZ s).1.booked + (pc.run HZ s).2.elim 0 LoadPc.delta + s.sampled =
      s.booked + pc.delta + (pc.run HZ s).1.sampled := by
  cases pc with
  | accountFold cpu =>
      have hfold := fold_balance s cpu
      have hnext := @ifDelta_delta n (calcLoadFoldActive (s.rq cpu)).1
        (.accountAdd cpu (calcLoadFoldActive (s.rq cpu)).1) (.accountNext cpu) rfl rfl
      simp only [LoadPc.run, booked_modRq, LoadPc.delta]
      omega
  | enterFold cpu =>
      have hfold := fold_balance s cpu
      have hnext := @ifDelta_none n (calcLoadFoldActive (s.rq cpu)).1
        (.enterIdx (calcLoadFoldActive (s.rq cpu)).1) rfl
      simp only [LoadPc.run, booked_modRq, LoadPc.delta]
      omega
  | accountAdd cpu delta =>
      show s.calcLoadTasks + delta + s.calcLoadIdle 0 + s.calcLoadIdle 1 + 0 + s.sampled =
        s.calcLoadTasks + s.calcLoadIdle 0 + s.calcLoadIdle 1 + delta + s.sampled
      omega
  | globalAdd delta =>
      show s.calcLoadTasks + delta + s.calcLoadIdle 0 + s.calcLoadIdle 1 + 0 + s.sampled =
        s.calcLoadTasks + s.calcLoadIdle 0 + s.calcLoadIdle 1 + delta + s.sampled
      omega
  | enterAdd delta idx =>
      show LoadAvg.booked { s with calcLoadIdle := _ } + 0 + s.sampled =
        s.booked + delta + s.sampled
      rw [booked_idle]
      omega
  | foldXchg idx =>
      have hnext := @ifDelta_delta n (s.calcLoadIdle idx) (.globalAdd (s.calcLoadIdle idx))
        .globalSample rfl rfl
      show LoadAvg.booked { s with calcLoadIdle := _ } + Option.elim (ifDelta _ _ _) _ _ +
        s.sampled = s.booked + 0 + s.sampled
      rw [booked_idle, hnext]
      omega
  | accountNext cpu =>
      simp only [LoadPc.run, booked_modRq, LoadPc.delta, Option.elim]
      rw [sampled_modRq_same _ _ _ rfl]
  | exitSync cpu =>
      simp only [LoadPc.run, booked_modRq, LoadPc.delta, Option.elim]
      rw [sampled_modRq_same _ _ _ rfl]
  | exitWindow cpu =>
      simp only [LoadPc.run, booked_modRq, LoadPc.delta, Option.elim]
      rw [sampled_modRq_same]
      split
      · rfl
      · rfl
  | nohzCatchUp =>
      have hbooked : (calcGlobalNohz HZ s).booked = s.booked := by
        unfold calcGlobalNohz
        split
        · rfl
        · rfl
      have hsampled : (calcGlobalNohz HZ s).sampled = s.sampled := by
        unfold calcGlobalNohz
        split
        · rfl
        · rfl
      simp only [LoadPc.run, LoadPc.delta, Option.elim, hbooked, hsampled]
  | accountTest cpu =>
      simp only [LoadPc.run, LoadPc.delta]
      rw [test_delta _ rfl]
  | exitTest cpu =>
      simp only [LoadPc.run, LoadPc.delta]
      rw [test_delta _ rfl]
  | globalTest =>
      simp only [LoadPc.run, LoadPc.delta]
      rw [test_delta _ rfl]
  | foldRead idx =>
      by_cases hempty : s.calcLoadIdle idx = 0
      · simp [LoadPc.run, LoadPc.delta, hempty]
      · simp [LoadPc.run, LoadPc.delta, hempty]
  | enterIdx delta => simp only [LoadPc.run, LoadPc.delta, Option.elim]
  | enterWindow delta idx => simp only [LoadPc.run, LoadPc.delta, Option.elim]
  | foldIdx => simp only [LoadPc.run, LoadPc.delta, Option.elim]
  | globalSample => rfl
  | globalNext => rfl
  | nohzFlip => rfl

/-! ### Every run

The balance needs no condition on which step comes when, so it holds for every
interleaving of calls on any number of CPUs.  The window and the index decide where a
delta goes, never whether it is kept.  Nothing is said of *when* a delta is counted:
that is what the window is for.
-/

/-- Everything sampled is booked or on its way. -/
def LoadSys.Balanced (s : LoadSys n) : Prop := s.booked + s.pending = s.sampled

theorem remove_balance (s : LoadAvg n) (cpu : Fin n) :
    (calcGlobalLoadRemove cpu s).booked + s.sampled =
      s.booked + (calcGlobalLoadRemove cpu s).sampled := by
  rw [calcGlobalLoadRemove, sampled_modRq, booked_modRq]
  show s.calcLoadTasks - (s.rq cpu).calcLoadActive + s.calcLoadIdle 0 + s.calcLoadIdle 1 +
      s.sampled =
    s.calcLoadTasks + s.calcLoadIdle 0 + s.calcLoadIdle 1 +
      (s.sampled + (0 - (s.rq cpu).calcLoadActive))
  omega

theorem Balanced.step {s t : LoadSys n} {o : LoadOp n} (hs : s.Balanced)
    (h : loadStep HZ s o = some t) : t.Balanced := by
  unfold LoadSys.Balanced at hs
  cases o with
  | begin c =>
      cases h
      show s.booked + ((c.entry ::ₘ s.calls).map LoadPc.delta).sum = s.sampled
      have hentry : c.entry.delta = 0 := by cases c <;> rfl
      rw [Multiset.map_cons, Multiset.sum_cons, hentry, zero_add]
      exact hs
  | run pc =>
      by_cases hpc : pc ∈ s.calls
      · rw [loadStep, if_pos hpc] at h
        cases h
        have hsplit : s.pending = pc.delta + ((s.calls.erase pc).map LoadPc.delta).sum := by
          rw [LoadSys.pending, ← Multiset.sum_cons, ← Multiset.map_cons, Multiset.cons_erase hpc]
        have hnext : ∀ next : Option (LoadPc n),
            ((next.elim 0 ({·}) + s.calls.erase pc).map LoadPc.delta).sum =
              next.elim 0 LoadPc.delta + ((s.calls.erase pc).map LoadPc.delta).sum := by
          intro next
          cases next with
          | none => simp
          | some pc' => simp
        have hbalance := @run_balance n HZ s.toLoadAvg pc
        have hafter := hnext (pc.run HZ s.toLoadAvg).2
        show (pc.run HZ s.toLoadAvg).1.booked + Multiset.sum _ = (pc.run HZ s.toLoadAvg).1.sampled
        refine (congrArg ((pc.run HZ s.toLoadAvg).1.booked + ·) hafter).trans ?_
        omega
      · rw [loadStep, if_neg hpc] at h
        cases h
  | tick jiffies =>
      cases h
      exact hs
  | activity cpu nrRunning nrUninterruptible =>
      cases h
      refine hs.trans (Eq.symm ?_)
      exact sampled_modRq_same s.toLoadAvg cpu (fun q =>
        { q with nrRunning := nrRunning, nrUninterruptible := nrUninterruptible }) rfl
  | calcGlobalLoadRemove cpu =>
      cases h
      have hbalance := remove_balance s.toLoadAvg cpu
      show (calcGlobalLoadRemove cpu s.toLoadAvg).booked + s.pending =
        (calcGlobalLoadRemove cpu s.toLoadAvg).sampled
      omega

theorem balanced_loadBoot (n HZ : Nat) (jiffies : BitVec 32) : (loadBoot n HZ jiffies).Balanced := by
  simp [LoadSys.Balanced, LoadAvg.booked, LoadSys.pending, LoadAvg.sampled, loadBoot]

/-- **No load is lost**: whatever calls are in flight, the counter, the two idle buckets and the
deltas on their way add up to what the CPUs have sampled. -/
theorem load_conserved (n HZ : Nat) (jiffies : BitVec 32) (s : LoadSys n)
    (h : Run.Reachable (loadStep HZ) (loadBoot n HZ jiffies) s) :
    s.calcLoadTasks + s.calcLoadIdle 0 + s.calcLoadIdle 1 + (s.calls.map LoadPc.delta).sum =
      ∑ cpu, (s.rq cpu).calcLoadActive :=
  h.invariant LoadSys.Balanced (fun _ _ _ hs hstep => Balanced.step hs hstep)
    (balanced_loadBoot n HZ jiffies)

/-- Two CPUs: one goes idle with its delta on the way to a bucket, the other has sampled nothing. -/
theorem load_conserved_idle : ∃ s : LoadSys 2, (s.calls.map LoadPc.delta).sum = 3 ∧
    s.calcLoadTasks + s.calcLoadIdle 0 + s.calcLoadIdle 1 + (s.calls.map LoadPc.delta).sum =
      ∑ cpu, (s.rq cpu).calcLoadActive := by
  have hrun : ((Run.exec (loadStep 100) (loadBoot 2 100 0)
      [.activity 0 2 1, .begin (.calcLoadEnterIdle 0), .run (.enterFold 0)]).any
        fun s => decide ((s.calls.map LoadPc.delta).sum = 3)) = true := by decide +kernel
  obtain ⟨s, hreach, hsum⟩ := Run.exists_of_exec hrun
  exact ⟨s, hsum, load_conserved 2 100 0 s hreach⟩

end WrrScheduler
