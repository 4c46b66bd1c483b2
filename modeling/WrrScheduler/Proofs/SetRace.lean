/-
A change of policy is made whole or not at all, whoever else is at it.

What the checks settle without the lock is remembered, and the part under the lock
writes nothing but that.  A call that keeps the policy of the task (`sched_setparam`)
remembers which one it saw and writes only if the lock finds the same.  So the one
step that writes is the one that returns 0, and every other leaves the machine alone.
-/
import WrrScheduler.Kernel.SetRace
import WrrScheduler.Proofs.PriorityRange

namespace WrrScheduler

/-- What a call that asked for `policy` writes: the policy and the priority, which pass its own
checks for a task as the lock finds it; and a negative number keeps the policy the task has. -/
structure WritesPair (p : Pid) (policy : BitVec 32) (prio : Int) (s t : State) : Prop where
  rtPriority : (t.tasks p).rtPriority = prio
  passes : ∀ who, ∃ c, check (s.tasks p).toAttr (t.tasks p).policy.code prio false who = .ok c
  kept : policy.toInt < 0 → (t.tasks p).policy = (s.tasks p).policy

/-- What the call remembers, having begun with `policy`. -/
def SetPc.Sound (policy : BitVec 32) (prio : Int) : SetPc → Prop
  | recheck now => now.toInt < 0 ↔ policy.toInt < 0
  | lock c => priorityOk c.policy prio ∧
      ((0 ≤ policy.toInt ∧ c.oldpolicy = none) ∨
        (policy.toInt < 0 ∧ c.oldpolicy = some c.policy))
  | returned _ => True

variable {m : Machine} {p : Pid} {prio : Int} {user : Bool} {policy : BitVec 32} {r r' : SetRace}
  {o : SetRaceOp}

/-! ### The steps of the call

`Sound` is what the call may rely on about its own locals: how the number it was given
and what it decided from it belong together.  Other operations change the tasks, not
the locals, so no condition on them is needed.  Of the call's own steps the checks
write nothing, and the one under the lock either starts over, fails, or writes.
-/

theorem sound_of_check {seen : Attr} {who : Caller} {now : BitVec 32} {c : Checked}
    (hnow : now.toInt < 0 ↔ policy.toInt < 0) (hcheck : check seen now prio user who = .ok c) :
    (SetPc.lock c).Sound policy prio := by
  obtain ⟨hreq, hok, -⟩ := check_eq_ok_iff.mp hcheck
  refine ⟨hok, ?_⟩
  rcases requested_cases hreq with ⟨hneg, hpolicy, hold, -⟩ | ⟨hpos, -, hnone, -⟩
  · exact Or.inr ⟨hnow.mp hneg, hpolicy ▸ hold⟩
  · have hgiven : ¬ policy.toInt < 0 := fun h => absurd (hnow.mpr h) (by omega)
    exact Or.inl ⟨by omega, hnone⟩

/-- The pair written under the lock. -/
theorem writesPair_changePolicy {s : State} {c : Checked}
    (hsound : (SetPc.lock c).Sound policy prio)
    (hold : c.oldpolicy = none ∨ c.oldpolicy = some (s.tasks p).policy) :
    WritesPair p policy prio s (changePolicy m p c prio s) := by
  have hattr : ((changePolicy m p c prio s).tasks p).toAttr =
      setPolicy c prio (s.tasks p).toAttr := by
    rw [attr_changePolicy, if_pos rfl]
  have hpolicy : ((changePolicy m p c prio s).tasks p).policy = c.policy := by
    rw [hattr]
    rfl
  refine ⟨?_, ?_, ?_⟩
  · rw [hattr]
    rfl
  · intro who
    rw [hpolicy]
    have hcode : policyArg c.policy false = c.policy.code := by simp [policyArg]
    have hreq := requested_policyArg (s.tasks p).toAttr c.policy false
    rw [hcode] at hreq
    exact ⟨_, check_eq_ok_iff.mpr ⟨hreq, hsound.1, fun h => by cases h⟩⟩
  · intro hneg
    rw [hpolicy]
    rcases hsound.2 with ⟨hpos, -⟩ | ⟨-, hkept⟩
    · omega
    · rcases hold with hnone | hsame
      · rw [hnone] at hkept
        cases hkept
      · exact Option.some.inj (hkept.symm.trans hsame)

/-- **What the call remembers stays sound**, whatever happens. -/
theorem sound_step (hr : r.pc.Sound policy prio) (hstep : setRaceStep m p prio user r o = some r') :
    r'.pc.Sound policy prio := by
  cases o with
  | other o =>
      obtain ⟨s, -, rfl⟩ := Option.map_eq_some_iff.mp hstep
      exact hr
  | validate seen who =>
      unfold setRaceStep at hstep
      simp only [] at hstep
      split at hstep
      · rename_i now hpc
        rw [hpc] at hr
        split at hstep
        · cases hstep
          trivial
        · rename_i c hcheck
          cases hstep
          exact sound_of_check hr hcheck
      · cases hstep
  | takeLock =>
      unfold setRaceStep at hstep
      simp only [] at hstep
      split at hstep
      · rename_i c hpc
        rw [hpc] at hr
        split at hstep
        · cases hstep
          trivial
        · rename_i hlocked
          cases hstep
          -- only a call that keeps the policy starts over
          have hminus : (-1 : BitVec 32).toInt < 0 := by decide
          rcases hr.2 with ⟨-, hnone⟩ | ⟨hneg, -⟩
          · exact absurd hnone (locked_recheck hlocked)
          · exact iff_of_true hminus hneg
      · cases hstep

/-- **A step of the call writes nothing, or it writes a pair that passes and returns 0.** -/
theorem own_step (hr : r.pc.Sound policy prio) (hown : o.own = true)
    (hstep : setRaceStep m p prio user r o = some r') :
    r'.sched = r.sched ∨
      WritesPair p policy prio r.sched r'.sched ∧ r'.pc = .returned 0 := by
  cases o with
  | other o => cases hown
  | validate seen who =>
      unfold setRaceStep at hstep
      simp only [] at hstep
      split at hstep
      · split at hstep
        · cases hstep
          exact Or.inl rfl
        · cases hstep
          exact Or.inl rfl
      · cases hstep
  | takeLock =>
      unfold setRaceStep at hstep
      simp only [] at hstep
      split at hstep
      · rename_i c hpc
        rw [hpc] at hr
        split at hstep
        · rename_i ret s hlocked
          cases hstep
          rcases locked_done hlocked with ⟨hsame, -⟩ | ⟨rfl, rfl, hstop, hchange, hold⟩
          · exact Or.inl hsame
          · exact Or.inr ⟨writesPair_changePolicy hr hold, rfl⟩
        · cases hstep
          exact Or.inl rfl
      · cases hstep

/-- A call that has returned stays where it is. -/
theorem returned_step {ret : Int} (hr : r.pc = .returned ret)
    (hstep : setRaceStep m p prio user r o = some r') : r'.pc = .returned ret := by
  cases o with
  | other o =>
      obtain ⟨s, -, rfl⟩ := Option.map_eq_some_iff.mp hstep
      exact hr
  | validate seen who =>
      rw [setRaceStep, hr] at hstep
      cases hstep
  | takeLock =>
      rw [setRaceStep, hr] at hstep
      cases hstep

/-! ### Whole calls -/

/-- A call that nothing comes between is `schedSetscheduler`. -/
theorem run_of_schedSetscheduler {who : Caller} {seen : List Attr} {ret : Int} {s t : State}
    (hcall : schedSetscheduler m p prio user who seen policy s = some (ret, t)) :
    ∃ tr, Run (setRaceStep m p prio user) { sched := s, pc := .recheck policy } tr
        { sched := t, pc := .returned ret } ∧ ∀ e ∈ tr, e.2.own = true := by
  induction seen generalizing policy with
  | nil => cases hcall
  | cons a rest ih =>
      rw [schedSetscheduler] at hcall
      split at hcall
      · rename_i e hcheck
        cases hcall
        refine ⟨_, .one (o := .validate a who) ?_, by simp [SetRaceOp.own]⟩
        simp [setRaceStep, hcheck]
      · rename_i c hcheck
        have hvalidate : setRaceStep m p prio user { sched := s, pc := .recheck policy }
            (.validate a who) = some { sched := s, pc := .lock c } := by
          simp [setRaceStep, hcheck]
        split at hcall
        · rename_i ret' t' hlocked
          cases hcall
          have hlock : setRaceStep m p prio user { sched := s, pc := .lock c } .takeLock =
              some { sched := t, pc := .returned ret } := by
            simp [setRaceStep, hlocked]
          exact ⟨_, .cons hvalidate (.one hlock), by simp [SetRaceOp.own]⟩
        · rename_i hlocked
          obtain ⟨tr, hrun, hown⟩ := ih hcall
          have hlock : setRaceStep m p prio user { sched := s, pc := .lock c } .takeLock =
              some { sched := s, pc := .recheck (-1) } := by
            simp [setRaceStep, hlocked]
          exact ⟨_, .cons hvalidate (.cons hlock hrun), by simpa [SetRaceOp.own] using hown⟩

/-- **Policy changes are all or nothing.**  Among any other operations, and however often it starts
over, a call that returns an error has changed nothing, and a step of a call that changes anything
writes a pair that passes the checks. -/
theorem setscheduler_all_or_nothing {s : State} {tr : List (SetRace × SetRaceOp)}
    (h : Run (setRaceStep m p prio user) { sched := s, pc := .recheck policy } tr r) :
    (∀ ret, r.pc = .returned ret → ret ≠ 0 → ∀ e ∈ tr, e.2.own = true →
      ∀ r', setRaceStep m p prio user e.1 e.2 = some r' → r'.sched = e.1.sched) ∧
    ∀ e ∈ tr, e.2.own = true → ∀ r', setRaceStep m p prio user e.1 e.2 = some r' →
      r'.sched = e.1.sched ∨ WritesPair p policy prio e.1.sched r'.sched := by
  have hsound := (h.invariant (fun r => r.pc.Sound policy prio) (fun _ _ => True)
    (fun _ _ _ hr _ hstep => sound_step hr hstep) Iff.rfl (fun _ _ => trivial)).2
  refine ⟨?_, ?_⟩
  · intro ret hret hne e he hown r' hstep
    rcases own_step (hsound e he) hown hstep with hsame | ⟨-, hzero⟩
    · exact hsame
    · -- the call would have returned 0 by then, for good
      exfalso
      obtain ⟨tr₁, tr₂, rfl⟩ := List.append_of_mem he
      obtain ⟨v, -, hv, hrest⟩ := h.around
      obtain rfl : v = r' := Option.some.inj (hv.symm.trans hstep)
      have hend := (hrest.invariant (fun r => r.pc = .returned 0) (fun _ _ => True)
        (fun _ _ _ hr _ hstep => returned_step hr hstep) hzero (fun _ _ => trivial)).1
      rw [hret] at hend
      cases hend
      exact hne rfl
  · intro e he hown r' hstep
    rcases own_step (hsound e he) hown hstep with hsame | ⟨hpair, -⟩
    · exact Or.inl hsame
    · exact Or.inr hpair

/-- A `SCHED_FIFO` task is made a `SCHED_RR` one between the two halves of `sched_setparam`, which
starts over and keeps the new policy. -/
theorem all_or_nothing_setparam : ∃ tr r,
    Run (setRaceStep (sampleMachine 10) 1 20 false)
        { sched := boot (sampleMachine 10), pc := .recheck (-1) } tr r ∧
      (r.sched.tasks 1).policy = .rr ∧ (r.sched.tasks 1).rtPriority = 20 ∧
      ∀ e ∈ tr, e.2.own = true →
        ∀ r', setRaceStep (sampleMachine 10) 1 20 false e.1 e.2 = some r' →
          r'.sched = e.1.sched ∨ WritesPair 1 (-1) 20 e.1.sched r'.sched := by
  let new := (initTask (sampleMachine 10)).toAttr
  have hrun : ((Run.trace (setRaceStep (sampleMachine 10) 1 20 false)
      { sched := boot (sampleMachine 10), pc := .recheck (-1) }
      [.other (.schedFork 1 sampleForeign),
        .other (sampleSetscheduler 1 Policy.fifo.code 50 [new]),
        .validate { new with policy := .fifo } sampleCaller,
        .other (sampleSetscheduler 1 Policy.rr.code 50 [new]), .takeLock,
        .validate { new with policy := .rr } sampleCaller, .takeLock]).any fun r =>
          decide ((r.2.sched.tasks 1).policy = .rr ∧ (r.2.sched.tasks 1).rtPriority = 20)) =
      true := by decide +kernel
  obtain ⟨⟨tr, r⟩, hrun, hpolicy, hprio⟩ := Run.exists_of_trace hrun
  exact ⟨tr, r, hrun, hpolicy, hprio, (setscheduler_all_or_nothing hrun).2⟩

end WrrScheduler
