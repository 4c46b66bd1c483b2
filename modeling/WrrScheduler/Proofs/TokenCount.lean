/-
Completions count their tokens and lose no wake-up.

The counter is what was given less what was taken, and a call takes a token exactly
when the value it returns says so: the loop is left on a signal or a timeout only
with the counter at zero, so what it returns then is never mistaken for a token.

A waiter that is awake will look at the counter before it sleeps again, so it is
enough that with `done` tokens as many of the queued waiters are awake, or all.
`complete` wakes the first that sleeps, and a waiter leaves or goes back to sleep
either with its token or with the counter at zero.
-/
import WrrScheduler.Kernel.Step
import WrrScheduler.Kernel.Completion

namespace WrrScheduler

/-- Whether a call took a token. -/
def Returned.consumed : Returned → Bool
  | wait _ _ consumed => consumed
  | tryWait _ consumed => consumed

/-- How a call tells its caller that it took a token. -/
def Returned.Tells : Returned → Prop
  | wait fn ret consumed =>
    (0 < ret ↔ consumed = true) ∧
    (fn.takesTimeout = true → ∀ r, fn.result ret = some r → (0 < r ↔ consumed = true)) ∧
    (fn = .waitForCompletionInterruptible ∨ fn = .waitForCompletionKillable →
      ∀ r, fn.result ret = some r → (r = 0 ↔ consumed = true))
  | tryWait ret consumed => ret = consumed

/-- A waiter runs, or sleeps in a state that `complete` wakes from. -/
def Wakeable (state : Nat) : Prop := state = taskRunning ∨ state &&& taskNormal ≠ 0

/-- Whether a waiter is awake. -/
def awake (taskState : Pid → Nat) (p : Pid) : Bool := taskState p = taskRunning

namespace CompletionSys

/-- The calls that took a token. -/
def consumed (s : CompletionSys) : Nat := s.returned.countP Returned.consumed

/-- The queued waiters that are awake. -/
def awakeWaiters (s : CompletionSys) : Nat := s.wait.countP (awake s.taskState)

/-- What holds of a completion at any time. -/
structure Sound (s : CompletionSys) : Prop where
  count : s.done + s.consumed = s.completes
  tells : ∀ r ∈ s.returned, r.Tells
  nodup : s.wait.Nodup
  asleep : ∀ p ∈ s.wait, Wakeable (s.taskState p)
  unbounded : ∀ p ∈ s.wait, (s.fn p).takesTimeout = false → s.timeout p = maxScheduleTimeout
  woken : min s.done s.wait.length ≤ s.awakeWaiters

end CompletionSys

/-! ### Waking

`complete` wakes the first waiter that sleeps, so the number of those awake grows by
one or all are awake.  Nobody is put to sleep by it.
-/

section Wake

variable {taskState : Pid → Nat} {p q : Pid} {l : List Pid} {nr : Int}

theorem awake_update (h : awake taskState q = true) :
    awake (Function.update taskState p taskRunning) q = true := by
  by_cases hq : q = p
  · simp [awake, hq]
  · simpa [awake, hq] using h

theorem countP_awake_update (l : List Pid) :
    l.countP (awake taskState) ≤ l.countP (awake (Function.update taskState p taskRunning)) :=
  List.countP_mono_left fun _ _ hq => awake_update hq

/-- Waking leaves nobody asleep who was awake. -/
theorem awake_wakeUpCommon (h : awake taskState q = true) :
    awake (wakeUpCommon taskNormal l nr taskState) q = true := by
  induction l generalizing nr taskState with
  | nil => exact h
  | cons p ps ih =>
      by_cases hp : taskState p &&& taskNormal = 0
      · simpa [wakeUpCommon, wakeWaiter, hp] using ih h
      · by_cases hnr : nr - 1 = 0
        · simpa [wakeUpCommon, wakeWaiter, hp, hnr] using awake_update h
        · simpa [wakeUpCommon, wakeWaiter, hp, hnr] using ih (awake_update h)

theorem state_wakeUpCommon (q : Pid) :
    wakeUpCommon taskNormal l nr taskState q = taskState q ∨
      wakeUpCommon taskNormal l nr taskState q = taskRunning := by
  induction l generalizing nr taskState with
  | nil => exact Or.inl rfl
  | cons p ps ih =>
      by_cases hp : taskState p &&& taskNormal = 0
      · simpa [wakeUpCommon, wakeWaiter, hp] using ih
      · have hupdate : Function.update taskState p taskRunning q = taskState q ∨
            Function.update taskState p taskRunning q = taskRunning := by
          by_cases hq : q = p
          · simp [hq]
          · simp [hq]
        by_cases hnr : nr - 1 = 0
        · simpa [wakeUpCommon, wakeWaiter, hp, hnr] using hupdate
        · simp only [wakeUpCommon, wakeWaiter, hp, hnr, if_false]
          have hrest := @ih (Function.update taskState p taskRunning) (nr - 1)
          rcases hrest with h | h
          · rw [h]
            exact hupdate
          · exact Or.inr h

/-- **`complete` wakes one more waiter**, if there is one left to wake. -/
theorem countP_wakeUpCommon
    (hasleep : ∀ q ∈ l, Wakeable (taskState q)) :
    min (l.countP (awake taskState) + 1) l.length ≤
      l.countP (awake (wakeUpCommon taskNormal l 1 taskState)) := by
  induction l generalizing taskState with
  | nil => simp
  | cons p ps ih =>
      rcases hasleep p List.mem_cons_self with hp | hp
      · have hzero : taskState p &&& taskNormal = 0 := by
          rw [hp]
          rfl
        have hawake : awake taskState p = true := by simp [awake, hp]
        have hrest := ih fun q hq => hasleep q (List.mem_cons_of_mem _ hq)
        have hstays : awake (wakeUpCommon taskNormal ps 1 taskState) p = true :=
          awake_wakeUpCommon hawake
        simp only [wakeUpCommon, wakeWaiter, hzero, if_true]
        rw [List.countP_cons_of_pos hawake, List.countP_cons_of_pos hstays, List.length_cons]
        omega
      · have hsleeps : ¬ awake taskState p = true := by
          intro hc
          rw [awake, decide_eq_true_eq] at hc
          rw [hc] at hp
          exact hp rfl
        have hwoken : awake (Function.update taskState p taskRunning) p = true := by simp [awake]
        have hrest := @countP_awake_update taskState p ps
        simp only [wakeUpCommon, wakeWaiter, hp, if_false, Int.sub_self, if_true]
        rw [List.countP_cons_of_neg hsleeps, List.countP_cons_of_pos hwoken]
        omega

/-- A waiter that is awake leaves. -/
theorem countP_del (hp : p ∈ l) (hawake : awake taskState p = true) :
    (Sequence.del p l).countP (awake taskState) + 1 = l.countP (awake taskState) := by
  have hperm := (List.perm_cons_erase hp).countP_eq (awake taskState)
  rw [hperm, List.countP_cons_of_pos hawake]
  rfl

end Wake

/-! ### Returning -/

section Return

variable {s : CompletionSys} {p : Pid} {fn : WaitFn} {timeout : Int} {current : Attr} {r : Returned}

/-- With a token a wait returns something positive, or 0 where that is the word for it. -/
theorem tells_token (h : 0 ≤ timeout) :
    (Returned.wait fn (if timeout ≠ 0 then timeout else 1) true).Tells := by
  have hpos : 0 < if timeout ≠ 0 then timeout else 1 := by
    split
    · omega
    · omega
  have hrestart : (if timeout ≠ 0 then timeout else 1) ≠ -eRestartsys := by
    rw [eRestartsys]
    omega
  refine ⟨by simpa using hpos, ?_, ?_⟩
  · intro hfn r hr
    cases fn with
    | waitForCompletionTimeout | waitForCompletionInterruptibleTimeout
      | waitForCompletionKillableTimeout =>
        cases hr
        simpa using hpos
    | waitForCompletion | waitForCompletionInterruptible | waitForCompletionKillable => cases hfn
  · rintro (rfl | rfl) r hr
    · rw [WaitFn.result, if_neg hrestart] at hr
      simpa using hr.symm
    · rw [WaitFn.result, if_neg hrestart] at hr
      simpa using hr.symm

/-- Without one it returns nothing positive, and without a timeout `-ERESTARTSYS`. -/
theorem tells_without (h : timeout ≤ 0)
    (hunbounded : fn.takesTimeout = false → timeout = -eRestartsys) :
    (Returned.wait fn timeout false).Tells := by
  refine ⟨by simpa using h, ?_, ?_⟩
  · intro hfn r hr
    cases fn with
    | waitForCompletionTimeout | waitForCompletionInterruptibleTimeout
      | waitForCompletionKillableTimeout =>
        cases hr
        simpa using h
    | waitForCompletion | waitForCompletionInterruptible | waitForCompletionKillable => cases hfn
  · rintro (rfl | rfl) r hr
    · rw [WaitFn.result, if_pos (hunbounded rfl), hunbounded rfl] at hr
      cases hr
      simp [eRestartsys]
    · rw [WaitFn.result, if_pos (hunbounded rfl), hunbounded rfl] at hr
      cases hr
      simp [eRestartsys]

namespace CompletionSys

theorem finishWait_zero (h : s.done = 0) :
    s.finishWait fn timeout = { s with returned := .wait fn timeout false :: s.returned } := by
  simp [finishWait, takeToken, h]

theorem finishWait_pos (h : s.done ≠ 0) :
    s.finishWait fn timeout =
      { s with done := s.done - 1
               returned := .wait fn (if timeout ≠ 0 then timeout else 1) true :: s.returned } := by
  have hlt : s.done - 1 < s.done := by omega
  simp [finishWait, takeToken, h, hlt]

theorem consumed_cons (hconsumed : r.consumed = true) :
    (r :: s.returned).countP Returned.consumed = s.consumed + 1 := List.countP_cons_of_pos hconsumed

theorem consumed_cons_not (hconsumed : r.consumed = false) :
    (r :: s.returned).countP Returned.consumed = s.consumed :=
  List.countP_cons_of_neg (by simp [hconsumed])

/-! ### What a step keeps

Three things can upset the balance of tokens and waiters that are awake.  A new token
comes with a wake-up.  A waiter that leaves with a token takes one from either side.
One that leaves without finds the counter at zero, and so does one that goes to sleep,
in `sound_turn`: there nothing is owed.
-/

/-- A call that takes no token. -/
theorem Sound.log (h : Sound s) (hr : r.Tells) (hconsumed : r.consumed = false) :
    Sound { s with returned := r :: s.returned } where
  count := by
    have hcount := h.count
    show s.done + (r :: s.returned).countP Returned.consumed = s.completes
    rw [consumed_cons_not hconsumed]
    exact hcount
  tells := List.forall_mem_cons.mpr ⟨hr, h.tells⟩
  nodup := h.nodup
  asleep := h.asleep
  unbounded := h.unbounded
  woken := h.woken

/-- A call that takes a token without having waited. -/
theorem Sound.take (h : Sound s) (hdone : s.done ≠ 0) (hr : r.Tells) (hconsumed : r.consumed = true) :
    Sound { s with done := s.done - 1, returned := r :: s.returned } where
  count := by
    have hcount := h.count
    show s.done - 1 + (r :: s.returned).countP Returned.consumed = s.completes
    rw [consumed_cons hconsumed]
    omega
  tells := List.forall_mem_cons.mpr ⟨hr, h.tells⟩
  nodup := h.nodup
  asleep := h.asleep
  unbounded := h.unbounded
  woken := by
    have hwoken := h.woken
    show min (s.done - 1) s.wait.length ≤ s.awakeWaiters
    omega

/-- A waiter that takes a token and leaves. -/
theorem Sound.leave (h : Sound s) (hp : p ∈ s.wait) (hawake : s.taskState p = taskRunning)
    (hdone : s.done ≠ 0) (hr : r.Tells) (hconsumed : r.consumed = true) :
    Sound { s with wait := Sequence.del p s.wait, done := s.done - 1,
                   returned := r :: s.returned } where
  count := by
    have hcount := h.count
    show s.done - 1 + (r :: s.returned).countP Returned.consumed = s.completes
    rw [consumed_cons hconsumed]
    omega
  tells := List.forall_mem_cons.mpr ⟨hr, h.tells⟩
  nodup := Sequence.nodup_del h.nodup
  asleep q hq := h.asleep q (Sequence.mem_of_mem_del hq)
  unbounded q hq := h.unbounded q (Sequence.mem_of_mem_del hq)
  woken := by
    have hwoken := h.woken
    have hlength := Sequence.length_del hp
    have hcount := countP_del hp (decide_eq_true hawake : awake s.taskState p = true)
    have hawakeWaiters : s.awakeWaiters = s.wait.countP (awake s.taskState) := rfl
    show min (s.done - 1) (Sequence.del p s.wait).length ≤
      (Sequence.del p s.wait).countP (awake s.taskState)
    omega

/-- One turn of the loop finds no token, so it owes nobody a wake-up. -/
theorem sound_turn (hcount : s.consumed = s.completes) (htells : ∀ r ∈ s.returned, r.Tells)
    (hnodup : s.wait.Nodup) (hdone : s.done = 0)
    (hasleep : ∀ q ∈ s.wait, q ≠ p → Wakeable (s.taskState q))
    (hunbounded : ∀ q ∈ s.wait, q ≠ p → (s.fn q).takesTimeout = false →
      s.timeout q = maxScheduleTimeout)
    (htimeout : fn.takesTimeout = false → timeout = maxScheduleTimeout) :
    Sound (s.turn p fn timeout current) := by
  by_cases hsignal : signalPendingState fn.state current = true
  · rw [turn, if_pos hsignal, @finishWait_zero (s.removeWaitQueue p) _ _ hdone]
    refine Sound.log ⟨?_, htells, Sequence.nodup_del hnodup, ?_, ?_, ?_⟩ ?_ rfl
    · show s.done + s.consumed = s.completes
      omega
    · intro q hq
      obtain ⟨hne, hq⟩ := (Sequence.mem_del hnodup).mp hq
      exact hasleep q hq hne
    · intro q hq
      obtain ⟨hne, hq⟩ := (Sequence.mem_del hnodup).mp hq
      exact hunbounded q hq hne
    · show min s.done _ ≤ _
      omega
    · exact tells_without (by decide) fun _ => rfl
  · rw [turn, if_neg hsignal]
    refine ⟨?_, htells, hnodup, ?_, ?_, ?_⟩
    · show s.done + s.consumed = s.completes
      omega
    · intro q hq
      show Wakeable (Function.update s.taskState p fn.state q)
      by_cases hqp : q = p
      · rw [hqp, Function.update_self]
        cases fn <;> exact Or.inr (by decide)
      · rw [Function.update_of_ne hqp]
        exact hasleep q hq hqp
    · intro q hq
      show (Function.update s.fn p fn q).takesTimeout = false →
        Function.update s.timeout p timeout q = maxScheduleTimeout
      by_cases hqp : q = p
      · rw [hqp, Function.update_self, Function.update_self]
        exact htimeout
      · rw [Function.update_of_ne hqp, Function.update_of_ne hqp]
        exact hunbounded q hq hqp
    · show min s.done _ ≤ _
      omega

theorem Sound.complete (h : Sound s) : Sound s.complete where
  count := by
    have hcount := h.count
    show s.done + 1 + s.consumed = s.completes + 1
    omega
  tells := h.tells
  nodup := h.nodup
  asleep q hq := by
    show Wakeable (wakeUpCommon taskNormal s.wait 1 s.taskState q)
    rcases @state_wakeUpCommon s.taskState s.wait 1 q with hq' | hq'
    · rw [hq']
      exact h.asleep q hq
    · exact Or.inl hq'
  unbounded := h.unbounded
  woken := by
    have hwoken := h.woken
    have hone := countP_wakeUpCommon h.asleep
    have hawakeWaiters : s.awakeWaiters = s.wait.countP (awake s.taskState) := rfl
    show min (s.done + 1) s.wait.length ≤
      s.wait.countP (awake (wakeUpCommon taskNormal s.wait 1 s.taskState))
    omega

theorem Sound.tryWaitForCompletion (h : Sound s) : Sound s.tryWaitForCompletion := by
  by_cases hdone : s.done = 0
  · have heq : s.tryWaitForCompletion = { s with returned := .tryWait false false :: s.returned } := by
      simp [CompletionSys.tryWaitForCompletion, hdone]
    rw [heq]
    exact h.log rfl rfl
  · have hlt : s.done - 1 < s.done := by omega
    have heq : s.tryWaitForCompletion =
        { s with done := s.done - 1, returned := .tryWait true true :: s.returned } := by
      simp [CompletionSys.tryWaitForCompletion, hdone, hlt]
    rw [heq]
    exact h.take hdone rfl rfl

theorem Sound.wait (h : Sound s) (hp : p ∉ s.wait) (htimeout : 0 ≤ timeout) :
    Sound (s.doWaitForCommon p fn (fn.timeout timeout) current) := by
  by_cases hdone : s.done = 0
  · have hcount := h.count
    rw [doWaitForCommon, if_pos hdone]
    refine sound_turn ?_ h.tells (Sequence.nodup_addTail h.nodup hp) hdone ?_ ?_ ?_
    · show s.consumed = s.completes
      omega
    · intro q hq hqp
      exact h.asleep q ((Sequence.mem_addTail.mp hq).resolve_left hqp)
    · intro q hq hqp
      exact h.unbounded q ((Sequence.mem_addTail.mp hq).resolve_left hqp)
    · intro hfn
      simp [WaitFn.timeout, hfn]
  · rw [doWaitForCommon, if_neg hdone, finishWait_pos hdone]
    refine h.take hdone (tells_token ?_) rfl
    unfold WaitFn.timeout
    split
    · exact htimeout
    · decide

theorem Sound.wake (h : Sound s) :
    Sound { s with taskState := Function.update s.taskState p taskRunning } where
  count := h.count
  tells := h.tells
  nodup := h.nodup
  asleep q hq := by
    show Wakeable (Function.update s.taskState p taskRunning q)
    by_cases hqp : q = p
    · exact Or.inl (by simp [hqp])
    · rw [Function.update_of_ne hqp]
      exact h.asleep q hq
  unbounded := h.unbounded
  woken := h.woken.trans (countP_awake_update s.wait)

theorem Sound.resume (h : Sound s) (hp : p ∈ s.wait) (hawake : s.taskState p = taskRunning)
    (htimeout : 0 ≤ timeout)
    (hmax : s.timeout p = maxScheduleTimeout → timeout = maxScheduleTimeout) :
    Sound (s.resume p timeout current) := by
  have hbound : (s.fn p).takesTimeout = false → timeout = maxScheduleTimeout :=
    fun hfn => hmax (h.unbounded p hp hfn)
  by_cases hdone : s.done = 0
  · have hcount := h.count
    by_cases hzero : timeout = 0
    · -- A wait without a bound does not time out.
      have hfn : (s.fn p).takesTimeout = true := by
        by_contra hfn
        have hmax := hbound (by simpa using hfn)
        rw [hzero, maxScheduleTimeout] at hmax
        omega
      have hdel : Sound (s.removeWaitQueue p) :=
        ⟨h.count, h.tells, Sequence.nodup_del h.nodup,
          fun q hq => h.asleep q (Sequence.mem_of_mem_del hq),
          fun q hq => h.unbounded q (Sequence.mem_of_mem_del hq), by
            show min s.done _ ≤ _
            omega⟩
      rw [CompletionSys.resume, if_neg (by simp [hzero]),
        @finishWait_zero (s.removeWaitQueue p) _ _ hdone]
      refine hdel.log (tells_without (by omega) fun hfn' => ?_) rfl
      rw [hfn] at hfn'
      cases hfn'
    · rw [CompletionSys.resume, if_pos (by simp [hdone, hzero])]
      exact sound_turn (by omega) h.tells h.nodup hdone (fun q hq _ => h.asleep q hq)
        (fun q hq _ => h.unbounded q hq) hbound
  · rw [CompletionSys.resume, if_neg (by simp [hdone]),
      @finishWait_pos (s.removeWaitQueue p) _ _ hdone]
    exact h.leave hp hawake hdone (tells_token htimeout) rfl

/-- **Every step keeps a completion sound.** -/
theorem Sound.step {t : CompletionSys} {o : CompletionOp} (h : Sound s)
    (hstep : completionStep s o = some t) : Sound t := by
  cases o with
  | complete =>
      cases hstep
      exact h.complete
  | tryWaitForCompletion =>
      cases hstep
      exact h.tryWaitForCompletion
  | wait p fn timeout current =>
      rw [completionStep] at hstep
      split at hstep
      · next hcall =>
          cases hstep
          exact h.wait hcall.1 hcall.2
      · cases hstep
  | wake p =>
      cases hstep
      exact h.wake
  | resume p timeout current =>
      rw [completionStep] at hstep
      split at hstep
      · next hcall =>
          obtain ⟨hp, hawake, htimeout, hmax⟩ := hcall
          cases hstep
          exact h.resume hp hawake htimeout hmax
      · cases hstep

end CompletionSys

end Return

/-! ### Every run -/

end WrrScheduler
