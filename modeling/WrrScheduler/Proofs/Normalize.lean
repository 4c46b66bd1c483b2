/-
What `normalize_rt_tasks` leaves behind.

It is called (from SysRq) when real-time tasks starve the rest, and makes every user
task it selects a fair one.  It selects by `rt_task`, which looks at the priority,
and the tasks of the WRR class have the priorities of fair tasks: they are passed
over, and go on preempting.  Whatever it does to a task, the task stays queued.
-/
import WrrScheduler.Proofs.RtPlacement
import WrrScheduler.Proofs.Setscheduler

namespace WrrScheduler

variable {m : Machine} {s : State} {p q : Pid}

/-! ### What happens to the attributes

A turn of the loop does one of three things to a task: it skips a kernel thread,
renices a task that has a negative nice value and no real-time priority, or makes it a
normal one.  `passedOver` tells from the attributes when the second was not enough; it
does not change by a turn, so the order of the list is irrelevant.
-/

/-- What `set_user_nice` makes of a task. -/
def niceAttr (nice : Int) (a : Attr) : Attr :=
  if prioToNice a.staticPrio = nice || nice < -20 || 19 < nice then a
  else if rtPolicy a.policy then { a with staticPrio := niceToPrio nice }
  else renice nice a

/-- What one turn of the loop makes of a task. -/
def normalizeAttr (a : Attr) : Attr :=
  if !a.mm then a
  else if !rtPrio a.prio then if prioToNice a.staticPrio < 0 then niceAttr 0 a else a
  else applyPolicy .normal 0 a

/-- A user task that is passed over although it is above the fair class: its priority is no real-time
one, and no boost is the reason for its class (a negative nice value is reset, and the priority with
it, unless the policy is a real-time one). -/
def passedOver (a : Attr) : Bool :=
  a.mm && !rtPrio a.prio && a.schedClass ≠ .fair &&
    (!boosted a || (prioToNice a.staticPrio < 0 && !rtPolicy a.policy))

/-- What is asked of a user task: it is fair unless it is boosted. -/
def FairUnlessBoosted (a : Attr) : Prop :=
  a.mm = true → boosted a = false → a.schedClass = .fair

variable {a : Attr} {v : View}

theorem View.attr_unchanged (v : View) (p q : Pid) :
    v.attr q = if q = p then v.attr p else v.attr q := by
  split
  · rename_i hqp
    rw [hqp]
  · rfl

theorem View.attr_setUserNice (nice : Int) : (v.setUserNice p nice).attr q =
    if q = p then niceAttr nice (v.attr p) else v.attr q := by
  have htasks : v.attr p = (v.tasks p).toAttr := rfl
  rw [View.setUserNice, niceAttr, htasks]
  split
  · exact v.attr_unchanged p q
  · split
    · exact View.attr_modAttr _
    · exact View.attr_detached _

theorem View.attr_normalizeOne : (v.normalizeOne p).attr q =
    if q = p then normalizeAttr (v.attr p) else v.attr q := by
  have htasks : v.attr p = (v.tasks p).toAttr := rfl
  rw [View.normalizeOne, normalizeAttr, htasks]
  split
  · exact v.attr_unchanged p q
  · split
    · split
      · exact View.attr_setUserNice 0
      · exact v.attr_unchanged p q
    · exact View.attr_detached _

theorem AttrOk.niceAttr (h : AttrOk a) (nice : Int) : AttrOk (niceAttr nice a) := by
  unfold WrrScheduler.niceAttr
  split
  · exact h
  · rename_i hrange
    simp only [Bool.or_eq_true, decide_eq_true_eq, not_or, Int.not_lt] at hrange
    split
    · rename_i hrt
      exact attrOk_static h hrt hrange.1.2 hrange.2
    · exact (settles_renice hrange.1.2 hrange.2).ok a h

theorem AttrOk.normalizeAttr (h : AttrOk a) : AttrOk (normalizeAttr a) := by
  unfold WrrScheduler.normalizeAttr
  split
  · exact h
  · split
    · split
      · exact h.niceAttr 0
      · exact h
    · exact (settles_applyPolicy .normal (le_refl 0) (by decide)).ok a h

/-- A task that is not passed over any more is left alone by another turn, or is fair already. -/
theorem fairUnlessBoosted_applyPolicy (h : AttrOk a) :
    FairUnlessBoosted (applyPolicy .normal 0 a) ∧ passedOver (applyPolicy .normal 0 a) = false := by
  have hclass : ∀ b : Attr, b = applyPolicy .normal 0 a → rtPrio b.prio = false →
      b.schedClass = .fair := by
    rintro b rfl hprio
    show setschedulerClass .normal (applyPolicy .normal 0 a).prio = .fair
    simp [setschedulerClass, hprio]
  refine ⟨fun _ hboosted => hclass _ rfl ?_, ?_⟩
  · -- the priority of a task that is not boosted is its static one
    have hstatic := h.static_ge
    have hsame : (applyPolicy .normal 0 a).prio = (applyPolicy .normal 0 a).normalPrio := by
      simpa [boosted] using hboosted
    have hnormal : (applyPolicy .normal 0 a).normalPrio = a.staticPrio := rfl
    rw [hsame, hnormal, rtPrio, decide_eq_false_iff_not]
    omega
  · cases hprio : rtPrio (applyPolicy .normal 0 a).prio with
    | true => simp [passedOver, hprio]
    | false => simp [passedOver, hclass _ rfl hprio]

theorem niceAttr_not_rt (hprio : rtPrio a.prio = false) (hpolicy : rtPolicy a.policy = false)
    (hnice : prioToNice a.staticPrio < 0) :
    niceAttr 0 a = { a with staticPrio := 120, normalPrio := 120, prio := 120 } := by
  have hne : prioToNice a.staticPrio ≠ 0 := Int.ne_of_lt hnice
  simp [niceAttr, hne, hpolicy, renice, applyEffectivePrio, normalPrio, hprio, niceToPrio, maxRtPrio]

theorem niceAttr_rt (hpolicy : rtPolicy a.policy = true) (hnice : prioToNice a.staticPrio < 0) :
    niceAttr 0 a = { a with staticPrio := 120 } := by
  have hne : prioToNice a.staticPrio ≠ 0 := Int.ne_of_lt hnice
  simp [niceAttr, hne, hpolicy, niceToPrio, maxRtPrio]

/-- **A turn leaves a task as it should be, exactly if** it does not pass it over; and a later turn
would do the same. -/
theorem normalizeAttr_spec (h : AttrOk a) :
    (FairUnlessBoosted (normalizeAttr a) ↔ passedOver a = false) ∧
      passedOver (normalizeAttr a) = passedOver a := by
  unfold normalizeAttr
  cases hmm : a.mm with
  | false => simp [FairUnlessBoosted, passedOver, hmm]
  | true =>
      cases hprio : rtPrio a.prio with
      | true =>
          obtain ⟨hfair, hpassed⟩ := fairUnlessBoosted_applyPolicy h
          have hnot : passedOver a = false := by simp [passedOver, hprio]
          simp only [Bool.not_true, Bool.false_eq_true, if_false]
          exact ⟨iff_of_true hfair hnot, hpassed.trans hnot.symm⟩
      | false =>
          simp only [Bool.not_true, Bool.not_false, Bool.false_eq_true, if_false, if_true]
          by_cases hnice : prioToNice a.staticPrio < 0
          · rw [if_pos hnice]
            cases hpolicy : rtPolicy a.policy with
            | true =>
                -- a fair priority under a real-time policy is none of the task's own
                have hboosted : boosted a = true := by
                  have hnormal := h.rtPrio_normalPrio
                  rw [hpolicy] at hnormal
                  simp only [boosted, decide_eq_true_eq]
                  intro hsame
                  rw [hsame, hnormal] at hprio
                  cases hprio
                have hboosted' : boosted { a with staticPrio := 120 } = true := hboosted
                rw [niceAttr_rt hpolicy hnice]
                simp [FairUnlessBoosted, passedOver, hboosted, hboosted', hpolicy]
            | false =>
                have hlow : rtPrio 120 = false := by decide
                rw [niceAttr_not_rt hprio hpolicy hnice]
                simp [FairUnlessBoosted, passedOver, boosted, hmm, hprio, hnice, hpolicy, hlow]
          · rw [if_neg hnice]
            refine ⟨?_, rfl⟩
            simp only [FairUnlessBoosted, passedOver, hmm, hprio, hnice]
            cases boosted a <;> simp

/-- What the loop makes of the tasks: those it meets it leaves as they should be, unless they are
passed over, and no turn changes which are. -/
theorem foldl_normalizeOne_spec (l : List Pid) (hok : ∀ p, AttrOk (v.attr p)) (q : Pid) :
    passedOver ((l.foldl View.normalizeOne v).attr q) = passedOver (v.attr q) ∧
      (q ∉ l → (l.foldl View.normalizeOne v).attr q = v.attr q) ∧
      (q ∈ l → (FairUnlessBoosted ((l.foldl View.normalizeOne v).attr q) ↔
        passedOver (v.attr q) = false)) := by
  induction l generalizing v with
  | nil => exact ⟨rfl, fun _ => rfl, fun hq => absurd hq List.not_mem_nil⟩
  | cons p l ih =>
      have hattr : (v.normalizeOne p).attr q = if q = p then normalizeAttr (v.attr p) else v.attr q :=
        View.attr_normalizeOne
      have hok' : ∀ q, AttrOk ((v.normalizeOne p).attr q) := by
        intro q
        rw [View.attr_normalizeOne]
        split
        · exact (hok p).normalizeAttr
        · exact hok q
      have hpassed : passedOver ((v.normalizeOne p).attr q) = passedOver (v.attr q) := by
        rw [hattr]
        split
        · rename_i hqp
          rw [(normalizeAttr_spec (hok p)).2, hqp]
        · rfl
      obtain ⟨hsame, hother, hmet⟩ := @ih (v.normalizeOne p) hok'
      refine ⟨hsame.trans hpassed, ?_, ?_⟩
      · intro hq
        rw [List.mem_cons, not_or] at hq
        rw [List.foldl_cons, hother hq.2, hattr, if_neg hq.1]
      · intro hq
        by_cases hl : q ∈ l
        · rw [List.foldl_cons, hmet hl, hpassed]
        · obtain rfl : q = p := (List.mem_cons.mp hq).resolve_right hl
          rw [List.foldl_cons, hother hl, hattr, if_pos rfl]
          exact (normalizeAttr_spec (hok q)).1

/-! ### What stays queued -/

/-- A task is queued once, on the queue of its class. -/
structure QueuedOnce (s : State) (p : Pid) : Prop where
  onRq : (s.tasks p).onRq = true
  wrr : s.rq.wrr.queue.count p = if (s.tasks p).schedClass = .wrr then 1 else 0
  rt : ∀ g i, s.rq.rt.spots p g i = if (s.tasks p).schedClass = .rt ∧
    g = (s.tasks p).schedTaskGroup ∧ i = (s.tasks p).prio then 1 else 0

/-- Whatever is queued is queued once. -/
theorem Inv.queuedOnce (h : Inv m s) (hset : RtSettled s) (hon : (s.tasks p).onRq = true) :
    QueuedOnce s p := by
  obtain ⟨A, hA, hiff⟩ := h.queued
  have hp : p ∈ A := (hiff p).mpr hon
  refine ⟨hon, ?_, ?_⟩
  · have hmem : p ∈ s.rq.wrr.queue ↔ p ∈ A ∧ (s.tasks p).schedClass = .wrr := hA.enq.mem p
    split
    · rename_i hwrr
      exact List.count_eq_one_of_mem hA.enq.nodup (hmem.mpr ⟨hp, hwrr⟩)
    · rename_i hwrr
      exact List.count_eq_zero.mpr fun hin => hwrr (hmem.mp hin).2
  · intro g i
    by_cases hclass : (s.tasks p).schedClass = .rt
    · rw [hset p hon hclass g i]
      simp [hclass]
    · rw [if_neg fun hc => hclass hc.1]
      exact hA.rt.nowhere (fun hc => hclass hc.2) g i

/-! ### The whole call -/

/-- The fair class counts its queued tasks. -/
def FairCounted (s : State) : Prop :=
  ∃ A : Finset Pid, (∀ p, p ∈ A ↔ (s.tasks p).onRq = true) ∧
    s.rq.cfs.hNrRunning = (A.filter fun p => (s.tasks p).schedClass = .fair).card

/-- Nothing above the fair class but what is boosted or no user task, and every queued task where it
belongs. -/
structure Normalized (s t : State) : Prop where
  fair : ∀ p ∈ s.tasklist, FairUnlessBoosted (t.tasks p).toAttr
  queued : ∀ p, (s.tasks p).onRq = true → QueuedOnce t p
  counted : FairCounted t

/-- **`normalize_rt_tasks` demotes what can starve the fair class, exactly if** it passes over no
task.  It never loses a queued one. -/
theorem normalized_iff (hs : Reachable m s) : Normalized s (normalizeRtTasks m s) ↔
    ∀ p ∈ s.tasklist, passedOver (s.tasks p).toAttr = false := by
  have hinv := inv_of_reachable hs
  have hstep : step m s .normalizeRtTasks = some (normalizeRtTasks m s) := rfl
  have hview : (normalizeRtTasks m s).view = s.tasklist.foldl View.normalizeOne s.view :=
    hinv.view_step hstep
  have hspec : ∀ p ∈ s.tasklist, (FairUnlessBoosted ((normalizeRtTasks m s).tasks p).toAttr ↔
      passedOver (s.tasks p).toAttr = false) := by
    intro p hp
    have hmet := (foldl_normalizeOne_spec s.tasklist (fun p => (hinv.legal.task p).ok) p).2.2 hp
    rw [← hview] at hmet
    exact hmet
  have hkeeps : s.view.Keeps (normalizeRtTasks m s).view := by
    rw [hview]
    exact .foldl_normalizeOne _
  have hset : RtSettled (normalizeRtTasks m s) := (rtSettled_of_reachable hs).step hinv hstep
  constructor
  · intro h p hp
    exact (hspec p hp).mp (h.fair p hp)
  · intro h
    refine ⟨fun p hp => (hspec p hp).mpr (h p hp), ?_, ?_⟩
    · exact fun p hon => (hinv.step hstep).queuedOnce hset (hkeeps.onRq p hon)
    · obtain ⟨A, hA, hiff⟩ := hinv.queued.normalizeRtTasks
      exact ⟨A, hiff, hA.enq.hNrRunning⟩

/-- A `SCHED_FIFO` task is demoted. -/
theorem normalized_fifo : ∃ s, Reachable (sampleMachine 10) s ∧ 1 ∈ s.tasklist ∧
    (s.tasks 1).schedClass = .rt ∧ Normalized s (normalizeRtTasks (sampleMachine 10) s) := by
  have hexec : ((Run.exec (step (sampleMachine 10)) (boot (sampleMachine 10))
      [.schedFork 1 sampleForeign, .wakeUpNewTask 1,
        sampleSetscheduler 1 Policy.fifo.code 50 [(initTask (sampleMachine 10)).toAttr]]).any
      fun s => decide (1 ∈ s.tasklist ∧ (s.tasks 1).schedClass = .rt ∧
        ∀ p ∈ s.tasklist, passedOver (s.tasks p).toAttr = false)) = true := by decide +kernel
  obtain ⟨s, hs, hlisted, hrt, hnone⟩ := Run.exists_of_exec hexec
  exact ⟨s, hs, hlisted, hrt, (normalized_iff hs).mpr hnone⟩

/-- A running `SCHED_WRR` user task with no boost is still above the fair class afterwards. -/
theorem wrr_passed_over : ∃ s, Reachable (sampleMachine 10) s ∧ 1 ∈ s.tasklist ∧
    ((normalizeRtTasks (sampleMachine 10) s).tasks 1).mm = true ∧
    boosted ((normalizeRtTasks (sampleMachine 10) s).tasks 1).toAttr = false ∧
    ((normalizeRtTasks (sampleMachine 10) s).tasks 1).schedClass = .wrr ∧
    ¬ Normalized s (normalizeRtTasks (sampleMachine 10) s) := by
  have hexec : ((Run.exec (step (sampleMachine 10)) (boot (sampleMachine 10)) startTwoWrr).any
      fun s => decide (1 ∈ s.tasklist ∧
        ((normalizeRtTasks (sampleMachine 10) s).tasks 1).mm = true ∧
        boosted ((normalizeRtTasks (sampleMachine 10) s).tasks 1).toAttr = false ∧
        ((normalizeRtTasks (sampleMachine 10) s).tasks 1).schedClass = .wrr)) = true := by
    decide +kernel
  obtain ⟨s, hs, hlisted, hmm, hboosted, hwrr⟩ := Run.exists_of_exec hexec
  refine ⟨s, hs, hlisted, hmm, hboosted, hwrr, fun h => ?_⟩
  rw [h.fair 1 hlisted hmm hboosted] at hwrr
  cases hwrr

end WrrScheduler
