/-
What every task keeps.

`TaskLegal` is the part of the invariant that speaks of one task at a time: its
priorities are in range and up to date, a task in the WRR class has the WRR policy,
and nothing but a listed task is ever queued.  `core.c` assigns attributes in a
dozen places; each assignment is a `Settles`, and `legal_step` runs through the
operations that contain them.
-/
import WrrScheduler.Proofs.Attributes

namespace WrrScheduler

/-- What the attributes of a task say about each other. -/
structure AttrOk (a : Attr) : Prop where
  static_ge : maxRtPrio ≤ a.staticPrio
  static_lt : a.staticPrio < maxPrio
  rtPriority_nonneg : 0 ≤ a.rtPriority
  rtPriority_le : a.rtPriority ≤ 99
  normal : a.normalPrio = normalPrio a
  wrr : a.schedClass = .wrr → a.policy = .wrr

/-- An assignment of attributes that leaves a task sound, and as runnable as it was. -/
structure Settles (f : Attr → Attr) : Prop where
  ok : ∀ a, AttrOk a → AttrOk (f a)
  onRq : ∀ a, (f a).onRq = a.onRq
  state : ∀ a, (f a).state = a.state
  notIdle : ∀ a, a.schedClass ≠ .idle → (f a).schedClass ≠ .idle

/-! ### Priorities

`normal_prio` is a function of policy, real-time priority and static priority, and
`AttrOk` says that the field holds its value.  So a priority in the real-time range
can come from a policy or from a boost, and the normal one tells which.
-/

section Priorities

variable {a : Attr}

theorem normalPrio_of_not_rt (h : rtPolicy a.policy = false) : normalPrio a = a.staticPrio := by
  simp [normalPrio, h]

theorem AttrOk.normalPrio_ge (h : AttrOk a) (hp : rtPolicy a.policy = false) :
    maxRtPrio ≤ a.normalPrio := by
  rw [h.normal, normalPrio_of_not_rt hp]
  exact h.static_ge

/-- What a task is sound by is its static, real-time and normal priority, its policy, and not being
in the WRR class without it. -/
theorem AttrOk.frame {b : Attr} (h : AttrOk a) (hstatic : b.staticPrio = a.staticPrio)
    (hrt : b.rtPriority = a.rtPriority) (hnormal : b.normalPrio = a.normalPrio)
    (hpolicy : b.policy = a.policy) (hwrr : b.schedClass = .wrr → a.schedClass = .wrr) :
    AttrOk b := by
  have hnormalPrio : WrrScheduler.normalPrio b = WrrScheduler.normalPrio a := by
    simp only [WrrScheduler.normalPrio, hpolicy, hrt, hstatic]
  refine ⟨?_, ?_, ?_, ?_, ?_, ?_⟩
  · rw [hstatic]
    exact h.static_ge
  · rw [hstatic]
    exact h.static_lt
  · rw [hrt]
    exact h.rtPriority_nonneg
  · rw [hrt]
    exact h.rtPriority_le
  · rw [hnormal, hnormalPrio]
    exact h.normal
  · intro hcls
    rw [hpolicy]
    exact h.wrr (hwrr hcls)

/-- The normal priority is a real-time one exactly under a real-time policy. -/
theorem AttrOk.rtPrio_normalPrio (h : AttrOk a) : rtPrio a.normalPrio = rtPolicy a.policy := by
  cases hp : rtPolicy a.policy with
  | true =>
      have hnormal := h.normal
      simp only [normalPrio, hp, if_true] at hnormal
      have hle := h.rtPriority_nonneg
      simp only [rtPrio, hnormal, maxRtPrio, decide_eq_true_eq]
      omega
  | false =>
      have hge := h.normalPrio_ge hp
      simp only [rtPrio, decide_eq_false_iff_not, Int.not_lt]
      exact hge

end Priorities

/-! ### The assignments of `core.c` -/

/-- The class of `__setscheduler` is never the idle one. -/
theorem setschedulerClass_ne_idle (policy : Policy) (prio : Int) :
    setschedulerClass policy prio ≠ .idle := by
  unfold setschedulerClass
  split
  · simp
  · split <;> simp

theorem setschedulerClass_eq_wrr {policy : Policy} {prio : Int} :
    setschedulerClass policy prio = .wrr ↔ policy = .wrr := by
  unfold setschedulerClass
  split
  · rename_i h
    simp [h]
  · rename_i h
    split <;> simp [h]

theorem setprioClass_cases (prio : Int) : setprioClass prio = .rt ∨ setprioClass prio = .fair := by
  unfold setprioClass
  split
  · exact Or.inl rfl
  · exact Or.inr rfl

theorem setprioClass_ne_idle (prio : Int) : setprioClass prio ≠ .idle := by
  rcases setprioClass_cases prio with h | h <;> simp [h]

theorem setprioClass_ne_wrr (prio : Int) : setprioClass prio ≠ .wrr := by
  rcases setprioClass_cases prio with h | h <;> simp [h]

theorem settles_applyPolicy (policy : Policy) {prio : Int} (h0 : 0 ≤ prio) (h99 : prio ≤ 99) :
    Settles (applyPolicy policy prio) := by
  refine ⟨?_, fun _ => rfl, fun _ => rfl, fun _ _ => setschedulerClass_ne_idle _ _⟩
  intro a ha
  exact ⟨ha.static_ge, ha.static_lt, h0, h99, rfl, setschedulerClass_eq_wrr.mp⟩

theorem settles_setPolicy (c : Checked) {prio : Int} (h0 : 0 ≤ prio) (h99 : prio ≤ 99) :
    Settles (setPolicy c prio) := by
  have happly := settles_applyPolicy c.policy h0 h99
  refine ⟨?_, fun _ => rfl, fun _ => rfl, fun _ _ => setschedulerClass_ne_idle _ _⟩
  intro a ha
  exact happly.ok _ (ha.frame rfl rfl rfl rfl id)

theorem settles_setprio (prio : Int) :
    Settles fun t => { t with schedClass := setprioClass prio, prio := prio } := by
  refine ⟨?_, fun _ => rfl, fun _ => rfl, ?_⟩
  · intro a ha
    exact ha.frame rfl rfl rfl rfl fun hc => absurd hc (setprioClass_ne_wrr prio)
  · exact fun _ _ => setprioClass_ne_idle prio

/-- A nice value in range gives a static priority in range. -/
theorem niceToPrio_range {nice : Int} (hlow : -20 ≤ nice) (hhigh : nice ≤ 19) :
    maxRtPrio ≤ niceToPrio nice ∧ niceToPrio nice < maxPrio := by
  simp only [niceToPrio, maxRtPrio, maxPrio]
  omega

theorem settles_renice {nice : Int} (hlow : -20 ≤ nice) (hhigh : nice ≤ 19) :
    Settles (renice nice) := by
  obtain ⟨hge, hlt⟩ := niceToPrio_range hlow hhigh
  refine ⟨?_, fun _ => rfl, fun _ => rfl, fun _ h => h⟩
  intro a ha
  exact ⟨hge, hlt, ha.rtPriority_nonneg, ha.rtPriority_le, rfl, ha.wrr⟩

theorem settles_group (tg : Gid) : Settles fun t => { t with schedTaskGroup := tg } := by
  refine ⟨?_, fun _ => rfl, fun _ => rfl, fun _ h => h⟩
  intro a ha
  exact ha.frame rfl rfl rfl rfl id

theorem settles_foreign (f : Foreign) : Settles fun t => { t with toForeign := f } := by
  refine ⟨?_, fun _ => rfl, fun _ => rfl, fun _ h => h⟩
  intro a ha
  exact ha.frame rfl rfl rfl rfl id

/-- A class that is neither WRR nor idle may be assigned to any task. -/
theorem settles_class {c : SchedClass} (hwrr : c ≠ .wrr) (hidle : c ≠ .idle) :
    Settles fun t => { t with schedClass := c } := by
  refine ⟨?_, fun _ => rfl, fun _ => rfl, fun _ _ => hidle⟩
  intro a ha
  exact ha.frame rfl rfl rfl rfl fun hc => absurd hc hwrr

/-- Only under a real-time policy may the static priority change by itself. -/
theorem attrOk_static {a : Attr} {nice : Int} (ha : AttrOk a) (hp : rtPolicy a.policy = true)
    (hlow : -20 ≤ nice) (hhigh : nice ≤ 19) : AttrOk { a with staticPrio := niceToPrio nice } := by
  obtain ⟨hge, hlt⟩ := niceToPrio_range hlow hhigh
  refine ⟨hge, hlt, ha.rtPriority_nonneg, ha.rtPriority_le, ?_, ha.wrr⟩
  have hnormal := ha.normal
  simp only [normalPrio, hp, if_true] at hnormal ⊢
  exact hnormal

/-! ### Fork

A child starts as a copy of its parent, and `sched_fork` may reset the policy, then
replaces the class by the fair one unless the normal priority is a real-time one.
Under `SCHED_WRR` it is not, so no child is in the WRR class, whatever its policy
says.
-/

theorem attrOk_resetOnFork {a : Attr} (ha : AttrOk a) : AttrOk (resetOnFork a) := by
  obtain ⟨hge, hlt⟩ := @niceToPrio_range 0 (by decide) (by decide)
  unfold resetOnFork
  by_cases hp : rtPolicy a.policy = true
  · have hwrr : a.schedClass ≠ .wrr := by
      intro hc
      rw [ha.wrr hc] at hp
      exact absurd hp (by decide)
    simp only [hp, if_true]
    exact ⟨hge, hlt, le_refl 0, show (0 : Int) ≤ 99 by decide, rfl, fun hc => absurd hc hwrr⟩
  · have hp' : rtPolicy a.policy = false := by simpa using hp
    simp only [hp', Bool.false_eq_true, if_false]
    split
    · exact ⟨hge, hlt, ha.rtPriority_nonneg, ha.rtPriority_le, by simp [normalPrio, hp'], ha.wrr⟩
    · exact ⟨ha.static_ge, ha.static_lt, ha.rtPriority_nonneg, ha.rtPriority_le,
        by simp [normalPrio, hp'], ha.wrr⟩

theorem attrOk_settleAttr {a : Attr} (prio : Int) (ha : AttrOk a) : AttrOk (settleAttr prio a) := by
  have hprio : AttrOk { a with prio := prio } := ha.frame rfl rfl rfl rfl id
  have hreset : AttrOk (if a.schedResetOnFork then resetOnFork { a with prio := prio }
      else { a with prio := prio }) := by
    split
    · exact attrOk_resetOnFork hprio
    · exact hprio
  unfold settleAttr
  simp only []
  generalize (if a.schedResetOnFork then resetOnFork { a with prio := prio }
    else { a with prio := prio }) = b at hreset
  split
  · exact (settles_class (by simp) (by simp)).ok b hreset
  · exact hreset

/-- A reset child has its static priority, so it is below the real-time priorities. -/
theorem resetOnFork_prio_ge {a : Attr} (ha : AttrOk a) : maxRtPrio ≤ (resetOnFork a).prio := by
  have hstatic : (resetOnFork a).prio = (resetOnFork a).staticPrio := rfl
  rw [hstatic]
  exact (attrOk_resetOnFork ha).static_ge

/-- **The class of a child**: the parent's, if the parent's normal priority is a real-time one and
nothing was reset, and fair otherwise. -/
theorem settleAttr_schedClass {a : Attr} (ha : AttrOk a) :
    (settleAttr a.normalPrio a).schedClass =
      if rtPolicy a.policy && !a.schedResetOnFork then a.schedClass else .fair := by
  have hrt : rtPrio a.normalPrio = rtPolicy a.policy := ha.rtPrio_normalPrio
  have hreset : rtPrio (resetOnFork { a with prio := a.normalPrio }).prio = false := by
    have hge := @resetOnFork_prio_ge { a with prio := a.normalPrio }
      (ha.frame rfl rfl rfl rfl id)
    simp only [rtPrio, decide_eq_false_iff_not, Int.not_lt]
    exact hge
  unfold settleAttr
  simp only []
  by_cases hflag : a.schedResetOnFork = true
  · rw [if_pos hflag, hreset, hflag]
    simp
  · have hkept : (!a.schedResetOnFork) = true := by simpa using hflag
    rw [if_neg hflag, hkept, Bool.and_true, hrt]
    cases rtPolicy a.policy <;> simp

theorem resetOnFork_onRq (a : Attr) : (resetOnFork a).onRq = a.onRq := by
  unfold resetOnFork
  simp only []
  split
  · rfl
  · split <;> rfl

/-- A child is not queued yet. -/
theorem forkTask_onRq (f : Foreign) (parent : Task) : (forkTask f parent).onRq = false := by
  have hcopy : (copyTask f parent).onRq = false := rfl
  show (settleAttr parent.normalPrio (copyTask f parent).toAttr).onRq = false
  unfold settleAttr
  simp only []
  split <;> split <;> simp [resetOnFork_onRq, hcopy]

/-- No child is in the WRR class. -/
theorem settleAttr_ne_wrr {a : Attr} (ha : AttrOk a) :
    (settleAttr a.normalPrio a).schedClass ≠ .wrr := by
  rw [settleAttr_schedClass ha]
  split
  · rename_i hcond
    intro hc
    have hpolicy := ha.wrr hc
    rw [hpolicy] at hcond
    exact absurd hcond (by simp [rtPolicy])
  · simp

/-! ### Legal views

A view is legal if every task is; an operation that changes one task has one task to
answer for.  The idle task is the exception that the fields about it are for: it is on
no list, so whatever is done to a listed task is not done to it.
-/

/-- What a task keeps, given the tasks there are and which one is idle. -/
structure TaskLegal (tasklist : List Pid) (idle p : Pid) (a : Attr) : Prop where
  ok : AttrOk a
  listed : a.onRq = true → p ∈ tasklist
  idleRuns : p = idle → a.state = taskRunning
  idleClass : a.schedClass = .idle → p = idle
  /-- The idle task is a normal one until `init_idle_bootup_task`, and is never given a policy. -/
  idleLow : p = idle → a.policy = .normal ∧ (a.schedClass = .fair ∨ a.schedClass = .idle)

/-- Every task is legal, and the idle task is on no list and not the stop task. -/
structure View.Legal (v : View) : Prop where
  idle : v.idle ∉ v.tasklist
  stop : v.stop ≠ some v.idle
  task : ∀ p, TaskLegal v.tasklist v.idle p (v.attr p)

variable {v v' : View} {p : Pid}

theorem TaskLegal.settle {tasklist : List Pid} {idle : Pid} {a : Attr} {f : Attr → Attr}
    (h : TaskLegal tasklist idle p a) (hf : Settles f)
    (hkeep : p = idle → (f a).policy = a.policy ∧ (f a).schedClass = a.schedClass) :
    TaskLegal tasklist idle p (f a) := by
  refine ⟨hf.ok a h.ok, ?_, ?_, ?_, ?_⟩
  · rw [hf.onRq]
    exact h.listed
  · rw [hf.state]
    exact h.idleRuns
  · intro hc
    by_contra hne
    exact hf.notIdle a (fun hidle => hne (h.idleClass hidle)) hc
  · intro hp
    rw [(hkeep hp).1, (hkeep hp).2]
    exact h.idleLow hp

namespace View.Legal

/-- One task was changed into a legal one. -/
theorem update {a : Attr} (h : v.Legal) (hframe : v.Frame v')
    (hattr : ∀ q, v'.attr q = if q = p then a else v.attr q)
    (ha : TaskLegal v.tasklist v.idle p a) : v'.Legal := by
  refine ⟨?_, ?_, ?_⟩
  · rw [hframe.idle, hframe.tasklist]
    exact h.idle
  · rw [hframe.idle, hframe.stop]
    exact h.stop
  · intro q
    rw [hframe.idle, hframe.tasklist, hattr]
    split
    · rename_i hqp
      subst hqp
      exact ha
    · exact h.task q

/-- No attribute was changed. -/
theorem same (h : v.Legal) (hframe : v.Frame v') (hattr : ∀ q, v'.attr q = v.attr q) :
    v'.Legal := by
  refine @update v v' 0 (v.attr 0) h hframe ?_ (h.task 0)
  intro q
  rw [hattr]
  split
  · rename_i hq
    rw [hq]
  · rfl

theorem modAttr (h : v.Legal) {f : Attr → Attr}
    (ha : TaskLegal v.tasklist v.idle p (f (v.attr p))) : (v.modAttr p f).Legal :=
  h.update (View.frame_modTask _) (fun _ => View.attr_modAttr f) ha

theorem detached (h : v.Legal) (flags : EnqueueFlags) {f : Attr → Attr} (hf : Settles f)
    (hkeep : p = v.idle → (f (v.attr p)).policy = (v.attr p).policy ∧
      (f (v.attr p)).schedClass = (v.attr p).schedClass) : (v.detached flags p f).Legal :=
  h.update (View.frame_detached f) (fun _ => View.attr_detached f) ((h.task p).settle hf hkeep)

/-- A listed task is not the idle one, so any settled assignment will do. -/
theorem detached_listed (h : v.Legal) (flags : EnqueueFlags) {f : Attr → Attr} (hf : Settles f)
    (hp : p ∈ v.tasklist) : (v.detached flags p f).Legal := by
  refine h.detached flags hf ?_
  rintro rfl
  exact absurd hp h.idle

theorem wake (h : v.Legal) (hp : p ∈ v.tasklist) : (v.wake p).Legal := by
  have ht := h.task p
  refine h.update View.frame_wake (fun _ => View.attr_wake) ⟨?_, fun _ => hp, fun _ => rfl, ?_, ?_⟩
  · exact ht.ok.frame rfl rfl rfl rfl id
  · exact ht.idleClass
  · exact ht.idleLow

theorem wakeWorker (h : v.Legal) {worker : Option Pid} (hworker : ∀ p ∈ worker, p ∈ v.tasklist) :
    (v.wakeWorker worker).Legal := by
  cases worker with
  | none => exact h
  | some p =>
      rw [View.wakeWorker]
      split
      · exact h
      · split
        · exact h
        · exact h.wake (hworker p rfl)

/-- `on_rq` may be set if the task is listed, and cleared at any time. -/
theorem setOnRq (h : v.Legal) (b : Bool) (hp : b = true → p ∈ v.tasklist) :
    (v.modAttr p fun t => { t with onRq := b }).Legal := by
  have ht := h.task p
  exact h.modAttr ⟨ht.ok.frame rfl rfl rfl rfl id, hp, ht.idleRuns, ht.idleClass, ht.idleLow⟩

/-- The state of a task may be set, but not the idle task's. -/
theorem setState (h : v.Legal) {state : Nat} (hidle : p = v.idle → state = taskRunning) :
    (v.modAttr p fun t => { t with state := state }).Legal := by
  have ht := h.task p
  exact h.modAttr ⟨ht.ok.frame rfl rfl rfl rfl id, ht.listed, hidle, ht.idleClass, ht.idleLow⟩

theorem putToSleep (h : v.Legal) (preemptActive : Bool) {worker : Option Pid}
    (hworker : ∀ p ∈ worker, p ∈ v.tasklist) : (v.putToSleep preemptActive worker).Legal := by
  unfold View.putToSleep
  simp only []
  split
  · split
    · exact h.setState fun _ => rfl
    · have hoff : (v.dequeue v.curr).Legal :=
        h.same View.frame_dequeue fun _ => View.attr_dequeue
      refine (hoff.setOnRq false fun hfalse => absurd hfalse (by simp)).wakeWorker ?_
      show ∀ p ∈ worker, p ∈ (v.dequeue v.curr).tasklist
      rw [View.dequeue_tasklist]
      exact hworker
  · exact h

theorem setUserNice (h : v.Legal) (nice : Int) : (v.setUserNice p nice).Legal := by
  unfold View.setUserNice
  split
  · exact h
  · rename_i hrange
    have hlow : -20 ≤ nice := by
      by_contra hlt
      exact hrange (by simp; omega)
    have hhigh : nice ≤ 19 := by
      by_contra hlt
      exact hrange (by simp; omega)
    split
    · rename_i hrt
      have ht := h.task p
      exact h.modAttr ⟨attrOk_static ht.ok hrt hlow hhigh, ht.listed, ht.idleRuns, ht.idleClass,
        ht.idleLow⟩
    · exact h.detached {} (settles_renice hlow hhigh) fun _ => ⟨rfl, rfl⟩

theorem normalizeOne (h : v.Legal) (hp : p ∈ v.tasklist) : (v.normalizeOne p).Legal := by
  unfold View.normalizeOne
  split
  · exact h
  · split
    · split
      · exact h.setUserNice 0
      · exact h
    · exact h.detached_listed {} (settles_applyPolicy .normal (le_refl 0) (by decide)) hp

theorem foldl_normalizeOne (h : v.Legal) {l : List Pid} (hl : ∀ p ∈ l, p ∈ v.tasklist) :
    (l.foldl View.normalizeOne v).Legal := by
  induction l generalizing v with
  | nil => exact h
  | cons p l ih =>
      refine ih (h.normalizeOne (hl p List.mem_cons_self)) ?_
      intro q hq
      rw [View.frame_normalizeOne.tasklist]
      exact hl q (List.mem_cons_of_mem _ hq)

theorem setschedulerStep (h : v.Legal) {policy : BitVec 32} {prio : Int} (hp : p ∈ v.tasklist)
    (hstep : v.SetschedulerStep p policy prio v') : v'.Legal := by
  rcases hstep with rfl | ⟨c, hc, rfl⟩
  · exact h
  · exact h.detached_listed {} (settles_setPolicy c hc.prio_nonneg hc.prio_le) hp

theorem setStop (h : v.Legal) {stop : Option Pid} (hstop : stop ≠ some v.idle) :
    (v.setStop stop).Legal := by
  have hv : View.Legal { v with stop := stop } := ⟨h.idle, hstop, h.task⟩
  unfold View.setStop
  simp only []
  split
  · exact hv
  · rename_i old hold
    refine hv.modAttr ((hv.task old).settle (settles_class (by simp) (by simp)) ?_)
    intro hidle
    exact absurd (hold.trans (congrArg some hidle)) h.stop

/-- A new task, not listed until now. -/
theorem fork {child : Pid} {f : Foreign} (h : v.Legal) (hchild : child ∉ v.tasklist)
    (hidle : child ≠ v.idle) :
    View.Legal { v.modTask child (fun _ => forkTask f (v.tasks v.curr)) with
      tasklist := child :: v.tasklist } := by
  have hparent := (h.task v.curr).ok
  have hcopy : AttrOk (copyTask f (v.tasks v.curr)).toAttr := hparent.frame rfl rfl rfl rfl id
  have hok : AttrOk (forkTask f (v.tasks v.curr)).toAttr := attrOk_settleAttr _ hcopy
  refine ⟨?_, h.stop, ?_⟩
  · show v.idle ∉ child :: v.tasklist
    rw [List.mem_cons]
    rintro (rfl | hmem)
    · exact hidle rfl
    · exact h.idle hmem
  · intro q
    show TaskLegal (child :: v.tasklist) v.idle q
      ((v.modTask child (fun _ => forkTask f (v.tasks v.curr))).tasks q).toAttr
    by_cases hq : q = child
    · subst hq
      simp only [View.modTask, Function.update_self]
      refine ⟨hok, fun _ => List.mem_cons_self, fun hq => absurd hq hidle, ?_,
        fun hq => absurd hq hidle⟩
      intro hc
      have hcls : (forkTask f (v.tasks v.curr)).schedClass =
          if rtPolicy (v.attr v.curr).policy && !(v.attr v.curr).schedResetOnFork then
            (v.attr v.curr).schedClass
          else .fair := settleAttr_schedClass hcopy
      rw [hcls] at hc
      split at hc
      · -- the parent would be the idle task, whose policy is not a real-time one
        rename_i hcond
        have hlow := (h.task v.curr).idleLow ((h.task v.curr).idleClass hc)
        rw [hlow.1] at hcond
        exact absurd hcond (by simp [rtPolicy])
      · cases hc
    · simp only [View.modTask, Function.update_of_ne hq]
      have hq' := h.task q
      exact ⟨hq'.ok, fun hon => List.mem_cons_of_mem _ (hq'.listed hon), hq'.idleRuns,
        hq'.idleClass, hq'.idleLow⟩

end View.Legal

/-! ### Steps -/

/-- **Every step keeps the tasks legal.** -/
theorem legal_step {m : Machine} {s t : State} {o : Op} (h : s.view.Legal) (hcall : callable s o = true)
    (hstep : View.Step m s.view t.view o) : t.view.Legal := by
  cases o with
  | tryToWakeUp p state =>
      rw [hstep]
      split
      · exact h
      · have hp : p ∈ s.tasklist := by simpa [callable] using hcall
        exact h.wake hp
  | wakeUpNewTask p =>
      have hcond : (p ∈ s.tasklist ∧ (s.tasks p).onRq = false) ∧
          (s.tasks p).state = taskRunning := by
        simpa [callable] using hcall
      rw [hstep]
      refine View.Legal.setOnRq (h.same View.frame_enqueue fun _ => View.attr_enqueue) true ?_
      rw [View.frame_enqueue.tasklist]
      exact fun _ => hcond.1.1
  | schedFork child f =>
      have hcond : child ∉ s.tasklist ∧ child ≠ s.rq.idle := by simpa [callable] using hcall
      rw [hstep]
      exact h.fork hcond.1 hcond.2
  | schedule preemptActive =>
      obtain ⟨worker, next, hworker, hview⟩ := hstep
      rw [hview]
      have hsleep := h.putToSleep preemptActive hworker
      exact ⟨hsleep.idle, hsleep.stop, hsleep.task⟩
  | schedYield =>
      rw [hstep]
      split
      · exact h.same ⟨rfl, rfl, rfl, rfl⟩ fun _ => View.attr_requeueWrr
      · exact h
  | schedulerTick =>
      rw [hstep]
      split
      · exact h.same (View.frame_tickWrr m) fun _ => View.attr_tickWrr m
      · exact h
  | schedSetscheduler p policy prio user who seen =>
      have hp : p ∈ s.tasklist := by simpa [callable] using hcall
      exact h.setschedulerStep hp hstep
  | rtMutexSetprio p prio =>
      rw [hstep]
      split
      · exact h
      · rename_i hidle
        exact h.detached _ (settles_setprio prio) fun h => absurd h hidle
  | setUserNice p nice =>
      rw [hstep]
      exact h.setUserNice nice
  | schedMoveTask p tg =>
      rw [hstep]
      exact h.detached _ (settles_group tg) fun _ => ⟨rfl, rfl⟩
  | normalizeRtTasks =>
      rw [hstep]
      exact h.foldl_normalizeOne fun p hp => hp
  | schedRrGetInterval p =>
      rw [hstep]
      split
      · exact ⟨h.idle, h.stop, h.task⟩
      · exact h
  | doSchedRtPeriodTimer g overrun =>
      rw [hstep]
      exact h
  | schedSetStopTask stop who seen =>
      cases stop with
      | none =>
          rw [hstep]
          exact h.setStop (by simp)
      | some p =>
          obtain ⟨w, hw, hview⟩ := hstep
          have hcond := hcall
          simp only [callable, Option.all_some, Bool.and_eq_true, decide_eq_true_eq] at hcond
          have hlegal : w.Legal := h.setschedulerStep hcond.1.1 hw
          rw [hview]
          have hidle : p ≠ w.idle := by
            have hframe : w.idle = s.rq.idle ∧ w.tasklist = s.tasklist := by
              rcases hw with rfl | ⟨c, -, rfl⟩
              · exact ⟨rfl, rfl⟩
              · exact ⟨(View.frame_detached _).idle, (View.frame_detached _).tasklist⟩
            rintro rfl
            refine hlegal.idle ?_
            rw [hframe.2]
            exact hcond.1.1
          refine View.Legal.setStop (hlegal.modAttr ?_) ?_
          · exact (hlegal.task p).settle (settles_class (by simp) (by simp)) fun h => absurd h hidle
          · intro heq
            exact hidle (Option.some.inj heq)
  | initIdleBootupTask =>
      have hidle : s.rq.curr = s.rq.idle := by simpa [callable] using hcall
      rw [hstep]
      have ht := h.task s.view.curr
      exact h.modAttr ⟨ht.ok.frame rfl rfl rfl rfl fun hc => absurd hc (by simp), ht.listed,
        ht.idleRuns, fun _ => hidle, fun h => ⟨(ht.idleLow h).1, Or.inr rfl⟩⟩
  | setCurrentState state =>
      have hne : s.rq.curr ≠ s.rq.idle := by simpa [callable] using hcall
      rw [hstep]
      exact h.setState fun hidle => absurd hidle hne
  | releaseTask p =>
      have hcond : (p ∈ s.tasklist ∧ (s.tasks p).onRq = false) := by
        have hcall' := hcall
        simp only [callable, Bool.and_eq_true, decide_eq_true_eq, Bool.not_eq_true'] at hcall'
        exact hcall'.1.1
      rw [hstep]
      refine ⟨fun hmem => h.idle (List.mem_of_mem_erase hmem), h.stop, ?_⟩
      intro q
      have hq := h.task q
      refine ⟨hq.ok, ?_, hq.idleRuns, hq.idleClass, hq.idleLow⟩
      intro hon
      have hqp : q ≠ p := by
        rintro rfl
        exact absurd (hcond.2.symm.trans hon) (by simp)
      exact (List.mem_erase_of_ne hqp).mpr (hq.listed hon)
  | foreign p f =>
      rw [hstep]
      exact h.modAttr ((h.task p).settle (settles_foreign f) fun _ => ⟨rfl, rfl⟩)

end WrrScheduler
