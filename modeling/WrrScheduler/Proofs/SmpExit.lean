/-
An exiting task is given up once, and when nothing uses it.

`finish_task_switch` drops the reference for the use of a task as `current` when the
state it read before the task was off its CPU is `TASK_DEAD`.  That reading is what
makes the difference: from then on a task that was not dead may be woken elsewhere
and exit there.

So the invariant is about three moments.  A task that is dead and still on its CPU
has not been given up.  A CPU that is past the reading and has `TASK_DEAD` in its
hand is the one that will give it up, and there is only one. And a task that has
been given up is dead and off its CPU, and is not the one any CPU still has in its
hand.
-/
import WrrScheduler.Proofs.SmpSystem

namespace WrrScheduler.Smp

variable {m : Machine} {s t : State} {p q : Pid} {c d : Nat} {a : Act} {l l' : Place}

/-! ### What the steps do to a dead task

No state a wake-up asks for matches `TASK_DEAD`, a dead task is on no list, and it
does not run any more but to call `schedule`: so no step writes its state again.
-/

/-- Nobody is waking a dead task. -/
theorem Fits.not_held_of_dead (hl : Fits s p l) (h : (s.tasks p).state = taskDead) (c : Nat) :
    (s.cpus c).pc.piHeld ≠ some p := by
  intro hheld
  have hpi := (hl.cpus c).held.mp hheld
  rw [(hl.task.dead h).1] at hpi
  cases hpi

theorem ne_of_dead (hq : (s.tasks q).state = taskDead) (hp : (s.tasks p).state ≠ taskDead) :
    q ≠ p := by
  rintro rfl
  exact hp hq

/-- Writing a state that was not, and is not. -/
theorem dead_modTask {f : Task → Task} (hf : (s.tasks p).state = taskDead →
    (f (s.tasks p)).state = taskDead) (hq : (s.tasks q).state = taskDead) :
    ((s.modTask p f).tasks q).state = taskDead := by
  by_cases hqp : q = p
  · subst hqp
    rw [State.tasks_modTask_self]
    exact hf hq
  · rwa [State.tasks_modTask_of_ne _ _ _ hqp]

theorem dead_ttwuDoActivate (hq : (s.tasks q).state = taskDead) (hne : q ≠ p) :
    ((ttwuDoActivate c p s).tasks q).state = taskDead := by
  rwa [tasks_ttwuDoActivate_of_ne hne]

theorem dead_schedTtwuPending {llist : List Pid} (hq : (s.tasks q).state = taskDead)
    (hnot : q ∉ llist) : ((schedTtwuPending c llist s).tasks q).state = taskDead := by
  rw [tasks_schedTtwuPending, if_neg hnot]
  exact hq

theorem dead_tryToWakeUpLocal (hq : (s.tasks q).state = taskDead) :
    ((tryToWakeUpLocal c p s).tasks q).state = taskDead := by
  unfold tryToWakeUpLocal
  split
  · exact hq
  · next hmatch =>
    have hne : q ≠ p := ne_of_dead hq fun h => hmatch (by rw [h]; rfl)
    split <;> simp [State.tasks_modTask_of_ne _ _ _ hne, ttwuActivate, hq]

/-- A task on its way to a run queue is not dead. -/
theorem Fits.not_listed_of_dead (hl : Fits s q l) (hq : (s.tasks q).state = taskDead) (c : Nat) :
    q ∉ (s.cpus c).wakeList ∧ q ∉ (s.cpus c).pc.pending := by
  have hmortal := (hl.task.dead hq).2
  have hlists : (s.cpus c).wakeList.count q + (s.cpus c).pc.pending.count q = 0 := by
    rw [(hl.cpus c).lists]
    cases l <;> simp_all
  exact ⟨List.count_eq_zero.mp (Nat.eq_zero_of_add_eq_zero_right hlists),
    List.count_eq_zero.mp (Nat.eq_zero_of_add_eq_zero_left hlists)⟩

/-- **`TASK_DEAD` is for ever.** -/
theorem dead_of_effect (hinv : Inv s) (h : Effect m c s a t) (hq : (s.tasks q).state = taskDead) :
    (t.tasks q).state = taskDead := by
  obtain ⟨l, hl⟩ := hinv q
  have hheld : ∀ p, (s.cpus c).pc.piHeld = some p → q ≠ p := by
    rintro p hpc rfl
    exact hl.not_held_of_dead hq c hpc
  cases h with
  | @wakeRemote _ p _ hpc =>
      have hne : q ≠ p := hheld p (by rw [hpc]; rfl)
      simp [State.tasks_modTask_of_ne _ _ _ hne, hq]
  | @wakePlace _ p hpc =>
      have hne : q ≠ p := hheld p (by rw [hpc]; rfl)
      simp [State.tasks_modTask_of_ne _ _ _ hne, hq]
  | @wakeDirect _ p cpu hpc =>
      have hne : q ≠ p := hheld p (by rw [hpc]; rfl)
      simp [State.tasks_modTask_of_ne _ _ _ hne, (Frame.ttwuDoActivate cpu p s).tasks q hne, hq]
  | fork =>
      have hne : q ≠ s.nextPid := by
        rintro rfl
        have hforked := hl.task.forked
        have hmortal := (hl.task.dead hq).2
        cases l <;> simp_all
      simp [schedFork, hne, hq]
  | setCurrentState _ _ halive | schedSignal _ _ halive =>
      have hne := ne_of_dead hq halive
      simp [State.tasks_modTask_of_ne _ _ _ hne, hq]
  | testCondition _ _ halive =>
      rw [State.tasks_modTask_of_ne _ _ _ (ne_of_dead hq halive)]
      exact hq
  | doExit => exact dead_modTask (fun _ => rfl) hq
  | ipi =>
      rw [tasks_schedulerIpi]
      exact hq
  | @pending p llist hpc =>
      have hnot := (hl.not_listed_of_dead hq c).2
      rw [hpc] at hnot
      exact dead_ttwuDoActivate hq (List.ne_of_not_mem_cons hnot)
  | dying => exact dead_schedTtwuPending hq (hl.not_listed_of_dead hq c).1
  | wakeLocal => exact dead_tryToWakeUpLocal hq
  | pick => exact (field_pickNext Task.state fun _ => rfl).trans hq
  | @finishClear prev => cases prev <;> simp [State.field_modTask Task.state, hq]
  | @finishUnlock prev prevState =>
      cases prev with
      | none => exact hq
      | some p =>
          by_cases hdead : prevState = taskDead <;>
            simp [hdead, State.field_modTask Task.state, hq]
  | stop => exact (field_migrateTask Task.state fun _ _ => rfl).trans hq
  | migrateNext =>
      refine (field_migrateTask Task.state fun _ _ => rfl).trans ?_
      simp [doSetCpusAllowed, State.field_modTask Task.state, hq]
  | dead => exact hq
  | _ => simp [State.field_modTask Task.state, doSetCpusAllowed, moveTask, hq]

/-! ### The end of a switch

The three steps of `finish_task_switch` come one after the other on the same CPU, and
nothing takes the CPU elsewhere in between.  What it read at the first of them stays
true as far as it matters: until `on_cpu` is clear the task does not run, so it cannot
exit, and no wake-up matches `TASK_DEAD`.
-/

theorem pc_schedulerIpi (hpc : (s.cpus c).pc = .run) : ((schedulerIpi c s).cpus c).pc = .run ∨
    ∃ llist, ((schedulerIpi c s).cpus c).pc = .ttwuPending llist := by
  unfold schedulerIpi
  dsimp only
  split <;> simp [hpc]

/-- A CPU gets to the last steps of a switch one after the other only. -/
theorem finish_of_effect (h : Effect m c s a t) :
    (∀ q st, (t.cpus c).pc = .finishing (some q) st →
      (s.cpus c).pc = .switched (some q) ∧ st = (s.tasks q).state) ∧
    ∀ q st, (t.cpus c).pc = .unlocking (some q) st → (s.cpus c).pc = .finishing (some q) st := by
  cases h with
  | wakeRead _ hnew =>
      rw [State.pc_goTo_self]
      constructor
      · rintro q st rfl
        cases hnew
      · rintro q st rfl
        cases hnew
  | ipi hpc => rcases pc_schedulerIpi hpc with hgo | ⟨llist, hgo⟩ <;> simp [hgo]
  | @pick next hpc => rcases pc_pickNext (c := c) (s := s) next with hgo | hgo <;> simp [hgo]
  | finishRead hpc =>
      rw [State.pc_goTo_self]
      refine ⟨?_, by simp⟩
      intro q st hgo
      cases hgo
      exact ⟨hpc, rfl⟩
  | @finishClear prev prevState hpc =>
      have hgo : ((prev.elim (s.goTo c (.unlocking prev prevState)) fun p =>
          (s.goTo c (.unlocking prev prevState)).modTask p fun t =>
            { t with onCpu := false }).cpus c).pc = .unlocking prev prevState := by
        cases prev <;> simp
      rw [hgo]
      refine ⟨by simp, ?_⟩
      intro q st hgo
      cases hgo
      exact hpc
  | @finishUnlock prev prevState =>
      cases prev with
      | none => simp
      | some p => by_cases hdead : prevState = taskDead <;> simp [hdead]
  | move hpc => rcases Pc.of_balances hpc with hpc | hpc | hpc | ⟨_, hpc⟩ <;> simp [hpc]
  | setActive hpc => simp [State.pc_modCpu, hpc]
  | _ hpc => simp [hpc, doSetCpusAllowed]

/-- And it goes on to the next of them. -/
theorem goesOn_of_finish (h : Effect m c s a t) :
    (∀ q, (s.cpus c).pc = .switched (some q) → (t.cpus c).pc.leaving = some q) ∧
    ∀ q st, (s.cpus c).pc = .finishing (some q) st → (t.cpus c).pc = .unlocking (some q) st := by
  cases h with
  | wakeRead hpc =>
      constructor
      · intro q hq
        rw [hq] at hpc
        cases hpc
      · intro q st hq
        rw [hq] at hpc
        cases hpc
  | finishRead hpc =>
      rw [hpc]
      refine ⟨?_, by simp⟩
      intro q hq
      cases hq
      rw [State.pc_goTo_self]
      rfl
  | @finishClear prev prevState hpc =>
      rw [hpc]
      refine ⟨by simp, ?_⟩
      intro q st hq
      cases hq
      simp
  | move hpc => rcases Pc.of_balances hpc with hpc | hpc | hpc | ⟨_, hpc⟩ <;> simp [hpc]
  | _ hpc => simp [hpc]

/-- **Only the end of a switch** drops a reference, and only that of the task it was from. -/
theorem puts_of_effect (h : Effect m c s a t) : (t.tasks q).puts =
      (s.tasks q).puts + (if (s.cpus c).pc = .unlocking (some q) taskDead then 1 else 0) ∨
    q = s.nextPid ∧ (t.tasks q).puts = 0 := by
  by_cases hfork : q = s.nextPid ∧ (t.tasks q).puts = 0
  · exact .inr hfork
  refine .inl ?_
  cases h with
  | fork hpc =>
      have hne : q ≠ s.nextPid := by
        rintro rfl
        exact hfork ⟨rfl, by simp [schedFork]⟩
      simp [schedFork, hne, hpc]
  | wakeRead hpc =>
      have hne : (s.cpus c).pc ≠ .unlocking (some q) taskDead := by
        intro h
        rw [h] at hpc
        cases hpc
      rw [if_neg hne]
      rfl
  | ipi hpc => simp [tasks_schedulerIpi, hpc]
  | pending hpc => simp [field_ttwuDoActivate Task.puts, hpc]
  | dying hpc => simp [field_schedTtwuPending Task.puts, hpc]
  | wakeDirect hpc => simp [field_ttwuDoActivate Task.puts, State.field_modTask Task.puts, hpc]
  | wakeLocal hpc => simp [field_tryToWakeUpLocal Task.puts, hpc]
  | pick hpc => simp [field_pickNext Task.puts, hpc]
  | @finishClear prev prevState hpc => cases prev <;> simp [State.field_modTask Task.puts, hpc]
  | @finishUnlock prev prevState hpc =>
      cases prev with
      | none => simp [hpc]
      | some p =>
          by_cases hdead : prevState = taskDead
          · subst hdead
            by_cases hqp : q = p
            · subst hqp
              simp [hpc]
            · simp [hpc, State.tasks_modTask_of_ne _ _ _ hqp, Ne.symm hqp]
          · simp [hpc, hdead]
  | move hpc =>
      rcases Pc.of_balances hpc with hpc | hpc | hpc | ⟨_, hpc⟩ <;>
        simp [moveTask, State.field_modTask Task.puts, hpc]
  | stop hpc | migrateNext hpc =>
      simp [field_migrateTask Task.puts, doSetCpusAllowed, State.field_modTask Task.puts, hpc]
  | testCondition hpc =>
      rw [hpc]
      refine (State.field_modTask Task.puts fun u => ?_)
      split <;> rfl
  | dead hpc =>
      rw [hpc]
      rfl
  | _ hpc => simp [State.field_modTask Task.puts, doSetCpusAllowed, hpc]

/-! ### The reference is dropped once

A task is switched away from once after it has died: it is not on a run queue then, so
no CPU can pick it again.  That gives one reading of `TASK_DEAD` and one drop.
-/

/-- A task comes to be dead only while it runs. -/
theorem running_of_dead (hinv : Inv s) (h : Effect m c s a t) (hq : (t.tasks q).state = taskDead)
    (hold : (s.tasks q).state ≠ taskDead) : Fits s q (.running c) := by
  by_cases hown : a.own = false
  · rcases (keeps_of_effect h hown q).state with hstate | hstate | hstate <;> rw [hq] at hstate
    · exact absurd hstate.symm hold
    · cases hstate
    · cases hstate
  have hsame : ∀ {p : Pid} {f : Task → Task}, ((f (s.tasks p)).state = taskDead → q = p → False) →
      ((s.modTask p f).tasks q).state = taskDead → False := by
    intro p f hf hdead
    by_cases hqp : q = p
    · subst hqp
      rw [State.tasks_modTask_self] at hdead
      exact hf hdead rfl
    · rw [State.tasks_modTask_of_ne _ _ _ hqp] at hdead
      exact hold hdead
  cases h with
  | fork =>
      by_cases hnew : q = s.nextPid
      · simp [schedFork, hnew, taskRunning, taskDead] at hq
      · exact absurd (by simpa [schedFork, hnew] using hq) hold
  | setCurrentState _ _ _ hstate =>
      exact (hsame (fun hf _ => (ne_of_unwakeable hstate).2 hf) hq).elim
  | @testCondition p _ _ halive =>
      refine (hsame (fun hf _ => ?_) hq).elim
      split at hf
      · cases hf
      · exact halive hf
  | @doExit p hpc hcurr =>
      by_cases hqp : q = p
      · subst hqp
        obtain ⟨l, hl⟩ := hinv q
        obtain rfl := hl.running hcurr (by rw [hpc]; rfl)
        exact hl
      · rw [setState, State.tasks_modTask_of_ne _ _ _ hqp] at hq
        exact absurd hq hold
  | retract | signal => exact absurd (by simpa [State.field_modTask Task.state] using hq) hold
  | same => exact absurd hq hold
  | _ => exact (hown rfl).elim

/-- What the fields and the program counters say of the last reference of a task. -/
structure Grave (s : State) (q : Pid) : Prop where
  finishing : ∀ c st, (s.cpus c).pc = .finishing (some q) st →
    (st = taskDead ↔ (s.tasks q).state = taskDead)
  unlocking : ∀ c, (s.cpus c).pc = .unlocking (some q) taskDead →
    (s.tasks q).state = taskDead ∧ (s.tasks q).onCpu = false ∧ (s.tasks q).puts = 0 ∧
      ∀ d, (s.cpus d).pc = .unlocking (some q) taskDead → d = c
  puts : (s.tasks q).puts = 0 ∨ (s.tasks q).puts = 1 ∧ (s.tasks q).state = taskDead ∧
    (s.tasks q).onCpu = false ∧ ∀ c, (s.cpus c).pc ≠ .unlocking (some q) taskDead
  due : (s.tasks q).state = taskDead → (s.tasks q).onCpu = false →
    (s.tasks q).puts = 1 ∨ ∃ c, (s.cpus c).pc = .unlocking (some q) taskDead

/-- A dead task is on its way to sleep. -/
theorem Fits.asleep_of_dead (hl : Fits s q l) (hdead : (s.tasks q).state = taskDead)
    (honCpu : (s.tasks q).onCpu = false) : l = .asleep := by
  have hmortal := (hl.task.dead hdead).2
  have h := hl.task.onCpu
  cases l <;> simp_all

/-- And it stays there. -/
theorem asleep_of_effect (hinv : Inv s) (h : Effect m c s a t)
    (hdead : (s.tasks q).state = taskDead)
    (honCpu : (s.tasks q).onCpu = false) : Fits t q .asleep := by
  obtain ⟨l, hl⟩ := hinv q
  obtain rfl := hl.asleep_of_dead hdead honCpu
  obtain ⟨l', hmoves, hl'⟩ := Moves.of_effect h q _ hl
  have hmortal := (hl'.task.dead (dead_of_effect hinv h hdead)).2
  cases hmoves with
  | refl => exact hl'
  | single hstep => cases hstep <;> cases hmortal

theorem Fits.onCpu_of_leaving (hl : Fits s q l) (h : (s.cpus c).pc.leaving = some q) :
    (s.tasks q).onCpu = true := by
  have hleaving : l.leavingFrom = some c := (hl.cpus c).leaving.mp h
  rw [hl.task.onCpu, hleaving]
  exact Bool.or_true _

/-- A task that is being switched away from neither dies nor comes to life. -/
theorem dead_iff_of_leaving (hinv : Inv s) (h : Effect m c s a t)
    (hd : (s.cpus d).pc.leaving = some q) :
    (t.tasks q).state = taskDead ↔ (s.tasks q).state = taskDead := by
  refine ⟨fun hdead => ?_, dead_of_effect hinv h⟩
  by_contra hold
  have hleaving := ((running_of_dead hinv h hdead hold).cpus d).leaving.mp hd
  cases hleaving

theorem Fits.ne_nextPid_of_dead (hl : Fits s q l) (hdead : (s.tasks q).state = taskDead) :
    q ≠ s.nextPid := by
  have hforked := hl.task.forked
  have hmortal := (hl.task.dead hdead).2
  rintro rfl
  cases l <;> simp_all

theorem Grave.of_effect (hinv : Inv s) (hq : Grave s q) (h : Effect m c s a t) : Grave t q := by
  obtain ⟨l, hl⟩ := hinv q
  obtain ⟨l', hmoves, hl'⟩ := Moves.of_effect h q l hl
  have hother : ∀ d, d ≠ c → (t.cpus d).pc = (s.cpus d).pc := fun d hd => h.pc_of_ne hd
  obtain ⟨hfinish, hunlock⟩ := finish_of_effect h
  have hoff := asleep_of_effect (q := q) hinv h
  -- a CPU that has just cleared `on_cpu` of the dead task
  have hjust : (t.cpus c).pc = .unlocking (some q) taskDead →
      (s.cpus c).pc = .finishing (some q) taskDead ∧
      (s.tasks q).state = taskDead ∧ (s.tasks q).onCpu = true := by
    intro hc
    have hpc := hunlock q _ hc
    exact ⟨hpc, (hq.finishing c _ hpc).mp rfl, hl.onCpu_of_leaving (by rw [hpc]; rfl)⟩
  have hgone : (t.cpus c).pc = .unlocking (some q) taskDead → (t.tasks q).onCpu = false := by
    intro hc
    obtain ⟨hpc, hdead, -⟩ := hjust hc
    have hleaving : l.leavingFrom = some c := (hl.cpus c).leaving.mp (by rw [hpc]; rfl)
    have hmortal := (hl.task.dead hdead).2
    obtain rfl : l = .departing c := by cases l <;> simp_all
    rw [hl'.task.onCpu]
    cases hmoves with
    | refl =>
        have hstill := (hl'.cpus c).leaving.mpr rfl
        rw [hc] at hstill
        cases hstill
    | single hstep =>
        cases hstep
        rfl
  refine ⟨?_, ?_, ?_, ?_⟩
  · intro d st hd
    by_cases hdc : d = c
    · subst hdc
      obtain ⟨hpc, rfl⟩ := hfinish q st hd
      exact (dead_iff_of_leaving hinv h (by rw [hpc]; rfl)).symm
    · rw [hother d hdc] at hd
      exact (hq.finishing d st hd).trans (dead_iff_of_leaving hinv h (by rw [hd]; rfl)).symm
  · intro d hd
    by_cases hdc : d = c
    · rw [hdc] at hd ⊢
      obtain ⟨hpc, hdead, honCpu⟩ := hjust hd
      refine ⟨dead_of_effect hinv h hdead, hgone hd, ?_, ?_⟩
      · rcases puts_of_effect (q := q) h with hputs | ⟨-, hputs⟩
        · rw [hputs, hpc, if_neg (by simp)]
          exact hq.puts.resolve_right fun hone => by simp [honCpu] at hone
        · exact hputs
      · intro e he
        by_contra hec
        rw [hother e hec] at he
        rw [(hq.unlocking e he).2.1] at honCpu
        cases honCpu
    · rw [hother d hdc] at hd
      obtain ⟨hdead, honCpu, hputs, honly⟩ := hq.unlocking d hd
      refine ⟨dead_of_effect hinv h hdead, (hoff hdead honCpu).task.onCpu, ?_, ?_⟩
      · rcases puts_of_effect (q := q) h with hputs' | ⟨-, hputs'⟩
        · rw [hputs', hputs, if_neg fun hc => hdc (honly c hc).symm]
        · exact hputs'
      · intro e he
        by_cases hec : e = c
        · rw [hec] at he
          rw [(hjust he).2.2] at honCpu
          cases honCpu
        · rw [hother e hec] at he
          exact honly e he
  · by_cases hc : (s.cpus c).pc = .unlocking (some q) taskDead
    · obtain ⟨hdead, honCpu, hputs, honly⟩ := hq.unlocking c hc
      have hasleep := hoff hdead honCpu
      refine .inr ⟨?_, dead_of_effect hinv h hdead, hasleep.task.onCpu, ?_⟩
      · rcases puts_of_effect (q := q) h with hputs' | ⟨hnew, -⟩
        · rw [hputs', hputs, if_pos hc]
        · exact absurd hnew (hl.ne_nextPid_of_dead hdead)
      · intro d hd
        by_cases hdc : d = c
        · rw [hdc] at hd
          rw [(hjust hd).1] at hc
          cases hc
        · rw [hother d hdc] at hd
          exact hdc (honly d hd)
    · rcases puts_of_effect (q := q) h with hputs | ⟨-, hputs⟩
      · rw [if_neg hc, Nat.add_zero] at hputs
        rw [hputs]
        refine hq.puts.imp_right ?_
        rintro ⟨hone, hdead, honCpu, hnone⟩
        refine ⟨hone, dead_of_effect hinv h hdead, (hoff hdead honCpu).task.onCpu, ?_⟩
        intro d hd
        by_cases hdc : d = c
        · rw [hdc] at hd
          rw [(hjust hd).2.2] at honCpu
          cases honCpu
        · rw [hother d hdc] at hd
          exact hnone d hd
      · exact .inl hputs
  · intro hdead honCpu
    obtain rfl : l' = .asleep := hl'.asleep_of_dead hdead honCpu
    by_cases hold : (s.tasks q).state = taskDead
    · have hne := hl.ne_nextPid_of_dead hold
      have hputs := (puts_of_effect (q := q) h).resolve_right fun hnew => hne hnew.1
      by_cases honCpu' : (s.tasks q).onCpu = false
      · rcases hq.due hold honCpu' with hone | ⟨d, hd⟩
        · obtain ⟨-, -, -, hnone⟩ := hq.puts.resolve_left (by omega)
          rw [if_neg (hnone c)] at hputs
          exact .inl (hputs.trans hone)
        · by_cases hdc : d = c
          · rw [hdc] at hd
            rw [if_pos hd, (hq.unlocking c hd).2.2.1] at hputs
            exact .inl hputs
          · exact .inr ⟨d, (hother d hdc).trans hd⟩
      · obtain ⟨e, rfl⟩ : ∃ e, l = .departing e := by
          have h1 := hl.task.onCpu
          cases hmoves with
          | refl => simp_all
          | single hstep =>
              cases hstep
              exact ⟨_, rfl⟩
        have hleaving := (hl.cpus e).leaving.mpr rfl
        obtain rfl : e = c := by
          by_contra hec
          rw [← hother e hec] at hleaving
          cases (hl'.cpus e).leaving.mp hleaving
        refine .inr ⟨e, ?_⟩
        obtain ⟨hswitched, hfinishing⟩ := goesOn_of_finish h
        cases hpc : (s.cpus e).pc with
        | switched prev =>
            rw [hpc] at hleaving
            obtain rfl : prev = some q := hleaving
            cases (hl'.cpus e).leaving.mp (hswitched q hpc)
        | finishing prev st =>
            rw [hpc] at hleaving
            obtain rfl : prev = some q := hleaving
            obtain rfl := (hq.finishing e st hpc).mpr hold
            exact hfinishing q _ hpc
        | _ =>
            rw [hpc] at hleaving
            cases hleaving
    · obtain ⟨k, hmoves', hk⟩ := Moves.of_effect h q _ (running_of_dead hinv h hdead hold)
      obtain rfl := hk.asleep_of_dead hdead honCpu
      cases hmoves' with
      | single hstep => cases hstep

theorem grave_boot : Grave boot q := by
  constructor <;> simp [boot, taskRunning, taskDead]

theorem grave_of_reachable (h : Reachable m s) (q : Pid) : Grave s q := by
  have hall := h.invariant (fun u => Inv u ∧ Grave u q) (fun s e t hs hstep => ?_)
    ⟨inv_boot, grave_boot⟩
  · exact hall.2
  have heffect := (effect_of_step hstep).2.2
  exact ⟨hs.1.moves (.of_effect heffect), hs.2.of_effect hs.1 heffect⟩

/-- No CPU runs the task, has it on a queue or on a list, or is in the middle of waking it.  Someone
with a reference of his own may still name it: a call of `try_to_wake_up` that has not looked at it
yet, or a request to a stopper. -/
structure Unused (s : State) (p : Pid) : Prop where
  onRq : (s.tasks p).onRq = false
  onCpu : (s.tasks p).onCpu = false
  queue : ∀ c, p ∉ (s.cpus c).queue
  wakeList : ∀ c, p ∉ (s.cpus c).wakeList
  pending : ∀ c, p ∉ (s.cpus c).pc.pending
  curr : ∀ c, (s.cpus c).curr ≠ some p
  leaving : ∀ c, (s.cpus c).pc.leaving ≠ some p
  waking : ∀ c, (s.cpus c).pc.piHeld ≠ some p

theorem Fits.unused_of_dead (hl : Fits s p .asleep) (h : (s.tasks p).state = taskDead) :
    Unused s p where
  onRq := hl.task.onRq
  onCpu := hl.task.onCpu
  queue c hc := by cases hl.mem_queue.mp hc
  wakeList c := (hl.not_listed_of_dead h c).1
  pending c := (hl.not_listed_of_dead h c).2
  curr c hc := by cases (hl.cpus c).curr.mp hc
  leaving c hc := by cases (hl.cpus c).leaving.mp hc
  waking c := hl.not_held_of_dead h c

/-- **An exiting task is given up once**, after it is off its CPU for good, and no later than the
switch that took it off ends. -/
theorem put_once (h : Reachable m s) (p : Pid) :
    (s.tasks p).puts ≤ 1 ∧
    ((s.tasks p).puts = 1 → (s.tasks p).state = taskDead ∧ Unused s p) ∧
    ((s.tasks p).state = taskDead → (s.tasks p).onCpu = false →
      (∀ c, (s.cpus c).pc ≠ .unlocking (some p) taskDead) → (s.tasks p).puts = 1) := by
  have hp := grave_of_reachable h p
  refine ⟨?_, ?_, ?_⟩
  · rcases hp.puts with hzero | ⟨hone, -⟩ <;> omega
  · intro hone
    obtain ⟨-, hdead, honCpu, -⟩ := hp.puts.resolve_left (by omega)
    obtain ⟨l, hl⟩ := inv_of_reachable h p
    obtain rfl := hl.asleep_of_dead hdead honCpu
    exact ⟨hdead, hl.unused_of_dead hdead⟩
  · intro hdead honCpu hnone
    refine (hp.due hdead honCpu).resolve_right ?_
    rintro ⟨c, hc⟩
    exact hnone c hc

/-- **A dead task never comes back**: once it is off its CPU, nothing uses it again, whatever CPUs
do, and its reference is not dropped another time. -/
theorem dead_for_ever (h : Reachable m s) (hdead : (s.tasks p).state = taskDead)
    (honCpu : (s.tasks p).onCpu = false) {tr : List (State × (Nat × Act))}
    (hrun : Run (step m) s tr t) :
    (t.tasks p).state = taskDead ∧ Unused t p ∧ (s.tasks p).puts ≤ (t.tasks p).puts ∧
      (t.tasks p).puts ≤ 1 := by
  have hkeep : ∀ u e v, ((Inv u ∧ Grave u p) ∧ (u.tasks p).state = taskDead ∧
      (u.tasks p).onCpu = false ∧ (s.tasks p).puts ≤ (u.tasks p).puts) → True →
      step m u e = some v → (Inv v ∧ Grave v p) ∧ (v.tasks p).state = taskDead ∧
        (v.tasks p).onCpu = false ∧ (s.tasks p).puts ≤ (v.tasks p).puts := by
    rintro u e v ⟨⟨hinv, hgrave⟩, hdead, honCpu, hputs⟩ - hstep
    have heffect := (effect_of_step hstep).2.2
    refine ⟨⟨hinv.moves (.of_effect heffect), hgrave.of_effect hinv heffect⟩,
      dead_of_effect hinv heffect hdead,
      (asleep_of_effect hinv heffect hdead honCpu).task.onCpu, ?_⟩
    obtain ⟨l, hl⟩ := hinv p
    have hmore := (puts_of_effect (q := p) heffect).resolve_right
      fun hnew => hl.ne_nextPid_of_dead hdead hnew.1
    omega
  obtain ⟨⟨hinv, hgrave⟩, hdead', honCpu', hputs⟩ := (Run.invariant _ (fun _ _ => True) hkeep hrun
    ⟨⟨inv_of_reachable h, grave_of_reachable h p⟩, hdead, honCpu, Nat.le_refl _⟩
    (fun _ _ => trivial)).1
  obtain ⟨l, hl⟩ := hinv p
  obtain rfl := hl.asleep_of_dead hdead' honCpu'
  refine ⟨hdead', hl.unused_of_dead hdead', hputs, ?_⟩
  rcases hgrave.puts with hzero | ⟨hone, -⟩ <;> omega

/-- The first task exits. -/
def exiting : List (Nat × Act) :=
  firstTask ++ [(0, .doExit), (0, .schedule false false false), (0, .pickNext none),
    (0, .finishTaskSwitch), (0, .finishTaskSwitch)]

theorem put_once_exiting :
    ∃ s, Reachable twoCpus s ∧ (s.tasks 0).state = taskDead ∧ (s.tasks 0).puts ≤ 1 ∧
      ((s.tasks 0).puts = 1 → (s.tasks 0).state = taskDead ∧ Unused s 0) ∧
      ((s.tasks 0).state = taskDead → (s.tasks 0).onCpu = false →
        (∀ c, (s.cpus c).pc ≠ .unlocking (some 0) taskDead) → (s.tasks 0).puts = 1) := by
  have hexec : ((Run.exec (step twoCpus) boot (exiting ++ [(0, .finishTaskSwitch)])).any fun s =>
      decide ((s.tasks 0).state = taskDead)) = true := by decide +kernel
  obtain ⟨s, hs, hdead⟩ := Run.exists_of_exec hexec
  exact ⟨s, hs, hdead, put_once hs 0⟩

theorem dead_for_ever_exiting :
    ∃ s t, Reachable twoCpus s ∧ (s.tasks 0).puts = 0 ∧
      step twoCpus s (0, .finishTaskSwitch) = some t ∧
      (t.tasks 0).state = taskDead ∧ Unused t 0 ∧ (s.tasks 0).puts ≤ (t.tasks 0).puts ∧
        (t.tasks 0).puts ≤ 1 := by
  have hexec : ((Run.exec (step twoCpus) boot exiting).any fun s =>
      decide ((s.tasks 0).puts = 0 ∧ (s.tasks 0).state = taskDead ∧ (s.tasks 0).onCpu = false ∧
        (step twoCpus s (0, .finishTaskSwitch)).isSome = true)) = true := by decide +kernel
  obtain ⟨s, hs, hputs, hdead, honCpu, hstep⟩ := Run.exists_of_exec hexec
  obtain ⟨t, ht⟩ := Option.isSome_iff_exists.mp hstep
  exact ⟨s, t, hs, hputs, ht, dead_for_ever hs hdead honCpu (Run.one ht)⟩

end WrrScheduler.Smp
