/-
What the places of tasks rule out.

A task is on at most one queue and runs on at most one CPU, also while a switch is
going on; and between two states of the machine it has gone one step along its life
cycle or none.  Nothing more has to be proved of the steps: a place names at most
one queue and one CPU, and every task is in a place.
-/
import WrrScheduler.Proofs.SmpInvariant

namespace WrrScheduler.Smp

variable {m : Machine} {s t : State} {p : Pid} {c d : Nat} {l l' : Place}

/-- Two CPUs that do not share a cache. -/
def twoCpus : Machine where
  nrCpus := 2
  nrCpus_pos := by decide
  cpuToNode _ := 0
  ttwuQueue := true
  sdLlcId cpu := cpu
  cpusetCpusAllowedFallback _ allowed := allowed

/-- The first task runs on the first CPU, and the second CPU has come up. -/
def firstTask : List (Nat × Act) :=
  [(0, .schedFork false), (0, .wakeUpNewTask 0 0), (0, .schedule false false false),
    (0, .pickNext (some 0)), (0, .finishTaskSwitch), (0, .finishTaskSwitch), (0, .finishTaskSwitch),
    (1, .cpuUp)]

/-! ### The fields tell the place

Two places that the same fields encode are the same.  So a place is not a ghost of the
proof: it can be read off the state.
-/

theorem Fits.unique (h : Fits s p l) (h' : Fits s p l') : l = l' := by
  have hqueue : ∀ c, l.queuedOn = some c ↔ l'.queuedOn = some c :=
    fun c => h.mem_queue.symm.trans h'.mem_queue
  have hcurr : ∀ c, l.currentOn = some c ↔ l'.currentOn = some c :=
    fun c => (h.cpus c).curr.symm.trans (h'.cpus c).curr
  have hleaving : ∀ c, l.leavingFrom = some c ↔ l'.leavingFrom = some c :=
    fun c => (h.cpus c).leaving.symm.trans (h'.cpus c).leaving
  have hplaced : ∀ c, l.placedBy = some c ↔ l'.placedBy = some c :=
    fun c => (h.cpus c).placing.symm.trans (h'.cpus c).placing
  have hlisted : ∀ c, l.listedOn = some c ↔ l'.listedOn = some c := by
    intro c
    have hbool : ∀ a b : Bool, a.toNat = b.toNat → a = b := by decide
    exact decide_eq_decide.mp (hbool _ _ ((h.cpus c).lists.symm.trans (h'.cpus c).lists))
  have hforked := h.task.forked.symm.trans h'.task.forked
  have hstarted := h.task.started.symm.trans h'.task.started
  cases l <;> cases l' <;> simp_all

/-! ### Running -/

/-- CPU `c` runs the task, or has not saved its registers yet. -/
def State.executes (s : State) (c : Nat) (p : Pid) : Prop :=
  (s.cpus c).curr = some p ∨ (s.cpus c).pc.leaving = some p

theorem Fits.executes_iff (h : Fits s p l) :
    s.executes c p ↔ l.currentOn = some c ∨ l.leavingFrom = some c :=
  or_congr (h.cpus c).curr (h.cpus c).leaving

theorem Fits.home_of_executes (h : Fits s p l) (hc : s.executes c p) : l.home = some c := by
  rcases h.executes_iff.mp hc with hc | hc <;> cases l <;> simp_all

/-- A task is in one place only, whatever is looked at. -/
structure Exclusive (s : State) (p : Pid) : Prop where
  /-- It is on the run queue that `on_rq` and `task_cpu` say, once, and on no other. -/
  queue : ∀ c, (s.cpus c).queue.count p = ((s.tasks p).onRq && (s.tasks p).cpu = c).toNat
  /-- At most one CPU executes it, and that is the one `task_cpu` says. -/
  executes : ∀ c d, s.executes c p → s.executes d p → c = d
  home : ∀ c, s.executes c p → (s.tasks p).cpu = c
  onCpu : (s.tasks p).onCpu = true ↔ ∃ c, s.executes c p
  /-- On a wake list it is once, on no other, on no run queue, and off its CPU. -/
  wakeList : ∀ c, p ∈ (s.cpus c).wakeList → (s.cpus c).wakeList.count p = 1 ∧
    (s.tasks p).cpu = c ∧ (s.tasks p).onRq = false ∧ (s.tasks p).onCpu = false ∧
    (s.tasks p).state = taskWaking

theorem Fits.exclusive (h : Fits s p l) : Exclusive s p where
  queue c := by
    have hqueue := (h.cpus c).queue
    have honRq := h.task.onRq
    have hhome := h.task.home
    cases l <;> simp_all
  executes c d hc hd := by
    have hc' := h.home_of_executes hc
    have hd' := h.home_of_executes hd
    exact Option.some.inj (hc'.symm.trans hd')
  home c hc := h.task.home c (h.home_of_executes hc)
  onCpu := by
    rw [h.task.onCpu]
    constructor
    · intro hon
      cases l with
      | running c | blocking c => exact ⟨c, h.executes_iff.mpr (.inl rfl)⟩
      | outgoing c | departing c => exact ⟨c, h.executes_iff.mpr (.inr rfl)⟩
      | _ => cases hon
    · rintro ⟨c, hc⟩
      rcases h.executes_iff.mp hc with hc | hc
      · rw [hc]
        rfl
      · rw [hc]
        exact Bool.or_true _
  wakeList c hc := by
    have hcount : 0 < (s.cpus c).wakeList.count p := List.count_pos_iff.mpr hc
    obtain rfl : l = .listed c := h.mem_lists.mp (.inl hc)
    have hlists := (h.cpus c).lists
    simp only [Place.listedOn, decide_true, Bool.toNat_true] at hlists
    exact ⟨by omega, h.task.home c rfl, h.task.onRq, h.task.onCpu, h.task.waking.mpr rfl⟩

/-- **A task is on one queue at most and runs on one CPU at most**, also while a CPU is still
switching away from it. -/
theorem exclusive_of_reachable (h : Reachable m s) (p : Pid) : Exclusive s p := by
  obtain ⟨l, hl⟩ := inv_of_reachable h p
  exact hl.exclusive

theorem exclusive_of_reachable_firstTask :
    ∃ s, Reachable twoCpus s ∧ ((s.cpus 0).curr = some 0 ∧ (s.cpus 1).online = true) ∧
      Exclusive s 0 := by
  have hexec : ((Run.exec (step twoCpus) boot firstTask).any fun s =>
      decide ((s.cpus 0).curr = some 0 ∧ (s.cpus 1).online = true)) = true := by decide +kernel
  obtain ⟨s, hs, hcurr⟩ := Run.exists_of_exec hexec
  exact ⟨s, hs, hcurr, exclusive_of_reachable hs 0⟩

/-! ### The life cycle -/

/-- **A step of the machine takes a task along one edge of its life cycle, or none**: before and
after it, the fields encode one place and no other. -/
theorem place_step (h : Reachable m s) {e : Nat × Act} (hstep : step m s e = some t) (p : Pid) :
    ∃ l l', (∀ k, Fits s p k ↔ k = l) ∧ (∀ k, Fits t p k ↔ k = l') ∧
      (l' = l ∨ Place.Step l l') := by
  obtain ⟨l, hl⟩ := inv_of_reachable h p
  obtain ⟨l', hmoves, hl'⟩ := Moves.step hstep p l hl
  refine ⟨l, l', ?_, ?_, ?_⟩
  · exact fun k => ⟨fun hk => hk.unique hl, fun hk => hk ▸ hl⟩
  · exact fun k => ⟨fun hk => hk.unique hl', fun hk => hk ▸ hl'⟩
  · cases hmoves with
    | refl => exact .inl rfl
    | single hstep => exact .inr hstep

theorem place_step_firstTask :
    ∃ s t, Reachable twoCpus s ∧ step twoCpus s (0, .schedule true false false) = some t ∧
      ∃ l l', (∀ k, Fits s 0 k ↔ k = l) ∧ (∀ k, Fits t 0 k ↔ k = l') ∧
        (l' = l ∨ Place.Step l l') := by
  have hexec : ((Run.exec (step twoCpus) boot firstTask).any fun s =>
      decide ((step twoCpus s (0, .schedule true false false)).isSome = true)) = true := by
    decide +kernel
  obtain ⟨s, hs, hstep⟩ := Run.exists_of_exec hexec
  obtain ⟨t, ht⟩ := Option.isSome_iff_exists.mp hstep
  exact ⟨s, t, hs, ht, place_step hs ht 0⟩

end WrrScheduler.Smp
