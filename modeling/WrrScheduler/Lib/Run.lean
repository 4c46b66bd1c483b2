/-
Runs of a partial step function.

A run remembers, for every operation, the state it started from, so that what an
operation finds and what it leaves can both be spoken of afterwards.  Three rules
carry every result about runs: an invariant that each step keeps holds along the
run, a counter that every turn lowers by one counts the turns of the run, and what
steps change by the events they emit the run changes by the events it emits.
-/
import Mathlib.Data.List.Basic

/-- `Run step s tr t`: the operations of `tr`, each from the state beside it, lead from `s` to
`t`. -/
inductive Run {σ ο : Type*} (step : σ → ο → Option σ) : σ → List (σ × ο) → σ → Prop
  | nil {s : σ} : Run step s [] s
  | cons {s t u : σ} {o : ο} {tr : List (σ × ο)} :
      step s o = some t → Run step t tr u → Run step s ((s, o) :: tr) u

namespace Run

variable {σ ο : Type*} {step : σ → ο → Option σ} {s t u : σ} {o : ο} {tr tr' : List (σ × ο)}

/-! ### Composing and splitting -/

theorem one (h : step s o = some t) : Run step s [(s, o)] t := .cons h .nil

theorem split (h : Run step s (tr ++ tr') u) : ∃ t, Run step s tr t ∧ Run step t tr' u := by
  induction tr generalizing s with
  | nil => exact ⟨s, .nil, h⟩
  | cons e tr ih =>
      cases h with
      | cons hstep htail =>
          obtain ⟨t, h1, h2⟩ := ih htail
          exact ⟨t, .cons hstep h1, h2⟩

/-- The run up to one of its operations, that operation, and the rest. -/
theorem around {e : σ × ο} (h : Run step s (tr ++ e :: tr') u) :
    ∃ t, Run step s tr e.1 ∧ step e.1 e.2 = some t ∧ Run step t tr' u := by
  obtain ⟨v, h1, h2⟩ := h.split
  cases h2 with
  | cons hstep htail => exact ⟨_, h1, hstep, htail⟩

/-- What holds wherever an operation of the run started, and at its end, held where it began. -/
theorem start {P : σ → Prop} (h : Run step s tr t) (hend : P t) (hall : ∀ e ∈ tr, P e.1) : P s := by
  cases h with
  | nil => exact hend
  | cons _ _ => exact hall _ List.mem_cons_self

/-- The same for where each operation led. -/
theorem after (P : σ → Prop) {e : σ × ο} (h : Run step s tr t) (hend : P t)
    (hall : ∀ e ∈ tr, P e.1) (he : e ∈ tr) (hstep : step e.1 e.2 = some u) : P u := by
  obtain ⟨tr₁, tr₂, rfl⟩ := List.append_of_mem he
  obtain ⟨v, -, hv, hrest⟩ := h.around
  obtain rfl : v = u := Option.some.inj (hv.symm.trans hstep)
  exact hrest.start hend fun e he => hall e (by simp [he])

/-! ### Invariants -/

/-- **An invariant of the steps is an invariant of the run**: it holds at the end, and wherever
an operation started. -/
theorem invariant (P : σ → Prop) (allowed : σ → ο → Prop)
    (hstep : ∀ s o t, P s → allowed s o → step s o = some t → P t)
    (h : Run step s tr t) (hs : P s) (hall : ∀ e ∈ tr, allowed e.1 e.2) :
    P t ∧ ∀ e ∈ tr, P e.1 := by
  induction h with
  | nil => exact ⟨hs, by simp⟩
  | @cons s t u o tr hso _ ih =>
      have ht : P t := hstep s o t hs (hall (s, o) (by simp)) hso
      obtain ⟨hend, hmid⟩ := ih ht (fun e he => hall e (List.mem_cons_of_mem _ he))
      refine ⟨hend, ?_⟩
      intro e he
      rcases List.mem_cons.mp he with rfl | he
      · exact hs
      · exact hmid e he

/-! ### Counters

`left` is a number read off the state, and `turn` says which steps lower it.  The
steps may be restricted to those that are `allowed` and the states to those of an
invariant, so that a counter need only behave where it is used.
-/

/-- **A countdown is exact**: if every step lowers `left` by one when it is a `turn` and leaves
it alone otherwise, a run lowers it by its number of turns. -/
theorem countdown (P : σ → Prop) (allowed : σ → ο → Prop) (left : σ → Nat) (turn : σ → ο → Bool)
    (hkeep : ∀ s o t, P s → allowed s o → step s o = some t → P t)
    (hstep : ∀ s o t, P s → allowed s o → step s o = some t →
      left t + (turn s o).toNat = left s)
    (h : Run step s tr t) (hs : P s) (hall : ∀ e ∈ tr, allowed e.1 e.2) :
    left t + tr.countP (fun e => turn e.1 e.2) = left s := by
  induction h with
  | nil => simp
  | @cons s t u o tr hso _ ih =>
      have hallowed : allowed s o := hall (s, o) (by simp)
      have hone : left t + (turn s o).toNat = left s := hstep s o t hs hallowed hso
      have hrest := ih (hkeep s o t hs hallowed hso)
        (fun e he => hall e (List.mem_cons_of_mem _ he))
      rw [List.countP_cons]
      cases hturn : turn s o with
      | true =>
          rw [hturn] at hone
          simp only [Bool.toNat_true] at hone
          simp only [if_true]
          omega
      | false =>
          rw [hturn] at hone
          simp only [Bool.toNat_false] at hone
          simp only [Bool.false_eq_true, if_false]
          omega

/-- **A counter that turns lower bounds the turns**: if every turn finds between 2 and `bound` left
and lowers it by one, and nothing else changes it, there are fewer than `bound` turns. -/
theorem turns_lt (P : σ → Prop) (allowed : σ → ο → Prop) (left : σ → Nat) (turn : σ → ο → Bool)
    (bound : Nat) (hkeep : ∀ s o t, P s → allowed s o → step s o = some t → P t)
    (hturn : ∀ s o t, P s → allowed s o → step s o = some t → turn s o = true →
      2 ≤ left s ∧ left s ≤ bound ∧ left t + 1 = left s)
    (hother : ∀ s o t, P s → allowed s o → step s o = some t → turn s o = false →
      left t = left s)
    (h : Run step s tr t) (hs : P s) (hall : ∀ e ∈ tr, allowed e.1 e.2) :
    tr.countP (fun e => turn e.1 e.2) = 0 ∨
      (tr.countP (fun e => turn e.1 e.2) < left s ∧ left s ≤ bound) := by
  induction h with
  | nil => exact Or.inl rfl
  | @cons s t u o tr hso _ ih =>
      have hallowed : allowed s o := hall (s, o) (by simp)
      have hrest := ih (hkeep s o t hs hallowed hso)
        (fun e he => hall e (List.mem_cons_of_mem _ he))
      rw [List.countP_cons]
      cases hso' : turn s o with
      | true =>
          obtain ⟨htwo, hbound, hone⟩ := hturn s o t hs hallowed hso hso'
          simp only [if_true]
          omega
      | false =>
          rw [hother s o t hs hallowed hso hso'] at hrest
          simpa using hrest

/-! ### Termination -/

/-- If every step leaves less, some run cannot be made any longer. -/
theorem exists_maximal (P : σ → Prop) (allowed : σ → ο → Prop) (left : σ → Nat)
    (hkeep : ∀ s o t, P s → allowed s o → step s o = some t → P t)
    (hstep : ∀ s o t, P s → allowed s o → step s o = some t → left t < left s) (hs : P s) :
    ∃ tr t, Run step s tr t ∧ (∀ e ∈ tr, allowed e.1 e.2) ∧ ∀ o, allowed t o → step t o = none := by
  induction hn : left s using Nat.strongRecOn generalizing s with
  | ind n ih =>
      by_cases hstuck : ∀ o, allowed s o → step s o = none
      · exact ⟨[], s, .nil, by simp, hstuck⟩
      · push Not at hstuck
        obtain ⟨o, ho, hne⟩ := hstuck
        obtain ⟨t, ht⟩ := Option.ne_none_iff_exists'.mp hne
        have hlt := hstep s o t hs ho ht
        obtain ⟨tr, u, hrun, hall, hmax⟩ := ih (left t) (by omega) (hkeep s o t hs ho ht) rfl
        refine ⟨(s, o) :: tr, u, .cons ht hrun, ?_, hmax⟩
        intro e he
        rcases List.mem_cons.mp he with rfl | he
        · exact ho
        · exact hall e he

/-! ### Events

An observer of the state who sees every step as the replay of the events it emits sees
a run as the replay of all of them, in order.
-/

section Events

variable {ε ω : Type*}

/-- The events a run emits, given those of an operation. -/
def emitted (emit : σ → ο → List ε) (tr : List (σ × ο)) : List ε :=
  tr.flatMap fun e => emit e.1 e.2

theorem emitted_map {δ : Type*} (emit : σ → ο → List ε) (f : ε → δ) (tr : List (σ × ο)) :
    emitted (fun s o => (emit s o).map f) tr = (emitted emit tr).map f :=
  (List.map_flatMap ..).symm

/-- **A run is the replay of its events**, for an observer who sees every step as the replay of its
own.  What the observer relies on may speak of the rest of the run. -/
theorem replayed (Q : σ → List (σ × ο) → Prop) (emit : σ → ο → List ε) (obs : σ → ω)
    (act : ω → ε → ω)
    (hstep : ∀ s o t tr, Q s ((s, o) :: tr) → step s o = some t →
      obs t = (emit s o).foldl act (obs s) ∧ Q t tr)
    (h : Run step s tr t) (hs : Q s tr) : obs t = (emitted emit tr).foldl act (obs s) := by
  induction h with
  | nil => rfl
  | @cons s t u o tr hso _ ih =>
      obtain ⟨hobs, ht⟩ := hstep s o t tr hs hso
      rw [ih ht, hobs]
      exact List.foldl_append.symm

end Events

/-! ### Reachability -/

/-- `t` is where some run from `s` ends. -/
def Reachable (step : σ → ο → Option σ) (s t : σ) : Prop := ∃ tr, Run step s tr t

theorem Reachable.refl (s : σ) : Reachable step s s := ⟨[], .nil⟩

theorem Reachable.invariant (P : σ → Prop) (hstep : ∀ s o t, P s → step s o = some t → P t)
    (h : Reachable step s t) (hs : P s) : P t := by
  obtain ⟨tr, hrun⟩ := h
  refine (Run.invariant P (fun _ _ => True) ?_ hrun hs (fun _ _ => trivial)).1
  intro s o t hP _ ho
  exact hstep s o t hP ho

/-! ### Running a list of operations -/

/-- Run operations one after another, if each of them can be, and remember them. -/
def trace (step : σ → ο → Option σ) : σ → List ο → Option (List (σ × ο) × σ)
  | s, [] => some ([], s)
  | s, o :: os => (step s o).bind fun t => (trace step t os).map fun r => ((s, o) :: r.1, r.2)

theorem of_trace {os : List ο} (h : trace step s os = some (tr, t)) : Run step s tr t := by
  induction os generalizing s tr with
  | nil =>
      cases h
      exact .nil
  | cons o os ih =>
      obtain ⟨u, ho, hrest⟩ := Option.bind_eq_some_iff.mp h
      obtain ⟨⟨tr', t'⟩, htrace, heq⟩ := Option.map_eq_some_iff.mp hrest
      cases heq
      exact .cons ho (ih htrace)

/-- A property that can be computed of the run a list of operations makes is one of a run. -/
theorem exists_of_trace {os : List ο} {P : List (σ × ο) × σ → Prop} [DecidablePred P]
    (h : ((trace step s os).any fun r => decide (P r)) = true) : ∃ r, Run step s r.1 r.2 ∧ P r := by
  cases htrace : trace step s os with
  | none =>
      rw [htrace] at h
      cases h
  | some r =>
      rw [htrace] at h
      exact ⟨r, of_trace htrace, of_decide_eq_true h⟩

/-- The state a list of operations leads to. -/
def exec (step : σ → ο → Option σ) (s : σ) (os : List ο) : Option σ := (trace step s os).map Prod.snd

theorem reachable_of_exec {os : List ο} (h : exec step s os = some t) : Reachable step s t := by
  obtain ⟨⟨tr, t'⟩, htrace, rfl⟩ := Option.map_eq_some_iff.mp h
  exact ⟨tr, of_trace htrace⟩

/-- A property that can be computed of the state a list of operations leads to is one of a
reachable state. -/
theorem exists_of_exec {os : List ο} {P : σ → Prop} [DecidablePred P]
    (h : ((exec step s os).any fun t => decide (P t)) = true) : ∃ t, Reachable step s t ∧ P t := by
  cases hexec : exec step s os with
  | none =>
      rw [hexec] at h
      cases h
  | some t =>
      rw [hexec] at h
      exact ⟨t, reachable_of_exec hexec, of_decide_eq_true h⟩

end Run
