/-
Sequences as intrusive lists see them.

The operations of a circular doubly linked list, read as operations on the
sequence of its elements: `add` and `addTail` put an element that is on no list at
either end, `del` takes one out wherever it is, and the two moves do both.  A node
has one pair of links, so it is on a list at most once, and every lemma that needs
that asks for `Nodup`.

The `filter` lemmas say what an operation on one element leaves alone: the other
elements, in their order.
-/
import Mathlib.Data.List.Basic
import Mathlib.Data.List.Nodup
import Mathlib.Data.List.Permutation

namespace Sequence

variable {α : Type*}

/-- Put an element at the head. -/
def add (x : α) (l : List α) : List α := x :: l

/-- Put an element at the tail. -/
def addTail (x : α) (l : List α) : List α := l ++ [x]

section Add

variable {x y : α} {l : List α} {keep : α → Bool}

@[simp] theorem mem_add : y ∈ add x l ↔ y = x ∨ y ∈ l := List.mem_cons

@[simp] theorem mem_addTail : y ∈ addTail x l ↔ y = x ∨ y ∈ l := by
  simp [addTail, or_comm]

theorem nodup_add (h : l.Nodup) (hx : x ∉ l) : (add x l).Nodup := List.nodup_cons.mpr ⟨hx, h⟩

theorem nodup_addTail (h : l.Nodup) (hx : x ∉ l) : (addTail x l).Nodup := by
  rw [addTail, List.nodup_append]
  refine ⟨h, List.nodup_singleton x, ?_⟩
  intro a ha b hb hab
  rw [List.mem_singleton] at hb
  exact hx (by rwa [← hb, ← hab])

@[simp] theorem length_add : (add x l).length = l.length + 1 := List.length_cons

@[simp] theorem length_addTail : (addTail x l).length = l.length + 1 := by simp [addTail]

theorem head?_addTail (h : l.head? = some x) : (addTail y l).head? = some x := by
  rw [addTail, List.head?_append, h]
  rfl

theorem filter_add (hx : keep x = false) : (add x l).filter keep = l.filter keep := by
  simp [add, hx]

theorem filter_addTail (hx : keep x = false) : (addTail x l).filter keep = l.filter keep := by
  simp [addTail, List.filter_append, hx]

/-- The first and the last element differ exactly on a list of two or more. -/
theorem getLast?_ne_head? (h : l.Nodup) : l.getLast? ≠ l.head? ↔ 2 ≤ l.length := by
  match l, h with
  | [], _ => simp
  | [a], _ => simp
  | a :: b :: t, h =>
    have hne : (b :: t).getLast? ≠ some a := by
      intro hc
      exact (List.nodup_cons.mp h).1 (List.mem_of_getLast? hc)
    rw [List.getLast?_cons_cons]
    simpa using hne

end Add

variable [DecidableEq α]

/-- The element after one, unless that is the last. -/
def next (x : α) : List α → Option α
  | [] => none
  | y :: l => if y = x then l.head? else next x l

theorem next_append {x : α} {l l' : List α} (h : (l ++ x :: l').Nodup) :
    next x (l ++ x :: l') = l'.head? := by
  induction l with
  | nil => exact if_pos rfl
  | cons y l ih =>
      have hy : y ≠ x := by
        rintro rfl
        exact (List.nodup_cons.mp h).1 (by simp)
      exact (if_neg hy).trans (ih (List.nodup_cons.mp h).2)

/-- Take an element out. -/
def del (x : α) (l : List α) : List α := l.erase x

/-- Move an element to the head. -/
def move (x : α) (l : List α) : List α := add x (del x l)

/-- Move an element to the tail. -/
def moveTail (x : α) (l : List α) : List α := addTail x (del x l)

section Del

variable {x y : α} {l : List α} {keep : α → Bool}

theorem mem_del (h : l.Nodup) : y ∈ del x l ↔ y ≠ x ∧ y ∈ l := h.mem_erase_iff

theorem mem_of_mem_del (h : y ∈ del x l) : y ∈ l := List.mem_of_mem_erase h

theorem nodup_del (h : l.Nodup) : (del x l).Nodup := h.erase x

theorem not_mem_del (h : l.Nodup) : x ∉ del x l := h.not_mem_erase

theorem length_del (hx : x ∈ l) : (del x l).length = l.length - 1 :=
  List.length_erase_of_mem hx

theorem del_of_not_mem (hx : x ∉ l) : del x l = l := List.erase_of_not_mem hx

theorem filter_del (hx : keep x = false) : (del x l).filter keep = l.filter keep := by
  induction l with
  | nil => rfl
  | cons a t ih =>
      by_cases ha : a = x
      · subst ha
        simp [del, hx]
      · have hstep : del x (a :: t) = a :: del x t := List.erase_cons_tail (by simpa using ha)
        rw [hstep, List.filter_cons, List.filter_cons, ih]

end Del

section Move

variable {x y : α} {l : List α} {keep : α → Bool}

theorem mem_moveTail (h : l.Nodup) (hx : x ∈ l) : y ∈ moveTail x l ↔ y ∈ l := by
  rw [moveTail, mem_addTail, mem_del h]
  constructor
  · rintro (rfl | ⟨-, hy⟩)
    · exact hx
    · exact hy
  · intro hy
    by_cases hyx : y = x
    · exact Or.inl hyx
    · exact Or.inr ⟨hyx, hy⟩

theorem nodup_moveTail (h : l.Nodup) : (moveTail x l).Nodup :=
  nodup_addTail (nodup_del h) (not_mem_del h)

theorem length_moveTail (hx : x ∈ l) : (moveTail x l).length = l.length := by
  have hpos : 0 < l.length := List.length_pos_of_mem hx
  rw [moveTail, length_addTail, length_del hx]
  omega

theorem filter_moveTail (hx : keep x = false) : (moveTail x l).filter keep = l.filter keep := by
  rw [moveTail, filter_addTail hx, filter_del hx]

end Move

/-! ### The order of two elements

Two elements of a list without repetitions are somewhere in it, one before the other. -/

section Order

variable {i j x : α} {l : List α}

/-- The elements of a list that are one of two. -/
def order (i j : α) (l : List α) : List α := l.filter fun x => x = i ∨ x = j

theorem mem_order : x ∈ order i j l ↔ x ∈ l ∧ (x = i ∨ x = j) := by
  simp [order]

theorem nodup_order (h : l.Nodup) : (order i j l).Nodup := h.filter _

/-- One of the two comes first. -/
theorem order_eq (h : l.Nodup) (hi : i ∈ l) (hj : j ∈ l) (hij : i ≠ j) :
    order i j l = [i, j] ∨ order i j l = [j, i] := by
  have hnodup : (order i j l).Nodup := nodup_order h
  have hmem : ∀ x, x ∈ order i j l ↔ x = i ∨ x = j := by
    intro x
    rw [mem_order]
    constructor
    · exact fun hx => hx.2
    · rintro (rfl | rfl)
      · exact ⟨hi, Or.inl rfl⟩
      · exact ⟨hj, Or.inr rfl⟩
  have hperm : (order i j l).Perm [i, j] := by
    rw [List.perm_ext_iff_of_nodup hnodup (by simpa using hij)]
    intro x
    simp [hmem]
  rcases List.perm_pair.mp hperm with hc | hc
  · exact Or.inl hc
  · exact Or.inr hc

/-- The head of the list comes first. -/
theorem head?_order (hhead : l.head? = some x) (hx : x = i ∨ x = j) :
    (order i j l).head? = some x := by
  cases l with
  | nil => cases hhead
  | cons a t =>
      obtain rfl : a = x := by simpa using hhead
      simp [order, hx]

/-- An element that is moved to the tail comes last. -/
theorem order_moveTail (h : l.Nodup) (hj : j ∈ l) (hij : i ≠ j) :
    order i j (moveTail i l) = [j, i] := by
  have hmoved : order i j (moveTail i l) = order i j (del i l) ++ [i] := by
    simp [order, moveTail, addTail, List.filter_append]
  have hrest : order i j (del i l) = [j] := by
    have hmem : ∀ x, x ∈ order i j (del i l) ↔ x = j := by
      intro x
      rw [mem_order, mem_del h]
      constructor
      · rintro ⟨⟨hne, -⟩, hx⟩
        exact hx.resolve_left hne
      · rintro rfl
        exact ⟨⟨hij.symm, hj⟩, Or.inr rfl⟩
    have hperm : (order i j (del i l)).Perm [j] := by
      rw [List.perm_ext_iff_of_nodup (nodup_order (nodup_del h)) (List.nodup_singleton j)]
      intro x
      simp [hmem]
    exact List.perm_singleton.mp hperm
  rw [hmoved, hrest]
  rfl

theorem order_comm : order i j l = order j i l := by
  simp only [order, or_comm]

theorem two_le_length (h : l.Nodup) (hi : i ∈ l) (hj : j ∈ l) (hij : i ≠ j) : 2 ≤ l.length := by
  have hle : (order i j l).length ≤ l.length := List.length_filter_le _ _
  rcases order_eq h hi hj hij with hc | hc <;> simpa [hc] using hle

end Order

end Sequence
