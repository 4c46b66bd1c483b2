/-
The walk over the task groups of `core.c`, as it jumps.

The walk keeps two pointers and no stack: from the end of a list of siblings it goes
up by the parent pointer, and on with the sibling after the group it came from.
-/
import WrrScheduler.Kernel.TaskGroup

namespace WrrScheduler

/-- A `tg_visitor`, and what is behind its `data`; nothing, where it does not return. -/
abbrev TgVisitor (σ : Type) := Gid → σ → Option (Int × σ)

/-- Where `walk_tg_tree_from` is: at the label `down`, at the test of `list_for_each_entry_rcu` with
the `child` it has come to, or at `out`. -/
inductive WalkPc
  | down (parent : Gid)
  | forEach (parent : Gid) (child : Option Gid)
  | out (ret : Int)
  deriving DecidableEq, Repr

variable {σ : Type}

/-- From a group to its parent and, at the label `up`, on with its next sibling.  `ret` is 0. -/
def walkUp (t : TgTree) (child : Gid) : WalkPc :=
  match t.parent child with
  | some parent => .forEach parent (Sequence.next child (t.children parent))
  | none => .out 0

/-- One round of `walk_tg_tree_from`. -/
def walkTgTreeStep (t : TgTree) (start : Gid) (down up : TgVisitor σ) (pc : WalkPc) (s : σ) :
    Option (WalkPc × σ) :=
  match pc with
  | .down parent => (down parent s).map fun r =>
    (if r.1 ≠ 0 then .out r.1 else .forEach parent (t.children parent).head?, r.2)
  | .forEach _ (some child) => some (.down child, s)
  | .forEach parent none => (up parent s).map fun r =>
    (if r.1 ≠ 0 ∨ parent = start then .out r.1 else walkUp t parent, r.2)
  | .out ret => some (.out ret, s)

/-- The rounds of `walk_tg_tree_from`, as many as the fuel lasts. -/
def walkTgTreeLoop (t : TgTree) (start : Gid) (down up : TgVisitor σ) :
    Nat → WalkPc → σ → Option (Int × σ)
  | _, .out ret, s => some (ret, s)
  | 0, _, _ => none
  | n + 1, pc, s =>
    (walkTgTreeStep t start down up pc s).bind fun r => walkTgTreeLoop t start down up n r.1 r.2

/-- `walk_tg_tree_from`. -/
def walkTgTreeFrom (t : TgTree) (fuel : Nat) (start : Gid) (down up : TgVisitor σ) (s : σ) :
    Option (Int × σ) := walkTgTreeLoop t start down up fuel (.down start) s

/-- `walk_tg_tree`. -/
def walkTgTree (t : TgTree) (fuel : Nat) (down up : TgVisitor σ) (s : σ) : Option (Int × σ) :=
  walkTgTreeFrom t fuel t.root down up s

/-- `tg_nop`. -/
def tgNop : TgVisitor σ := fun _ s => some (0, s)

end WrrScheduler
