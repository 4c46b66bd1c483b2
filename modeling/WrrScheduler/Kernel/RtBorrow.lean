/-
Borrowing of real-time runtime between the CPUs of a root domain: the part of `rt.c`
that is compiled for more than one CPU, and its callers in `core.c`.

Every function here holds the lock of the bandwidth from beginning to end, so it is
one step.  Runtimes and times are integers: they come from a 32-bit number of
microseconds, and no sum over the CPUs is near 2^63.  `RUNTIME_INF` is `none`.

Runs begin once `sched_init` has set `scheduler_running`, which is never cleared.
Before that `__disable_runtime` and `__enable_runtime` return at once and nothing is
borrowed, so their early return is left out.
-/
import Mathlib.Data.Fintype.Basic
import Mathlib.Data.List.FinRange
import Mathlib.Data.Fintype.Fin
import WrrScheduler.Lib.Run

namespace WrrScheduler

/-- The `rt_rq` of one CPU, as far as borrowing is concerned, and its `rq->online`. -/
structure RtShare where
  rtRuntime : Option Int
  rtTime : Nat
  rtThrottled : Bool
  online : Bool

/-- The CPUs of a root domain. -/
abbrev RootDomain (n : Nat) := Fin n → RtShare

namespace RootDomain

variable {n : Nat}

/-- Write the runtime of one CPU. -/
def setRuntime (q : RootDomain n) (cpu : Fin n) (runtime : Option Int) : RootDomain n :=
  Function.update q cpu { q cpu with rtRuntime := runtime }

/-- What `do_balance_runtime` takes from a CPU with spare time. -/
def lent (rtPeriod own spare : Int) (weight : Nat) : Int :=
  if rtPeriod < own + spare / weight then rtPeriod - own else spare / weight

/-- The loop of `do_balance_runtime`: the runtime of the CPU that borrows, whether it got more, and
the others. -/
def balanceLoop (rtPeriod : Int) (self : Fin n) :
    List (Fin n) → Int → Bool → RootDomain n → Int × Bool × RootDomain n
  | [], own, more, q => (own, more, q)
  | i :: is, own, more, q =>
    if i = self then balanceLoop rtPeriod self is own more q
    else match (q i).rtRuntime with
      | none => balanceLoop rtPeriod self is own more q
      | some runtime =>
        if 0 < runtime - (q i).rtTime then
          let diff := lent rtPeriod own (runtime - (q i).rtTime) n
          let q := q.setRuntime i (some (runtime - diff))
          if own + diff = rtPeriod then (own + diff, true, q)
          else balanceLoop rtPeriod self is (own + diff) true q
        else balanceLoop rtPeriod self is own more q

/-- `do_balance_runtime`, for a CPU whose runtime is `own`. -/
def doBalanceRuntime (rtPeriod : Int) (self : Fin n) (own : Int) (q : RootDomain n) :
    Bool × RootDomain n :=
  let (own, more, q) := balanceLoop rtPeriod self (List.finRange n) own false q
  (more, q.setRuntime self (some own))

/-- The reclaiming loop of `__disable_runtime`: what is still wanted, and the CPUs. -/
def reclaimLoop (self : Fin n) : List (Fin n) → Int → RootDomain n → Int × RootDomain n
  | [], want, q => (want, q)
  | i :: is, want, q =>
    if i = self then reclaimLoop self is want q
    else match (q i).rtRuntime with
      | none => reclaimLoop self is want q
      | some runtime =>
        let diff := if 0 < want then min runtime want else want
        let q := q.setRuntime i (some (runtime - diff))
        if want - diff = 0 then (want - diff, q) else reclaimLoop self is (want - diff) q

/-- `__disable_runtime`; there is no result where `BUG_ON(want)` stops the kernel. -/
def disableRuntime (rtRuntime : Int) (self : Fin n) (q : RootDomain n) : Option (RootDomain n) :=
  match (q self).rtRuntime with
  | none => some (q.setRuntime self none)
  | some runtime =>
    if runtime = rtRuntime then some (q.setRuntime self none)
    else
      let (want, q) := reclaimLoop self (List.finRange n) (rtRuntime - runtime) q
      if want ≠ 0 then none else some (q.setRuntime self none)

/-- `__enable_runtime`. -/
def enableRuntime (rtRuntime : Int) (self : Fin n) (q : RootDomain n) : RootDomain n :=
  Function.update q self
    { q self with rtRuntime := some rtRuntime, rtTime := 0, rtThrottled := false }

/-- `set_rq_online`, with `rq_online_rt`. -/
def setRqOnline (rtRuntime : Int) (cpu : Fin n) (q : RootDomain n) : RootDomain n :=
  if !(q cpu).online then
    enableRuntime rtRuntime cpu (Function.update q cpu { q cpu with online := true })
  else q

/-- `set_rq_offline`, with `rq_offline_rt`. -/
def setRqOffline (rtRuntime : Int) (cpu : Fin n) (q : RootDomain n) : Option (RootDomain n) :=
  if (q cpu).online then
    (q.disableRuntime rtRuntime cpu).map fun q =>
      Function.update q cpu { q cpu with online := false }
  else some q

end RootDomain

/-- What a hotplug notifier may be told, as far as `update_runtime` tells it apart; the frozen
variants are handled the same. -/
inductive HotplugAction
  | cpuDownPrepare
  | cpuDownFailed
  | cpuOnline
  | other
  deriving DecidableEq, Repr

/-- `update_runtime`. -/
def RootDomain.updateRuntime {n : Nat} (rtRuntime : Int) (action : HotplugAction) (cpu : Fin n)
    (q : RootDomain n) : Option (RootDomain n) :=
  match action with
  | .cpuDownPrepare => q.disableRuntime rtRuntime cpu
  | .cpuDownFailed | .cpuOnline => some (q.enableRuntime rtRuntime cpu)
  | .other => some q

/-- What can happen next.  The accounting of `update_curr_rt` and of the period timer may leave any
time and flag behind. -/
inductive BorrowOp (n : Nat)
  | doBalanceRuntime (cpu : Fin n)
  | setRqOnline (cpu : Fin n)
  | setRqOffline (cpu : Fin n)
  | updateRuntime (action : HotplugAction) (cpu : Fin n)
  | account (cpu : Fin n) (rtTime : Nat) (rtThrottled : Bool)

/-- One step.  Only a CPU that is not disabled can run out of runtime and balance. -/
def borrowStep {n : Nat} (rtPeriod rtRuntime : Int) (q : RootDomain n) :
    BorrowOp n → Option (RootDomain n)
  | .doBalanceRuntime cpu =>
    (q cpu).rtRuntime.map fun own => (q.doBalanceRuntime rtPeriod cpu own).2
  | .setRqOnline cpu => some (q.setRqOnline rtRuntime cpu)
  | .setRqOffline cpu => q.setRqOffline rtRuntime cpu
  | .updateRuntime action cpu => q.updateRuntime rtRuntime action cpu
  | .account cpu rtTime rtThrottled =>
    some (Function.update q cpu { q cpu with rtTime := rtTime, rtThrottled := rtThrottled })

end WrrScheduler
