/-
The load average of `core.c`, over any number of CPUs.

The functions run on several CPUs at once, so a call in flight is where it stands
and what its locals hold, and each access to something shared is a step of its own.
Counts of tasks are integers, because none is near the end of a `long`.  `jiffies`,
the times of the next sample and the averages are words of the 32-bit machine.
-/
import Mathlib.Algebra.BigOperators.Fin
import Mathlib.Data.Multiset.MapFold
import WrrScheduler.Lib.Run

namespace WrrScheduler

/-- What the load average keeps in `struct rq`, and the two counts it reads there. -/
structure LoadRq where
  nrRunning : Nat
  nrUninterruptible : Int
  calcLoadActive : Int
  calcLoadUpdate : BitVec 32

/-- The static variables of the load average, the clock, and the run queues. -/
structure LoadAvg (n : Nat) where
  jiffies : BitVec 32
  calcLoadTasks : Int
  calcLoadUpdate : BitVec 32
  avenrun : Fin 3 → BitVec 32
  calcLoadIdle : Fin 2 → Int
  calcLoadIdx : BitVec 32
  rq : Fin n → LoadRq

/-- Change the run queue of one CPU. -/
def LoadAvg.modRq {n : Nat} (s : LoadAvg n) (cpu : Fin n) (f : LoadRq → LoadRq) : LoadAvg n :=
  { s with rq := Function.update s.rq cpu (f (s.rq cpu)) }

/-- `FSHIFT`. -/
def fshift : Nat := 11

/-- `FIXED_1`. -/
def fixed1 : BitVec 32 := 1 <<< fshift

/-- `EXP_1`, `EXP_5` and `EXP_15`. -/
def loadExp : Fin 3 → BitVec 32 := ![1884, 2014, 2037]

/-- `LOAD_FREQ`. -/
def loadFreq (HZ : Nat) : BitVec 32 := BitVec.ofNat 32 (5 * HZ + 1)

/-- `time_before`. -/
def timeBefore (a b : BitVec 32) : Bool := (a - b).toInt < 0

/-- `calc_load_fold_active`: the delta it returns, and the run queue it leaves. -/
def calcLoadFoldActive (q : LoadRq) : Int × LoadRq :=
  let nrActive := q.nrRunning + q.nrUninterruptible
  if nrActive ≠ q.calcLoadActive then
    (nrActive - q.calcLoadActive, { q with calcLoadActive := nrActive })
  else (0, q)

/-- `calc_load`. -/
def calcLoad (load exp active : BitVec 32) : BitVec 32 :=
  (load * exp + active * (fixed1 - exp) + 1 <<< (fshift - 1)) >>> fshift

/-- The loop of `fixed_power_int`, by the bits of `n` it may still see. -/
def fixedPowerLoop (fracBits : Nat) : Nat → BitVec 32 → BitVec 32 → BitVec 32 → BitVec 32
  | 0, _, _, result => result
  | bits + 1, x, n, result =>
    let result :=
      if n.getLsbD 0 then (result * x + 1 <<< (fracBits - 1)) >>> fracBits else result
    if n >>> 1 = 0 then result
    else fixedPowerLoop fracBits bits ((x * x + 1 <<< (fracBits - 1)) >>> fracBits) (n >>> 1) result

/-- `fixed_power_int`. -/
def fixedPowerInt (x : BitVec 32) (fracBits : Nat) (n : BitVec 32) : BitVec 32 :=
  if n = 0 then 1 <<< fracBits else fixedPowerLoop fracBits 32 x n (1 <<< fracBits)

/-- `calc_load_n`. -/
def calcLoadN (load exp active n : BitVec 32) : BitVec 32 :=
  calcLoad load (fixedPowerInt exp fshift n) active

/-- `active`, as `calc_global_load` and `calc_global_nohz` read it. -/
def activeOf (calcLoadTasks : Int) : BitVec 32 :=
  if 0 < calcLoadTasks then BitVec.ofInt 32 calcLoadTasks * fixed1 else 0

/-- `idx & 1`. -/
def bucket (idx : BitVec 32) : Fin 2 := if idx.getLsbD 0 then 1 else 0

/-- What the global counters hold. -/
def LoadAvg.booked {n : Nat} (s : LoadAvg n) : Int :=
  s.calcLoadTasks + s.calcLoadIdle 0 + s.calcLoadIdle 1

/-! ### Calls in flight -/

/-- The functions other CPUs may be running. -/
inductive LoadCall (n : Nat)
  | calcLoadAccountActive (cpu : Fin n)
  | calcLoadEnterIdle (cpu : Fin n)
  | calcLoadExitIdle (cpu : Fin n)
  | calcGlobalLoad
  deriving DecidableEq

/-- What a call does next, with its locals. -/
inductive LoadPc (n : Nat)
  /-- `calc_load_account_active`: test the time, fold, add the delta, set the next time. -/
  | accountTest (cpu : Fin n)
  | accountFold (cpu : Fin n)
  | accountAdd (cpu : Fin n) (delta : Int)
  | accountNext (cpu : Fin n)
  /-- `calc_load_enter_idle`: fold, then `calc_load_write_idx` reads the index and tests the
  time, then add the delta. -/
  | enterFold (cpu : Fin n)
  | enterIdx (delta : Int)
  | enterWindow (delta : Int) (idx : BitVec 32)
  | enterAdd (delta : Int) (idx : Fin 2)
  /-- `calc_load_exit_idle`: test the time, copy the global one, test again. -/
  | exitTest (cpu : Fin n)
  | exitSync (cpu : Fin n)
  | exitWindow (cpu : Fin n)
  /-- `calc_global_load`: test the time; `calc_load_fold_idle` reads the index, reads the
  bucket, empties it; add the delta, update the averages, set the next time. -/
  | globalTest
  | foldIdx
  | foldRead (idx : Fin 2)
  | foldXchg (idx : Fin 2)
  | globalAdd (delta : Int)
  | globalSample
  | globalNext
  /-- `calc_global_nohz`: catch up, flip the index. -/
  | nohzCatchUp
  | nohzFlip
  deriving DecidableEq

/-- Where a call begins. -/
def LoadCall.entry {n : Nat} : LoadCall n → LoadPc n
  | calcLoadAccountActive cpu => .accountTest cpu
  | calcLoadEnterIdle cpu => .enterFold cpu
  | calcLoadExitIdle cpu => .exitTest cpu
  | calcGlobalLoad => .globalTest

/-- Go on to a place only if there is a delta to add. -/
def ifDelta {n : Nat} (delta : Int) (pc other : Option (LoadPc n)) : Option (LoadPc n) :=
  if delta ≠ 0 then pc else other

/-- The catching-up of `calc_global_nohz`. -/
def calcGlobalNohz {n : Nat} (HZ : Nat) (s : LoadAvg n) : LoadAvg n :=
  if !timeBefore s.jiffies (s.calcLoadUpdate + 10) then
    let delta := s.jiffies - s.calcLoadUpdate - 10
    let cycles := 1 + delta.sdiv (loadFreq HZ)
    let active := activeOf s.calcLoadTasks
    { s with avenrun := fun i => calcLoadN (s.avenrun i) (loadExp i) active cycles
             calcLoadUpdate := s.calcLoadUpdate + cycles * loadFreq HZ }
  else s

/-- One step of a call: what it leaves, and where the call stands then, unless it is over. -/
def LoadPc.run {n : Nat} (HZ : Nat) (s : LoadAvg n) : LoadPc n → LoadAvg n × Option (LoadPc n)
  | accountTest cpu =>
    (s, if timeBefore s.jiffies (s.rq cpu).calcLoadUpdate then none else some (accountFold cpu))
  | accountFold cpu =>
    let (delta, q) := calcLoadFoldActive (s.rq cpu)
    (s.modRq cpu fun _ => q, ifDelta delta (some (accountAdd cpu delta)) (some (accountNext cpu)))
  | accountAdd cpu delta =>
    ({ s with calcLoadTasks := s.calcLoadTasks + delta }, some (accountNext cpu))
  | accountNext cpu =>
    (s.modRq cpu fun q => { q with calcLoadUpdate := q.calcLoadUpdate + loadFreq HZ }, none)
  | enterFold cpu =>
    let (delta, q) := calcLoadFoldActive (s.rq cpu)
    (s.modRq cpu fun _ => q, ifDelta delta (some (enterIdx delta)) none)
  | enterIdx delta => (s, some (enterWindow delta s.calcLoadIdx))
  | enterWindow delta idx =>
    (s, some (enterAdd delta
      (bucket (if !timeBefore s.jiffies s.calcLoadUpdate then idx + 1 else idx))))
  | enterAdd delta idx =>
    ({ s with calcLoadIdle := Function.update s.calcLoadIdle idx (s.calcLoadIdle idx + delta) },
      none)
  | exitTest cpu =>
    (s, if timeBefore s.jiffies (s.rq cpu).calcLoadUpdate then none else some (exitSync cpu))
  | exitSync cpu =>
    (s.modRq cpu fun q => { q with calcLoadUpdate := s.calcLoadUpdate }, some (exitWindow cpu))
  | exitWindow cpu =>
    (s.modRq cpu fun q =>
      if timeBefore s.jiffies (q.calcLoadUpdate + 10) then
        { q with calcLoadUpdate := q.calcLoadUpdate + loadFreq HZ }
      else q, none)
  | globalTest =>
    (s, if timeBefore s.jiffies (s.calcLoadUpdate + 10) then none else some foldIdx)
  | foldIdx => (s, some (foldRead (bucket s.calcLoadIdx)))
  | foldRead idx =>
    (s, if s.calcLoadIdle idx ≠ 0 then some (foldXchg idx) else some globalSample)
  | foldXchg idx =>
    let delta := s.calcLoadIdle idx
    ({ s with calcLoadIdle := Function.update s.calcLoadIdle idx 0 },
      ifDelta delta (some (globalAdd delta)) (some globalSample))
  | globalAdd delta =>
    ({ s with calcLoadTasks := s.calcLoadTasks + delta }, some globalSample)
  | globalSample =>
    ({ s with avenrun := fun i =>
        calcLoad (s.avenrun i) (loadExp i) (activeOf s.calcLoadTasks) }, some globalNext)
  | globalNext =>
    ({ s with calcLoadUpdate := s.calcLoadUpdate + loadFreq HZ }, some nohzCatchUp)
  | nohzCatchUp => (calcGlobalNohz HZ s, some nohzFlip)
  | nohzFlip => ({ s with calcLoadIdx := s.calcLoadIdx + 1 }, none)

/-- `calc_global_load_remove`. -/
def calcGlobalLoadRemove {n : Nat} (cpu : Fin n) (s : LoadAvg n) : LoadAvg n :=
  { s with calcLoadTasks := s.calcLoadTasks - (s.rq cpu).calcLoadActive }.modRq cpu fun q =>
    { q with calcLoadActive := 0 }

/-! ### The system -/

/-- The shared state and the calls in flight. -/
structure LoadSys (n : Nat) extends LoadAvg n where
  calls : Multiset (LoadPc n)

/-- What can happen next: a call begins, a call takes a step, time passes, tasks come and go on a
CPU, or a CPU that died is taken out. -/
inductive LoadOp (n : Nat)
  | begin (c : LoadCall n)
  | run (pc : LoadPc n)
  | tick (jiffies : BitVec 32)
  | activity (cpu : Fin n) (nrRunning : Nat) (nrUninterruptible : Int)
  | calcGlobalLoadRemove (cpu : Fin n)

/-- One step of the system. -/
def loadStep {n : Nat} (HZ : Nat) (s : LoadSys n) : LoadOp n → Option (LoadSys n)
  | .begin c => some { s with calls := c.entry ::ₘ s.calls }
  | .run pc =>
    if pc ∈ s.calls then
      let (t, next) := pc.run HZ s.toLoadAvg
      some { t with calls := next.elim 0 ({·}) + s.calls.erase pc }
    else none
  | .tick jiffies => some { s with jiffies := jiffies }
  | .activity cpu nrRunning nrUninterruptible =>
    some { s with toLoadAvg := s.modRq cpu fun q =>
      { q with nrRunning := nrRunning, nrUninterruptible := nrUninterruptible } }
  | .calcGlobalLoadRemove cpu =>
    some { s with toLoadAvg := WrrScheduler.calcGlobalLoadRemove cpu s.toLoadAvg }

/-- What `sched_init` leaves. -/
def loadBoot (n HZ : Nat) (jiffies : BitVec 32) : LoadSys n where
  jiffies := jiffies
  calcLoadTasks := 0
  calcLoadUpdate := jiffies + loadFreq HZ
  avenrun _ := 0
  calcLoadIdle _ := 0
  calcLoadIdx := 0
  rq _ :=
    { nrRunning := 0
      nrUninterruptible := 0
      calcLoadActive := 0
      calcLoadUpdate := jiffies + loadFreq HZ }
  calls := 0

end WrrScheduler
