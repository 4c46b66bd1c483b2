import WrrScheduler.Proofs.Queued
import WrrScheduler.Proofs.Invariant
import WrrScheduler.Proofs.WrrQueue
import WrrScheduler.Proofs.PickNext
import WrrScheduler.Proofs.Setscheduler
import WrrScheduler.Proofs.Boost
import WrrScheduler.Proofs.Fork
import WrrScheduler.Proofs.Resched
import WrrScheduler.Proofs.Entering
import WrrScheduler.Proofs.Preempt
import WrrScheduler.Proofs.Slice
import WrrScheduler.Proofs.SliceBound
import WrrScheduler.Proofs.RrInterval
import WrrScheduler.Proofs.RoundRobin
import WrrScheduler.Proofs.Accounting
import WrrScheduler.Proofs.PriorityRange
import WrrScheduler.Lib.Walk
import WrrScheduler.Kernel.LoadAvg
import WrrScheduler.Proofs.LoadAverage
import WrrScheduler.Kernel.Completion
import WrrScheduler.Proofs.TokenCount
import WrrScheduler.Kernel.RtBorrow
import WrrScheduler.Lib.Share
import WrrScheduler.Proofs.Borrowing
import WrrScheduler.Kernel.TaskGroup
import WrrScheduler.Proofs.Admission
import WrrScheduler.Kernel.CfsBandwidth
import WrrScheduler.Proofs.Quota
import WrrScheduler.Kernel.RtSystem
import WrrScheduler.Kernel.RtGroups
import WrrScheduler.Proofs.RtEffects
import WrrScheduler.Proofs.RtBandwidth
import WrrScheduler.Proofs.RtArray
import WrrScheduler.Proofs.RtPlaces
import WrrScheduler.Proofs.RtRepresentation
import WrrScheduler.Proofs.Stranded
import WrrScheduler.Proofs.WrrEvents
import WrrScheduler.Proofs.Undisturbed
import WrrScheduler.Proofs.Privilege
import WrrScheduler.Kernel.SetRace
import WrrScheduler.Proofs.SetRace
import WrrScheduler.Proofs.RtSpots
import WrrScheduler.Proofs.RtPlacement
import WrrScheduler.Proofs.Normalize
import WrrScheduler.Proofs.Entity
import WrrScheduler.Proofs.Watchdog
import WrrScheduler.Proofs.Quantum
import WrrScheduler.Kernel.TgWalk
import WrrScheduler.Proofs.TgWalk
import WrrScheduler.Kernel.CpuTimes
import WrrScheduler.Proofs.CpuTimes
import WrrScheduler.Lib.FixedPoint
import WrrScheduler.Proofs.LoadBounds
import WrrScheduler.Bench.IoBound
import WrrScheduler.Proofs.IoBound
import WrrScheduler.Kernel.Smp
import WrrScheduler.Kernel.SmpStep
import WrrScheduler.Proofs.SmpWrites
import WrrScheduler.Proofs.SmpEffect
import WrrScheduler.Proofs.SmpPlaces
import WrrScheduler.Proofs.SmpInvariant
import WrrScheduler.Proofs.SmpSafety
import WrrScheduler.Proofs.SmpWakeup
import WrrScheduler.Proofs.SmpSystem
import WrrScheduler.Proofs.SmpQuiet
import WrrScheduler.Proofs.SmpLoad
import WrrScheduler.Proofs.SmpExit
import WrrScheduler.Proofs.SmpAffinity
