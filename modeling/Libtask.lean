import Libtask.Transition
import Libtask.Timer.Wheel
import Libtask.Occupancy
import Libtask.Timer.Placement
import Libtask.Timer.Runs
import Libtask.Timer.Delivery
import Libtask.Timer.Punctuality
import Libtask.Timer.Reentrant
import Libtask.Timer.Cancel
import Libtask.Timer.Nested
import Libtask.Bitmap
import Libtask.FirstFit
import Libtask.Allocator
import Libtask.Task.Scheduler
import Libtask.Task.Specs
import Libtask.Task.Tids
import Libtask.Task.NextTask
import Libtask.Task.Handler
import Libtask.Task.Sleep
import Libtask.Timer.CatchUp
import Libtask.Timer.Shutdown
import Libtask.Task.Roster
import Libtask.Task.Calls
import Libtask.Task.Wakes
import Libtask.Task.Conservation
import Libtask.Task.Places
import Libtask.Task.Locking
import Libtask.Task.Pool
import Libtask.Task.Exit
import Libtask.Task.Returns
import Libtask.Task.RoundRobin
import Libtask.Task.Undisturbed
import Libtask.List.Intrusive
import Libtask.List.Rings
import Libtask.Timer.Links
import Libtask.Timer.Walks
import Libtask.Ioqueue.Ring
import Libtask.Ioqueue.Run
import Libtask.Ioqueue.Integrity
import Libtask.Ioqueue.Waiting
import Libtask.Hook
import Libtask.Fcntl
import Libtask.Ioqueue.Sharing
import Libtask.Task.Statuses
import Libtask.Machine.Deadlock
import Libtask.Machine.Statement
import Libtask.Machine.Step
import Libtask.Machine.Footprint
import Libtask.Machine.Sections
import Libtask.Machine.Masks
import Libtask.Machine.Wakeups
import Libtask.X86
import Libtask.Task.ContextSwap
import Libtask.Task.SigContext
import Libtask.Task.History
import Libtask.Task.Fidelity
import Libtask.Timer.Rounds
import Libtask.Task.Slumber
import Libtask.Agreement
import Libtask.List.Terminated
import Libtask.Task.Linked
import Libtask.Task.Linking
import Libtask.Task.Simulation
import Libtask.Task.LinkedRuns
import Libtask.Ownership
import Libtask.Task.Memory
import Libtask.Settling
import Libtask.Machine.Whole
import Libtask.Machine.Calls
import Libtask.Machine.Ticks
import Libtask.Task.Contexts
import Libtask.Machine.Rest
import Libtask.Machine.Atomicity
