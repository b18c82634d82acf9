import Skibios.Library.Halving
import Skibios.Library.Listings
import Skibios.Library.Loops
import Skibios.Library.Words
import Skibios.Library.Runs
import Skibios.Library.Rounds
import Skibios.Library.Rings
import Skibios.Library.Counting
import Skibios.Library.Chains
import Skibios.Library.Segments
import Skibios.Library.Powers
import Skibios.Library.Orbits
import Skibios.Library.Lanes
import Skibios.Library.Texts
import Skibios.Allocator.Markers
import Skibios.Allocator.Paths
import Skibios.Allocator.Walks
import Skibios.Allocator.Outcomes
import Skibios.Allocator.Pools
import Skibios.Allocator.Layouts
import Skibios.Allocator.Overlap
import Skibios.Allocator.Entries
import Skibios.Allocator.Releases
import Skibios.Allocator.Appending
import Skibios.Allocator.Termination
import Skibios.Allocator.Reach
import Skibios.Allocator.Accounting
import Skibios.Allocator.Bounds
import Skibios.Allocator.Grants
import Skibios.Allocator.Rejections
import Skibios.Allocator.Footprint
import Skibios.Kernel.State
import Skibios.Kernel.TaskServices
import Skibios.Kernel.Services
import Skibios.Kernel.Scheduler
import Skibios.Kernel.Events
import Skibios.Kernel.SchedulerLoops
import Skibios.Scheduling.Policy
import Skibios.Scheduling.RoundRobin
import Skibios.Kernel.Effects
import Skibios.Layout.Objgen
import Skibios.Layout.Regions
import Skibios.Layout.Windows
import Skibios.Layout.Symbols
import Skibios.Layout.Feasibility
import Skibios.Tasks.Invariants
import Skibios.Tasks.Identity
import Skibios.Tasks.Churn
import Skibios.Tasks.History
import Skibios.Tasks.TaskTable
import Skibios.Tasks.LevelStash
import Skibios.Tasks.Counters
import Skibios.Promotion.Rungs
import Skibios.Promotion.Bracket
import Skibios.Promotion.TickGating
import Skibios.Sharing.Waiters
import Skibios.Sharing.Threads
import Skibios.Sharing.Retries
import Skibios.Sharing.WakeUp
import Skibios.Scheduling.Termination
import Skibios.Scheduling.WakePass
import Skibios.Sharing.Exclusion
import Skibios.Protection.Permissions
import Skibios.Protection.Unasked
import Skibios.Kernel.Dispatch
import Skibios.Kernel.Ossim
import Skibios.Protection.Pointers
import Skibios.Protection.Confinement
import Skibios.Promotion.Holders
import Skibios.Promotion.Orphans
import Skibios.Tasks.Killing
import Skibios.Tasks.Objects
import Skibios.Sharing.Ports
import Skibios.Sharing.Semaphores
import Skibios.Protection.Invocation
import Skibios.Protection.Bystanders
import Skibios.Protection.Requests
import Skibios.Protection.Answers
import Skibios.Tasks.Insertion
import Skibios.Tasks.Calls
import Skibios.Tasks.Stacks
import Skibios.Promotion.Levels
import Skibios.Promotion.Nesting
import Skibios.Protection.Interrupts
import Skibios.Protection.Priorities
import Skibios.Protection.UserRegions
import Skibios.Library.Blocks
import Skibios.Library.Simulation
import Skibios.Library.Banks
import Skibios.Switching.Cortex
import Skibios.Switching.Access
import Skibios.Switching.Moves
import Skibios.Switching.Exceptions
import Skibios.Switching.Contexts
import Skibios.Switching.Transparency
import Skibios.Switching.Isolation
import Skibios.Switching.Mpc.Preemption
import Skibios.Switching.Mpc.Frames
import Skibios.Switching.Mpc.Kernels
import Skibios.Switching.Mpc.Machines
import Skibios.Switching.Mpc.Refinement
import Skibios.Switching.Mpc.Registers
import Skibios.Sharing.Reservations
