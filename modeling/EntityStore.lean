import EntityStore.Group.Basic
import EntityStore.Group.Filter
import EntityStore.Id.Basic
import EntityStore.Id.Map
import EntityStore.Id.Set
import EntityStore.Manager.Allocator
import EntityStore.Manager.Config
import EntityStore.Manager.Error
import EntityStore.Manager.Time
import EntityStore.Number.Binary
import EntityStore.Number.Decimal
import EntityStore.Number.Limits
import EntityStore.Proofs.Group.Filters
import EntityStore.Proofs.Group.Flush
import EntityStore.Proofs.Group.Independence
import EntityStore.Proofs.Group.Refresh
import EntityStore.Proofs.Manager.Allocation
import EntityStore.Proofs.Manager.Cycle
import EntityStore.Proofs.Manager.Succession
import EntityStore.Proofs.Number.Order
import EntityStore.Proofs.Session.Callbacks
import EntityStore.Proofs.Session.Calls
import EntityStore.Proofs.Session.Catalogue
import EntityStore.Proofs.Session.Course
import EntityStore.Proofs.Session.Delivery
import EntityStore.Proofs.Session.Effects
import EntityStore.Proofs.Session.Exclusion
import EntityStore.Proofs.Session.History
import EntityStore.Proofs.Session.Independence
import EntityStore.Proofs.Session.LastFlush
import EntityStore.Proofs.Session.LifeSteps
import EntityStore.Proofs.Session.Marks
import EntityStore.Proofs.Session.Membership
import EntityStore.Proofs.Session.Mirror
import EntityStore.Proofs.Session.Moves
import EntityStore.Proofs.Session.Ownership
import EntityStore.Proofs.Session.Phases
import EntityStore.Proofs.Session.Protocol
import EntityStore.Proofs.Session.Purging
import EntityStore.Proofs.Session.Readying
import EntityStore.Proofs.Session.Registration
import EntityStore.Proofs.Session.Removal
import EntityStore.Proofs.Session.Retained
import EntityStore.Proofs.Session.Rollback
import EntityStore.Proofs.Session.Rounds
import EntityStore.Proofs.Session.Serving
import EntityStore.Proofs.Session.ShutDown
import EntityStore.Proofs.Session.Tending
import EntityStore.Proofs.Session.Ticks
import EntityStore.Proofs.Session.Visible
import EntityStore.Proofs.Session.Visits
import EntityStore.Proofs.Store.Admission
import EntityStore.Proofs.Store.Bytes
import EntityStore.Proofs.Store.Capacity
import EntityStore.Proofs.Store.Compaction
import EntityStore.Proofs.Store.Declarations
import EntityStore.Proofs.Store.Defaults
import EntityStore.Proofs.Store.Independence
import EntityStore.Proofs.Store.Insertion
import EntityStore.Proofs.Store.Invariant
import EntityStore.Proofs.Store.Layout
import EntityStore.Proofs.Store.Movement
import EntityStore.Proofs.Store.Ranges
import EntityStore.Proofs.Store.Refusals
import EntityStore.Proofs.Store.Removal
import EntityStore.Proofs.Store.Representation
import EntityStore.Proofs.Store.Search
import EntityStore.Proofs.Store.Shifting
import EntityStore.Proofs.Store.Sizing
import EntityStore.Proofs.Store.Stored
import EntityStore.Proofs.Store.Table
import EntityStore.Proofs.Store.Writing
import EntityStore.Proofs.Value.Bounds
import EntityStore.Proofs.Value.Codec
import EntityStore.Proofs.Value.Framing
import EntityStore.Proofs.World.Arrivals
import EntityStore.Proofs.World.Catalogue
import EntityStore.Proofs.World.Entities
import EntityStore.Proofs.World.Equipment
import EntityStore.Proofs.World.Groups
import EntityStore.Proofs.World.Hearing
import EntityStore.Proofs.World.Holders
import EntityStore.Proofs.World.Independence
import EntityStore.Proofs.World.Listening
import EntityStore.Proofs.World.Lives
import EntityStore.Proofs.World.Membership
import EntityStore.Proofs.World.Purging
import EntityStore.Proofs.World.Registration
import EntityStore.Proofs.World.Settling
import EntityStore.Proofs.World.Sparing
import EntityStore.Proofs.World.Steady
import EntityStore.Proofs.World.Visitors
import EntityStore.Proofs.World.Wiring
import EntityStore.Scenario.Handles
import EntityStore.Scenario.Performance
import EntityStore.Scenario.Play
import EntityStore.Scenario.Player
import EntityStore.Scenario.Report
import EntityStore.Scenario.Script
import EntityStore.Session.Basic
import EntityStore.Session.Frame
import EntityStore.Session.Lifecycle
import EntityStore.Settings.Configs
import EntityStore.Settings.Json
import EntityStore.Settings.Numeral
import EntityStore.Store.Basic
import EntityStore.Store.Config
import EntityStore.Store.Error
import EntityStore.Store.Layout
import EntityStore.Store.Property
import EntityStore.Store.Values
import EntityStore.Text.Digits
import EntityStore.Text.Quoted
import EntityStore.Text.Unprinted
import EntityStore.Value.Basic
import EntityStore.Value.Bounds
import EntityStore.Value.Codec
import EntityStore.Value.Description
import EntityStore.Value.Notation
import EntityStore.World.Basic
import EntityStore.World.Description
import EntityStore.World.Entities
import EntityStore.World.Groups
import EntityStore.World.Holders
import EntityStore.World.Registration
