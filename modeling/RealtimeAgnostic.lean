import RealtimeAgnostic.Core.Claims
import RealtimeAgnostic.Engine.Registry
import RealtimeAgnostic.Engine.Operations
import RealtimeAgnostic.Engine.Query
import RealtimeAgnostic.Engine.Slab
import RealtimeAgnostic.Engine.Invariants
import RealtimeAgnostic.Engine.Actions
import RealtimeAgnostic.Engine.Consistency
import RealtimeAgnostic.Engine.Delivery
import RealtimeAgnostic.Engine.Isolation
import RealtimeAgnostic.Engine.Degraded
import RealtimeAgnostic.Engine.Removal
import RealtimeAgnostic.Engine.Exactness
import RealtimeAgnostic.Engine.Interleaving
import RealtimeAgnostic.Engine.Solo
import RealtimeAgnostic.Engine.Accesses
import RealtimeAgnostic.Engine.Ownership
import RealtimeAgnostic.Engine.Handover
import RealtimeAgnostic.Engine.Overlap
import RealtimeAgnostic.Engine.Reported
import RealtimeAgnostic.Core.FilterJson
import RealtimeAgnostic.Gateway.Presence
import RealtimeAgnostic.Gateway.PresenceSets
import RealtimeAgnostic.Gateway.Connections
import RealtimeAgnostic.Gateway.Handlers
import RealtimeAgnostic.Gateway.Hub
import RealtimeAgnostic.Gateway.Session
import RealtimeAgnostic.Gateway.Node
import RealtimeAgnostic.Engine.Closing
import RealtimeAgnostic.Gateway.Parties
import RealtimeAgnostic.Gateway.Teardown
import RealtimeAgnostic.Engine.Stored
import RealtimeAgnostic.Gateway.Entitlement
import RealtimeAgnostic.Gateway.Filtering
import RealtimeAgnostic.Gateway.Pipeline
import RealtimeAgnostic.Gateway.Ordering
import RealtimeAgnostic.Gateway.Gaps
import RealtimeAgnostic.Engine.Admission
import RealtimeAgnostic.Engine.Footprint
import RealtimeAgnostic.Core.Rendering
import RealtimeAgnostic.Gateway.Bracketing
import RealtimeAgnostic.Gateway.SharedPresence
import RealtimeAgnostic.Gateway.Mirroring
import RealtimeAgnostic.Gateway.Union
import RealtimeAgnostic.Gateway.Snapshots
import RealtimeAgnostic.Engine.Rejection
import RealtimeAgnostic.Engine.Agreement
import RealtimeAgnostic.Engine.Emptying
import RealtimeAgnostic.Engine.Reclamation
import RealtimeAgnostic.Engine.Breaker
import RealtimeAgnostic.Gateway.FanOut
import RealtimeAgnostic.Gateway.Conservation
import RealtimeAgnostic.Gateway.Usage
import RealtimeAgnostic.Gateway.Billing
import RealtimeAgnostic.Irc.Line
import RealtimeAgnostic.Irc.Grammar
import RealtimeAgnostic.Irc.Message
import RealtimeAgnostic.Irc.Framing
import RealtimeAgnostic.Irc.Joining
import RealtimeAgnostic.Irc.Receipts
import RealtimeAgnostic.Irc.Server
import RealtimeAgnostic.Irc.Bridge
import RealtimeAgnostic.Irc.Returning
import RealtimeAgnostic.Irc.Mapping
import RealtimeAgnostic.Irc.Nick
import RealtimeAgnostic.Engine.Probing
import RealtimeAgnostic.Client.Dedup
import RealtimeAgnostic.Client.Link
import RealtimeAgnostic.Core.Wire
import RealtimeAgnostic.Core.Meaning
import RealtimeAgnostic.Gateway.Rest
import RealtimeAgnostic.Gateway.Doors
import RealtimeAgnostic.Gateway.Pruning
import RealtimeAgnostic.Database.Changes
import RealtimeAgnostic.Gateway.Ingress
import RealtimeAgnostic.Client.Announcing
import RealtimeAgnostic.Database.Supervisors
import RealtimeAgnostic.Database.Triggers
import RealtimeAgnostic.Irc.Reactions
import RealtimeAgnostic.Irc.Reading
import RealtimeAgnostic.Gateway.Overflow
import RealtimeAgnostic.Engine.Contention
import RealtimeAgnostic.Engine.FieldLimit
import RealtimeAgnostic.Gateway.Baseline
import RealtimeAgnostic.Core.Globbing
import RealtimeAgnostic.Engine.Keys
import RealtimeAgnostic.Engine.Accounting
import RealtimeAgnostic.Engine.Bounds
import RealtimeAgnostic.Engine.LiveSet
import RealtimeAgnostic.Engine.Linear
import RealtimeAgnostic.Engine.Telemetry
import RealtimeAgnostic.Gateway.Routing
import RealtimeAgnostic.Auth.Jwt
import RealtimeAgnostic.Core.Schema
import RealtimeAgnostic.Gateway.Frames
import RealtimeAgnostic.Gateway.Tenancy
import RealtimeAgnostic.Database.Stopping
import RealtimeAgnostic.Gateway.Draining
import RealtimeAgnostic.Gateway.Finishing
import RealtimeAgnostic.Gateway.Broker
