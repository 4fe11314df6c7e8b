import ShugoCore.Governor.Threads
import ShugoCore.Fallbacks.Agreement
import ShugoCore.Fallbacks.Escalation
import ShugoCore.Memory.Episodic
import ShugoCore.Memory.Consolidation
import ShugoCore.Memory.Journal
import ShugoCore.Memory.Maintenance
import ShugoCore.Mesh.Sync
import ShugoCore.Mesh.Echoes
import ShugoCore.Mesh.Offers
import ShugoCore.Mesh.LonePull
import ShugoCore.Mesh.Secret
import ShugoCore.Mesh.Pages
import ShugoCore.Mesh.Silence
import ShugoCore.Mesh.Refeeding
import ShugoCore.Mesh.HandOff
import ShugoCore.Mesh.Leadership
import ShugoCore.Mesh.ResponseTarget
import ShugoCore.KvMesh.Inbound
import ShugoCore.ModelHost.Watchdog
import ShugoCore.ModelHost.Pins
import ShugoCore.Policy.LateVerdict
import ShugoCore.Policy.Console
import ShugoCore.Policy.Grants
import ShugoCore.Audit.Recovery
import ShugoCore.Engine.Unattended
import ShugoCore.Engine.Tokens
import ShugoCore.Engine.Records
import ShugoCore.Interaction.Attention
import ShugoCore.Interaction.Presence
import ShugoCore.Interaction.Exchange
import ShugoCore.Interaction.Questions
import ShugoCore.Delegation.Routing
import ShugoCore.Tools.Announcements
import ShugoCore.Robotics.Delivery
import ShugoCore.Robotics.Doubles
import ShugoCore.Robotics.JointLimits
import ShugoCore.Robotics.EmergencyStop
import ShugoCore.Robotics.DeadMan
import ShugoCore.Robotics.Velocities
import ShugoCore.Robotics.Workspace
import ShugoCore.Robotics.Obstacles
import ShugoCore.Robotics.SpeedLimit
import ShugoCore.Robotics.Bridge
import ShugoCore.Robotics.RosBridge
import ShugoCore.Personality.Adoption
import ShugoCore.Memory.Scratchpad
import ShugoCore.Memory.Worker
import ShugoCore.Engine.Ensemble
import ShugoCore.Security.RateLimiter
import ShugoCore.Memory.GraphQueries
import ShugoCore.Memory.Forgetting
import ShugoCore.Mesh.Chunks
import ShugoCore.Security.CircuitBreaker
import ShugoCore.Memory.ContextBudget
import ShugoCore.KvMesh.Shards
import ShugoCore.Personality.Verbosity
import ShugoCore.Interaction.Untrusted
import ShugoCore.Audit.Judgement
import ShugoCore.Personality.Refusals
import ShugoCore.Personality.Persisted
import ShugoCore.Personality.Growth
import ShugoCore.ModelHost.GgufHeaders
import ShugoCore.Interaction.SpokenText
import ShugoCore.Delegation.Feedback
import ShugoCore.Acceleration.Ladders
import ShugoCore.Mobile.ComputeBroker
import ShugoCore.Mobile.Manifest
import ShugoCore.Mobile.Registry
import ShugoCore.Mobile.Ingestion
import ShugoCore.Nrr.Schema
import ShugoCore.Mesh.NearestMouth
import ShugoCore.Fleet.Deploy
import ShugoCore.Memory.Facts
import ShugoCore.Audit.Mirrors
import ShugoCore.Backends.Circuits
import ShugoCore.KvMesh.Simulator
import ShugoCore.Android.Lifecycle
import ShugoCore.Server.Dispatch
import ShugoCore.Fleet.Onboarding
