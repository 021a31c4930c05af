import Deathmatch.Account.Remote
import Deathmatch.Gateway
import Deathmatch.Heartbeat
import Deathmatch.KeepUp
import Deathmatch.Main
import Deathmatch.Proofs.Datagram
import Deathmatch.Proofs.Pieces
import Deathmatch.Proofs.Assembly
import Deathmatch.Proofs.Lineup
import Deathmatch.Proofs.Codec
import Deathmatch.Proofs.Grouping
import Deathmatch.Proofs.ReassemblerRun
import Deathmatch.Proofs.ControlStream
import Deathmatch.Proofs.Framing
import Deathmatch.Proofs.Packing
import Deathmatch.Proofs.Reports
import Deathmatch.Proofs.WorldRun
import Deathmatch.Proofs.Baseline
import Deathmatch.Proofs.Overlay
import Deathmatch.Proofs.Determinacy
import Deathmatch.Proofs.ControlQueues
import Deathmatch.Proofs.Sendable
import Deathmatch.Proofs.Roster
import Deathmatch.Proofs.Agreement
import Deathmatch.Proofs.Lobby
import Deathmatch.Proofs.Logins
import Deathmatch.Proofs.Passages
import Deathmatch.Proofs.Occupancy
import Deathmatch.Proofs.Completion
import Deathmatch.Proofs.Provenance
import Deathmatch.Proofs.Isolation
import Deathmatch.Proofs.Coverage
import Deathmatch.Proofs.Attribution
import Deathmatch.Proofs.Vitals
import Deathmatch.Proofs.Deeds
import Deathmatch.Proofs.Respawn
import Deathmatch.Proofs.Delta
import Deathmatch.Proofs.Independence
import Deathmatch.Proofs.Admission
import Deathmatch.Proofs.Corruption
import Deathmatch.Proofs.Slots
import Deathmatch.Proofs.Retention
import Deathmatch.Proofs.Gameplay
import Deathmatch.Proofs.Clamping
import Deathmatch.Proofs.Layout
import Deathmatch.Proofs.Identities
