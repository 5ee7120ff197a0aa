import RaceIngest.Main
import RaceIngest.Proofs.Session.Filing
import RaceIngest.Proofs.Session.Segmentation
import RaceIngest.Proofs.Registry.Traffic
import RaceIngest.Proofs.Registry.Delivery
import RaceIngest.Proofs.Registry.Waiting
import RaceIngest.Proofs.Registry.Progress
import RaceIngest.Proofs.Session.Chapters
import RaceIngest.Proofs.Session.Outline
import RaceIngest.Proofs.Store.Index
import RaceIngest.Proofs.Store.Shelf
import RaceIngest.Proofs.Session.Mirror
import RaceIngest.Proofs.Binary.Rounding
import RaceIngest.Proofs.Binary.Single
import RaceIngest.Proofs.Decimal.Separation
import RaceIngest.Proofs.Decimal.Shortest
import RaceIngest.Proofs.Decimal.Layout
import RaceIngest.Proofs.Decimal.Reading
import RaceIngest.Proofs.Decimal.Roundtrip
import RaceIngest.Proofs.Decimal.Literal
import RaceIngest.Proofs.Json.Lexer
import RaceIngest.Proofs.Json.Tokens
import RaceIngest.Proofs.Text.Utf8
import RaceIngest.Proofs.Json.Roundtrip
import RaceIngest.Proofs.Calendar.Format
import RaceIngest.Proofs.Uuid
import RaceIngest.Proofs.Files.Tree
import RaceIngest.Proofs.Race.Document
import RaceIngest.Proofs.Store.Reopen
import RaceIngest.Proofs.Session.Dated
import RaceIngest.Proofs.Wire.Packet
import RaceIngest.Proofs.Registry.Idle
import RaceIngest.Proofs.Server.Station
import RaceIngest.Proofs.Server.Moves
import RaceIngest.Proofs.Server.Accepting
import RaceIngest.Proofs.Server.Stopped
import RaceIngest.Proofs.Files.Names
import RaceIngest.Proofs.Json.Compact
import RaceIngest.Proofs.Store.Places
import RaceIngest.Proofs.Store.Agreement
import RaceIngest.Proofs.Telemetry.Document
import RaceIngest.Proofs.Race.Readback
import RaceIngest.Proofs.Store.Archive
import RaceIngest.Proofs.Store.Atomic
import RaceIngest.Proofs.Registry.Share
import RaceIngest.Proofs.Session.Belonging
import RaceIngest.Proofs.Session.Isolation
import RaceIngest.Proofs.Registry.Division
import RaceIngest.Proofs.Registry.Isolation
import RaceIngest.Proofs.Server.Share
import RaceIngest.Proofs.Server.Isolation
import RaceIngest.Proofs.Registry.Occupancy
import RaceIngest.Proofs.Registry.Sweep
import RaceIngest.Proofs.Session.Dossiers
import RaceIngest.Proofs.Session.Checkpoints
import RaceIngest.Proofs.Server.Starting
import RaceIngest.Proofs.Server.Deadline
import RaceIngest.Proofs.Json.Following
import RaceIngest.Proofs.Store.Appending
import RaceIngest.Proofs.Session.Receipts
import RaceIngest.Proofs.Session.Finishing
import RaceIngest.Proofs.Wire.Layout
import RaceIngest.Proofs.Race.Lap
import RaceIngest.Proofs.Race.Identity
import RaceIngest.Proofs.Store.Updates
import RaceIngest.Proofs.Config.Layers
import RaceIngest.Proofs.Wire.Schedule
import RaceIngest.Proofs.Wire.Recovery
import RaceIngest.Proofs.Session.Detours
import RaceIngest.Proofs.Session.Invariant
import RaceIngest.Proofs.Config.Readback
