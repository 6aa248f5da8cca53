import GatewayCache.Json.Merge
import GatewayCache.Json.Reader
import GatewayCache.Timestamp
import GatewayCache.Event.Report
import GatewayCache.Bus
import GatewayCache.Processing
import GatewayCache.Fetch
import GatewayCache.Model.Guild
import GatewayCache.Model.User
import GatewayCache.Model.Message
import GatewayCache.Replay
import GatewayCache.Main
import GatewayCache.Cache.Performance
import GatewayCache.Proofs.Snowflake
import GatewayCache.Proofs.Gate
import GatewayCache.Proofs.Cells
import GatewayCache.Proofs.Json.Fields
import GatewayCache.Proofs.Json.Merge
import GatewayCache.Proofs.Json.Reader
import GatewayCache.Proofs.Store.Cells
import GatewayCache.Store.Flat
import GatewayCache.Proofs.Store.Flat
import GatewayCache.Proofs.Store.Eviction
import GatewayCache.Proofs.Store.GuildList
import GatewayCache.Proofs.Cache.Leaving
import GatewayCache.Proofs.Cache.Replacement
import GatewayCache.Proofs.Update.Repeatable
import GatewayCache.Proofs.Cache.Redelivery
import GatewayCache.Proofs.Split
import GatewayCache.Proofs.Placement
import GatewayCache.Proofs.Intake
import GatewayCache.Proofs.Cache.Handler
import GatewayCache.Update.Content
import GatewayCache.Processing.Turn
import GatewayCache.Proofs.Gate.Register
import GatewayCache.Proofs.Update.Reading
import GatewayCache.Proofs.Cache.Readiness
import GatewayCache.Proofs.Cache.Chunks
import GatewayCache.Proofs.Processing.Turn
import GatewayCache.Proofs.Processing.Waiting
import GatewayCache.Proofs.Processing.Loop
import GatewayCache.Proofs.Split.Owners
import GatewayCache.Proofs.Store.Frame
import GatewayCache.Proofs.Cache.Isolation
import GatewayCache.Proofs.Store.Hiding
import GatewayCache.Proofs.Cache.Switches
import GatewayCache.Proofs.Record
import GatewayCache.Proofs.Split.Levels
import GatewayCache.Split.Part
import GatewayCache.Proofs.Split.Parts
import GatewayCache.Proofs.Split.Guilds
import GatewayCache.Proofs.Split.Identity
import GatewayCache.Proofs.Update.Payloads
import GatewayCache.Proofs.Cache.Edits
import GatewayCache.Proofs.Cache.Identity
import GatewayCache.Proofs.Cache.Changes
import GatewayCache.Proofs.Cache.Lifecycle
import GatewayCache.Cache.Standing
import GatewayCache.Proofs.Intake.Writes
import GatewayCache.Proofs.Cache.Removal
import GatewayCache.Proofs.Store.GuildFields
import GatewayCache.Proofs.Update.Guilds
import GatewayCache.Proofs.Cache.Availability
import GatewayCache.Processing.Telling
import GatewayCache.Proofs.Gate.Later
import GatewayCache.Proofs.Processing.Telling
import GatewayCache.Proofs.Bus
import GatewayCache.Replay.Schedule
import GatewayCache.Proofs.Replay.Schedule
import GatewayCache.Proofs.Replay.Accounting
import GatewayCache.Intake.Parcel
import GatewayCache.Proofs.Intake.Order
import GatewayCache.Proofs.Cache.ChunkOrder
import GatewayCache.Proofs.Processing.Mirror
import GatewayCache.Proofs.Cache.Departure
import GatewayCache.Proofs.Split.Fields
import GatewayCache.Proofs.Split.Lists
import GatewayCache.Split.Entry
import GatewayCache.Json.History
import GatewayCache.Proofs.Json.History
import GatewayCache.Proofs.Store.History
import GatewayCache.Split.People
import GatewayCache.Proofs.Split.People
import GatewayCache.Proofs.Intake.Shallow
import GatewayCache.Split.Rest
import GatewayCache.Proofs.Split.Rest
import GatewayCache.Proofs.Update.Entities
import GatewayCache.Proofs.Store.Listing
import GatewayCache.Proofs.Cache.Emoji
import GatewayCache.Proofs.Cache.Stickers
import GatewayCache.Proofs.Cache.OwnerLists
import GatewayCache.Proofs.Cache.MemberChunks
import GatewayCache.Gate.Gatehouse
import GatewayCache.Proofs.Gate.Gatehouse
import GatewayCache.Proofs.Gate.OneShot
import GatewayCache.Fetch.Calls
import GatewayCache.Proofs.Fetch.ReadThrough
import GatewayCache.Proofs.Fetch.Lists
import GatewayCache.Replay.Lines
import GatewayCache.Proofs.Json.Writer
import GatewayCache.Proofs.Replay.Lines
import GatewayCache.Proofs.Text.Blank
import GatewayCache.Json.Plain
import GatewayCache.Proofs.Json.RoundTrip
import GatewayCache.Proofs.Dispatch
import GatewayCache.Proofs.Snowflake.Readers
import GatewayCache.Replay.Strict
import GatewayCache.Proofs.Replay.Strict
