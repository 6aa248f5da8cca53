import GatewayCache.Event

/-! # Reports of events

Each event as one line of text and as one JSON object.
-/

namespace GatewayCache

/-- A record by its kind and key, and by its name or user name where it has one. -/
def Record.label (record : Record) : String :=
  match (record.fields.text? "name").or (record.fields.text? "username") with
  | some name => s!"{record.kind} {record.key} ({name})"
  | none => s!"{record.kind} {record.key}"

/-- The label of a record that may be absent. -/
def Record.labelOrDash (record : Option Record) : String := record.elim "-" label

namespace Event

/-- What a line says about an event after its name. -/
def detail : Event → String
  | guildJoin guild | guildAvailable guild => guild.label
  | guildUpdate before after | integrationUpdate before after | updated before after =>
    s!"{after.label} (was {Record.labelOrDash before})"
  | guildLeft id lastKnown | guildUnavailable id lastKnown =>
    s!"guild {id} (last known {Record.labelOrDash lastKnown})"
  | guildReady id => s!"guild {id}"
  | banCreate guild user | banRemove guild user => s!"guild {guild} {user.label}"
  | guildEmojisUpdate guild before after | guildStickersUpdate guild before after =>
    s!"guild {guild} {before.length} -> {after.length}"
  | webhooksUpdate guild channel => s!"guild {guild} channel {channel}"
  | integrationCreate integration => integration.label
  | integrationDelete guild id _ _ => s!"guild {guild} integration {id}"
  | created record => record.label
  | deleted kind id lastKnown => s!"{kind} {id} (last known {Record.labelOrDash lastKnown})"
  | raw name _ => name

def describe (event : Event) : String := s!"{event.name} {event.detail}"

/-- A record that may be absent, by its fields. -/
def snapshotJson (record : Option Record) : Json := record.elim .null Record.toJson

def recordsJson (records : List Record) : Json := .arr (records.map Record.toJson)

def body : Event → Json
  | guildJoin guild | guildAvailable guild => Json.object [("guild", guild.toJson)]
  | guildUpdate before after | integrationUpdate before after =>
    Json.object [("before", snapshotJson before), ("after", after.toJson)]
  | guildLeft id lastKnown | guildUnavailable id lastKnown =>
    Json.object [("id", id.toJson), ("last_known", snapshotJson lastKnown)]
  | guildReady id => Json.object [("id", id.toJson)]
  | banCreate guild user | banRemove guild user =>
    Json.object [("guild_id", guild.toJson), ("user", user.toJson)]
  | guildEmojisUpdate guild before after | guildStickersUpdate guild before after =>
    Json.object
      [("guild_id", guild.toJson), ("before", recordsJson before), ("after", recordsJson after)]
  | webhooksUpdate guild channel =>
    Json.object [("guild_id", guild.toJson), ("channel_id", channel.toJson)]
  | integrationCreate integration => Json.object [("integration", integration.toJson)]
  | integrationDelete guild id application lastKnown =>
    Json.object
      [("guild_id", guild.toJson), ("id", id.toJson),
       ("application_id", application.elim .null Snowflake.toJson),
       ("last_known", snapshotJson lastKnown)]
  | created record => Json.object [("kind", .str record.kind.name), ("record", record.toJson)]
  | updated before after =>
    Json.object
      [("kind", .str after.kind.name), ("before", snapshotJson before), ("after", after.toJson)]
  | deleted kind id lastKnown =>
    Json.object
      [("kind", .str kind.name), ("id", id.toJson), ("last_known", snapshotJson lastKnown)]
  | raw name data => Json.object [("name", .str name), ("data", data)]

def toJson (event : Event) : Json :=
  Json.object [("event", .str event.name), ("data", event.body)]

end Event

end GatewayCache
