import GatewayCache.Update.Content

/-! # Entities in updates

What is known of the payloads of an update before any of them is taken in: which ids
they carry and which users are embedded in them, and which guild has an entity of
them listed.
-/

namespace GatewayCache

/-- The id that a payload carries in its own field. -/
def Json.ownId? (payload : Json) : Option Snowflake := (payload.get? "id").bind Snowflake.ofJson?

/-- The user embedded in a payload, as a record, if that user has an id. -/
def Json.user? (payload : Json) : Option Record := do
  let user ← (payload.get? "user").bind Json.fields?
  let id ← (Kind.user.identify user).toOption
  some ⟨.user, .global id, user⟩

/-- The kind of the entity that an update has listed by its guild. -/
def UpdateKind.listedKind? : UpdateKind → Option Kind
  | guildMemberAdd => some .member
  | guildRoleCreate | guildRoleUpdate => some .role
  | channelCreate => some .channel
  | threadCreate => some .thread
  | _ => none

namespace Dispatch

/-- The ids of the entities, in the order of their payloads. -/
def entityIds (dispatch : Dispatch) : List Snowflake := dispatch.entities.filterMap Json.ownId?

/-- The users embedded in the entities, in the order of their payloads. -/
def users (dispatch : Dispatch) : List Record := dispatch.entities.filterMap Json.user?

/-- The last one of the payloads that carry an id. -/
def lastEntity? (dispatch : Dispatch) (id : Snowflake) : Option Fields :=
  (dispatch.entities.reverse.find? (fun payload => payload.ownId? = some id)).bind Json.fields?

/-- The kind of the entity that the update has listed by its guild. -/
def listedKind? (dispatch : Dispatch) : Option Kind :=
  (UpdateKind.ofName? dispatch.name).bind UpdateKind.listedKind?

/-- The guild that lists an entity: for a channel or a thread the one that its record names, and for all
else the one that the update names. -/
def listedBy? (dispatch : Dispatch) (record : Record) : Option Snowflake :=
  match record.kind with
  | .channel | .thread => record.fields.relationId "guild_id"
  | _ => dispatch.data.owner?

/-- The kind of the entity that the update removes. -/
def removedKind? (dispatch : Dispatch) : Option Kind :=
  (UpdateKind.ofName? dispatch.name).bind UpdateKind.removedKind?

/-- The number of a chunk of members; without one it is the first. -/
def chunkIndex (dispatch : Dispatch) : UInt64 :=
  ((dispatch.data.get? "chunk_index").bind Json.unsigned?).getD 0

/-- The number of chunks that the members come in; without one there is a single chunk. -/
def chunkCount (dispatch : Dispatch) : UInt64 :=
  ((dispatch.data.get? "chunk_count").bind Json.unsigned?).getD 1

end Dispatch

end GatewayCache
