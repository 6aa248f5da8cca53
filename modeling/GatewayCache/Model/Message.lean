import GatewayCache.Model.Field
import GatewayCache.Reference

/-! # Messages -/

namespace GatewayCache.Model

/-- A message. -/
structure Message where
  id : Snowflake
  channelId : Snowflake
  guildId : Option Snowflake
  content : String
  authorId : Option Snowflake
  mentionIds : List Snowflake
  referencedId : Option Snowflake
  threadId : Option Snowflake
  sentAt : Option Timestamp
  editedAt : Option Timestamp
  pinned : Bool
  deriving Repr, DecidableEq

namespace Message

def ofFields? (fields : Fields) : Option Message := do
  some
    { id := ← required fields "id" snowflake
      channelId := ← required fields "channel_id" snowflake
      guildId := ← optional fields "guild_id" snowflake
      content := ← orElse fields "content" "" text
      authorId := ← optional fields "author_id" snowflake
      mentionIds := ← orElse fields "mention_ids" [] snowflakes
      referencedId := ← optional fields "referenced_message_id" snowflake
      threadId := ← optional fields "thread_channel_id" snowflake
      sentAt := ← optional fields "timestamp" timestamp
      editedAt := ← optional fields "edited_timestamp" timestamp
      pinned := ← orElse fields "pinned" false flag }

def toJson (message : Message) : Json :=
  Json.object
    [("id", message.id.toJson), ("channel_id", message.channelId.toJson),
     ("guild_id", optionJson Snowflake.toJson message.guildId), ("content", .str message.content),
     ("author_id", optionJson Snowflake.toJson message.authorId),
     ("mention_ids", idsJson message.mentionIds),
     ("referenced_message_id", optionJson Snowflake.toJson message.referencedId),
     ("thread_channel_id", optionJson Snowflake.toJson message.threadId),
     ("timestamp", optionJson timestampJson message.sentAt),
     ("edited_timestamp", optionJson timestampJson message.editedAt),
     ("pinned", .bool message.pinned)]

def channel (message : Message) : Reference := ⟨.channel, .global message.channelId⟩

def author (message : Message) : Option Reference :=
  message.authorId.map (fun id => ⟨.user, .global id⟩)

/-- The author's membership, for a message in a guild. -/
def member (message : Message) : Option Reference := do
  some ⟨.member, .scoped (← message.guildId) (← message.authorId)⟩

def mentions (message : Message) : References := .global .user message.mentionIds

def referenced (message : Message) : Option Reference :=
  message.referencedId.map (fun id => ⟨.message, .global id⟩)

def thread (message : Message) : Option Reference :=
  message.threadId.map (fun id => ⟨.thread, .global id⟩)

end Message

end GatewayCache.Model
