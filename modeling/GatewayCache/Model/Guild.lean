import GatewayCache.Model.Field
import GatewayCache.Reference

/-! # Guilds, channels and roles -/

namespace GatewayCache.Model

/-- A guild. -/
structure Guild where
  id : Snowflake
  name : String
  ownerId : Option Snowflake
  memberCount : Option UInt64
  unavailable : Bool
  channelIds : List Snowflake
  threadIds : List Snowflake
  roleIds : List Snowflake
  emojiIds : List Snowflake
  stickerIds : List Snowflake
  deriving Repr, DecidableEq

namespace Guild

def ofFields? (fields : Fields) : Option Guild := do
  some
    { id := ← required fields "id" snowflake
      name := ← orElse fields "name" "" text
      ownerId := ← optional fields "owner_id" snowflake
      memberCount := ← optional fields "member_count" unsigned
      unavailable := ← orElse fields "unavailable" false flag
      channelIds := ← orElse fields "channel_ids" [] snowflakes
      threadIds := ← orElse fields "thread_ids" [] snowflakes
      roleIds := ← orElse fields "role_ids" [] snowflakes
      emojiIds := ← orElse fields "emoji_ids" [] snowflakes
      stickerIds := ← orElse fields "sticker_ids" [] snowflakes }

def toJson (guild : Guild) : Json :=
  Json.object
    [("id", guild.id.toJson), ("name", .str guild.name),
     ("owner_id", optionJson Snowflake.toJson guild.ownerId),
     ("member_count", optionJson Json.ofUInt64 guild.memberCount),
     ("unavailable", .bool guild.unavailable), ("channel_ids", idsJson guild.channelIds),
     ("thread_ids", idsJson guild.threadIds), ("role_ids", idsJson guild.roleIds),
     ("emoji_ids", idsJson guild.emojiIds), ("sticker_ids", idsJson guild.stickerIds)]

def owner (guild : Guild) : Option Reference :=
  guild.ownerId.map (fun id => ⟨.member, .scoped guild.id id⟩)

def channels (guild : Guild) : References := .global .channel guild.channelIds

def threads (guild : Guild) : References := .global .thread guild.threadIds

def roles (guild : Guild) : References := .inGuild .role guild.id guild.roleIds

def emojis (guild : Guild) : References := .inGuild .emoji guild.id guild.emojiIds

def stickers (guild : Guild) : References := .global .sticker guild.stickerIds

/-- The members that are stored, in order of id. -/
def members (guild : Guild) (store : Store) : References :=
  .inGuild .member guild.id (store.scopedIds .member guild.id)

/-- Whether as many members are stored as the guild has. -/
def isChunked (guild : Guild) (store : Store) : Bool :=
  guild.memberCount.any
    (fun expected => expected.toNat ≤ (store.scopedIds .member guild.id).length)

end Guild

/-- A channel. -/
structure Channel where
  id : Snowflake
  sort : Json
  name : Option String
  guildId : Option Snowflake
  parentId : Option Snowflake
  position : Option Int
  recipientIds : List Snowflake
  deriving Repr, DecidableEq

namespace Channel

def ofFields? (fields : Fields) : Option Channel := do
  some
    { id := ← required fields "id" snowflake
      sort := (fields.get? "type").getD .null
      name := ← optional fields "name" text
      guildId := ← optional fields "guild_id" snowflake
      parentId := ← optional fields "parent_id" snowflake
      position := ← optional fields "position" signed
      recipientIds := ← orElse fields "recipient_ids" [] snowflakes }

def toJson (channel : Channel) : Json :=
  Json.object
    [("id", channel.id.toJson), ("type", channel.sort), ("name", optionJson .str channel.name),
     ("guild_id", optionJson Snowflake.toJson channel.guildId),
     ("parent_id", optionJson Snowflake.toJson channel.parentId),
     ("position", optionJson Json.ofInt channel.position),
     ("recipient_ids", idsJson channel.recipientIds)]

def guild (channel : Channel) : Option Reference :=
  channel.guildId.map (fun id => ⟨.guild, .global id⟩)

def parent (channel : Channel) : Option Reference :=
  channel.parentId.map (fun id => ⟨.channel, .global id⟩)

def recipients (channel : Channel) : References := .global .user channel.recipientIds

end Channel

/-- A role. -/
structure Role where
  id : Snowflake
  name : String
  color : UInt32
  position : Int
  permissions : Option String
  managed : Bool
  deriving Repr, DecidableEq

namespace Role

def ofFields? (fields : Fields) : Option Role := do
  some
    { id := ← required fields "id" snowflake
      name := ← orElse fields "name" "" text
      color := ← orElse fields "color" 0 unsigned32
      position := ← orElse fields "position" 0 signed
      permissions := ← optional fields "permissions" text
      managed := ← orElse fields "managed" false flag }

def toJson (role : Role) : Json :=
  Json.object
    [("id", role.id.toJson), ("name", .str role.name), ("color", Json.ofNat role.color.toNat),
     ("position", Json.ofInt role.position), ("permissions", optionJson .str role.permissions),
     ("managed", .bool role.managed)]

end Role

end GatewayCache.Model
