import GatewayCache.Model.Field
import GatewayCache.Reference

/-! # Users, members and emoji -/

namespace GatewayCache.Model

/-- A user. -/
structure User where
  id : Snowflake
  username : String
  globalName : Option String
  bot : Bool
  deriving Repr, DecidableEq

namespace User

def ofFields? (fields : Fields) : Option User := do
  some
    { id := ← required fields "id" snowflake
      username := ← orElse fields "username" "" text
      globalName := ← optional fields "global_name" text
      bot := ← orElse fields "bot" false flag }

def toJson (user : User) : Json :=
  Json.object
    [("id", user.id.toJson), ("username", .str user.username),
     ("global_name", optionJson .str user.globalName), ("bot", .bool user.bot)]

/-- The name to show, or else that of the account. -/
def displayName (user : User) : String := user.globalName.getD user.username

def createdAt (user : User) : Timestamp := .ofMillis user.id.createdMillis

end User

/-- A user's membership of a guild. -/
structure Member where
  userId : Snowflake
  guildId : Snowflake
  nick : Option String
  roleIds : List Snowflake
  joinedAt : Option Timestamp
  pending : Bool
  deriving Repr, DecidableEq

namespace Member

def ofFields? (fields : Fields) : Option Member := do
  some
    { userId := ← required fields "user_id" snowflake
      guildId := ← required fields "guild_id" snowflake
      nick := ← optional fields "nick" text
      roleIds := ← orElse fields "roles" [] snowflakes
      joinedAt := ← optional fields "joined_at" timestamp
      pending := ← orElse fields "pending" false flag }

def toJson (member : Member) : Json :=
  Json.object
    [("user_id", member.userId.toJson), ("guild_id", member.guildId.toJson),
     ("nick", optionJson .str member.nick), ("roles", idsJson member.roleIds),
     ("joined_at", optionJson timestampJson member.joinedAt), ("pending", .bool member.pending)]

def user (member : Member) : Reference := ⟨.user, .global member.userId⟩

def guild (member : Member) : Reference := ⟨.guild, .global member.guildId⟩

def roles (member : Member) : References := .inGuild .role member.guildId member.roleIds

end Member

/-- A custom emoji. -/
structure Emoji where
  id : Snowflake
  name : Option String
  guildId : Option Snowflake
  userId : Option Snowflake
  animated : Bool
  roleIds : List Snowflake
  deriving Repr, DecidableEq

namespace Emoji

def ofFields? (fields : Fields) : Option Emoji := do
  some
    { id := ← required fields "id" snowflake
      name := ← optional fields "name" text
      guildId := ← optional fields "guild_id" snowflake
      userId := ← optional fields "user_id" snowflake
      animated := ← orElse fields "animated" false flag
      roleIds := ← orElse fields "roles" [] snowflakes }

def toJson (emoji : Emoji) : Json :=
  Json.object
    [("id", emoji.id.toJson), ("name", optionJson .str emoji.name),
     ("guild_id", optionJson Snowflake.toJson emoji.guildId),
     ("user_id", optionJson Snowflake.toJson emoji.userId), ("animated", .bool emoji.animated),
     ("roles", idsJson emoji.roleIds)]

def creator (emoji : Emoji) : Option Reference :=
  emoji.userId.map (fun id => ⟨.user, .global id⟩)

/-- What stands for the emoji in a message. -/
def markup (emoji : Emoji) : String :=
  let name := emoji.name.getD "_"
  if emoji.animated then s!"<a:{name}:{emoji.id}>" else s!"<:{name}:{emoji.id}>"

end Emoji

end GatewayCache.Model
