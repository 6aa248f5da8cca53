import GatewayCache.Split.Entry

/-! # People of a message

The author of a message and the users it mentions are people. Member data may come
with them, for the author beside it in the message or inside it, for a mention inside
it only. In a guild, member data makes a member of a user.
-/

namespace GatewayCache

namespace Relation

/-- The relation of a message to its author. -/
def author : Relation := ⟨"author", .userOrMember, .one, "author_id", true⟩

/-- The relation of a message to those it mentions. -/
def mentions : Relation := ⟨"mentions", .userOrMember, .many, "mention_ids", false⟩

/-- The relation of a message to the one that it replies to. -/
def reply : Relation := .single "referenced_message" .message "referenced_message_id"

/-- The relations of a message to people. -/
def people : List Relation := [author, mentions]

end Relation

/-- Member data as the fields of a member's record, with the id of the user in place of the user. -/
def Fields.asMember (data : Fields) (guild user : Snowflake) : Fields :=
  ((data.insert "guild_id" guild.toJson).erase "user").insert "user_id" user.toJson

namespace Part

/-- The member data that comes with a user: what is beside it, where the relation looks there, goes
before what is inside it, and what is no object does not count. -/
def memberData? (part : Part) (relation : Relation) (user : Fields) : Option Fields :=
  (if relation.memberBeside then (part.payload.get? "member").bind Json.fields? else none).or
    ((user.get? "member").bind Json.fields?)

/-- The message that a message replies to, where it is embedded. -/
def reply? (part : Part) : Option Part :=
  ((part.payload.get? Relation.reply.field).bind Json.fields?).map
    (Part.mk .message ⟨part.guild?, some part.kind⟩)

end Part

/-- What one of the people with an id comes to. -/
structure Person (guild : Option Snowflake) (id : Snowflake) (data? : Option Fields)
    (records : List Record) : Prop where
  /-- The user is among the records. -/
  user : ∃ fields, Record.mk .user (.global id) fields ∈ records
  /-- It stays a user outside of guilds and without member data. -/
  alone : guild = none ∨ data? = none → ∀ record ∈ records, record.kind = .user
  /-- Member data makes a member of the guild, unless it names a guild itself. -/
  member : ∀ owner data, guild = some owner → data? = some data → data.contains "guild_id" = false →
    ∃ fields, records =
      [⟨.user, .global id, fields⟩, ⟨.member, .scoped owner id, data.asMember owner id⟩]

/-- A message taken apart with its people. -/
structure Part.Peopled (part : Part) (split : Split) : Prop where
  /-- Whatever one of them comes to is written. -/
  written : ∀ relation ∈ Relation.people, ∀ user ∈ part.objectsAt relation,
    (part.heldAt relation user).records <:+: split.embedded
  /-- Each of them with an id comes to a user, and may come to a member. -/
  person : ∀ relation ∈ Relation.people, ∀ user ∈ part.objectsAt relation, ∀ id,
    user.relationId "id" = some id →
    Person part.guild? id (part.memberData? relation user) (part.heldAt relation user).records
  /-- Outside of guilds none of them comes to a member, with an id or without. -/
  outside : part.guild? = none → ∀ relation ∈ Relation.people, ∀ user ∈ part.objectsAt relation,
    ∀ record ∈ (part.heldAt relation user).records, record.kind = .user
  /-- The author is held by its id. -/
  author : ∀ (user : Fields) id, part.payload.get? "author" = some (.obj user) →
    user.relationId "id" = some id → split.root.fields.get? "author_id" = some id.toJson
  /-- Those mentioned are held by their ids, in turn. -/
  mentions : ∀ items, part.payload.get? "mentions" = some (.arr items) →
    let entryId? := Split.entryId? ⟨part.guild?, some part.kind⟩ .userOrMember
    split.root.fields.get? "mention_ids" =
        some (.arr ((items.filterMap entryId?).map Snowflake.toJson)) ∧
      ∀ (user : Fields) id, .obj user ∈ items → user.relationId "id" = some id →
        entryId? (.obj user) = some id

end GatewayCache
