import GatewayCache.Kind

/-! # Relations

Which fields of a payload hold embedded entities, what those are stored as, and
which field holds their ids afterwards. The table is fixed per kind.
-/

namespace GatewayCache

/-- How many entities a relation holds. -/
inductive Shape where
  | one
  | many
  deriving Repr, DecidableEq

/-- What an embedded object is stored as. -/
inductive Target where
  | record (kind : Kind)
  /-- A user, or a member around the user where member data came along inside a guild. -/
  | userOrMember
  deriving Repr, DecidableEq

/-- The kinds that an embedded object may be stored as. -/
def Target.kinds : Target → List Kind
  | .record kind => [kind]
  | .userOrMember => [.user, .member]

/-- One relation of a kind. -/
structure Relation where
  /-- The field of the payload that holds the embedded objects. -/
  field : String
  /-- What the objects are stored as. -/
  target : Target
  /-- Whether the field holds one object or a list. -/
  shape : Shape
  /-- The field of the record that holds the ids. -/
  idField : String
  /-- Whether member data for the embedded user may come in a field beside it. -/
  memberBeside : Bool
  deriving Repr, DecidableEq

namespace Relation

/-- A relation to a list of entities of one kind. -/
def list (field : String) (kind : Kind) (idField : String) : Relation :=
  ⟨field, .record kind, .many, idField, false⟩

/-- A relation to one entity of one kind. -/
def single (field : String) (kind : Kind) (idField : String) : Relation :=
  ⟨field, .record kind, .one, idField, false⟩

end Relation

namespace Kind

/-- The relations of a kind, in the order in which they are taken apart. -/
def relations : Kind → List Relation
  | guild =>
    [.list "channels" channel "channel_ids", .list "threads" thread "thread_ids",
     .list "members" member "member_ids", .list "roles" role "role_ids",
     .list "emojis" emoji "emoji_ids", .list "voice_states" voiceState "voice_state_ids",
     .list "stickers" sticker "sticker_ids"]
  | channel | thread => [.list "recipients" user "recipient_ids"]
  | member | emoji | sticker | integration => [.single "user" user "user_id"]
  | message =>
    [⟨"author", .userOrMember, .one, "author_id", true⟩,
     ⟨"mentions", .userOrMember, .many, "mention_ids", false⟩,
     .single "referenced_message" message "referenced_message_id",
     .single "thread" thread "thread_channel_id"]
  | voiceState => [.single "member" member "member_id"]
  | role | user | autoModRule => []

/-- Whether records of the kind belong to a guild and take its id when they are embedded in one. -/
def inheritsGuild (kind : Kind) : Bool :=
  kind.isScoped ||
    match kind with
    | channel | thread | sticker => true
    | _ => false

/-- The field of a guild's record that lists the ids of a kind. -/
def listField? : Kind → Option String
  | channel => some "channel_ids"
  | thread => some "thread_ids"
  | member => some "member_ids"
  | role => some "role_ids"
  | emoji => some "emoji_ids"
  | voiceState => some "voice_state_ids"
  | sticker => some "sticker_ids"
  | _ => none

end Kind

end GatewayCache
