import GatewayCache.Snowflake

/-! # Kinds and keys

Twelve kinds of record, four of which live inside one guild. A record is keyed by
its id, together with its guild for the kinds that live in one.
-/

namespace GatewayCache

/-- A kind of record. -/
inductive Kind where
  | guild
  | channel
  | thread
  /-- A user's membership of a guild. -/
  | member
  /-- A role of a guild. -/
  | role
  | user
  | message
  /-- A custom emoji of a guild. -/
  | emoji
  /-- A user's presence in a voice channel of a guild. -/
  | voiceState
  | sticker
  | integration
  /-- A rule of automatic moderation. -/
  | autoModRule
  deriving Repr, DecidableEq, Inhabited

namespace Kind

def all : List Kind :=
  [guild, channel, thread, member, role, user, message, emoji, voiceState, sticker, integration,
   autoModRule]

/-- Whether records of the kind live inside one guild. -/
def isScoped : Kind → Bool
  | member | role | emoji | voiceState => true
  | _ => false

def name : Kind → String
  | guild => "guild"
  | channel => "channel"
  | thread => "thread"
  | member => "member"
  | role => "role"
  | user => "user"
  | message => "message"
  | emoji => "emoji"
  | voiceState => "voice_state"
  | sticker => "sticker"
  | integration => "integration"
  | autoModRule => "auto_mod_rule"

instance : ToString Kind := ⟨name⟩

def ofName? (text : String) : Option Kind := all.find? (fun kind => kind.name == text)

/-- The kind that a value names, as text or as an object with that one key and `null` under it. -/
def ofJson? : Json → Option Kind
  | .str text => ofName? text
  | .obj [(key, .null)] => ofName? key
  | _ => none

/-- The rank of a kind in storage order. -/
def rank (kind : Kind) : Nat := kind.ctorIdx

theorem rank_injective {a b : Kind} (same : a.rank = b.rank) : a = b := by
  cases a <;> cases b <;> first | rfl | cases same

instance : Ord Kind := ⟨compareOn rank⟩

instance : Std.TransOrd Kind := inferInstanceAs (Std.TransCmp (compareOn rank))

instance : Std.LawfulEqOrd Kind where
  eq_of_compare same := rank_injective (Std.LawfulEqOrd.eq_of_compare (α := Nat) same)

end Kind

/-- Where a record is found. -/
inductive Key where
  /-- By its id alone. -/
  | global (id : Snowflake)
  /-- By its guild and its id. -/
  | scoped (guild id : Snowflake)
  deriving Repr, DecidableEq, Inhabited

namespace Key

def id : Key → Snowflake
  | .global id => id
  | .scoped _ id => id

def guild? : Key → Option Snowflake
  | .global _ => none
  | .scoped guild _ => some guild

/-- A key inside a guild, where one is given. -/
def within (guild : Option Snowflake) (id : Snowflake) : Key :=
  match guild with
  | some guild => .scoped guild id
  | none => .global id

/-- The id, behind the guild and a slash for a scoped key. -/
def toText : Key → String
  | .global id => id.toText
  | .scoped guild id => s!"{guild}/{id}"

instance : ToString Key := ⟨toText⟩

end Key

end GatewayCache
