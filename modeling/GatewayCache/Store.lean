import GatewayCache.Record

/-! # The store

Records of kinds that live in a guild are kept in that guild's own shelf, all
others in one global shelf. A shelf of a guild comes to be with its first record
and stays, perhaps empty, until the guild is removed.
-/

namespace GatewayCache

/-- The place of a record on a shelf. -/
structure Slot where
  kind : Kind
  id : Snowflake
  deriving Repr, DecidableEq

namespace Slot

instance : Ord Slot := ⟨compareLex (compareOn kind) (compareOn id)⟩

instance : Std.TransOrd Slot :=
  inferInstanceAs (Std.TransCmp (compareLex (compareOn kind) (compareOn id)))

instance : Std.LawfulEqOrd Slot where
  eq_of_compare {a b} same := by
    have both : (compare a.kind b.kind).then (compare a.id b.id) = .eq := same
    rw [Ordering.then_eq_eq] at both
    have kinds := Std.LawfulEqOrd.eq_of_compare both.1
    have ids := Std.LawfulEqOrd.eq_of_compare both.2
    cases a; cases b; simp_all

end Slot

/-- Fields by kind and id, in ascending order. -/
abbrev Shelf := Std.ExtTreeMap Slot Fields

namespace Shelf

/-- The fields laid over what is in the slot, or put there as they are. -/
def write (shelf : Shelf) (slot : Slot) (fields : Fields) : Shelf :=
  shelf.alter slot (fun old => some (old.elim fields (fun before => before.merge fields)))

def ids (shelf : Shelf) (kind : Kind) : List Snowflake :=
  (shelf.keys.filter (fun slot => slot.kind = kind)).map Slot.id

end Shelf

/-- All records. -/
structure Store where
  /-- The records that live in no guild. -/
  globals : Shelf
  scopes : Std.ExtTreeMap Snowflake Shelf

/-- A record before and after a write. -/
structure Change where
  before : Option Record
  after : Record
  deriving Repr, DecidableEq

namespace Store

def empty : Store := ⟨∅, ∅⟩

instance : Inhabited Store := ⟨empty⟩

/-- The shelf of a guild, or the global one. -/
def shelf (store : Store) : Option Snowflake → Shelf
  | none => store.globals
  | some guild => (store.scopes[guild]?).getD ∅

/-- The key that a record of a kind is kept under; a kind that lives in a guild needs one. -/
def address? (kind : Kind) (key : Key) : Option Key :=
  if kind.isScoped then
    match key with
    | .scoped guild id => some (.scoped guild id)
    | .global _ => none
  else some (.global key.id)

def fieldsAt (store : Store) (kind : Kind) (address : Key) : Option Fields :=
  (store.shelf address.guild?)[Slot.mk kind address.id]?

def recordAt (store : Store) (kind : Kind) (address : Key) : Option Record :=
  (store.fieldsAt kind address).map (fun fields => ⟨kind, address, fields⟩)

/-- The record of a kind inside one guild. -/
def getScoped (store : Store) (kind : Kind) (guild id : Snowflake) : Option Record :=
  if kind.isScoped then store.recordAt kind (.scoped guild id) else none

/-- The record of a kind with an id, in any guild. -/
def get (store : Store) (kind : Kind) (id : Snowflake) : Option Record :=
  if kind.isScoped then store.scopes.keys.findSome? (fun guild => store.getScoped kind guild id)
  else store.recordAt kind (.global id)

/-- The record under a key; a global key of a kind that lives in a guild is looked up in any. -/
def getKey (store : Store) (kind : Kind) (key : Key) : Option Record :=
  match address? kind key with
  | some address => store.recordAt kind address
  | none => store.get kind key.id

/-- The ids of one kind within a guild, ascending. -/
def scopedIds (store : Store) (kind : Kind) (guild : Snowflake) : List Snowflake :=
  if kind.isScoped then (store.shelf (some guild)).ids kind else []

def guildIds (store : Store) : List Snowflake := store.globals.ids .guild

/-- The number of records of a kind. -/
def count (store : Store) (kind : Kind) : Nat :=
  if kind.isScoped then (store.scopes.toList.flatMap (fun scope => scope.2.ids kind)).length
  else (store.globals.ids kind).length

/-- The records of a kind, those of one guild after those of another. -/
def records (store : Store) (kind : Kind) : List Record :=
  if kind.isScoped then
    store.scopes.keys.flatMap (fun guild =>
      (store.scopedIds kind guild).filterMap (store.getScoped kind guild))
  else (store.globals.ids kind).filterMap (store.get kind)

/-- Lays fields over the record under an address, or starts it with them. -/
def write (store : Store) (kind : Kind) (address : Key) (fields : Fields) : Store :=
  let slot : Slot := ⟨kind, address.id⟩
  match address.guild? with
  | none => { store with globals := store.globals.write slot fields }
  | some guild =>
    { store with
      scopes := store.scopes.alter guild (fun shelf => some ((shelf.getD ∅).write slot fields)) }

def changeBy (store : Store) (kind : Kind) (address : Key) (fields : Fields) : Change :=
  match store.recordAt kind address with
  | none => ⟨none, ⟨kind, address, fields⟩⟩
  | some before => ⟨some before, before.merge fields⟩

/-- Lays fields over the record under a key, or starts it; a kind that lives in a guild needs a key
with one. -/
def put (store : Store) (kind : Kind) (key : Key) (fields : Fields) :
    Except CacheError (Change × Store) :=
  match address? kind key with
  | some address => .ok (store.changeBy kind address fields, store.write kind address fields)
  | none => .error (.missingGuild kind)

def removeAt (store : Store) (kind : Kind) (address : Key) : Store :=
  let slot : Slot := ⟨kind, address.id⟩
  match address.guild? with
  | none => { store with globals := store.globals.erase slot }
  | some guild =>
    { store with scopes := store.scopes.alter guild (fun shelf => shelf.map (·.erase slot)) }

/-- Removes the record under a key, and gives it; a global key finds no record that lives in a
guild. -/
def delete (store : Store) (kind : Kind) (key : Key) : Option Record × Store :=
  match address? kind key with
  | some address => (store.recordAt kind address, store.removeAt kind address)
  | none => (none, store)

/-- Removes a guild with every record inside it, and gives the guild's own. -/
def deleteGuild (store : Store) (guild : Snowflake) : Option Record × Store :=
  (store.recordAt .guild (.global guild),
    { globals := store.globals.erase ⟨.guild, guild⟩, scopes := store.scopes.erase guild })

/-- Whether a record on the global shelf is of a kind and names a guild as its own. -/
def namesGuild (kind : Kind) (guild : Snowflake) (slot : Slot) (fields : Fields) : Bool :=
  slot.kind = kind && fields.relationId "guild_id" == some guild

/-- Removes every global record of a kind that names a guild as its own, and gives their number. -/
def deleteByGuild (store : Store) (kind : Kind) (guild : Snowflake) : Nat × Store :=
  let kept := store.globals.filter (fun slot fields => !namesGuild kind guild slot fields)
  (store.globals.size - kept.size, { store with globals := kept })

/-- Removes every record: the global ones kind by kind, the guilds' shelves at once. -/
def clear (store : Store) : Store :=
  { globals := (Kind.all.filter (!·.isScoped)).foldl
      (fun shelf kind => shelf.filter (fun slot _ => slot.kind != kind)) store.globals
    scopes := ∅ }

end Store

def Kind.plural : Kind → String
  | .guild => "guilds"
  | .channel => "channels"
  | .thread => "threads"
  | .member => "members"
  | .role => "roles"
  | .user => "users"
  | .message => "messages"
  | .emoji => "emoji"
  | .voiceState => "voice_states"
  | .sticker => "stickers"
  | .integration => "integrations"
  | .autoModRule => "auto_mod_rules"

namespace Store

/-- The number of records of every kind. -/
def stats (store : Store) : List (Kind × Nat) := Kind.all.map (fun kind => (kind, store.count kind))

def statsJson (store : Store) : Json :=
  Json.object (store.stats.map (fun entry => (entry.1.plural, Json.ofNat entry.2)))

end Store

end GatewayCache
