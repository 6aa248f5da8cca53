import GatewayCache.Record
import GatewayCache.Relation

/-! # Splitting payloads

A nested payload is taken apart into one flat record for every entity in it. The
records of embedded entities come before the record they are embedded in, which
holds their ids only. Nothing here looks at the store or at the configuration:
the records are those to write, whatever they are written into.
-/

namespace GatewayCache

/-- A payload taken apart. -/
structure Split where
  /-- The records of the embedded entities, each after those embedded in it. -/
  embedded : List Record
  root : Record
  deriving Repr, DecidableEq

namespace Split

/-- All records, in the order in which they are written. -/
def records (split : Split) : List Record := split.embedded ++ [split.root]

/-- Where a payload was found. -/
structure Context where
  guild : Option Snowflake
  parent : Option Kind
  deriving Repr, DecidableEq

abbrev Splitter := Kind → Context → Fields → Except CacheError Split

/-- What became of an embedded object. -/
inductive Extracted where
  /-- It is a record of its own. -/
  | stored (id : Snowflake) (records : List Record)
  /-- It stays where it was. -/
  | inline (object : Fields)
  deriving Repr, DecidableEq

/-- The kind an embedded object is stored as, and the payload to store. Member data beside the object
goes before member data inside it; either becomes a member around the user, but only in a guild. -/
def promote (target : Target) (guild : Option Snowflake) (beside : Option Json) (object : Fields) :
    Kind × Fields :=
  match target with
  | .record kind => (kind, object)
  | .userOrMember =>
    match guild, beside with
    | some _, some (.obj member) => (.member, Fields.insert "user" (.obj object) member)
    | some _, none =>
      match object.get? "member" with
      | some (.obj member) => (.member, Fields.insert "user" (.obj (object.erase "member")) member)
      | _ => (.user, object)
    | _, _ => (.user, object)

/-- Takes an embedded object apart; one that cannot stand alone stays inline. -/
def extract (inner : Splitter) (context : Context) (target : Target) (beside : Option Json)
    (object : Fields) : Extracted :=
  let (kind, payload) := promote target context.guild beside object
  match inner kind context payload with
  | .ok split => .stored split.root.id split.records
  | .error _ => .inline payload

/-- The entries of a list relation, sorted by what became of them. -/
structure Sifted where
  /-- The ids of the entries that are records of their own, and the bare ids. -/
  ids : List Snowflake
  left : List Json
  records : List Record
  deriving Repr, DecidableEq

/-- Sifts the entries of a list relation, each kept in its order. -/
def sift (inner : Splitter) (context : Context) (target : Target) : List Json → Sifted
  | [] => ⟨[], [], []⟩
  | .obj object :: rest =>
    let more := sift inner context target rest
    match extract inner context target none object with
    | .stored id records => { more with ids := id :: more.ids, records := records ++ more.records }
    | .inline object => { more with left := .obj object :: more.left }
  | bare :: rest =>
    let more := sift inner context target rest
    match Snowflake.ofJson? bare with
    | some id => { more with ids := id :: more.ids }
    | none => { more with left := bare :: more.left }

/-- What is left of a payload part of whose relations are taken apart. -/
structure Remainder where
  fields : Fields
  /-- Member data that waits for the user it belongs to. -/
  beside : Option Json
  deriving Repr, DecidableEq

namespace Remainder

/-- Hands the waiting member data to a relation that takes it. -/
def handOver (rest : Remainder) (relation : Relation) : Option Json × Remainder :=
  if relation.memberBeside then (rest.beside, { rest with beside := none }) else (none, rest)

/-- A relation to one entity held by its id. -/
def setId (rest : Remainder) (relation : Relation) (id : Snowflake) : Remainder :=
  { rest with fields := (rest.fields.erase relation.field).insert relation.idField id.toJson }

/-- A relation to one object that stays. -/
def setInline (rest : Remainder) (relation : Relation) (object : Fields) : Remainder :=
  { rest with fields := (rest.fields.erase relation.field).insert relation.field (.obj object) }

/-- A relation to a list held by its ids, beside the entries that stay. -/
def setIds (rest : Remainder) (relation : Relation) (ids : List Snowflake) (left : List Json) :
    Remainder :=
  let fields :=
    (rest.fields.erase relation.field).insert relation.idField (.arr (ids.map Snowflake.toJson))
  { rest with
    fields := if left.isEmpty then fields else fields.insert relation.field (.arr left) }

/-- The fields once every relation is taken apart, with member data put back that no author took. -/
def finish (rest : Remainder) : Fields :=
  match rest.beside with
  | some member => rest.fields.insert "member" member
  | none => rest.fields

end Remainder

/-- A payload part of whose relations are taken apart. -/
structure Draft where
  /-- What is left of the payload. -/
  rest : Remainder
  embedded : List Record
  deriving Repr, DecidableEq

/-- Whether a relation leads back to the kind that the payload is embedded in. -/
def leadsBack (relation : Relation) (parent : Option Kind) : Bool :=
  parent.any (relation.target.kinds.contains ·)

/-- Takes one relation apart. A relation back to the kind that the payload is embedded in is left
alone, as is a field of another shape. -/
def takeRelation (inner : Splitter) (parent : Option Kind) (context : Context) (draft : Draft)
    (relation : Relation) : Draft :=
  if leadsBack relation parent then draft
  else
    match relation.shape, draft.rest.fields.get? relation.field with
    | .one, some (.obj object) =>
      let (beside, rest) := draft.rest.handOver relation
      match extract inner context relation.target beside object with
      | .stored id records => ⟨rest.setId relation id, draft.embedded ++ records⟩
      | .inline object => ⟨rest.setInline relation object, draft.embedded⟩
    | .many, some (.arr items) =>
      let sifted := sift inner context relation.target items
      ⟨draft.rest.setIds relation sifted.ids sifted.left, draft.embedded ++ sifted.records⟩
    | _, _ => draft

/-- The guild that a payload belongs to: a guild is its own, and a readable field goes before what is
known from around the payload. -/
def guildOf (kind : Kind) (id : Snowflake) (payload : Fields) (around : Option Snowflake) :
    Option Snowflake :=
  match kind with
  | .guild => some id
  | _ => (payload.relationId "guild_id").or around

/-- The key of a payload; a kind that lives in a guild needs one. -/
def keyOf (kind : Kind) (id : Snowflake) (guild : Option Snowflake) : Except CacheError Key :=
  if kind.isScoped then guild.elim (.error (.missingGuild kind)) (fun guild => .ok (.scoped guild id))
  else .ok (.global id)

/-- The payload with the id of a known guild added, for kinds that take it and only where the field is
absent. -/
def withGuild (kind : Kind) (guild : Option Snowflake) (payload : Fields) : Fields :=
  match guild with
  | some guild =>
    if kind.inheritsGuild && !payload.contains "guild_id" then
      payload.insert "guild_id" guild.toJson
    else payload
  | none => payload

/-- The payload as it enters its relations. In a guild, the member data of a message waits for the
author; what is no object is dropped. -/
def entering (kind : Kind) (guild : Option Snowflake) (payload : Fields) : Remainder :=
  let fields := withGuild kind guild payload
  if kind = .message ∧ guild.isSome then
    ⟨fields.erase "member", (fields.get? "member").filter Json.isObject⟩
  else ⟨fields, none⟩

/-- Takes a payload apart, given a function for the objects embedded in it. -/
def step (inner : Splitter) : Splitter := fun kind context payload => do
  let id ← kind.identify payload
  let guild := guildOf kind id payload context.guild
  let key ← keyOf kind id guild
  let done := kind.relations.foldl (takeRelation inner context.parent ⟨guild, some kind⟩)
    ⟨entering kind guild payload, []⟩
  .ok ⟨done.embedded, ⟨kind, key, done.rest.finish⟩⟩

/-- Takes a payload apart with objects embedded so many levels deep. -/
def nested : Nat → Splitter
  | 0 => fun kind _ _ => .error (.notAnObject kind)
  | levels + 1 => step (nested levels)

/-- The levels that the relations allow: a message holds a message, that one a member, and the member
a user. -/
def maxLevels : Nat := 4

/-- Takes a payload apart, in a guild if one is known around it. -/
def ofFields (kind : Kind) (guild : Option Snowflake) (payload : Fields) : Except CacheError Split :=
  nested maxLevels kind ⟨guild, none⟩ payload

/-- Takes a payload apart that has to be an object. -/
def ofJson (kind : Kind) (guild : Option Snowflake) : Json → Except CacheError Split
  | .obj payload => ofFields kind guild payload
  | _ => .error (.notAnObject kind)

end Split

end GatewayCache
