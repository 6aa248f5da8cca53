import GatewayCache.Action
import GatewayCache.Placement

/-! # Taking payloads in

A nested payload is written to the store while it is taken apart: each embedded
entity as soon as it is found, the payload itself last. An embedded object that is
refused stays inline in its parent, and nothing that was written before is undone.
-/

namespace GatewayCache

namespace Intake

open Split (Context Remainder)

/-- A function that takes payloads apart: it writes what is embedded in a payload and gives the record
of the payload itself. -/
abbrev Taker := Kind → Context → Fields → Action Store Record

/-- Lays fields over the record under a key. -/
def put (kind : Kind) (key : Key) (fields : Fields) : Action Store Change := do
  let (change, store) ← (← get).put kind key fields
  set store
  return change

/-- Writes a record, or only gives it where its kind is not stored. -/
def commit (config : Config) (record : Record) : Action Store Change :=
  if config.stores record.kind then put record.kind record.key record.fields
  else return ⟨none, record⟩

/-- What became of an embedded object. -/
inductive Taken where
  /-- It was written as a record of its own. -/
  | stored (id : Snowflake)
  /-- It stays where it was. -/
  | inline (object : Fields)
  deriving Repr, DecidableEq

/-- Whether an embedded payload can be a record of its own at all. -/
def standsAlone (kind : Kind) (guild : Option Snowflake) (payload : Fields) : Bool :=
  (kind.identify payload).isOk && (!kind.isScoped || guild.isSome || payload.contains "guild_id")

/-- Takes an embedded object in; one that cannot stand alone stays inline. -/
def extract (config : Config) (inner : Taker) (context : Context) (target : Target)
    (beside : Option Json) (object : Fields) : Action Store Taken := do
  let (kind, payload) := Split.promote target context.guild beside object
  if standsAlone kind context.guild payload then
    match ← (inner kind context payload).attempt with
    | .error _ => return .inline payload
    | .ok record =>
      match ← (commit config record).attempt with
      | .error _ => return .inline payload
      | .ok _ => return .stored record.id
  else return .inline payload

/-- Takes the entries of a list relation in, in turn, and gives the ids and the entries that stay. -/
def sift (config : Config) (inner : Taker) (context : Context) (target : Target) :
    List Json → Action Store (List Snowflake × List Json)
  | [] => return ([], [])
  | .obj object :: rest => do
    let taken ← extract config inner context target none object
    let (ids, left) ← sift config inner context target rest
    match taken with
    | .stored id => return (id :: ids, left)
    | .inline object => return (ids, .obj object :: left)
  | bare :: rest => do
    let (ids, left) ← sift config inner context target rest
    match Snowflake.ofJson? bare with
    | some id => return (id :: ids, left)
    | none => return (ids, bare :: left)

/-- Takes one relation in. A relation back to the kind that the payload is embedded in is left alone,
as is a field of another shape. -/
def takeRelation (config : Config) (inner : Taker) (parent : Option Kind) (context : Context)
    (rest : Remainder) (relation : Relation) : Action Store Remainder :=
  if Split.leadsBack relation parent then return rest
  else
    match relation.shape, rest.fields.get? relation.field with
    | .one, some (.obj object) => do
      let (beside, rest) := rest.handOver relation
      match ← extract config inner context relation.target beside object with
      | .stored id => return rest.setId relation id
      | .inline object => return rest.setInline relation object
    | .many, some (.arr items) => do
      let (ids, left) ← sift config inner context relation.target items
      return rest.setIds relation ids left
    | _, _ => return rest

/-- Takes a payload apart, given a function for the objects embedded in it. -/
def step (config : Config) (inner : Taker) : Taker := fun kind context payload => do
  let id ← kind.identify payload
  let guild := Split.guildOf kind id payload context.guild
  let key ← Split.keyOf kind id guild
  let rest ← kind.relations.foldlM (takeRelation config inner context.parent ⟨guild, some kind⟩)
    (Split.entering kind guild payload)
  return ⟨kind, key, rest.finish⟩

/-- Takes a payload apart with objects embedded so many levels deep. -/
def nested (config : Config) : Nat → Taker
  | 0 => fun kind _ _ => throw (.notAnObject kind)
  | levels + 1 => step config (nested config levels)

/-- Takes a payload apart that has to be an object, in a guild if one is known around it. -/
def decompose (config : Config) (kind : Kind) (guild : Option Snowflake) :
    Json → Action Store Record
  | .obj payload => nested config Split.maxLevels kind ⟨guild, none⟩ payload
  | _ => throw (.notAnObject kind)

/-- Takes a payload in, itself last, and gives the change to its own record. -/
def place (config : Config) (kind : Kind) (guild : Option Snowflake) (payload : Json) :
    Action Store Change := do
  commit config (← decompose config kind guild payload)

end Intake

end GatewayCache
