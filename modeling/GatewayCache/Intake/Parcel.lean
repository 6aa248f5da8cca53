import GatewayCache.Intake
import GatewayCache.Store.Flat
import GatewayCache.Update.Content
import GatewayCache.Update.Reading

/-! # Parcels

A payload is handed in together with the kind that it is taken in as and the guild
that is known around it. What places it writes to can be told before any store is
at hand.
-/

namespace GatewayCache

/-- The place where a record is kept. -/
def Record.place (record : Record) : Place := ⟨record.kind, record.key.guild?, record.id⟩

/-- The places of those records whose kinds are stored. -/
def Config.placesOf (config : Config) (records : List Record) : List Place :=
  (records.filter (fun record => config.stores record.kind)).map Record.place

/-- A payload that is handed in. -/
structure Parcel where
  kind : Kind
  /-- The guild known around the payload. -/
  guild : Option Snowflake
  payload : Json
  deriving Repr, DecidableEq

namespace Parcel

def takeIn (config : Config) (parcel : Parcel) : Action Store Change :=
  Intake.place config parcel.kind parcel.guild parcel.payload

/-- The records of everything in the parcel, the payload itself last; none if it cannot be taken
apart. -/
def records (parcel : Parcel) : List Record :=
  (Split.ofJson parcel.kind parcel.guild parcel.payload).toOption.elim [] Split.records

/-- The places that a parcel writes to. -/
def places (config : Config) (parcel : Parcel) : List Place := config.placesOf parcel.records

end Parcel

namespace Dispatch

/-- The update is a chunk of members of a guild, each of them an object with an id. Which chunk it is
by its own numbers does not matter. -/
structure ListsMembers (dispatch : Dispatch) (guild : Snowflake) : Prop where
  name : dispatch.name = "GUILD_MEMBERS_CHUNK"
  addressed : dispatch.addressee? = some guild
  /-- The members are listed, and each can be told who it is. -/
  identified : ∃ members, dispatch.data.get? "members" = some (.arr members) ∧
    ∀ member ∈ members, ∃ payload id, member = .obj payload ∧ Kind.member.identify payload = .ok id

/-- The members of a chunk of a guild, as they are handed in. -/
def members (dispatch : Dispatch) (guild : Snowflake) : List Parcel :=
  dispatch.entities.map (⟨.member, some guild, ·⟩)

/-- The places that a chunk of a guild writes to: none if it is refused. -/
def memberPlaces (dispatch : Dispatch) (config : Config) (guild : Snowflake) : List Place :=
  if dispatch.isRefused then []
  else config.placesOf ((dispatch.members guild).flatMap Parcel.records)

end Dispatch

end GatewayCache
