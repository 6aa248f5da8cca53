import GatewayCache.Cache.Handler
import GatewayCache.Update.Content

/-! # The standing of guilds

The creation and the deletion of a guild report whether it can be reached. How a guild
stands after some updates is what the most recent of these reports says, as far as the
guild had a record to note it in.
-/

namespace GatewayCache

namespace Dispatch

/-- The guild that is created or deleted, whether it can be reached or not. -/
def reported? (dispatch : Dispatch) : Option Snowflake := do
  let fields ← (dispatch.fieldsAs? .guildCreate).or (dispatch.fieldsAs? .guildDelete)
  fields.relationId "id"

/-- The guild that is deleted, but is only out of reach. -/
def outage? (dispatch : Dispatch) : Option Snowflake := do
  let fields ← dispatch.fieldsAs? .guildDelete
  if Update.saysUnavailable fields then fields.relationId "id" else none

/-- Whether the value of an update says that a guild cannot be reached. -/
def saysUnavailable (dispatch : Dispatch) : Bool := dispatch.data.fields?.any Update.saysUnavailable

end Dispatch

/-- All events that an update led to, the one that waits for a gate last. -/
def Outcome.produced (outcome : Outcome) : List Event :=
  outcome.events ++ outcome.deferred.toList.map Deferred.event

/-- What an update reported of a guild. -/
structure Standing where
  unavailable : Bool
  /-- Whether the guild had a record right afterwards. -/
  known : Bool
  deriving Repr, DecidableEq

/-- A guild that is known and was out of reach when it was last heard of. -/
def Standing.outOfReach (standing : Standing) : Bool := standing.unavailable && standing.known

namespace Cache

/-- What an update reports of a guild, unless it is refused. -/
def standing? (cache : Cache) (guild : Snowflake) (dispatch : Dispatch) : Option Standing :=
  if dispatch.reported? = some guild ∧ (cache.apply dispatch).1.isOk then
    some ⟨dispatch.saysUnavailable, ((cache.apply dispatch).2.store.guild? guild).isSome⟩
  else none

/-- The most recent report of a guild among updates that are applied in turn. -/
def lastStanding? (cache : Cache) (guild : Snowflake) : List Dispatch → Option Standing
  | [] => none
  | dispatch :: rest =>
    ((cache.apply dispatch).2.lastStanding? guild rest).or (cache.standing? guild dispatch)

end Cache

end GatewayCache
