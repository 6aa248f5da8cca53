import GatewayCache.Fetch

/-! # Calls of an origin

What an origin is asked shows neither in what is fetched nor, in general, in the state of
the origin. So it is noted beside the state.
-/

namespace GatewayCache

namespace Origin

variable {σ : Type}

/-- Every call is answered. -/
def Answers (origin : Origin σ) : Prop := ∀ reference state, (origin reference state).1 ≠ .hanging

/-- The origin with what it is asked noted beside its state, in order. -/
def noting (origin : Origin σ) : Origin (σ × List Reference) := fun reference (state, calls) =>
  let (reply, state) := origin reference state
  (reply, state, calls.concat reference)

end Origin

/-- What an origin may be expected to answer: a payload of the entity asked for, which names no guild
other than that of the key. -/
structure Reference.Fits (reference : Reference) (payload : Json) : Prop where
  /-- It tells the id that was asked for. -/
  identified : ∃ fields : Fields, payload = .obj fields ∧ reference.kind.identify fields = .ok reference.key.id
  /-- It may leave its guild open. -/
  within : ∀ fields : Fields, payload = .obj fields → ∀ guild ∈ reference.key.guild?,
    ∀ other ∈ fields.relationId "guild_id", other = guild

namespace Fetched

def record? : Fetched → Option Record
  | .record found => some found
  | .error _ | .hanging => none

/-- Whether there is no error but that the origin does not know the entity. -/
def isSettled : Fetched → Bool
  | .record _ | .error (.notFound _ _) => true
  | .error _ | .hanging => false

/-- Records by their own ids, laid over others; of several with one id the last stays. -/
def collect (records : Std.ExtTreeMap Snowflake Record) (fetched : List Fetched) :
    Std.ExtTreeMap Snowflake Record :=
  (fetched.filterMap record?).foldl (fun records found => records.insert found.id found) records

end Fetched

end GatewayCache
