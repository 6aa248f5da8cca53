import GatewayCache.Json.Basic

/-! # Merging

An update is laid over a value: two objects merge field by field, at every depth,
and any other pair gives the update. Fields that the update does not carry stay.
-/

namespace GatewayCache

mutual

def Json.merge (old : Json) : Json → Json
  | .obj update =>
    match old with
    | .obj target => .obj (Fields.merge target update)
    | _ => .obj update
  | new => new
termination_by structural new => new

/-- The fields of an update laid over those of a target, in turn. -/
def Fields.merge (target : Fields) : Fields → Fields
  | [] => target
  | (key, value) :: rest =>
    Fields.merge
      (target.insert key
        (match target.get? key with
        | some old => Json.merge old value
        | none => value))
      rest
termination_by structural update => update

end

end GatewayCache
