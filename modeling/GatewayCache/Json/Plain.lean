import GatewayCache.Json.Basic

/-! # Nesting and floats

What may stand in the way of a value on its way through a text: it may be nested too deep to
be read, and it may hold floats, whose shortest digits are a matter of their own.
-/

namespace GatewayCache

mutual

/-- How deep arrays and objects are nested in a value. -/
def Json.depth : Json → Nat
  | .arr items => itemsDepth items + 1
  | .obj fields => fieldsDepth fields + 1
  | _ => 0
termination_by structural value => value

/-- The greatest depth among items. -/
def itemsDepth : List Json → Nat
  | [] => 0
  | item :: rest => max item.depth (itemsDepth rest)
termination_by structural items => items

/-- The greatest depth among the values of fields. -/
def fieldsDepth : List (String × Json) → Nat
  | [] => 0
  | (_, value) :: rest => max value.depth (fieldsDepth rest)
termination_by structural fields => fields

end

mutual

/-- Whether all numbers in a value are integers. -/
def Json.floatFree : Json → Bool
  | .num number => number.int?.isSome
  | .arr items => itemsFloatFree items
  | .obj fields => fieldsFloatFree fields
  | _ => true
termination_by structural value => value

/-- Whether all numbers in items are integers. -/
def itemsFloatFree : List Json → Bool
  | [] => true
  | item :: rest => item.floatFree && itemsFloatFree rest
termination_by structural items => items

/-- Whether all numbers in the values of fields are integers. -/
def fieldsFloatFree : List (String × Json) → Bool
  | [] => true
  | (_, value) :: rest => value.floatFree && fieldsFloatFree rest
termination_by structural fields => fields

end

end GatewayCache
