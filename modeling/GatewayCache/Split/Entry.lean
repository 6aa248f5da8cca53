import GatewayCache.Split.Part

/-! # Entries of lists

An entry of a list that a relation leads to goes to one of two places. A bare id, or
an object that can be a record of its own, is held by its id; all else stays in the
list.
-/

namespace GatewayCache

namespace Part

/-- The id of a part that can be a record of its own: it has one, and a guild where its kind lives in
one. -/
def id? (part : Part) : Option Snowflake :=
  (part.kind.identify part.payload).toOption.filter
    (fun _ => !part.kind.isScoped || part.guild?.isSome)

/-- The key of a part with an id. -/
def keyOf (part : Part) (id : Snowflake) : Key :=
  Key.within (if part.kind.isScoped then part.guild? else none) id

end Part

namespace Split

variable (context : Context) (target : Target)

/-- The id that an entry is held by. -/
def entryId? : Json → Option Snowflake
  | .obj object => (Part.ofObject context target (none, object)).id?
  | bare => Snowflake.ofJson? bare

/-- An entry as it stays in its list; a user with member data stays as the member it would be. -/
def staying : Json → Json
  | .obj object => .obj (Part.ofObject context target (none, object)).payload
  | bare => bare

/-- What stays of an entry: nothing if it is held by an id. -/
def entryLeft? (entry : Json) : Option Json :=
  if (entryId? context target entry).isSome then none else some (staying context target entry)

end Split

end GatewayCache
