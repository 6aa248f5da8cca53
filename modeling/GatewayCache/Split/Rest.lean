import GatewayCache.Split.People

/-! # What stays of a payload

What is not taken out of a payload stays in its record: fields that no relation is
about, and embedded objects that cannot be records of their own, in the fields where
they were. Whether they stay as they came is another matter, since the payload may
have been changed on the way to being refused.
-/

namespace GatewayCache

namespace Part

/-- What stays of an entry of a relation, given what an object that is no record of its own is kept as. -/
def leftOf? (part : Part) (relation : Relation) (keep : Fields → Fields) : Json → Option Json
  | .obj object =>
    if (part.heldAt relation object).id?.isSome then none else some (.obj (keep object))
  | bare => if (Snowflake.ofJson? bare).isSome then none else some bare

/-- What stays in the field of a relation. A field that is not taken apart stays whole. -/
def stays? (part : Part) (relation : Relation) (keep : Fields → Fields) (value : Json) :
    Option Json :=
  if Split.leadsBack relation part.context.parent then some value
  else
    match relation.shape, value with
    | .one, .obj object => part.leftOf? relation keep (.obj object)
    | .many, .arr items =>
      let left := items.filterMap (part.leftOf? relation keep)
      if left = [] then none else some (.arr left)
    | _, value => some value

/-- Whether the member data of a message is a record, together with the author beside it. -/
def JoinsAuthor (part : Part) : Prop :=
  part.kind = .message ∧ part.guild?.isSome ∧ (part.payload.get? "member").any Json.isObject ∧
    ∃ author, part.payload.get? "author" = some (.obj author) ∧
      (part.heldAt .author author).id?.isSome

/-- Whether no relation of a part's kind is about a field, nor is it the guild's. -/
def IsRest (part : Part) (field : String) : Prop :=
  field ≠ "guild_id" ∧
    ∀ relation ∈ part.kind.relations, field ≠ relation.field ∧ field ≠ relation.idField

/-- A guild that stays as it came, or is added where there was none. -/
def KeepsGuild (part : Part) (fields : Fields) : Prop :=
  fields.get? "guild_id" = part.payload.get? "guild_id" ∨
    part.payload.get? "guild_id" = none ∧ fields.get? "guild_id" = part.guild?.map Snowflake.toJson

/-- A record that keeps all that is not extracted from its payload. -/
structure KeepsRest (part : Part) (fields : Fields) : Prop where
  /-- Every other field is as it came, but for member data that joins the author. -/
  plain : ∀ field, part.IsRest field → (field = "member" → ¬ part.JoinsAuthor) →
    fields.get? field = part.payload.get? field
  /-- The guild is kept. -/
  guild : part.KeepsGuild fields
  /-- In the fields of relations, whatever stays is as it came. -/
  embedded : ∀ relation ∈ part.kind.relations,
    fields.get? relation.field = (part.payload.get? relation.field).bind (part.stays? relation id)

/-- What a record has of its payload besides what is extracted. -/
structure Leaves (part : Part) (fields : Fields) : Prop where
  /-- Every other field is as it came, but for the member data of a message. -/
  plain : ∀ field, part.IsRest field → (part.kind = .message → field ≠ "member") →
    fields.get? field = part.payload.get? field
  /-- In a guild, member data of a message goes with the author, and only an object stays without. -/
  member : part.kind = .message → fields.get? "member" =
    if part.guild? = none then part.payload.get? "member"
    else if (part.payload.get? "author").any Json.isObject then none
    else (part.payload.get? "member").filter Json.isObject
  /-- The guild is kept. -/
  guild : part.KeepsGuild fields
  /-- An embedded object stays as what it would have been stored as. -/
  embedded : ∀ relation ∈ part.kind.relations,
    fields.get? relation.field = (part.payload.get? relation.field).bind
      (part.stays? relation fun object => (part.heldAt relation object).payload)

/-- A message in a guild with a member field that is no object. -/
def DropsMember (part : Part) : Prop :=
  part.kind = .message ∧ part.guild?.isSome ∧
    ∃ value, part.payload.get? "member" = some value ∧ value.isObject = false

/-- A message in a guild with one of its people who has member data, but no id as a member either. -/
def WrapsPerson (part : Part) : Prop :=
  part.kind = .message ∧ part.guild?.isSome ∧
    ∃ relation ∈ Relation.people, ∃ user ∈ part.objectsAt relation,
      (part.memberData? relation user).isSome ∧ (part.heldAt relation user).id? = none

end Part

end GatewayCache
