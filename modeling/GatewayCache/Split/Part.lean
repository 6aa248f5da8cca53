import GatewayCache.Split

/-! # Parts of a payload

A payload holds objects that are taken apart on their own and hold others in turn.
Each of them is a part of the payload: an object with the kind it is stored as, and
the place where it was found.
-/

namespace GatewayCache

/-- The objects that a relation leads to, each with the member data handed to it. -/
def Split.Remainder.objects (rest : Split.Remainder) (relation : Relation) :
    List (Option Json × Fields) :=
  match relation.shape, rest.fields.get? relation.field with
  | .one, some (.obj object) => [((rest.handOver relation).1, object)]
  | .many, some (.arr items) => (items.filterMap Json.fields?).map (none, ·)
  | _, _ => []

/-- An object to take apart. -/
structure Part where
  kind : Kind
  context : Split.Context
  payload : Fields
  deriving Repr, DecidableEq

namespace Part

def split (part : Part) : Except CacheError Split :=
  Split.nested Split.maxLevels part.kind part.context part.payload

/-- The records that the part comes to, none if it cannot stand alone. -/
def records (part : Part) : List Record := part.split.toOption.elim [] Split.records

/-- The record of the part itself. -/
def root? (part : Part) : Option Record := part.split.toOption.map Split.root

/-- The guild that the part belongs to, once it has an id. -/
def guild? (part : Part) : Option Snowflake :=
  (part.kind.identify part.payload).toOption.bind fun id =>
    Split.guildOf part.kind id part.payload part.context.guild

/-- An embedded object and the member data handed to it, as what they are stored as. -/
def ofObject (context : Split.Context) (target : Target) (object : Option Json × Fields) : Part :=
  let (kind, payload) := Split.promote target context.guild object.1 object.2
  ⟨kind, context, payload⟩

/-- The relations that are followed from the part. -/
def relations (part : Part) : List Relation :=
  part.kind.relations.filter (fun relation => !Split.leadsBack relation part.context.parent)

/-- The parts that one relation leads to. -/
def heldBy (part : Part) (relation : Relation) : List Part :=
  ((Split.entering part.kind part.guild? part.payload).objects relation).map
    (ofObject ⟨part.guild?, some part.kind⟩ relation.target)

/-- The objects embedded in the field of a relation. -/
def objectsAt (part : Part) (relation : Relation) : List Fields :=
  match relation.shape, part.payload.get? relation.field with
  | .one, some (.obj object) => [object]
  | .many, some (.arr items) => items.filterMap Json.fields?
  | _, _ => []

/-- An object embedded in the field of a relation, as what it is stored as. -/
def heldAt (part : Part) (relation : Relation) (object : Fields) : Part :=
  ofObject ⟨part.guild?, some part.kind⟩ relation.target
    (((Split.entering part.kind part.guild? part.payload).handOver relation).1, object)

/-- The parts embedded right in the part, in the order in which they are found. -/
def held (part : Part) : List Part := part.relations.flatMap part.heldBy

/-- A part of a whole: the whole itself, or what another part of it holds. -/
inductive Within (whole : Part) : Part → Prop
  | self : Within whole whole
  | deeper {outer inner : Part} (within : Within whole outer) (held : inner ∈ outer.held) :
    Within whole inner

end Part

end GatewayCache
