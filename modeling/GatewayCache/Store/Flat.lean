import GatewayCache.Store

/-! # The store as one flat map

What the store is for its users: a finite map from a kind, a guild where the kind
lives in one, and an id to fields. Shelves and the shape of keys do not show. Both
are driven by the same operations and give the same sort of answers.
-/

namespace GatewayCache

/-- The place of a record in one flat map. -/
structure Place where
  kind : Kind
  /-- The guild that the record lives in, if its kind does. -/
  guild? : Option Snowflake
  id : Snowflake
  deriving Repr, DecidableEq

namespace Place

instance : Ord Place :=
  ⟨compareLex (compareOn kind) (compareLex (compareOn guild?) (compareOn id))⟩

instance : Std.TransOrd Place :=
  inferInstanceAs (Std.TransCmp
    (compareLex (compareOn kind) (compareLex (compareOn guild?) (compareOn id))))

instance : Std.LawfulEqOrd Place where
  eq_of_compare {a b} same := by
    have all : (compare a.kind b.kind).then
        ((compare a.guild? b.guild?).then (compare a.id b.id)) = .eq := same
    rw [Ordering.then_eq_eq, Ordering.then_eq_eq] at all
    have kinds := Std.LawfulEqOrd.eq_of_compare all.1
    have guilds := Std.LawfulEqOrd.eq_of_compare all.2.1
    have ids := Std.LawfulEqOrd.eq_of_compare all.2.2
    cases a; cases b; simp_all

def key (place : Place) : Key := Key.within place.guild? place.id

/-- The place that a key of a kind names. The guild of a key does not matter for a kind that lives in
none, and a kind that lives in one has no place without it. -/
def of? (kind : Kind) (key : Key) : Option Place :=
  if kind.isScoped then key.guild?.map (fun guild => ⟨kind, some guild, key.id⟩)
  else some ⟨kind, none, key.id⟩

end Place

abbrev Flat := Std.ExtTreeMap Place Fields

namespace Flat

def recordAt (flat : Flat) (place : Place) : Option Record :=
  (flat[place]?).map (fun fields => ⟨place.kind, place.key, fields⟩)

/-- The ids of one kind, within one guild or none, ascending. -/
def ids (flat : Flat) (kind : Kind) (guild : Option Snowflake) : List Snowflake :=
  (flat.keys.filter (fun place => place.kind = kind && place.guild? = guild)).map Place.id

/-- The number of records of a kind. -/
def count (flat : Flat) (kind : Kind) : Nat :=
  (flat.filter (fun place _ => place.kind = kind)).size

/-- Lays fields over the record that a key names, or starts it. -/
def put (flat : Flat) (kind : Kind) (key : Key) (fields : Fields) : Except CacheError Change × Flat :=
  match Place.of? kind key with
  | none => (.error (.missingGuild kind), flat)
  | some place =>
    let after := (flat[place]?).elim fields (fun before => before.merge fields)
    (.ok ⟨flat.recordAt place, ⟨kind, place.key, after⟩⟩, flat.insert place after)

/-- Removes the record that a key names, and gives it. -/
def delete (flat : Flat) (kind : Kind) (key : Key) : Option Record × Flat :=
  match Place.of? kind key with
  | none => (none, flat)
  | some place => (flat.recordAt place, flat.erase place)

/-- Removes a guild's record and every record in the guild, and gives the former. -/
def deleteGuild (flat : Flat) (guild : Snowflake) : Option Record × Flat :=
  (flat.recordAt ⟨.guild, none, guild⟩,
    flat.filter (fun place _ => place != ⟨.guild, none, guild⟩ && place.guild? != some guild))

/-- Whether a record is of a kind, lives in no guild and names one as its own. -/
def names (kind : Kind) (guild : Snowflake) (place : Place) (fields : Fields) : Bool :=
  place.kind = kind && place.guild?.isNone && fields.relationId "guild_id" == some guild

/-- Removes every record of a kind that names a guild, and gives their number. -/
def deleteByGuild (flat : Flat) (kind : Kind) (guild : Snowflake) : Nat × Flat :=
  ((flat.filter (names kind guild)).size,
    flat.filter (fun place fields => !names kind guild place fields))

end Flat

/-- An operation that changes a store. -/
inductive Operation where
  /-- Lays fields over a record, or starts it. -/
  | put (kind : Kind) (key : Key) (fields : Fields)
  | delete (kind : Kind) (key : Key)
  /-- Removes a guild with all that lives in it. -/
  | deleteGuild (guild : Snowflake)
  /-- Removes the records of a kind that name a guild. -/
  | deleteByGuild (kind : Kind) (guild : Snowflake)
  | clear
  deriving Repr, DecidableEq

/-- What an operation answers. -/
inductive Answer where
  /-- The change that was made, or why there was none. -/
  | put (result : Except CacheError Change)
  | removed (record : Option Record)
  | counted (number : Nat)
  /-- Nothing to tell. -/
  | done

/-- An operation on the store; one that is refused changes nothing. -/
def Store.operate (store : Store) : Operation → Answer × Store
  | .put kind key fields =>
    match store.put kind key fields with
    | .ok (change, store) => (.put (.ok change), store)
    | .error error => (.put (.error error), store)
  | .delete kind key => ((.removed (store.delete kind key).1), (store.delete kind key).2)
  | .deleteGuild guild => (.removed (store.deleteGuild guild).1, (store.deleteGuild guild).2)
  | .deleteByGuild kind guild =>
    (.counted (store.deleteByGuild kind guild).1, (store.deleteByGuild kind guild).2)
  | .clear => (.done, store.clear)

def Flat.operate (flat : Flat) : Operation → Answer × Flat
  | .put kind key fields => (.put (flat.put kind key fields).1, (flat.put kind key fields).2)
  | .delete kind key => (.removed (flat.delete kind key).1, (flat.delete kind key).2)
  | .deleteGuild guild => (.removed (flat.deleteGuild guild).1, (flat.deleteGuild guild).2)
  | .deleteByGuild kind guild =>
    (.counted (flat.deleteByGuild kind guild).1, (flat.deleteByGuild kind guild).2)
  | .clear => (.done, ∅)

/-- Operations on the store in turn, with their answers. -/
def Store.operateAll (store : Store) : List Operation → List Answer × Store
  | [] => ([], store)
  | operation :: rest =>
    let (answer, store) := store.operate operation
    let (answers, store) := store.operateAll rest
    (answer :: answers, store)

/-- Operations on a flat map in turn, with their answers. -/
def Flat.operateAll (flat : Flat) : List Operation → List Answer × Flat
  | [] => ([], flat)
  | operation :: rest =>
    let (answer, flat) := flat.operate operation
    let (answers, flat) := Flat.operateAll flat rest
    (answer :: answers, flat)

end GatewayCache
