import GatewayCache.Intake
import GatewayCache.Reference

/-! # Fetching

What is not stored can be fetched from an origin, which is asked for one entity at
a time and may answer differently each time. A fetched payload is placed in the
store like any other; a failed fetch leaves no trace there.
-/

namespace GatewayCache

/-- What an origin answers. -/
inductive Reply where
  | payload (value : Json)
  | missing
  | failure (text : String)
  | hanging
  deriving Repr, DecidableEq

/-- An origin with a state of its own. -/
abbrev Origin (σ : Type) := Reference → σ → Reply × σ

/-- How a fetch ends. -/
inductive Fetched where
  | record (record : Record)
  | error (error : FetchError)
  | hanging
  deriving Repr, DecidableEq

/-- Places a fetched payload; a key inside a guild tells the guild. -/
def Store.placeFetched (config : Config) (store : Store) (reference : Reference) (payload : Json) :
    Fetched × Store :=
  match (Intake.place config reference.kind reference.key.guild? payload).on store with
  | (.error cause, store) => (.error (.unplaceable reference.kind cause), store)
  | (.ok change, store) => (.record change.after, store)

namespace Reference

variable {σ : Type} (origin : Origin σ) (config : Config)

/-- The stored record, or else what one call of the origin brings. -/
def fetch (reference : Reference) (store : Store) (state : σ) : Fetched × Store × σ :=
  match reference.find? store with
  | some record => (.record record, store, state)
  | none =>
    match origin reference state with
    | (.payload value, state) =>
      let (fetched, store) := store.placeFetched config reference value
      (fetched, store, state)
    | (.missing, state) => (.error (.notFound reference.kind reference.key.id), store, state)
    | (.failure text, state) => (.error (.origin text), store, state)
    | (.hanging, state) => (.hanging, store, state)

end Reference

/-- How fetching a whole list ends. -/
inductive FetchedAll where
  | records (records : Std.ExtTreeMap Snowflake Record)
  | error (error : FetchError)
  | hanging

namespace References

variable {σ : Type} (origin : Origin σ) (config : Config)

/-- Fetches references in turn up to the first that hangs, and gives what each came to. -/
def streamFrom : List Reference → Store → σ → List Fetched × Store × σ
  | [], store, state => ([], store, state)
  | reference :: rest, store, state =>
    match reference.fetch origin config store state with
    | (.hanging, store, state) => ([.hanging], store, state)
    | (fetched, store, state) =>
      let (more, store, state) := streamFrom rest store state
      (fetched :: more, store, state)

def stream (references : References) (store : Store) (state : σ) : List Fetched × Store × σ :=
  streamFrom origin config references.each store state

/-- Fetches references at once, each as far as it goes, adding to the records so far. What the origin
does not know is left out, and one that hangs holds up the answer only. Another error ends it, but
where answers are taken in order, one behind a hanging fetch is not seen. -/
def fetchFrom (inOrder : Bool) (records : Std.ExtTreeMap Snowflake Record) (hangs : Bool) :
    List Reference → Store → σ → FetchedAll × Store × σ
  | [], store, state => (if hangs then .hanging else .records records, store, state)
  | reference :: rest, store, state =>
    match reference.fetch origin config store state with
    | (.record record, store, state) =>
      fetchFrom inOrder (records.insert record.id record) hangs rest store state
    | (.error (.notFound _ _), store, state) => fetchFrom inOrder records hangs rest store state
    | (.error error, store, state) =>
      if inOrder && hangs then fetchFrom inOrder records hangs rest store state
      else (.error error, store, state)
    | (.hanging, store, state) => fetchFrom inOrder records true rest store state

/-- The number of fetches whose answers are taken as they come; those of more are taken in order. -/
def attended : Nat := 30

def fetchAll (references : References) (store : Store) (state : σ) : FetchedAll × Store × σ :=
  fetchFrom origin config (attended < references.keys.length) ∅ false references.each store state

end References

end GatewayCache
