import GatewayCache.Config
import GatewayCache.Split
import GatewayCache.Store

/-! # Placement

Writing a split payload into the store: the records of kinds that are stored, in
their order, the record of the payload itself last.
-/

namespace GatewayCache

namespace Store

/-- Writes a record that carries its own address. -/
def writeRecord (store : Store) (record : Record) : Store :=
  store.write record.kind record.key record.fields

/-- Writes those records whose kinds are stored, in turn. -/
def writeAll (config : Config) (store : Store) (records : List Record) : Store :=
  (records.filter (fun record => config.stores record.kind)).foldl writeRecord store

/-- Writes the embedded records of a split payload. -/
def placeEmbedded (config : Config) (store : Store) (split : Split) : Store :=
  writeAll config store split.embedded

/-- Writes a record, or leaves the store alone where its kind is not stored. -/
def placeRoot (config : Config) (store : Store) (root : Record) : Change × Store :=
  if config.stores root.kind then
    (store.changeBy root.kind root.key root.fields, store.writeRecord root)
  else (⟨none, root⟩, store)

/-- Writes a split payload, and gives the change to its root. -/
def place (config : Config) (store : Store) (split : Split) : Change × Store :=
  placeRoot config (placeEmbedded config store split) split.root

/-- Writes split payloads in turn, and gives the change to each root. -/
def placeAll (config : Config) (store : Store) : List Split → List Change × Store
  | [] => ([], store)
  | split :: rest =>
    let (change, store) := place config store split
    let (changes, store) := placeAll config store rest
    (change :: changes, store)

end Store

end GatewayCache
