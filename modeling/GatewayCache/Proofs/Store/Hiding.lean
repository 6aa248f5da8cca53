import GatewayCache.Proofs.Cache.Replacement

/-! # Records of kinds that are not stored

A store that leaves some kinds of records out goes along with one that has them all.
No change of the other kinds looks at a record that is left out: not the lists of a
guild, not what goes with the guild, and not what is stale.
-/

namespace GatewayCache

/-- Every kind of record is stored. -/
def Config.Full (config : Config) : Prop := ∀ kind, config.stores kind = true

namespace Store

/-- A store shows what is in another, less the kinds that are not stored. -/
def Shows (config : Config) (full shown : Store) : Prop :=
  ∀ kind place, shown.fieldsAt kind place =
    if config.stores kind then full.fieldsAt kind place else none

theorem fieldsAt_deletes_eq {kind : Kind} {keyOf : Snowflake → Key}
    (fit : ∀ id, address? kind (keyOf id) = some (keyOf id)) (ids : List Snowflake) (store : Store)
    (other : Kind) (place : Key) :
    (ids.foldl (fun store id => (store.delete kind (keyOf id)).2) store).fieldsAt other place =
      if ∃ id ∈ ids, (kind, keyOf id) = (other, place) then none
      else store.fieldsAt other place := by
  split
  · next gone =>
    obtain ⟨id, member, ⟨⟩⟩ := gone
    exact fieldsAt_deletes_of_mem fit (.inl member)
  · next spared => exact fieldsAt_deletes fit fun id member same => spared ⟨id, member, same⟩

namespace Shows

variable {config : Config} {full shown : Store} {kind : Kind} {address : Key}

theorem empty (config : Config) : Shows config empty empty := by
  intro kind place
  have nothing : Store.empty.fieldsAt kind place = none := by
    cases place <;> simp [fieldsAt, shelf, Store.empty, Key.guild?]
  rw [nothing, ite_self]

theorem fieldsAt (shows : Shows config full shown) (stored : config.stores kind) :
    shown.fieldsAt kind address = full.fieldsAt kind address := by
  rw [shows, if_pos stored]

theorem recordAt (shows : Shows config full shown) (stored : config.stores kind) :
    shown.recordAt kind address = full.recordAt kind address := by
  rw [Store.recordAt, shows.fieldsAt stored, Store.recordAt]

theorem guild? (shows : Shows config full shown) (guild : Snowflake) :
    shown.guild? guild = full.guild? guild := shows.recordAt rfl

theorem listed (shows : Shows config full shown) (guild : Snowflake) (field : String) :
    shown.listed guild field = full.listed guild field := by
  rw [Store.listed, shows.guild?, Store.listed]

theorem write (shows : Shows config full shown) (stored : config.stores kind) (key : Key)
    (fields : Fields) : Shows config (full.write kind key fields) (shown.write kind key fields) := by
  intro other place
  rw [fieldsAt_write, fieldsAt_write, shows kind key, if_pos stored, shows other place]
  by_cases same : (kind, key) = (other, place)
  · cases same
    rw [if_pos rfl, if_pos rfl, if_pos stored]
  · rw [if_neg same, if_neg same]

/-- Where a kind is not stored, a record of it is written in the full store only. -/
theorem write_hidden (shows : Shows config full shown) (hidden : config.stores kind = false)
    (key : Key) (fields : Fields) : Shows config (full.write kind key fields) shown := by
  intro other place
  rw [fieldsAt_write, shows other place]
  by_cases same : (kind, key) = (other, place)
  · cases same
    simp [hidden]
  · rw [if_neg same]

theorem writeAll (shows : Shows config full shown) {all : Config} (every : all.Full)
    (records : List Record) :
    Shows config (Store.writeAll all full records) (Store.writeAll config shown records) := by
  induction records generalizing full shown with
  | nil => exact shows
  | cons record rest ih =>
    have split : ∀ (config : Config) (store : Store), Store.writeAll config store (record :: rest) =
        Store.writeAll config (Store.writeAll config store [record]) rest :=
      fun config store => writeAll_append config store [record] rest
    rw [split, split, writeAll_singleton, writeAll_singleton, if_pos (every record.kind)]
    cases stored : config.stores record.kind with
    | true => exact ih (shows.write stored record.key record.fields)
    | false => exact ih (shows.write_hidden stored record.key record.fields)

theorem place (shows : Shows config full shown) {all : Config} (every : all.Full) (split : Split) :
    Shows config (full.place all split).2 (shown.place config split).2 := by
  rw [place_snd, place_snd]
  exact shows.writeAll every split.records

theorem placeAll (shows : Shows config full shown) {all : Config} (every : all.Full)
    (splits : List Split) :
    Shows config (full.placeAll all splits).2 (shown.placeAll config splits).2 := by
  rw [placeAll_snd, placeAll_snd]
  exact shows.writeAll every _

theorem after (shows : Shows config full shown) {all : Config} (every : all.Full) {split : Split}
    (stored : config.stores split.root.kind) :
    (shown.place config split).1.after = (full.place all split).1.after := by
  apply Option.some.inj
  rw [place_after_eq, place_after_eq, if_pos stored, if_pos (every _)]
  exact (shows.place every split).recordAt stored

theorem setList (shows : Shows config full shown) (guild : Snowflake) (field : String)
    (ids : List Snowflake) :
    Shows config (full.setList guild field ids) (shown.setList guild field ids) := by
  unfold Store.setList
  rw [shows.guild?]
  split
  · exact shows.write rfl _ _
  · exact shows

theorem link (shows : Shows config full shown) (guild : Snowflake) (field : String)
    (id : Snowflake) : Shows config (full.link guild field id) (shown.link guild field id) := by
  unfold Store.link
  simp only [shows.listed]
  split
  · exact shows
  · exact shows.setList guild field _

theorem unlink (shows : Shows config full shown) (guild : Snowflake) (field : String)
    (id : Snowflake) : Shows config (full.unlink guild field id) (shown.unlink guild field id) := by
  unfold Store.unlink
  simp only [shows.listed]
  split
  · exact shows.setList guild field _
  · exact shows

theorem delete (shows : Shows config full shown) (kind : Kind) (key : Key) :
    Shows config (full.delete kind key).2 (shown.delete kind key).2 := by
  unfold Store.delete
  cases address? kind key with
  | none => exact shows
  | some address =>
    intro other place
    rw [fieldsAt_removeAt, fieldsAt_removeAt, shows other place]
    by_cases same : (kind, address) = (other, place)
    · rw [if_pos same, if_pos same, ite_self]
    · rw [if_neg same, if_neg same]

theorem deletes (shows : Shows config full shown) {keyOf : Snowflake → Key}
    (fit : ∀ id, address? kind (keyOf id) = some (keyOf id)) {first second : List Snowflake}
    (same : config.stores kind → ∀ id, id ∈ first ↔ id ∈ second) :
    Shows config (first.foldl (fun store id => (store.delete kind (keyOf id)).2) full)
      (second.foldl (fun store id => (store.delete kind (keyOf id)).2) shown) := by
  intro other place
  rw [fieldsAt_deletes_eq fit, fieldsAt_deletes_eq fit, shows other place]
  cases stored : config.stores other with
  | false => simp
  | true =>
    have gone : (∃ id ∈ second, (kind, keyOf id) = (other, place)) ↔
        ∃ id ∈ first, (kind, keyOf id) = (other, place) := by
      constructor
      · rintro ⟨id, member, ⟨⟩⟩
        exact ⟨id, (same stored id).mpr member, rfl⟩
      · rintro ⟨id, member, ⟨⟩⟩
        exact ⟨id, (same stored id).mp member, rfl⟩
    simp only [gone, if_true]

theorem evict (shows : Shows config full shown) (guild : Snowflake) :
    Shows config (full.evict guild).2 (shown.evict guild).2 := by
  have goes : shown.goesWith guild = full.goesWith guild := by
    funext slot fields
    simp only [goesWith, shows.listed]
  intro kind place
  rw [fieldsAt_evict, fieldsAt_evict, goes, shows kind place]
  cases config.stores kind <;> rfl

end Shows

end Store

end GatewayCache
