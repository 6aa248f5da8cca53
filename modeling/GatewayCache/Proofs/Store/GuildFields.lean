import GatewayCache.Proofs.Store.Eviction
import GatewayCache.Proofs.Store.Frame
import GatewayCache.Proofs.Store.GuildList

/-! # Fields of guild records

The record of a guild is merged with payloads of the guild, and its lists are edited
by updates about much else. A field that is no list has to be followed only through
the former.
-/

namespace GatewayCache.Store

variable {before middle after store : Store} {guild other : Snowflake} {field list : String}

/-- The value of a field in the record of a guild. -/
def guildField (store : Store) (guild : Snowflake) (field : String) : Option Json :=
  (store.fieldsAt .guild (.global guild)).bind (·.get? field)

/-- A field has the same value in the records of all guilds before and after. -/
def KeepsField (field : String) (before after : Store) : Prop :=
  ∀ guild, after.guildField guild field = before.guildField guild field

namespace KeepsField

theorem refl (field : String) (store : Store) : KeepsField field store store := fun _ => rfl

theorem trans (first : KeepsField field before middle) (second : KeepsField field middle after) :
    KeepsField field before after := fun guild => (second guild).trans (first guild)

theorem of_keeps (keeps : Keeps (fun kind _ => kind = .guild) before after) :
    KeepsField field before after := by
  intro guild
  rw [guildField, keeps .guild (.global guild) rfl, guildField]

theorem setList (apart : field ≠ list) (store : Store) (ids : List Snowflake) :
    KeepsField field store (store.setList guild list ids) := by
  intro other
  cases present : (store.guild? guild).isSome with
  | false => rw [setList_of_absent present]
  | true =>
    rw [setList_of_present present, guildField, fieldsAt_write, guildField]
    split
    · next here =>
      rw [guild?_isSome, Option.isSome_iff_exists] at present
      obtain ⟨fields, found⟩ := present
      obtain rfl : guild = other := Key.global.inj (Prod.mk.inj here).2
      have absent : Fields.get? [(list, .arr (ids.map Snowflake.toJson))] field = none := by
        rw [Fields.get?_cons, if_neg apart]
        rfl
      simp only [found, onto, Option.elim_some, Option.bind_some]
      exact Fields.get?_merge_of_none (entry_ordered list ids) absent fields
    · rfl

theorem link (apart : field ≠ list) (store : Store) (id : Snowflake) :
    KeepsField field store (store.link guild list id) := by
  by_cases listed : id ∈ store.listed guild list
  · rw [link_of_listed listed]
    exact refl field store
  · rw [link_of_not_listed listed]
    exact setList apart store _

theorem unlink (apart : field ≠ list) (store : Store) (id : Snowflake) :
    KeepsField field store (store.unlink guild list id) := by
  by_cases listed : id ∈ store.listed guild list
  · rw [unlink_of_listed listed]
    exact setList apart store _
  · rw [unlink_of_not_listed listed]
    exact refl field store

end KeepsField

theorem guildField_write {fields : Fields} (ordered : fields.ordered) (store : Store)
    (other guild : Snowflake) (field : String) :
    (store.write .guild (.global other) fields).guildField guild field =
      if other = guild then
        (fields.get? field).elim (store.guildField guild field)
          (fun new => some (Json.laid (store.guildField guild field) new))
      else store.guildField guild field := by
  rw [guildField, fieldsAt_write]
  by_cases same : other = guild
  · subst same
    simp only [if_true, Option.bind_some, guildField]
    cases store.fieldsAt .guild (.global other) with
    | none => cases found : fields.get? field <;> simp [onto, Json.laid, found]
    | some old => simp [onto, Fields.get?_merge ordered]
  · simp [same, guildField]

theorem guildField_place {split : Split} (kind : split.root.kind = .guild)
    (key : split.root.key = .global split.root.id) (ordered : split.root.fields.ordered)
    (embedded : ∀ record ∈ split.embedded, record.kind ≠ .guild) (config : Config) (store : Store)
    (guild : Snowflake) (field : String) :
    (store.place config split).2.guildField guild field =
      if split.root.id = guild then
        (split.root.fields.get? field).elim (store.guildField guild field)
          (fun new => some (Json.laid (store.guildField guild field) new))
      else store.guildField guild field := by
  have keeps : KeepsField field store (writeAll config store split.embedded) :=
    .of_keeps (keeps_writeAll config embedded store)
  have stored : config.stores split.root.kind := by rw [kind]; rfl
  rw [place_snd, Split.records, writeAll_append, writeAll_singleton, if_pos stored, writeRecord, kind,
    key, guildField_write ordered, keeps guild]

theorem guildField_evict (store : Store) :
    (store.evict other).2.guildField guild field =
      if guild = other then none else store.guildField guild field := by
  rw [guildField, fieldsAt_guild_evict]
  split <;> rfl

end GatewayCache.Store
