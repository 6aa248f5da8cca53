import GatewayCache.Proofs.Cache.Removal
import GatewayCache.Proofs.Store.GuildFields

/-! # Edited lists

An edit of a list in the record of a guild is all that happens to the records of
guilds: no other field of that record changes, no other record, and none is made.
-/

namespace GatewayCache.Store

variable {before middle after store : Store} {guild id : Snowflake} {field : String}
  {ids : List Snowflake}

/-- Of the records of guilds, one list in that of a guild was edited, if there is one. -/
structure ListEdited (field : String) (guild : Snowflake) (ids : List Snowflake)
    (before after : Store) : Prop where
  /-- The guild has a record if it had one. -/
  known : (after.guild? guild).isSome = (before.guild? guild).isSome
  /-- Its record lists the ids. -/
  listed : (before.guild? guild).isSome → after.listed guild field = ids
  /-- All other fields of its record are as they were. -/
  fields : ∀ other, other ≠ field → after.guildField guild other = before.guildField guild other
  /-- The records of all other guilds are as they were. -/
  elsewhere : ∀ other, other ≠ guild → after.guild? other = before.guild? other

/-- The records of guilds are the same before and after. -/
abbrev KeepsGuilds (before after : Store) : Prop := Keeps (fun kind _ => kind = .guild) before after

theorem KeepsGuilds.guild? (keeps : KeepsGuilds before after) (guild : Snowflake) :
    after.guild? guild = before.guild? guild := by
  rw [Store.guild?, recordAt, keeps .guild (.global guild) rfl]
  rfl

theorem KeepsGuilds.listed (keeps : KeepsGuilds before after) :
    after.listed guild field = before.listed guild field := by
  rw [Store.listed, keeps.guild?]
  rfl

theorem KeepsGuilds.guildField (keeps : KeepsGuilds before after) :
    after.guildField guild field = before.guildField guild field :=
  KeepsField.of_keeps keeps guild

namespace ListEdited

theorem of_keeps (keeps : KeepsGuilds before after) :
    ListEdited field guild (before.listed guild field) before after where
  known := by rw [keeps.guild?]
  listed _ := keeps.listed
  fields _ _ := keeps.guildField
  elsewhere other _ := keeps.guild? other

/-- What leaves the records of guilds alone may come before and after an edit. -/
theorem between {first last : Store} (earlier : KeepsGuilds first before)
    (edited : ListEdited field guild ids before after) (later : KeepsGuilds after last) :
    ListEdited field guild ids first last where
  known := by rw [later.guild?, edited.known, earlier.guild?]
  listed known := by
    rw [← earlier.guild?] at known
    rw [later.listed, edited.listed known]
  fields other apart := by rw [later.guildField, edited.fields other apart, earlier.guildField]
  elsewhere other apart := by rw [later.guild?, edited.elsewhere other apart, earlier.guild?]

theorem setList (store : Store) : ListEdited field guild ids store (store.setList guild field ids) where
  known := guild?_isSome_setList
  listed known := by rw [listed_setList, if_pos known]
  fields _ apart := KeepsField.setList apart store ids guild
  elsewhere other apart := by
    have keeps : Keeps (fun kind place => kind = .guild ∧ place ≠ .global guild) store
        (store.setList guild field ids) := keeps_setList (by simp) store field ids
    have same := keeps .guild (.global other) ⟨rfl, by simpa using apart⟩
    rw [guild?, recordAt, same, guild?, recordAt]

theorem link (store : Store) :
    ListEdited field guild
      (if id ∈ store.listed guild field then store.listed guild field
        else store.listed guild field ++ [id]) store (store.link guild field id) := by
  by_cases here : id ∈ store.listed guild field
  · rw [if_pos here, link_of_listed here]
    exact of_keeps (.refl _ store)
  · rw [if_neg here, link_of_not_listed here]
    exact setList store

theorem unlink (store : Store) :
    ListEdited field guild ((store.listed guild field).filter (· != id)) store
      (store.unlink guild field id) := by
  by_cases here : id ∈ store.listed guild field
  · rw [unlink_of_listed here]
    exact setList store
  · have same : (store.listed guild field).filter (· != id) = store.listed guild field := by
      rw [← listed_unlink, unlink_of_not_listed here]
    rw [same, unlink_of_not_listed here]
    exact of_keeps (.refl _ store)

end ListEdited

theorem guildField_setList (known : (store.guild? guild).isSome) :
    (store.setList guild field ids).guildField guild field =
      some (.arr (ids.map Snowflake.toJson)) := by
  have single : Fields.get? [(field, .arr (ids.map Snowflake.toJson))] field =
      some (.arr (ids.map Snowflake.toJson)) := by
    rw [Fields.get?_cons, if_pos rfl]
  rw [setList_of_present known, guildField_write (entry_ordered field ids), if_pos rfl, single,
    Option.elim_some, Json.laid_of_not_object _ rfl]

end GatewayCache.Store
