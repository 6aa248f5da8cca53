import GatewayCache.Proofs.Cache.Redelivery
import GatewayCache.Proofs.Store.Eviction
import GatewayCache.Proofs.Update.Payloads

/-! # Edits of the store

An update changes the store in three ways only: it writes the records taken from it,
amends the record of a guild that is known, and drops records. What each of them keeps
is kept by every update.
-/

namespace GatewayCache

open Store

namespace Store

/-- Edits that write some records, and drop the records of some guilds besides any of other kinds. -/
inductive Edits (written : Record → Prop) (left : Snowflake → Prop) : Store → Store → Prop
  | refl (store : Store) : Edits written left store store
  | trans {before middle after : Store} (first : Edits written left before middle)
    (second : Edits written left middle after) : Edits written left before after
  | write {record : Record} (allowed : written record) (store : Store) :
    Edits written left store (store.writeRecord record)
  /-- Fields other than the id are laid over the record of a guild. -/
  | amend {store : Store} {guild : Snowflake} {fields : Fields}
    (known : (store.guild? guild).isSome) (ordered : fields.ordered)
    (keepsId : fields.get? "id" = none) :
    Edits written left store (store.write .guild (.global guild) fields)
  | drop {before after : Store}
    (fewer : ∀ kind place, after.fieldsAt kind place = before.fieldsAt kind place ∨
      after.fieldsAt kind place = none)
    (guilds : ∀ guild, ¬ left guild →
      after.fieldsAt .guild (.global guild) = before.fieldsAt .guild (.global guild)) :
    Edits written left before after

namespace Edits

variable {written : Record → Prop} {left : Snowflake → Prop} {before after store : Store}
  {guild : Snowflake} {field : String} {id : Snowflake}

theorem writeAll (config : Config) {records : List Record}
    (allowed : ∀ record ∈ records, written record) (store : Store) :
    Edits written left store (store.writeAll config records) := by
  induction records generalizing store with
  | nil => exact .refl store
  | cons record rest ih =>
    have later := fun store => ih (fun other member => allowed other (by simp [member])) store
    rw [← List.singleton_append, writeAll_append, writeAll_singleton]
    split
    · exact (Edits.write (allowed record (by simp)) store).trans (later _)
    · exact later store

theorem place (config : Config) {split : Split} (allowed : ∀ record ∈ split.records, written record)
    (store : Store) : Edits written left store (store.place config split).2 := by
  rw [place_snd]
  exact writeAll config allowed store

theorem placeAll (config : Config) {splits : List Split}
    (allowed : ∀ record ∈ splits.flatMap Split.records, written record) (store : Store) :
    Edits written left store (store.placeAll config splits).2 := by
  rw [placeAll_snd]
  exact writeAll config allowed store

theorem setList (notId : field ≠ "id") (store : Store) (ids : List Snowflake) :
    Edits written left store (store.setList guild field ids) := by
  unfold Store.setList
  split
  · next known =>
    refine .amend known (entry_ordered field ids) ?_
    rw [Fields.get?_cons, if_neg notId.symm]
    rfl
  · exact .refl store

theorem link (notId : field ≠ "id") (store : Store) :
    Edits written left store (store.link guild field id) := by
  unfold Store.link
  simp only
  split
  · exact .refl store
  · exact setList notId store _

theorem unlink (notId : field ≠ "id") (store : Store) :
    Edits written left store (store.unlink guild field id) := by
  unfold Store.unlink
  simp only
  split
  · exact setList notId store _
  · exact .refl store

theorem delete {kind : Kind} (other : kind ≠ .guild) (store : Store) (key : Key) :
    Edits written left store (store.delete kind key).2 := by
  refine .drop (fun kind' place => ?_) fun guild _ => fieldsAt_delete_of_ne other store key _
  unfold Store.delete
  split
  · simp only [fieldsAt_removeAt]
    split
    · exact .inr rfl
    · exact .inl rfl
  · exact .inl rfl

theorem deletes {kind : Kind} (other : kind ≠ .guild) (keyOf : Snowflake → Key)
    (ids : List Snowflake) (store : Store) :
    Edits written left store
      (ids.foldl (fun store id => (store.delete kind (keyOf id)).2) store) := by
  induction ids generalizing store with
  | nil => exact .refl store
  | cons id rest ih => exact (delete other store (keyOf id)).trans (ih _)

theorem evict (allowed : left guild) (store : Store) :
    Edits written left store (store.evict guild).2 := by
  refine .drop (fun kind place => ?_) fun other stays => ?_
  · rw [fieldsAt_evict]
    cases store.fieldsAt kind place with
    | none => exact .inl rfl
    | some fields =>
      simp only [Option.filter]
      split
      · exact .inl rfl
      · exact .inr rfl
  · have apart : other ≠ guild := fun same => stays (same ▸ allowed)
    rw [fieldsAt_guild_evict, if_neg apart]

end Edits

end Store

namespace Cache

variable {written : Record → Prop} {left : Snowflake → Prop}

theorem listField?_ne {kind : Kind} {field other : String} (listed : kind.listField? = some field)
    (unlisted : other ∉ Kind.all.filterMap Kind.listField?) : field ≠ other := by
  rintro rfl
  have known : kind ∈ Kind.all := by cases kind <;> decide
  exact unlisted (List.mem_filterMap.mpr ⟨kind, known, listed⟩)

theorem linked_edits (cache : Cache) (owner : Option Snowflake) (kind : Kind) (id : Snowflake) :
    Edits written left cache.store (cache.linked owner kind id).store := by
  unfold linked
  split
  · next listed => exact Edits.link (listField?_ne listed (by decide)) cache.store
  · exact .refl cache.store

theorem unlinked_edits (cache : Cache) (owner : Option Snowflake) (kind : Kind) (id : Snowflake) :
    Edits written left cache.store (cache.unlinked owner kind id).store := by
  unfold unlinked
  split
  · next listed => exact Edits.unlink (listField?_ne listed (by decide)) cache.store
  · exact .refl cache.store

/-- An update writes its own records, and drops the record of a guild only where that is left. -/
theorem perform_edits {update : Update} (keepsGuilds : ∀ key owner, update ≠ .removed .guild key owner)
    (cache : Cache) :
    Edits (· ∈ update.records) (update = .guildLeft ·) cache.store (cache.perform update).1.store := by
  have placed : ∀ split, update.splits = [split] →
      Edits (· ∈ update.records) (update = .guildLeft ·) cache.store
        (cache.store.place cache.config split).2 := by
    intro split one
    refine Edits.place cache.config (fun record member => ?_) cache.store
    simpa [Update.records, one] using member
  have listed : Edits (· ∈ update.records) (update = .guildLeft ·) cache.store
      (cache.store.placeAll cache.config update.splits).2 :=
    Edits.placeAll cache.config (fun _ member => member) cache.store
  cases update with
  | guildAvailable split =>
    simp only [perform, guildAvailable_store]
    exact placed split rfl
  | guildPending split | guildChanged split | banAdded guild split | banLifted guild split
  | integrationAdded split | integrationChanged split | changed split | voiceChanged split =>
    exact placed split rfl
  | guildOutage guild =>
    simp only [perform, guildOutage]
    split
    · next known => exact .amend known (by decide) (by decide)
    · exact .refl cache.store
  | guildLeft guild =>
    have own : Update.guildLeft guild = .guildLeft guild := rfl
    exact Edits.evict own cache.store
  | emojisReplaced guild emojis =>
    refine listed.trans (Edits.trans ?_ (Edits.setList (by decide) _ _))
    exact Edits.deletes (by decide) (.scoped guild) _ _
  | stickersReplaced guild stickers =>
    refine listed.trans (Edits.trans ?_ (Edits.setList (by decide) _ _))
    exact Edits.deletes (by decide) .global _ _
  | membersListed guild members last => cases last <;> exact listed
  | roleAdded guild split | roleChanged guild split | added split =>
    exact (placed split rfl).trans (linked_edits (cache.placed split).2 _ _ _)
  | removed kind key owner =>
    have other : kind ≠ .guild := fun same => keepsGuilds key owner (same ▸ rfl)
    exact (unlinked_edits cache owner kind key.id).trans (Edits.delete other _ key)
  | integrationRemoved guild id application =>
    have other : Kind.integration ≠ .guild := by decide
    exact Edits.delete other cache.store (.global id)
  | webhooksChanged guild channel => exact .refl cache.store

theorem apply_edits (cache : Cache) (dispatch : Dispatch) :
    (cache.apply dispatch).2.store = cache.store ∨
      ∃ kind update, UpdateKind.ofName? dispatch.name = some kind ∧
        Update.read kind dispatch.data = .ok update ∧
        Edits (· ∈ update.records) (update = .guildLeft ·) cache.store
          (cache.apply dispatch).2.store := by
  rw [apply_eq]
  cases known : UpdateKind.ofName? dispatch.name with
  | none => exact .inl rfl
  | some kind =>
    cases reads : Update.read kind dispatch.data with
    | error error => exact .inl (by simp only [reads])
    | ok update =>
      refine .inr ⟨kind, update, rfl, reads, ?_⟩
      simp only [reads]
      exact perform_edits (Update.read_drawn kind dispatch.data update reads).keepsGuilds cache

end Cache

end GatewayCache
