import GatewayCache.Proofs.Gate
import GatewayCache.Proofs.Update.Repeatable

/-! # Updates delivered twice

An update that is applied twice in a row leaves the records and the gates as it
left them the first time. Merging is settled by one run of its history, an edited
list holds what the edit was for, and a gate settles once; so all that is left is to
see that no two writes of one update stand in each other's way.
-/

namespace GatewayCache

open Store

namespace Cache

/-- Two caches under one configuration with the same records and the same gates. -/
structure Agrees (cache other : Cache) : Prop where
  /-- The switches are the same. -/
  config : cache.config = other.config
  /-- The records are the same. -/
  store : cache.store = other.store
  /-- The gates are the same. -/
  gates : cache.gates = other.gates

variable {cache again : Cache} {split : Split} {owner : Option Snowflake} {kind : Kind}
  {id : Snowflake}

theorem Agrees.trans {other : Cache} (first : Agrees again other) (second : Agrees other cache) :
    Agrees again cache :=
  ⟨first.config.trans second.config, first.store.trans second.store, first.gates.trans second.gates⟩

theorem Agrees.symm (same : Agrees again cache) : Agrees cache again :=
  ⟨same.config.symm, same.store.symm, same.gates.symm⟩

theorem linked_config : (cache.linked owner kind id).config = cache.config := by
  unfold linked
  split <;> rfl

theorem Agrees.linked (same : Agrees again cache) :
    Agrees (again.linked owner kind id) (cache.linked owner kind id) := by
  obtain ⟨config, store, gates, requests, stats⟩ := again
  obtain ⟨rfl, rfl, rfl⟩ := same
  cases owner with
  | none => exact ⟨rfl, rfl, rfl⟩
  | some guild =>
    cases listed : kind.listField? with
    | none =>
      simp only [Cache.linked, listed]
      exact ⟨rfl, rfl, rfl⟩
    | some field =>
      simp only [Cache.linked, listed]
      exact ⟨rfl, rfl, rfl⟩

theorem guildPending_gates (cache : Cache) (split : Split) :
    (cache.guildPending split).1.gates =
      cache.gates.withGate split.root.id (!cache.config.fetchMembers) := by
  cases fetch : cache.config.fetchMembers <;> simp [guildPending, Gates.withGate, fetch]

/-- A guild that is available is ready if its members are not fetched or all of them are stored. -/
def isReady (cache : Cache) (split : Split) : Bool :=
  !cache.config.fetchMembers ||
    hasAllMembers (cache.store.place cache.config split).2
      (cache.store.place cache.config split).1.after

theorem guildAvailable_gates (cache : Cache) (split : Split) :
    (cache.guildAvailable split).1.gates =
      cache.gates.withGate split.root.id (cache.isReady split) := by
  unfold guildAvailable Gates.withGate isReady
  simp only
  by_cases fetch : cache.config.fetchMembers = false
  · simp [fetch]
  -- An open gate is left alone, which is what opening it once more comes to.
  by_cases settled : (cache.gates.getOrCreate split.root.id).2.state
      (cache.gates.getOrCreate split.root.id).1 = .ready
  · have opened : (cache.gates.getOrCreate split.root.id).2.state
        (cache.gates.getOrCreate split.root.id).1 ≠ .pending := by
      rw [settled]
      decide
    rw [if_neg fetch, if_pos settled, Gates.signal, Gates.settle_of_state_ne opened, ite_self]
  · rw [if_neg fetch, if_neg settled]
    simp only [fetch]
    split <;> simp_all

theorem guildPending_again (ordered : split.InOrder)
    (same : Agrees again (cache.guildPending split).1) :
    Agrees (again.guildPending split).1 (cache.guildPending split).1 := by
  obtain ⟨config, store, gates, requests, stats⟩ := again
  obtain ⟨rfl, rfl, rfl⟩ := same
  have unmoved : Unmoved cache.config split.records (cache.store.place cache.config split).2
      (cache.guildPending split).1.store := fun _ _ _ => rfl
  refine ⟨rfl, (place_of_unmoved ordered unmoved).1, ?_⟩
  rw [guildPending_gates, guildPending_gates]
  exact Gates.withGate_withGate ..

theorem guildAvailable_config : (cache.guildAvailable split).1.config = cache.config := by
  unfold guildAvailable
  simp only
  split
  · rfl
  split
  · rfl
  split <;> rfl

theorem guildAvailable_store :
    (cache.guildAvailable split).1.store = (cache.store.place cache.config split).2 := by
  unfold guildAvailable
  simp only
  split
  · rfl
  split
  · rfl
  split <;> rfl

theorem guildAvailable_again (ordered : split.InOrder)
    (same : Agrees again (cache.guildAvailable split).1) :
    Agrees (again.guildAvailable split).1 (cache.guildAvailable split).1 := by
  have config : again.config = cache.config := same.config.trans guildAvailable_config
  have store : again.store = (cache.store.place cache.config split).2 :=
    same.store.trans guildAvailable_store
  have unmoved : Unmoved cache.config split.records (cache.store.place cache.config split).2
      again.store := by
    rw [store]
    exact fun _ _ _ => rfl
  obtain ⟨left, after⟩ := place_of_unmoved ordered unmoved
  have ready : again.isReady split = cache.isReady split := by
    rw [isReady, config, left, after, store, ← isReady]
  refine ⟨?_, ?_, ?_⟩
  · rw [guildAvailable_config, same.config]
  · rw [guildAvailable_store, config, left, same.store]
  · rw [guildAvailable_gates, ready, same.gates, guildAvailable_gates, Gates.withGate_withGate]

theorem guildOutage_again {guild : Snowflake} (same : Agrees again (cache.guildOutage guild).1) :
    Agrees (again.guildOutage guild).1 (cache.guildOutage guild).1 := by
  obtain ⟨config, store, gates, requests, stats⟩ := again
  obtain ⟨rfl, rfl, rfl⟩ := same
  refine ⟨rfl, ?_, rfl⟩
  cases present : (cache.store.guild? guild).isSome with
  | false => simp [guildOutage, present]
  | true =>
    have marked : ((cache.store.write .guild (.global guild)
        [("unavailable", .bool true)]).guild? guild).isSome := by
      rw [guild?_isSome, fieldsAt_write, if_pos rfl]
      rfl
    simp only [guildOutage, present, marked, if_true]
    exact write_write rfl cache.store .guild (.global guild)

theorem guildLeft_again {guild : Snowflake} (same : Agrees again (cache.guildLeft guild).1) :
    Agrees (again.guildLeft guild).1 (cache.guildLeft guild).1 := by
  obtain ⟨config, store, gates, requests, stats⟩ := again
  obtain ⟨rfl, rfl, rfl⟩ := same
  exact ⟨rfl, evict_evict cache.store guild, Gates.remove_remove cache.gates guild⟩

theorem emojisReplaced_store {guild : Snowflake} {emojis : List Split} :
    (cache.emojisReplaced guild emojis).1.store =
      emojiLeft cache.config cache.store guild emojis := rfl

theorem stickersReplaced_store {guild : Snowflake} {stickers : List Split} :
    (cache.stickersReplaced guild stickers).1.store =
      stickersLeft cache.config cache.store guild stickers := rfl

theorem emojisReplaced_again {guild : Snowflake} {emojis : List Split}
    (leaves : Leaves .emoji emojis) (same : Agrees again (cache.emojisReplaced guild emojis).1) :
    Agrees (again.emojisReplaced guild emojis).1 (cache.emojisReplaced guild emojis).1 := by
  obtain ⟨config, store, gates, requests, stats⟩ := again
  obtain ⟨rfl, rfl, rfl⟩ := same
  refine ⟨rfl, ?_, rfl⟩
  rw [emojisReplaced_store, emojisReplaced_store]
  exact emojiLeft_emojiLeft leaves cache.store guild

theorem stickersReplaced_again {guild : Snowflake} {stickers : List Split}
    (leaves : Leaves .sticker stickers)
    (same : Agrees again (cache.stickersReplaced guild stickers).1) :
    Agrees (again.stickersReplaced guild stickers).1 (cache.stickersReplaced guild stickers).1 := by
  obtain ⟨config, store, gates, requests, stats⟩ := again
  obtain ⟨rfl, rfl, rfl⟩ := same
  refine ⟨rfl, ?_, rfl⟩
  rw [stickersReplaced_store, stickersReplaced_store]
  exact stickersLeft_stickersLeft leaves cache.store guild

theorem membersListed_again {guild : Snowflake} {members : List Split} {last : Bool}
    (ordered : ∀ split ∈ members, split.InOrder)
    (same : Agrees again (cache.membersListed guild members last).1) :
    Agrees (again.membersListed guild members last).1
      (cache.membersListed guild members last).1 := by
  obtain ⟨config, store, gates, requests, stats⟩ := again
  obtain ⟨rfl, rfl, rfl⟩ := same
  have unmoved : Unmoved cache.config (members.flatMap Split.records)
      (cache.store.placeAll cache.config members).2 (cache.store.placeAll cache.config members).2 :=
    fun _ _ _ => rfl
  cases last with
  | true =>
    exact ⟨rfl, placeAll_of_unmoved ordered unmoved, Gates.signalGuild_signalGuild cache.gates guild⟩
  | false => exact ⟨rfl, placeAll_of_unmoved ordered unmoved, rfl⟩

theorem placed_again (ordered : split.InOrder)
    (same : Agrees again (cache.placed split).2) :
    Agrees (again.placed split).2 (cache.placed split).2 := by
  obtain ⟨config, store, gates, requests, stats⟩ := again
  obtain ⟨rfl, rfl, rfl⟩ := same
  have unmoved : Unmoved cache.config split.records (cache.placed split).2.store
      (cache.placed split).2.store := fun _ _ _ => rfl
  exact ⟨rfl, (place_of_unmoved ordered unmoved).1, rfl⟩

theorem linked_linked : (cache.linked owner kind id).linked owner kind id =
    cache.linked owner kind id := by
  cases owner with
  | none => rfl
  | some guild =>
    cases listed : kind.listField? with
    | none => simp [linked, listed]
    | some field => simp [linked, listed, link_link]

/-- A record that was placed and listed is found and listed again: no guild is among what was placed, so
the list is not either. -/
theorem linked_again (ordered : split.InOrder)
    (notGuild : ∀ record ∈ split.records, record.kind ≠ .guild)
    (same : Agrees again ((cache.placed split).2.linked owner kind id)) :
    (again.placed split).1.after = (cache.placed split).1.after ∧
      Agrees ((again.placed split).2.linked owner kind id)
        ((cache.placed split).2.linked owner kind id) := by
  have config : again.config = cache.config := same.config.trans linked_config
  have unmoved : Unmoved cache.config split.records (cache.store.place cache.config split).2
      again.store := by
    intro record member _
    rw [same.store]
    unfold linked
    split
    · exact fieldsAt_link (notGuild record member) record.key
    · rfl
  obtain ⟨left, after⟩ := place_of_unmoved ordered unmoved
  rw [← config] at left
  have found : Agrees (again.placed split).2 again := ⟨rfl, left, rfl⟩
  have reported : (again.placed split).1.after =
      (again.store.place cache.config split).1.after := by
    rw [← config]
    rfl
  refine ⟨reported.trans after, ?_⟩
  have listed : Agrees ((again.placed split).2.linked owner kind id)
      (((cache.placed split).2.linked owner kind id).linked owner kind id) :=
    (found.trans same).linked
  rwa [linked_linked] at listed

theorem rolePlaced_again {created : Bool} {guild : Snowflake}
    (ordered : split.InOrder)
    (notGuild : ∀ record ∈ split.records, record.kind ≠ .guild)
    (same : Agrees again (cache.rolePlaced created guild split).1) :
    Agrees (again.rolePlaced created guild split).1 (cache.rolePlaced created guild split).1 := by
  have before : Agrees again
      ((cache.placed split).2.linked (some guild) .role (cache.placed split).1.after.id) := same
  obtain ⟨after, listed⟩ := linked_again ordered notGuild before
  unfold rolePlaced
  simp only
  rw [after]
  exact listed

theorem added_again (ordered : split.InOrder)
    (notGuild : ∀ record ∈ split.records, record.kind ≠ .guild)
    (same : Agrees again (cache.added split).1) :
    Agrees (again.added split).1 (cache.added split).1 := by
  have before : Agrees again ((cache.placed split).2.linked
      ((cache.placed split).1.after.fields.relationId "guild_id")
      (cache.placed split).1.after.kind (cache.placed split).1.after.id) := same
  obtain ⟨after, listed⟩ := linked_again ordered notGuild before
  unfold added
  simp only
  rw [after]
  exact listed

/-- What was removed is not listed any more, so there is nothing to take out of a list. -/
theorem unlinked_again {key : Key} (other : kind ≠ .guild)
    (same : Agrees again (cache.removed kind key owner).1) :
    again.unlinked owner kind key.id = again := by
  cases owner with
  | none => rfl
  | some guild =>
    cases listed : kind.listField? with
    | none => simp only [unlinked, listed]
    | some field =>
      have stored : again.store = ((cache.store.unlink guild field key.id).delete kind key).2 := by
        rw [same.store]
        simp only [removed, unlinked, listed]
      simp only [unlinked, listed]
      rw [stored, unlink_of_deleted other key, ← stored]

theorem removed_again {key : Key} (other : kind ≠ .guild)
    (same : Agrees again (cache.removed kind key owner).1) :
    Agrees (again.removed kind key owner).1 (cache.removed kind key owner).1 := by
  have deleted : (again.removed kind key owner).1 =
      { again with store := (again.store.delete kind key).2 } := by
    simp only [removed]
    rw [unlinked_again other same]
  have settled : (again.store.delete kind key).2 = again.store := by
    rw [same.store]
    exact delete_delete ..
  rw [deleted, settled]
  exact same

/-- An update that is performed again where it left the records and the gates leaves them as they are. -/
theorem perform_again {update : Update} (repeatable : update.Repeatable)
    (same : Agrees again (cache.perform update).1) :
    Agrees (again.perform update).1 (cache.perform update).1 := by
  cases update with
  | guildAvailable split => exact guildAvailable_again repeatable same
  | guildPending split => exact guildPending_again repeatable same
  | guildOutage guild => exact guildOutage_again same
  | guildLeft guild => exact guildLeft_again same
  | guildChanged split | banAdded guild split | banLifted guild split | integrationAdded split
  | integrationChanged split | changed split | voiceChanged split =>
    exact placed_again repeatable same
  | emojisReplaced guild emojis => exact emojisReplaced_again repeatable same
  | stickersReplaced guild stickers => exact stickersReplaced_again repeatable same
  | membersListed guild members last => exact membersListed_again repeatable same
  | roleAdded guild split | roleChanged guild split =>
    exact rolePlaced_again repeatable.1 repeatable.2 same
  | added split => exact added_again repeatable.1 repeatable.2 same
  | removed kind key owner => exact removed_again repeatable same
  | integrationRemoved guild id application =>
    have before : Agrees again (cache.removed .integration (.global id) none).1 := same
    exact removed_again (by decide) before
  | webhooksChanged guild channel => exact same

theorem apply_agrees (cache : Cache) {dispatch : Dispatch} {kind : UpdateKind} {update : Update}
    (known : UpdateKind.ofName? dispatch.name = some kind)
    (reads : Update.read kind dispatch.data = .ok update) :
    Agrees (cache.apply dispatch).2 (cache.perform update).1 := by
  rw [apply_eq, known]
  simp only [reads]
  exact ⟨rfl, rfl, rfl⟩

theorem apply_agrees_self (cache : Cache) {dispatch : Dispatch}
    (unread : ∀ kind update, UpdateKind.ofName? dispatch.name = some kind →
      Update.read kind dispatch.data ≠ .ok update) :
    Agrees (cache.apply dispatch).2 cache := by
  cases known : UpdateKind.ofName? dispatch.name with
  | none =>
    rw [apply_eq, known]
    exact ⟨rfl, rfl, rfl⟩
  | some kind =>
    cases reads : Update.read kind dispatch.data with
    | error error =>
      rw [apply_eq, known]
      simp only [reads]
      exact ⟨rfl, rfl, rfl⟩
    | ok update => exact absurd reads (unread kind update known)

/-- Applying an update twice in a row leaves the records and the gates as applying it once does. The
objects in its value are in order, as all objects are that come from a text. -/
theorem apply_redelivery (cache : Cache) (dispatch : Dispatch) (ordered : dispatch.data.ordered) :
    let once := (cache.apply dispatch).2
    let twice := (once.apply dispatch).2
    twice.store = once.store ∧ twice.gates = once.gates := by
  intro once twice
  suffices same : Agrees twice once from ⟨same.store, same.gates⟩
  by_cases readable : ∃ kind update, UpdateKind.ofName? dispatch.name = some kind ∧
      Update.read kind dispatch.data = .ok update
  · obtain ⟨kind, update, known, reads⟩ := readable
    have repeatable := Update.read_repeatable kind ordered update reads
    have first : Agrees once (cache.perform update).1 := apply_agrees cache known reads
    have second : Agrees twice (once.perform update).1 := apply_agrees once known reads
    exact second.trans ((perform_again repeatable first).trans first.symm)
  · exact apply_agrees_self once fun kind update known reads => readable ⟨kind, update, known, reads⟩

/-- The author of this message is mentioned in it with other flags, so one record is written twice. -/
theorem apply_redelivery_mention :
    let dispatch : Dispatch := ⟨"MESSAGE_CREATE", .obj
      [("author", .obj [("flags", .obj [("a", .null)]), ("id", .str "2")]), ("id", .str "3"),
       ("mentions", .arr [.obj [("flags", .str "none"), ("id", .str "2")]])]⟩
    let once := ((empty {}).apply dispatch).2
    let twice := (once.apply dispatch).2
    once.store.get .user ⟨2⟩ =
        some ⟨.user, .global ⟨2⟩, [("flags", .str "none"), ("id", .str "2")]⟩ ∧
      twice.store = once.store ∧ twice.gates = once.gates := by
  refine ⟨by decide +kernel, ?_⟩
  exact apply_redelivery (empty {}) _ rfl

end Cache

end GatewayCache
