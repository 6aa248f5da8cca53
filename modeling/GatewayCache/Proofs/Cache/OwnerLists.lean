import GatewayCache.Proofs.Cache.Changes
import GatewayCache.Proofs.Cache.Isolation
import GatewayCache.Proofs.Split.Guilds
import GatewayCache.Proofs.Store.Listing
import GatewayCache.Update.Entities

/-! # Lists of the owner

A guild lists its members, roles, channels and threads. What creates one of them
appends its id to the list, what removes one takes the id out, and apart from that
the records of guilds stay as they are.
-/

namespace GatewayCache

open Store

namespace Update

/-- The guild that an update has an entity listed by. -/
def listedBy? (update : Update) (record : Record) : Option Snowflake :=
  match update with
  | .roleAdded guild _ | .roleChanged guild _ => some guild
  | _ => record.fields.relationId "guild_id"

/-- An update is read as one that stores an entity of a kind and has it listed by its guild. -/
structure Enlists (dispatch : Dispatch) (kind : Kind) (update : Update) (split : Split) : Prop where
  subject : update.subject? = some split
  listed : update.listed? = some split
  /-- The entity is of the kind. -/
  root : split.root.kind = kind
  /-- A role is listed as one. -/
  role : ∀ guild, update = .roleAdded guild split ∨ update = .roleChanged guild split → kind = .role
  /-- The guild can be told from the content, whatever the entity is merged into. -/
  owner : ∀ (config : Config) (store : Store), let record := (store.place config split).1.after
    update.listedBy? record = dispatch.listedBy? record

variable {kind : UpdateKind} {target : Kind} {fields : Fields} {data : Json} {split : Split}

theorem readRole_enlists {become : Snowflake → Split → Update}
    (roles : ∀ guild split, become guild split = .roleAdded guild split ∨
      become guild split = .roleChanged guild split) :
    Yields (fun update => ∃ split, Enlists ⟨kind.name, .obj fields⟩ .role update split)
      (readRole kind fields become) := by
  refine .bind fun guild required => .bind fun value _ => .bind fun split apart => .ok ⟨split, ?_⟩
  have root : split.root.kind = .role := Split.ofJson_root_kind apart
  have owner : ∀ (config : Config) (store : Store),
      (⟨kind.name, .obj fields⟩ : Dispatch).listedBy? (store.place config split).1.after =
        some guild := by
    intro config store
    rw [Dispatch.listedBy?, (place_after config store split).1, root]
    exact relationId_of_requireId required
  rcases roles guild split with added | changed
  · rw [added]
    exact ⟨rfl, rfl, root, fun _ _ => rfl, fun config store => (owner config store).symm⟩
  · rw [changed]
    exact ⟨rfl, rfl, root, fun _ _ => rfl, fun config store => (owner config store).symm⟩

theorem relationId_of_member {payload : Fields}
    (apart : Split.ofFields .member none payload = .ok split) :
    ∃ guild, payload.relationId "guild_id" = some guild := by
  have whole : (Part.mk .member ⟨none, none⟩ payload).split = .ok split := apart
  obtain ⟨known, -⟩ := Part.root_guild? whole rfl
  rwa [Part.guild?_of_split whole (by simp), Option.or_none, Option.isSome_iff_exists] at known

theorem relationId_member_after {payload : Fields} (ordered : payload.ordered)
    (apart : Split.ofFields .member none payload = .ok split) (config : Config) (store : Store) :
    (store.place config split).1.after.fields.relationId "guild_id" =
      payload.relationId "guild_id" := by
  have whole : (Part.mk .member ⟨none, none⟩ payload).split = .ok split := apart
  have sorted := Split.ofFields_ordered apart ordered split.root (by simp [Split.records])
  obtain ⟨known, -⟩ := Part.root_guild? whole rfl
  obtain ⟨guild, named⟩ := relationId_of_member apart
  have has : payload.contains "guild_id" := Fields.contains_of_relationId named
  have reads : split.root.fields.relationId "guild_id" = payload.relationId "guild_id" := by
    rw [Part.relationId_root_guild whole rfl, if_pos has]
  have kept : split.root.fields.contains "guild_id" := by
    rw [Fields.contains, Part.get?_root_guild whole]
    exact Part.contains_withGuild rfl known
  have stored : config.stores split.root.kind := by
    rw [Part.split_root_kind whole]
    rfl
  rw [place, placeRoot, if_pos stored, relationId_changeBy _ _ _ sorted kept, reads]

theorem readAdded_enlists (among : target = .member ∨ target = .channel ∨ target = .thread)
    (ordered : data.ordered) :
    Yields (fun update => ∃ split, Enlists ⟨kind.name, data⟩ target update split)
      (Split.ofJson target none data >>= fun split => .ok (.added split)) := by
  refine .bind fun split apart => .ok ⟨split, rfl, rfl, Split.ofJson_root_kind apart, by simp, ?_⟩
  intro config store record
  have kinds : record.kind = target :=
    (place_after config store split).1.trans (Split.ofJson_root_kind apart)
  rcases among with rfl | rfl | rfl
  · obtain ⟨payload, rfl, member⟩ := Split.obj_of_ofJson apart
    rw [Dispatch.listedBy?, kinds]
    exact relationId_member_after ordered member config store
  · rw [Dispatch.listedBy?, kinds]
    rfl
  · rw [Dispatch.listedBy?, kinds]
    rfl

theorem read_enlists (kinds : kind.listedKind? = some target) (ordered : data.ordered) :
    Yields (fun update => ∃ split, Enlists ⟨kind.name, data⟩ target update split)
      (Update.read kind data) := by
  cases kind with
  | guildMemberAdd | channelCreate | threadCreate =>
    obtain rfl := Option.some.inj kinds
    exact readAdded_enlists (by decide) ordered
  | guildRoleCreate | guildRoleUpdate =>
    obtain rfl := Option.some.inj kinds
    refine .bind fun fields reads => ?_
    obtain rfl := Cache.eq_obj_of_fieldsOf reads
    exact readRole_enlists fun _ _ => by simp
  | _ => cases kinds

end Update

namespace Update

theorem not_guild_of_listed {update : Update} {split : Split} (repeatable : update.Repeatable)
    (listed : update.listed? = some split) : ∀ record ∈ split.records, record.kind ≠ .guild := by
  cases update with
  | roleAdded guild other | roleChanged guild other | added other =>
    obtain rfl := Option.some.inj listed
    exact repeatable.2
  | _ => cases listed

end Update

namespace Cache

variable {cache : Cache} {update : Update} {dispatch : Dispatch} {kind : Kind} {field : String}
  {split : Split}

theorem linked_edited (listing : kind.listField? = some field) (cache : Cache)
    (owner : Option Snowflake) (id : Snowflake) :
    (∀ guild, owner = some guild →
      ListEdited field guild
        (if id ∈ cache.store.listed guild field then cache.store.listed guild field
          else cache.store.listed guild field ++ [id])
        cache.store (cache.linked owner kind id).store) ∧
      (owner = none → KeepsGuilds cache.store (cache.linked owner kind id).store) := by
  constructor
  · rintro guild rfl
    simp only [linked, listing]
    exact ListEdited.link cache.store
  · rintro rfl
    exact .refl _ cache.store

theorem unlinked_edited (listing : kind.listField? = some field) (cache : Cache)
    (guild id : Snowflake) :
    ListEdited field guild ((cache.store.listed guild field).filter (· != id)) cache.store
      (cache.unlinked (some guild) kind id).store := by
  simp only [unlinked, listing]
  exact ListEdited.unlink cache.store

/-- An update that has an entity listed stores it first, and tells of it as it is stored. -/
theorem perform_enlists (cache : Cache) (enlists : update.Enlists dispatch kind split) :
    let record := (cache.placed split).1.after
    (cache.perform update).1.store =
        ((cache.placed split).2.linked (update.listedBy? record) kind record.id).store ∧
      ∃ event, (cache.perform update).2 = .emit event ∧ event.after? = some record := by
  obtain ⟨-, listed, root, role, -⟩ := enlists
  cases update with
  | roleAdded guild other | roleChanged guild other =>
    obtain rfl := Option.some.inj listed
    obtain rfl := role guild (by simp)
    exact ⟨rfl, _, rfl, rfl⟩
  | added other =>
    obtain rfl := Option.some.inj listed
    have kinds := (place_after cache.config cache.store other).1.trans root
    refine ⟨?_, _, rfl, rfl⟩
    rw [← kinds]
    rfl
  | _ => cases listed

/-- What an update leaves behind that stores an entity of a kind and has it listed. -/
structure Enlisted (dispatch : Dispatch) (kind : Kind) (event : Event) (record : Record)
    (before after : Store) : Prop where
  /-- The event tells of the record as it is stored then. -/
  told : event.after? = some record
  stored : after.recordAt kind record.key = some record
  /-- It is the record of the entity in the update. -/
  kinds : record.kind = kind
  subject : ∃ part, dispatch.subject? = some part ∧ kind.identify part.payload = .ok record.id
  /-- The guild that lists it has the id appended to its list, unless it is there. -/
  edited : ∀ guild, dispatch.listedBy? record = some guild →
    ∃ field, kind.listField? = some field ∧
      ListEdited field guild
        (if record.id ∈ before.listed guild field then before.listed guild field
          else before.listed guild field ++ [record.id]) before after
  /-- Without such a guild no record of a guild changes. -/
  unlisted : dispatch.listedBy? record = none → KeepsGuilds before after

theorem enlisted_of_perform (enlists : update.Enlists dispatch kind split)
    (tells : update.Tells dispatch) (repeatable : update.Repeatable)
    (listing : kind.listField? = some field) (kept : cache.config.stores kind) :
    ∃ event, (cache.perform update).2 = .emit event ∧
      Enlisted dispatch kind event (cache.placed split).1.after cache.store
        (cache.perform update).1.store := by
  obtain ⟨written, event, emits, told⟩ := perform_enlists cache enlists
  obtain ⟨kinds, keys⟩ := place_after cache.config cache.store split
  have off : split.Off (fun kind _ => kind = .guild) :=
    Update.not_guild_of_listed repeatable enlists.listed
  have guilds : KeepsGuilds cache.store (cache.placed split).2.store :=
    keeps_place off cache.config cache.store
  have owner : update.listedBy? (cache.placed split).1.after =
      dispatch.listedBy? (cache.placed split).1.after := enlists.owner cache.config cache.store
  have edits := linked_edited listing (cache.placed split).2
    (update.listedBy? (cache.placed split).1.after) (cache.placed split).1.after.id
  rw [← written] at edits
  refine ⟨event, emits, told, ?_, kinds.trans enlists.root, ?_, ?_, ?_⟩
  · have here := place_after_eq cache.config cache.store split
    rw [if_pos (enlists.root ▸ kept), enlists.root] at here
    have same : (cache.perform update).1.store.fieldsAt split.root.kind split.root.key =
        (cache.store.place cache.config split).2.fieldsAt split.root.kind split.root.key :=
      perform_subject enlists.subject tells.listed split.root.key
    rw [enlists.root] at same
    rw [placed, keys, recordAt, same, here]
    rfl
  · obtain ⟨part, within, -, apart⟩ := tells.subject split enlists.subject
    have identified := Part.split_root_id apart
    rw [← Part.split_root_kind apart, enlists.root] at identified
    refine ⟨part, within, ?_⟩
    rw [identified, Record.id, Record.id, placed, keys]
  · intro guild named
    have edited := edits.1 guild (owner.trans named)
    rw [guilds.listed] at edited
    exact ⟨field, listing, .between guilds edited (.refl _ _)⟩
  · intro unnamed
    exact guilds.trans (edits.2 (owner.trans unnamed))

end Cache

namespace Update

variable {kind : UpdateKind} {target : Kind} {data : Json}

theorem read_removal (kinds : kind.removedKind? = some target) (other : target ≠ .voiceState) :
    Yields (fun _ => ∃ removal, (⟨kind.name, data⟩ : Dispatch).removal? = some removal ∧
      removal.kind = target ∧ removal.guild = data.owner?) (Update.read kind data) := by
  cases kind with
  | guildMemberRemove =>
    obtain rfl := Option.some.inj kinds
    refine .bind fun fields reads => .bind fun guild _ => .bind fun id identified => .ok ?_
    obtain rfl := Cache.eq_obj_of_fieldsOf reads
    refine ⟨⟨.member, id, fields.relationId "guild_id"⟩, ?_, rfl, rfl⟩
    simp [Dispatch.removal?, UpdateKind.ofName?_name, UpdateKind.removedKind?, Json.fields?, identified,
      Except.toOption]
  | guildRoleDelete =>
    obtain rfl := Option.some.inj kinds
    refine .bind fun fields reads => .bind fun guild _ => .bind fun id identified => .ok ?_
    obtain rfl := Cache.eq_obj_of_fieldsOf reads
    refine ⟨⟨.role, id, fields.relationId "guild_id"⟩, ?_, rfl, rfl⟩
    simp [Dispatch.removal?, UpdateKind.ofName?_name, UpdateKind.removedKind?, Json.fields?,
      relationId_of_requireId identified]
  | channelDelete | threadDelete =>
    obtain rfl := Option.some.inj kinds
    refine .bind fun fields reads => .bind fun id identified => .ok ?_
    obtain rfl := Cache.eq_obj_of_fieldsOf reads
    refine ⟨⟨_, id, fields.relationId "guild_id"⟩, ?_, rfl, rfl⟩
    simp [Dispatch.removal?, UpdateKind.ofName?_name, UpdateKind.removedKind?, Json.fields?,
      relationId_of_requireId identified]
  | voiceStateUpdate => exact absurd (Option.some.inj kinds).symm other
  | _ => cases kinds

theorem read_owner (kinds : kind.listedKind? = some target ∨ kind.removedKind? = some target)
    (inGuild : target = .member ∨ target = .role) :
    Yields (fun _ => ∃ guild, data.owner? = some guild) (Update.read kind data) := by
  cases kind with
  | guildMemberAdd =>
    refine .bind fun split apart => .ok ?_
    obtain ⟨payload, rfl, member⟩ := Split.obj_of_ofJson apart
    exact relationId_of_member member
  | guildMemberRemove | guildRoleCreate | guildRoleUpdate | guildRoleDelete =>
    refine .bind fun fields reads => .bind fun guild required _ _ => ⟨guild, ?_⟩
    obtain rfl := Cache.eq_obj_of_fieldsOf reads
    exact relationId_of_requireId required
  | _ => rcases kinds with kinds | kinds <;> cases kinds <;> simp at inGuild

end Update

namespace Cache

/-- What an update leaves behind that removes an entity of a guild. -/
structure Delisted (removal : Removal) (guild : Snowflake) (event : Event) (before after : Store) :
    Prop where
  /-- The event tells of the record as it was before. -/
  told : event = .deleted removal.kind removal.id (before.recordAt removal.kind removal.key)
  gone : after.recordAt removal.kind removal.key = none
  /-- The guild has the id taken out of its list. -/
  edited : ∃ field, removal.kind.listField? = some field ∧
    ListEdited field guild ((before.listed guild field).filter (· != removal.id)) before after
  /-- Apart from the lists of guilds, all other records are as they were. -/
  others : ∀ kind key, kind ≠ .guild → (kind, key) ≠ (removal.kind, removal.key) →
    after.fieldsAt kind key = before.fieldsAt kind key

theorem delisted_of_removed (cache : Cache) (guild : Snowflake) {removal : Removal} {field : String}
    (listing : removal.kind.listField? = some field)
    (fit : address? removal.kind removal.key = some removal.key) :
    ∃ event, (cache.removed removal.kind removal.key (some guild)).2 = .emit event ∧
      Delisted removal guild event cache.store
        (cache.removed removal.kind removal.key (some guild)).1.store := by
  have notGuild : removal.kind ≠ .guild := by
    intro same
    rw [same] at listing
    cases listing
  -- The id leaves the list of the guild first, and then the record goes.
  let unlisted := cache.unlinked (some guild) removal.kind removal.id
  have same := Removal.key_id removal
  have written : (cache.removed removal.kind removal.key (some guild)).1.store =
      (unlisted.store.delete removal.kind removal.key).2 := by
    rw [removed_store, same]
  have emits : (cache.removed removal.kind removal.key (some guild)).2 =
      .emit (.deleted removal.kind removal.id (unlisted.store.recordAt removal.kind removal.key)) := by
    simp only [removed, delete, fit, same, unlisted]
  have keeps : Keeps (fun kind _ => kind ≠ .guild) cache.store unlisted.store :=
    keeps_unlinked (.inr rfl) (by simp) removal.kind removal.id
  refine ⟨_, emits, ?_, ?_, ?_, ?_⟩
  · rw [recordAt, keeps removal.kind removal.key notGuild, recordAt]
  · rw [written, recordAt, fieldsAt_delete_self fit]
    rfl
  · have guilds : KeepsGuilds unlisted.store
        (unlisted.store.delete removal.kind removal.key).2 := by
      rintro kind place rfl
      exact fieldsAt_delete_of_ne notGuild _ removal.key place
    rw [written]
    exact ⟨field, listing, .between (.refl _ _) (unlinked_edited listing cache guild removal.id) guilds⟩
  · intro kind key other apart
    have off : Keeps (fun kind key => (kind, key) ≠ (removal.kind, removal.key)) unlisted.store
        (unlisted.store.delete removal.kind removal.key).2 := keeps_delete (by simp) fit _
    rw [written, off kind key apart, keeps kind key other]

theorem stores_of_listedKind? {kind : UpdateKind} {target : Kind}
    (kinds : kind.listedKind? = some target) (config : Config) :
    config.stores target ∧ ∃ field, target.listField? = some field := by
  cases kind <;> cases kinds <;> exact ⟨rfl, _, rfl⟩

/-- An update that creates a member, a role, a channel or a thread appends its id to the list of the guild
that it belongs to, and one that removes it and names the guild takes the id out of the list. No other
field of the record of that guild changes, no other record of a guild, and none is made. A removal is told
with the record that was there, which is gone then, and with it nothing else. Of members and roles, every
update names the guild. -/
theorem apply_edits_owner_list (cache : Cache) (dispatch : Dispatch) {outcome : Outcome} {after : Cache}
    (ordered : dispatch.data.ordered) (done : cache.apply dispatch = (.ok outcome, after)) :
    (∀ kind, dispatch.listedKind? = some kind → ∃ event record,
      outcome = ⟨cache.rawEvents dispatch ++ [event], none⟩ ∧
        Enlisted dispatch kind event record cache.store after.store) ∧
    (∀ kind guild, dispatch.removedKind? = some kind → kind ≠ .voiceState →
      dispatch.data.owner? = some guild → ∃ removal event,
        dispatch.removal? = some removal ∧ removal.kind = kind ∧
        outcome = ⟨cache.rawEvents dispatch ++ [event], none⟩ ∧
        Delisted removal guild event cache.store after.store) ∧
    ∀ kind, dispatch.listedKind? = some kind ∨ dispatch.removedKind? = some kind →
      kind = .member ∨ kind = .role → ∃ guild, dispatch.data.owner? = some guild := by
  obtain ⟨name, data⟩ := dispatch
  cases known : UpdateKind.ofName? name with
  | none => simp [Dispatch.listedKind?, Dispatch.removedKind?, known]
  | some updateKind =>
    obtain rfl := UpdateKind.name_of_ofName? known
    obtain ⟨update, reads, rfl, rfl⟩ := of_apply_ok known done
    refine ⟨?_, ?_, ?_⟩
    · intro kind listedKind
      rw [Dispatch.listedKind?, known, Option.bind_some] at listedKind
      obtain ⟨split, enlists⟩ := Update.read_enlists listedKind ordered update reads
      obtain ⟨kept, field, listing⟩ := stores_of_listedKind? listedKind cache.config
      obtain ⟨event, emits, enlisted⟩ := enlisted_of_perform enlists
        (Update.read_tells updateKind data update reads)
        (Update.read_repeatable updateKind ordered update reads) listing kept
      exact ⟨event, _, by rw [emits]; rfl, enlisted⟩
    · intro kind guild removedKind other named
      rw [Dispatch.removedKind?, known, Option.bind_some] at removedKind
      obtain ⟨removal, removes, rfl, owner⟩ :=
        Update.read_removal removedKind other update reads
      obtain ⟨rfl, fit, field, listing⟩ :=
        Update.read_removes _ known update reads removal removes
      have unlistedBy : removal.unlistedBy = some guild := by
        rw [Removal.unlistedBy, if_neg other, owner, named]
      rw [unlistedBy]
      obtain ⟨event, emits, delisted⟩ := delisted_of_removed cache guild listing fit
      refine ⟨removal, event, removes, rfl, ?_, delisted⟩
      simp only [perform, emits]
      rfl
    · intro kind kinds inGuild
      simp only [Dispatch.listedKind?, Dispatch.removedKind?, known, Option.bind_some] at kinds
      exact Update.read_owner kinds inGuild update reads

/-- The list of a guild holds a channel twice, and something that is no id. A channel is created and
appended, and the other one is removed from both of its places. -/
theorem apply_edits_owner_list_repeated :
    let joined : Dispatch := ⟨"GUILD_CREATE", .obj
      [("channel_ids", .arr [.str "3", .null, .str "4", .str "3"]), ("id", .str "1"),
       ("name", .str "a")]⟩
    let created : Dispatch := ⟨"CHANNEL_CREATE", .obj [("guild_id", .str "1"), ("id", .str "5")]⟩
    let deleted : Dispatch := ⟨"CHANNEL_DELETE", .obj [("guild_id", .str "1"), ("id", .str "3")]⟩
    let before := (empty {}).applyAll [joined]
    let between := (before.apply created).2
    let after := (between.apply deleted).2
    before.store.listed ⟨1⟩ "channel_ids" = [⟨3⟩, ⟨4⟩, ⟨3⟩] ∧
      between.store.listed ⟨1⟩ "channel_ids" = [⟨3⟩, ⟨4⟩, ⟨3⟩, ⟨5⟩] ∧
      after.store.listed ⟨1⟩ "channel_ids" = [⟨4⟩, ⟨5⟩] ∧
      after.store.guildField ⟨1⟩ "name" = some (.str "a") ∧
      after.store.recordAt .channel (.global ⟨3⟩) = none ∧
      after.store.recordAt .channel (.global ⟨5⟩) = between.store.recordAt .channel (.global ⟨5⟩) := by
  intro joined created deleted before between after
  have listed : before.store.listed ⟨1⟩ "channel_ids" = [⟨3⟩, ⟨4⟩, ⟨3⟩] := by decide +kernel
  have known : (before.store.guild? ⟨1⟩).isSome := by decide +kernel
  have named : before.store.guildField ⟨1⟩ "name" = some (.str "a") := by decide +kernel
  obtain ⟨outcome, accepted⟩ : ∃ outcome, (before.apply created).1 = .ok outcome := ⟨_, rfl⟩
  obtain ⟨other, acceptedToo⟩ : ∃ outcome, (between.apply deleted).1 = .ok outcome := ⟨_, rfl⟩
  have first : before.apply created = (.ok outcome, between) := Prod.ext accepted rfl
  have second : between.apply deleted = (.ok other, after) := Prod.ext acceptedToo rfl
  obtain ⟨event, record, rfl, enlisted⟩ :=
    (apply_edits_owner_list before created (by decide +kernel) first).1 .channel (by decide +kernel)
  obtain ⟨removal, told, removes, -, -, delisted⟩ :=
    (apply_edits_owner_list between deleted (by decide +kernel) second).2.1 .channel ⟨1⟩
      (by decide +kernel) (by decide) (by decide +kernel)
  obtain rfl : ⟨.channel, ⟨3⟩, some ⟨1⟩⟩ = removal := Option.some.inj removes
  obtain rfl : .created ⟨.channel, .global ⟨5⟩, [("guild_id", .str "1"), ("id", .str "5")]⟩ = event :=
    (List.cons.inj (congrArg Outcome.events (Except.ok.inj accepted))).1
  obtain rfl := Option.some.inj enlisted.told
  obtain ⟨_, ⟨⟩, appended⟩ := enlisted.edited ⟨1⟩ (by decide +kernel)
  obtain ⟨_, ⟨⟩, taken⟩ := delisted.edited
  have longer : between.store.listed ⟨1⟩ "channel_ids" = [⟨3⟩, ⟨4⟩, ⟨3⟩, ⟨5⟩] := by
    rw [appended.listed known, listed]
    decide
  have still : (between.store.guild? ⟨1⟩).isSome := appended.known.trans known
  have others : after.store.fieldsAt .channel (.global ⟨5⟩) =
      between.store.fieldsAt .channel (.global ⟨5⟩) :=
    delisted.others .channel (.global ⟨5⟩) (by decide) (by decide)
  refine ⟨listed, longer, ?_, ?_, delisted.gone, ?_⟩
  · rw [taken.listed still, longer]
    decide
  · rw [taken.fields "name" (by decide), appended.fields "name" (by decide), named]
  · rw [recordAt, others, recordAt]

end Cache

end GatewayCache
