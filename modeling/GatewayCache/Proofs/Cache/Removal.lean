import GatewayCache.Proofs.Cache.Leaving
import GatewayCache.Proofs.Store.GuildList
import GatewayCache.Proofs.Update.Reading
import GatewayCache.Update.Content

/-! # Lists after removals

An entity that is removed should leave the list of the guild that owns it. It leaves
the list of the guild that the update names, and no other one: a channel or a thread
that is deleted without a guild stays listed, and so does every voice state.
-/

namespace GatewayCache

open Update

namespace Store

variable {store : Store} {guild id : Snowflake} {field : String}

theorem listed_unlink :
    (store.unlink guild field id).listed guild field =
      (store.listed guild field).filter (· != id) := by
  by_cases here : id ∈ store.listed guild field
  · rw [unlink_of_listed here, listed_setList]
    split
    · rfl
    · next absent =>
      rw [guild?_isSome, Bool.not_eq_true, Option.isSome_eq_false_iff,
        Option.isNone_iff_eq_none] at absent
      simp [listed_eq, absent]
  · rw [unlink_of_not_listed here, List.filter_eq_self.mpr]
    intro other member
    simp only [bne_iff_ne, ne_eq]
    rintro rfl
    exact here member

theorem fieldsAt_delete_self {kind : Kind} {key : Key} (fit : address? kind key = some key) :
    (store.delete kind key).2.fieldsAt kind key = none := by
  simp only [delete, fit]
  rw [fieldsAt_removeAt, if_pos rfl]

end Store

/-- The guild whose list a removal edits: none for a voice state, whatever guild is named. -/
def Removal.unlistedBy (removal : Removal) : Option Snowflake :=
  if removal.kind = .voiceState then none else removal.guild

namespace Update

variable {fields : Fields}

/-- An update is read as the removal that its content tells of, of a kind that is listed and under a key
that fits it. -/
def Removes (dispatch : Dispatch) (update : Update) : Prop :=
  ∀ removal, dispatch.removal? = some removal →
    update = .removed removal.kind removal.key removal.unlistedBy ∧
      Store.address? removal.kind removal.key = some removal.key ∧
      ∃ field, removal.kind.listField? = some field

theorem memberRemove_removes {guild id : Snowflake}
    (required : requireId .guildMemberRemove fields "guild_id" = .ok guild)
    (identified : Kind.member.identify fields = .ok id) :
    Removes ⟨"GUILD_MEMBER_REMOVE", .obj fields⟩ (.removed .member (.scoped guild id) (some guild)) := by
  have known : UpdateKind.ofName? "GUILD_MEMBER_REMOVE" = some .guildMemberRemove := by decide
  intro removal removes
  obtain rfl : ⟨.member, id, some guild⟩ = removal := by
    simpa [Dispatch.removal?, known, UpdateKind.removedKind?, Json.fields?, identified,
      Except.toOption, relationId_of_requireId required] using removes
  exact ⟨rfl, rfl, _, rfl⟩

theorem roleDelete_removes {guild id : Snowflake}
    (required : requireId .guildRoleDelete fields "guild_id" = .ok guild)
    (identified : requireId .guildRoleDelete fields "role_id" = .ok id) :
    Removes ⟨"GUILD_ROLE_DELETE", .obj fields⟩ (.removed .role (.scoped guild id) (some guild)) := by
  have known : UpdateKind.ofName? "GUILD_ROLE_DELETE" = some .guildRoleDelete := by decide
  intro removal removes
  obtain rfl : ⟨.role, id, some guild⟩ = removal := by
    simpa [Dispatch.removal?, known, UpdateKind.removedKind?, Json.fields?,
      relationId_of_requireId required, relationId_of_requireId identified] using removes
  exact ⟨rfl, rfl, _, rfl⟩

theorem readChannelDelete_removes {update : UpdateKind} {kind : Kind}
    (removes : update.removedKind? = some kind) (among : kind = .channel ∨ kind = .thread) :
    Yields (Removes ⟨update.name, .obj fields⟩) (readChannelDelete update kind fields) := by
  refine .bind fun id identified => .ok ?_
  have named := relationId_of_requireId identified
  intro removal found
  obtain rfl : ⟨kind, id, fields.relationId "guild_id"⟩ = removal := by
    rcases among with rfl | rfl <;>
      simpa [Dispatch.removal?, UpdateKind.ofName?_name, removes, Json.fields?, named] using found
  rcases among with rfl | rfl <;> exact ⟨rfl, rfl, _, rfl⟩

theorem readVoiceState_removes :
    Yields (Removes ⟨"VOICE_STATE_UPDATE", .obj fields⟩) (readVoiceState fields) := by
  have known : UpdateKind.ofName? "VOICE_STATE_UPDATE" = some .voiceStateUpdate := by decide
  refine .bind fun guild required => ?_
  refine .bind fun id identified => ?_
  have leaves : (fields.get? "channel_id").getD .null = .null →
      Removes ⟨"VOICE_STATE_UPDATE", .obj fields⟩ (.removed .voiceState (.scoped guild id) none) := by
    intro gone removal removes
    obtain rfl : ⟨.voiceState, id, some guild⟩ = removal := by
      simpa [Dispatch.removal?, known, UpdateKind.removedKind?, Json.fields?, identified, gone,
        Except.toOption, relationId_of_requireId required] using removes
    exact ⟨rfl, rfl, _, rfl⟩
  split
  · next gone => exact .ok (leaves (by rw [gone]; rfl))
  · next gone => exact .ok (leaves (by rw [gone]; rfl))
  · next channel notNull here =>
    refine .bind fun split _ => .ok fun removal removes => ?_
    have stays : channel ≠ .null := notNull
    simp [Dispatch.removal?, known, UpdateKind.removedKind?, Json.fields?, here, stays] at removes

theorem read_removes (dispatch : Dispatch) {kind : UpdateKind}
    (known : UpdateKind.ofName? dispatch.name = some kind) :
    Yields (Removes dispatch) (Update.read kind dispatch.data) := by
  obtain ⟨name, data⟩ := dispatch
  obtain rfl : name = kind.name := UpdateKind.name_of_ofName? known
  cases subject : kind.removedKind? with
  | none =>
    intro update _ removal removes
    simp [Dispatch.removal?, known, subject] at removes
  | some entity =>
    cases kind with
    | guildMemberRemove =>
      refine .bind fun fields reads => ?_
      obtain rfl := Cache.eq_obj_of_fieldsOf reads
      refine .bind fun guild required => ?_
      exact .bind fun id identified => .ok (memberRemove_removes required identified)
    | guildRoleDelete =>
      refine .bind fun fields reads => ?_
      obtain rfl := Cache.eq_obj_of_fieldsOf reads
      refine .bind fun guild required => ?_
      exact .bind fun id identified => .ok (roleDelete_removes required identified)
    | channelDelete =>
      refine .bind fun fields reads => ?_
      obtain rfl := Cache.eq_obj_of_fieldsOf reads
      exact readChannelDelete_removes rfl (.inl rfl)
    | threadDelete =>
      refine .bind fun fields reads => ?_
      obtain rfl := Cache.eq_obj_of_fieldsOf reads
      exact readChannelDelete_removes rfl (.inr rfl)
    | voiceStateUpdate =>
      refine .bind fun fields reads => ?_
      obtain rfl := Cache.eq_obj_of_fieldsOf reads
      exact readVoiceState_removes
    | _ => cases subject

end Update

theorem Removal.key_id (removal : Removal) : removal.key.id = removal.id := by
  unfold Removal.key Key.within
  split <;> rfl

namespace Cache

variable {cache : Cache} {kind : Kind} {key : Key} {field : String} {guild : Snowflake}

theorem removed_store (cache : Cache) (kind : Kind) (key : Key) (owner : Option Snowflake) :
    (cache.removed kind key owner).1.store =
      ((cache.unlinked owner kind key.id).store.delete kind key).2 := rfl

theorem listed_removed_of_named (other : kind ≠ .guild) (listed : kind.listField? = some field) :
    (cache.removed kind key (some guild)).1.store.listed guild field =
      (cache.store.listed guild field).filter (· != key.id) := by
  rw [removed_store, Store.listed_delete other]
  simp only [unlinked, listed]
  exact Store.listed_unlink

theorem listed_removed_of_unnamed (other : kind ≠ .guild) :
    (cache.removed kind key none).1.store.listed guild field = cache.store.listed guild field := by
  rw [removed_store, Store.listed_delete other]
  rfl

/-- A removal takes the id out of the list of the owner, unless the update does not name the guild or is
about a voice state. -/
theorem listed_removal (cache : Cache) {removal : Removal} {owner : Snowflake} {field : String}
    (listed : removal.kind.listField? = some field) (owned : removal.owner? cache.store = some owner) :
    (cache.removed removal.kind removal.key removal.unlistedBy).1.store.listed owner field =
      if removal.kind = .voiceState ∨ removal.guild = none then cache.store.listed owner field
      else (cache.store.listed owner field).filter (· != removal.id) := by
  have notGuild : removal.kind ≠ .guild := by
    intro same
    rw [same] at listed
    cases listed
  split
  · next stays =>
    have unnamed : removal.unlistedBy = none := by
      unfold Removal.unlistedBy
      rcases stays with voice | unnamed
      · rw [if_pos voice]
      · rw [unnamed, ite_self]
    rw [unnamed, listed_removed_of_unnamed notGuild]
  · next goes =>
    obtain ⟨notVoice, named⟩ := not_or.mp goes
    obtain ⟨guild, named⟩ := Option.ne_none_iff_exists'.mp named
    obtain rfl : guild = owner := by simpa [Removal.owner?, named] using owned
    rw [Removal.unlistedBy, if_neg notVoice, named, listed_removed_of_named notGuild listed,
      removal.key_id]

/-- What a removal leaves behind: the record is gone, and of the list of the owner the id is gone just
where the update names the guild and is not about a voice state. -/
theorem apply_removal (cache : Cache) (dispatch : Dispatch) (removal : Removal) (owner : Snowflake)
    {outcome : Outcome} {after : Cache} (done : cache.apply dispatch = (.ok outcome, after))
    (removes : dispatch.removal? = some removal) (owned : removal.owner? cache.store = some owner) :
    after.store.fieldsAt removal.kind removal.key = none ∧
      ∃ field, removal.kind.listField? = some field ∧
        after.store.listed owner field =
          (if removal.kind = .voiceState ∨ removal.guild = none then cache.store.listed owner field
          else (cache.store.listed owner field).filter (· != removal.id)) ∧
        (removal.id ∈ after.store.listed owner field ↔
          removal.id ∈ cache.store.listed owner field ∧
            (removal.kind = .voiceState ∨ removal.guild = none)) := by
  rw [apply_eq] at done
  cases known : UpdateKind.ofName? dispatch.name with
  | none => simp [Dispatch.removal?, known] at removes
  | some updateKind =>
    cases reads : Update.read updateKind dispatch.data with
    | error error => simp [known, reads] at done
    | ok update =>
      obtain ⟨rfl, fit, field, listed⟩ := read_removes dispatch known update reads removal removes
      simp only [known, reads, Prod.mk.injEq, Except.ok.injEq] at done
      obtain ⟨-, rfl⟩ := done
      have left := listed_removal cache listed owned
      refine ⟨Store.fieldsAt_delete_self fit, field, listed, left, ?_⟩
      simp only [perform, left]
      split
      · next stays => simp [stays]
      · next goes => simp [goes]

/-- A voice state and a channel that entered the lists of their guild with its creation are gone, and
still listed. -/
theorem apply_removal_stays_listed :
    let joined : Dispatch := ⟨"GUILD_CREATE", .obj
      [("channels", .arr [.obj [("id", .str "3")]]), ("id", .str "1"),
       ("voice_states", .arr [.obj [("channel_id", .str "9"), ("user_id", .str "5")]])]⟩
    let disconnected : Dispatch := ⟨"VOICE_STATE_UPDATE", .obj
      [("channel_id", .null), ("guild_id", .str "1"), ("user_id", .str "5")]⟩
    let deleted : Dispatch := ⟨"CHANNEL_DELETE", .obj [("id", .str "3")]⟩
    let before := (empty {}).applyAll [joined]
    let between := (before.apply disconnected).2
    let after := (between.apply deleted).2
    between.store.fieldsAt .voiceState (.scoped ⟨1⟩ ⟨5⟩) = none ∧
      ⟨5⟩ ∈ between.store.listed ⟨1⟩ "voice_state_ids" ∧
      after.store.fieldsAt .channel (.global ⟨3⟩) = none ∧
      ⟨3⟩ ∈ after.store.listed ⟨1⟩ "channel_ids" := by
  intro joined disconnected deleted before between after
  have voice : ⟨5⟩ ∈ before.store.listed ⟨1⟩ "voice_state_ids" := by decide +kernel
  have channel : ⟨3⟩ ∈ between.store.listed ⟨1⟩ "channel_ids" := by decide +kernel
  obtain ⟨gone, field, listed, -, stays⟩ :=
    apply_removal before disconnected ⟨.voiceState, ⟨5⟩, some ⟨1⟩⟩ ⟨1⟩ rfl rfl rfl
  obtain ⟨goneToo, other, listedToo, -, staysToo⟩ :=
    apply_removal between deleted ⟨.channel, ⟨3⟩, none⟩ ⟨1⟩ rfl rfl rfl
  obtain rfl : "voice_state_ids" = field := Option.some.inj listed
  obtain rfl : "channel_ids" = other := Option.some.inj listedToo
  exact ⟨gone, stays.mpr ⟨voice, .inl rfl⟩, goneToo, staysToo.mpr ⟨channel, .inr rfl⟩⟩

end Cache

end GatewayCache
