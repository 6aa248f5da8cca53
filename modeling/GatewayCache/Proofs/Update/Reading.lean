import Mathlib.Data.List.Forall2
import GatewayCache.Processing.Turn
import GatewayCache.Proofs.Cache.Handler

/-! # What updates are read as

What an update can be read as is limited by its kind. In particular the guild that it
completes or leaves can be seen from its content: only chunks of members, creations
and deletions of guilds are about that.
-/

namespace GatewayCache

namespace UpdateKind

theorem name_of_ofName? {text : String} {kind : UpdateKind} (known : ofName? text = some kind) :
    text = kind.name := by
  have same := List.find?_some known
  exact (beq_iff_eq.mp same).symm

theorem ofName?_name (kind : UpdateKind) : ofName? kind.name = some kind := by
  cases kind <;> decide

theorem name_ne {kind other : UpdateKind} (apart : kind ≠ other) : kind.name ≠ other.name := by
  intro same
  have found := ofName?_name kind
  rw [same, ofName?_name other] at found
  exact apart (Option.some.inj found).symm

end UpdateKind

namespace Update

theorem relationId_of_requireId {kind : UpdateKind} {fields : Fields} {field : String}
    {id : Snowflake} (required : requireId kind fields field = .ok id) :
    fields.relationId field = some id := by
  cases found : fields.get? field with
  | none => simp [requireId, found] at required
  | some value =>
    cases read : Snowflake.ofJson? value with
    | none => cases value <;> simp_all [requireId, Snowflake.readJson]
    | some other =>
      cases value <;> simp_all [requireId, Snowflake.readJson, Fields.relationId]

theorem requireId_of_relationId (kind : UpdateKind) {fields : Fields} {field : String}
    {id : Snowflake} (named : fields.relationId field = some id) :
    requireId kind fields field = .ok id := by
  cases found : fields.get? field with
  | none => simp [Fields.relationId, found] at named
  | some value =>
    have readable : Snowflake.ofJson? value = some id := by
      simpa [Fields.relationId, found] using named
    have readsJson : Snowflake.readJson value = .ok id := by
      rw [Snowflake.readJson, readable, Option.elim_some]
    cases value with
    | null => cases readable
    | bool | num | str | arr | obj => simpa only [requireId, found] using readsJson

theorem get?_of_require {kind : UpdateKind} {fields : Fields} {field : String} {value : Json}
    (reads : require kind fields field = .ok value) : fields.get? field = some value := by
  cases found : fields.get? field with
  | none => simp [require, found] at reads
  | some here => simpa [require, found] using reads

theorem of_bind_eq_ok {α β : Type} {first : Except CacheError α} {next : α → Except CacheError β}
    {result : β} (done : (first >>= next) = .ok result) :
    ∃ value, first = .ok value ∧ next value = .ok result := by
  cases first with
  | error => cases done
  | ok value => exact ⟨value, rfl, done⟩

section Lists

variable {kind : Kind} {guild : Snowflake} {items : List Json} {splits : List Split}

/-- Entities of one kind in a guild, each of them taken apart. -/
abbrev EachApart (kind : Kind) (guild : Snowflake) : List Json → List Split → Prop :=
  List.Forall₂ (fun item split => Split.ofJson kind (some guild) item = .ok split)

theorem eachApart_of_splitAll (reads : splitAll kind guild items = .ok splits) :
    EachApart kind guild items splits := by
  induction items generalizing splits with
  | nil =>
    obtain rfl : [] = splits := by simpa [splitAll] using reads
    exact .nil
  | cons item rest ih =>
    obtain ⟨first, apart, more⟩ := of_bind_eq_ok reads
    obtain ⟨others, later, done⟩ := of_bind_eq_ok more
    obtain rfl : first :: others = splits := by simpa using done
    exact .cons apart (ih later)

theorem entity_of_eachApart (apart : EachApart kind guild items splits) {split : Split}
    (member : split ∈ splits) : ∃ item ∈ items, Split.ofJson kind (some guild) item = .ok split := by
  induction apart with
  | nil => cases member
  | cons first _ ih =>
    rcases List.mem_cons.mp member with rfl | later
    · exact ⟨_, List.mem_cons_self, first⟩
    · obtain ⟨item, here, done⟩ := ih later
      exact ⟨item, List.mem_cons_of_mem _ here, done⟩

theorem split_of_eachApart (apart : EachApart kind guild items splits) {item : Json}
    (here : item ∈ items) : ∃ split ∈ splits, Split.ofJson kind (some guild) item = .ok split := by
  induction apart with
  | nil => cases here
  | cons first _ ih =>
    rcases List.mem_cons.mp here with rfl | later
    · exact ⟨_, List.mem_cons_self, first⟩
    · obtain ⟨split, member, done⟩ := ih later
      exact ⟨split, List.mem_cons_of_mem _ member, done⟩

theorem eachApart_of_splitList {update : UpdateKind} {fields : Fields} {field : String}
    (reads : splitList update fields field kind guild = .ok splits) :
    ∃ items, fields.get? field = some (.arr items) ∧ EachApart kind guild items splits := by
  cases found : fields.get? field with
  | none => simp [splitList, found] at reads
  | some value =>
    cases value with
    | arr items =>
      simp only [splitList, found, Option.bind_some, Json.items?] at reads
      exact ⟨items, rfl, eachApart_of_splitAll reads⟩
    | null | bool | num | str | obj => simp [splitList, found, Json.items?] at reads

end Lists

/-- Whatever is read has a property. -/
def Yields (property : Update → Prop) (reading : Except CacheError Update) : Prop :=
  ∀ update, reading = .ok update → property update

namespace Yields

variable {property : Update → Prop}

theorem ok {update : Update} (holds : property update) : Yields property (.ok update) := by
  rintro _ ⟨⟩
  exact holds

theorem error (error : CacheError) : Yields property (.error error) := by
  rintro _ ⟨⟩

theorem bind {α : Type} {first : Except CacheError α} {next : α → Except CacheError Update}
    (yields : ∀ value, first = .ok value → Yields property (next value)) :
    Yields property (first >>= next) := by
  intro update reads
  obtain ⟨value, found, rest⟩ := of_bind_eq_ok reads
  exact yields value found update rest

theorem ofFields {kind : UpdateKind} {fields : Fields} {next : Fields → Except CacheError Update}
    (yields : Yields property (next fields)) :
    Yields property (fieldsOf kind (.obj fields) >>= next) := yields

end Yields

/-- What an update of a kind may be read as: a guild is created, deleted and told the members of by kinds
of their own, and an emoji is never added alone. -/
def Fits (kind : UpdateKind) : Update → Prop
  | .guildAvailable guild | .guildPending guild =>
    kind = .guildCreate ∧ guild.root.kind = .guild ∧ guild.root.key = .global guild.root.id
  | .guildOutage _ | .guildLeft _ => kind = .guildDelete
  | .membersListed .. => kind = .guildMembersChunk
  | .added entity => entity.root.kind ≠ .emoji
  | _ => True

theorem guild_root_key {fields : Fields} {split : Split}
    (apart : Split.ofFields .guild none fields = .ok split) :
    split.root.key = .global split.root.id := by
  have addressed := Split.ofFields_address apart
  simp only [Store.address?, Kind.isScoped, Bool.false_eq_true, if_false,
    Option.some.injEq] at addressed
  exact addressed.symm

theorem readGuildCreate_fits (fields : Fields) :
    Yields (Fits .guildCreate) (readGuildCreate fields) := by
  refine .bind fun _ _ => ?_
  split
  · exact .bind fun split apart => .ok ⟨rfl, (Split.ofFields_root apart).1, guild_root_key apart⟩
  · exact .bind fun split apart => .ok ⟨rfl, (Split.ofFields_root apart).1, guild_root_key apart⟩

theorem readMembersChunk_fits (fields : Fields) :
    Yields (Fits .guildMembersChunk) (readMembersChunk fields) := by
  refine .bind fun _ _ => ?_
  refine .bind fun _ _ => ?_
  simp only
  split
  · exact .error _
  · exact .ok rfl

theorem readBan_fits {kind : UpdateKind} {fields : Fields} {become : Snowflake → Split → Update}
    (fits : ∀ guild split, (become guild split).Fits kind) :
    Yields (Fits kind) (readBan kind fields become) := by
  refine .bind fun guild _ => ?_
  refine .bind fun user _ => ?_
  exact .bind fun split _ => .ok (fits guild split)

theorem readRole_fits {kind : UpdateKind} {fields : Fields} {become : Snowflake → Split → Update}
    (fits : ∀ guild split, (become guild split).Fits kind) :
    Yields (Fits kind) (readRole kind fields become) := by
  refine .bind fun guild _ => ?_
  refine .bind fun role _ => ?_
  exact .bind fun split _ => .ok (fits guild split)

theorem readVoiceState_fits (fields : Fields) :
    Yields (Fits .voiceStateUpdate) (readVoiceState fields) := by
  refine .bind fun guild _ => ?_
  refine .bind fun id _ => ?_
  split
  · exact .ok trivial
  · exact .ok trivial
  · exact .bind fun split _ => .ok trivial

theorem readAdded_fits {update : UpdateKind} {kind : Kind} {data : Json} (other : kind ≠ .emoji) :
    Yields (Fits update) (Split.ofJson kind none data >>= fun split => .ok (.added split)) := by
  refine .bind fun split apart => .ok ?_
  rw [Fits, Split.ofJson_root_kind apart]
  exact other

theorem read_fits (kind : UpdateKind) (data : Json) : Yields (Fits kind) (Update.read kind data) := by
  cases kind with
  | guildCreate => exact .bind fun fields _ => readGuildCreate_fits fields
  | guildDelete =>
    refine .bind fun fields _ => ?_
    refine .bind fun guild _ => ?_
    split <;> exact .ok rfl
  | guildMembersChunk => exact .bind fun fields _ => readMembersChunk_fits fields
  | guildBanAdd | guildBanRemove => exact .bind fun fields _ => readBan_fits fun _ _ => trivial
  | guildRoleCreate | guildRoleUpdate => exact .bind fun fields _ => readRole_fits fun _ _ => trivial
  | voiceStateUpdate => exact .bind fun fields _ => readVoiceState_fits fields
  | guildEmojisUpdate | guildStickersUpdate | webhooksUpdate | integrationDelete
  | guildMemberRemove | guildRoleDelete =>
    refine .bind fun fields _ => ?_
    refine .bind fun _ _ => ?_
    exact .bind fun _ _ => .ok trivial
  | channelDelete | threadDelete | messageDelete | autoModRuleDelete =>
    refine .bind fun fields _ => ?_
    exact .bind fun _ _ => .ok trivial
  | guildMemberAdd | channelCreate | threadCreate | messageCreate | autoModRuleCreate =>
    exact readAdded_fits (by decide)
  | guildUpdate | integrationCreate | integrationUpdate | guildMemberUpdate | channelUpdate
  | threadUpdate | messageUpdate | autoModRuleUpdate =>
    exact .bind fun _ _ => .ok trivial

/-- The guild of a chunk that is the last one. -/
def lastChunk? : Update → Option Snowflake
  | .membersListed guild _ true => some guild
  | _ => none

/-- The guild that can be reached now. -/
def available? : Update → Option Snowflake
  | .guildAvailable guild => some guild.root.id
  | _ => none

/-- The guild that was joined, or is available again. -/
def created? : Update → Option Snowflake
  | .guildAvailable guild | .guildPending guild => some guild.root.id
  | _ => none

/-- The guild that was left. -/
def left? : Update → Option Snowflake
  | .guildLeft guild => some guild
  | _ => none

/-- The content of an update agrees with what is read from it. -/
structure Reflects (dispatch : Dispatch) (update : Update) : Prop where
  /-- On the last chunk. -/
  lastChunk? : dispatch.lastChunk? = update.lastChunk?
  /-- On the guild that can be reached. -/
  available? : dispatch.available? = update.available?
  /-- On the guild that was left. -/
  left? : dispatch.left? = update.left?

theorem readMembersChunk_reflects (fields : Fields) :
    Yields (Reflects ⟨"GUILD_MEMBERS_CHUNK", .obj fields⟩) (readMembersChunk fields) := by
  refine .bind fun guild required => ?_
  refine .bind fun members _ => ?_
  simp only
  split
  · exact .error _
  · refine .ok ⟨?_, rfl, rfl⟩
    have owner := relationId_of_requireId required
    simp only [Dispatch.lastChunk?, Dispatch.fieldsAs?, UpdateKind.name, Json.fields?, if_true,
      owner, Option.bind_eq_bind, Option.bind_some]
    by_cases last : ((fields.unsigned? "chunk_index").getD 0).toNat + 1 =
        ((fields.unsigned? "chunk_count").getD 1).toNat
    · simp [last, lastChunk?]
    · simp [last, lastChunk?]

theorem readGuildCreate_reflects (fields : Fields) :
    Yields (Reflects ⟨"GUILD_CREATE", .obj fields⟩) (readGuildCreate fields) := by
  refine .bind fun guild required => ?_
  have owner := relationId_of_requireId required
  by_cases unavailable : saysUnavailable fields
  · rw [if_pos unavailable]
    refine .bind fun split _ => .ok ⟨rfl, ?_, rfl⟩
    simp [Dispatch.available?, Dispatch.fieldsAs?, UpdateKind.name, Json.fields?, unavailable,
      available?]
  · rw [if_neg unavailable]
    refine .bind fun split apart => .ok ⟨rfl, ?_, rfl⟩
    obtain rfl := Cache.requireId_eq_root_available required apart
    simp [Dispatch.available?, Dispatch.fieldsAs?, UpdateKind.name, Json.fields?, unavailable,
      available?, owner]

theorem readGuildDelete_reflects (fields : Fields) :
    Yields (Reflects ⟨"GUILD_DELETE", .obj fields⟩) (readGuildDelete fields) := by
  refine .bind fun guild required => ?_
  have owner := relationId_of_requireId required
  by_cases unavailable : saysUnavailable fields
  · rw [if_pos unavailable]
    refine .ok ⟨rfl, rfl, ?_⟩
    simp [Dispatch.left?, Dispatch.fieldsAs?, UpdateKind.name, Json.fields?, unavailable, left?]
  · rw [if_neg unavailable]
    refine .ok ⟨rfl, rfl, ?_⟩
    simp [Dispatch.left?, Dispatch.fieldsAs?, UpdateKind.name, Json.fields?, unavailable, left?,
      owner]

/-- Whether an update is about readiness can be told from its content. -/
theorem read_reflects (dispatch : Dispatch) {kind : UpdateKind}
    (known : UpdateKind.ofName? dispatch.name = some kind) :
    Yields (Reflects dispatch) (Update.read kind dispatch.data) := by
  obtain ⟨name, data⟩ := dispatch
  obtain rfl : name = kind.name := UpdateKind.name_of_ofName? known
  by_cases chunk : kind = .guildMembersChunk
  · subst chunk
    refine .bind fun fields reads => ?_
    obtain rfl := Cache.eq_obj_of_fieldsOf reads
    exact readMembersChunk_reflects fields
  by_cases create : kind = .guildCreate
  · subst create
    refine .bind fun fields reads => ?_
    obtain rfl := Cache.eq_obj_of_fieldsOf reads
    exact readGuildCreate_reflects fields
  by_cases delete : kind = .guildDelete
  · subst delete
    refine .bind fun fields reads => ?_
    obtain rfl := Cache.eq_obj_of_fieldsOf reads
    exact readGuildDelete_reflects fields
  -- No other kind is read as one of the updates in question.
  intro update reads
  have fits := read_fits kind data update reads
  refine ⟨?_, ?_, ?_⟩
  · have silent : update.lastChunk? = none := by
      cases update with
      | membersListed => exact absurd fits chunk
      | _ => rfl
    simp [Dispatch.lastChunk?, Dispatch.fieldsAs?, UpdateKind.name_ne chunk, silent]
  · have silent : update.available? = none := by
      cases update with
      | guildAvailable => exact absurd fits.1 create
      | _ => rfl
    simp [Dispatch.available?, Dispatch.fieldsAs?, UpdateKind.name_ne create, silent]
  · have silent : update.left? = none := by
      cases update with
      | guildLeft => exact absurd fits delete
      | _ => rfl
    simp [Dispatch.left?, Dispatch.fieldsAs?, UpdateKind.name_ne delete, silent]

theorem readGuildCreate_created (fields : Fields) :
    Yields (fun update => fields.relationId "id" = update.created?) (readGuildCreate fields) := by
  refine .bind fun guild required => ?_
  rw [relationId_of_requireId required]
  split
  · exact .bind fun split apart => .ok (congrArg some (Cache.requireId_eq_root required apart))
  · exact .bind fun split apart =>
      .ok (congrArg some (Cache.requireId_eq_root_available required apart))

theorem read_created (dispatch : Dispatch) {kind : UpdateKind}
    (known : UpdateKind.ofName? dispatch.name = some kind) :
    Yields (fun update => dispatch.created? = update.created?) (Update.read kind dispatch.data) := by
  obtain ⟨name, data⟩ := dispatch
  obtain rfl : name = kind.name := UpdateKind.name_of_ofName? known
  by_cases create : kind = .guildCreate
  · subst create
    refine .bind fun fields reads => ?_
    obtain rfl := Cache.eq_obj_of_fieldsOf reads
    exact readGuildCreate_created fields
  intro update reads
  have fits := read_fits kind data update reads
  have silent : update.created? = none := by
    cases update with
    | guildAvailable | guildPending => exact absurd fits.1 create
    | _ => rfl
  simp [Dispatch.created?, Dispatch.fieldsAs?, UpdateKind.name_ne create, silent]

end Update

end GatewayCache
