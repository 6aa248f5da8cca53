import GatewayCache.Proofs.Cache.Leaving
import GatewayCache.Proofs.Split.Owners
import GatewayCache.Proofs.Store.Frame
import GatewayCache.Proofs.Update.Reading

/-! # Guilds are kept apart

An update of one guild leaves what is inside other guilds alone, their records, and
the records outside that name them. Two ways lead out of a guild none the less. A
payload in the update goes where it says itself, and records that are kept outside of
guilds can be reached by their id alone.
-/

namespace GatewayCache

namespace Store

/-- The kinds that are kept outside of guilds and name theirs in a field. -/
def outside : List Kind := [.channel, .thread, .sticker, .integration, .autoModRule]

/-- Nothing of a guild was created, changed or removed, apart from records outside of it that are
reached by their id. -/
structure Isolated (before after : Store) (guild : Snowflake) (reached : Kind → Snowflake → Prop) :
    Prop where
  /-- What is inside the guild is as it was. -/
  inside : ∀ kind id, after.getScoped kind guild id = before.getScoped kind guild id
  /-- The record of the guild is as it was. -/
  record : after.guild? guild = before.guild? guild
  /-- The records that name the guild are those that named it, with the same fields. -/
  naming : ∀ kind ∈ outside, ∀ id, ¬ reached kind id → ∀ record : Record,
    record.fields.relationId "guild_id" = some guild →
      (after.get kind id = some record ↔ before.get kind id = some record)

/-- The cells that a guild has a say in, whatever they hold. -/
def Foreign (guild : Snowflake) (reached : Kind → Snowflake → Prop) (kind : Kind) : Key → Prop
  | .scoped owner _ => owner = guild
  | .global id => kind = .guild ∧ id = guild ∨ kind ∈ outside ∧ ¬ reached kind id

variable {before after store : Store} {guild other : Snowflake} {reached : Kind → Snowflake → Prop}

theorem isScoped_of_outside {kind : Kind} (among : kind ∈ outside) : kind.isScoped = false := by
  simp only [outside, List.mem_cons, List.not_mem_nil, or_false] at among
  rcases among with rfl | rfl | rfl | rfl | rfl <;> rfl

theorem isolated_of_keeps (keeps : Keeps (Foreign other reached) before after) :
    Isolated before after other reached := by
  refine ⟨fun kind id => ?_, ?_, fun kind among id spared record _ => ?_⟩
  · have same := keeps kind (.scoped other id) rfl
    simp only [getScoped, recordAt, same]
  · have same := keeps .guild (.global other) (.inl ⟨rfl, rfl⟩)
    simp only [guild?, recordAt, same]
  · have same := keeps kind (.global id) (.inr ⟨among, spared⟩)
    simp only [get, isScoped_of_outside among, Bool.false_eq_true, if_false, recordAt, same]

theorem not_goesWith {kind : Kind} (among : kind ∈ outside) {id : Snowflake} {fields : Fields}
    (named : fields.relationId "guild_id" = some other) (apart : other ≠ guild)
    (unlisted : ∀ entry ∈ listedKinds, entry.1 = kind → id ∉ store.listed guild entry.2) :
    store.goesWith guild ⟨kind, id⟩ fields = false := by
  have notGuild : kind ≠ .guild := by
    rintro rfl
    simp [outside] at among
  have lists : listedKinds.any
      (fun entry => isAmong entry.1 (store.listed guild entry.2) ⟨kind, id⟩) = false := by
    rw [List.any_eq_false]
    intro entry member
    by_cases same : entry.1 = kind
    · simpa [isAmong, same] using unlisted entry member same
    · simp [isAmong, Ne.symm same]
  have names : namingKinds.any (fun kind' => namesGuild kind' guild ⟨kind, id⟩ fields) = false := by
    rw [List.any_eq_false]
    intro kind' _
    simp [namesGuild, named, apart]
  simp [goesWith, lists, names, notGuild]

/-- Evicting a guild takes only records outside of it that its record lists or that name it. -/
theorem isolated_evict (apart : other ≠ guild)
    (listed : ∀ entry ∈ listedKinds, ∀ id ∈ store.listed guild entry.2, reached entry.1 id) :
    Isolated store (store.evict guild).2 other reached := by
  refine ⟨fun kind id => ?_, ?_, fun kind among id spared record named => ?_⟩
  · simp [getScoped, recordAt, fieldsAt, shelf, evict_snd, Key.guild?, Std.ExtTreeMap.getElem?_erase,
      apart.symm]
  · have stays : ∀ fields, store.goesWith guild ⟨.guild, other⟩ fields = false := by
      intro fields
      simp [goesWith, listedKinds, namingKinds, isAmong, namesGuild, apart]
    simp only [guild?, recordAt, fieldsAt, shelf, evict_snd, Key.guild?, Key.id,
      Std.ExtTreeMap.getElem?_filter', stays]
    cases store.globals[Slot.mk .guild other]? <;> rfl
  · have unlisted : ∀ entry ∈ listedKinds, entry.1 = kind → id ∉ store.listed guild entry.2 := by
      rintro entry member rfl here
      exact spared (listed entry member id here)
    simp only [get, isScoped_of_outside among, Bool.false_eq_true, if_false, recordAt, fieldsAt,
      shelf, evict_snd, Key.guild?, Key.id, Std.ExtTreeMap.getElem?_filter']
    cases found : store.globals[Slot.mk kind id]? with
    | none => rfl
    | some fields =>
      by_cases names : fields.relationId "guild_id" = some other
      · have stays := not_goesWith among names apart unlisted
        simp [Option.filter, stays]
      · have different : (⟨kind, .global id, fields⟩ : Record) ≠ record := by
          rintro rfl
          exact names named
        cases store.goesWith guild ⟨kind, id⟩ fields <;> simp [Option.filter, different]

end Store

/-- The records outside of guilds that an update of one guild reaches by their id, whatever guild they
name. -/
inductive Dispatch.Reaches (dispatch : Dispatch) (store : Store) : Kind → Snowflake → Prop
  /-- The guild is left, and its record lists them. -/
  | evicted {guild : Snowflake} {entry : Kind × String} {id : Snowflake}
      (left : dispatch.left? = some guild) (among : entry ∈ Store.listedKinds)
      (listed : id ∈ store.listed guild entry.2) : Reaches dispatch store entry.1 id
  /-- The stickers of the guild are replaced, and its record lists them. -/
  | replaced {fields : Fields} {guild id : Snowflake}
      (update : dispatch.fieldsAs? .guildStickersUpdate = some fields)
      (owner : fields.relationId "guild_id" = some guild)
      (listed : id ∈ store.listed guild "sticker_ids") : Reaches dispatch store .sticker id
  /-- They are stickers in the update itself. -/
  | carried {fields : Fields} {entity : Json} {id : Snowflake}
      (update : dispatch.fieldsAs? .guildStickersUpdate = some fields)
      (among : entity ∈ dispatch.entities)
      (named : (entity.get? "id").bind Snowflake.ofJson? = some id) :
      Reaches dispatch store .sticker id

namespace Split

open Store

variable {guild other : Snowflake} {reached : Kind → Snowflake → Prop} {kind : Kind} {item : Json}
  {split : Split} {record : Record}

/-- All records of a payload stay off some cells. -/
def Off (cells : Kind → Key → Prop) (split : Split) : Prop :=
  ∀ record ∈ split.records, ¬ cells record.kind record.key

theorem not_foreign_of_user (user : OfUser record) :
    ¬ Foreign other reached record.kind record.key := by
  obtain ⟨kind, key, fields⟩ := record
  obtain ⟨rfl, global⟩ := user
  rcases key with id | ⟨owner, id⟩
  · simp [Foreign, outside]
  · cases global

theorem not_foreign_of_guild? (elsewhere : ∃ owner, record.key.guild? = some owner ∧ owner ≠ other) :
    ¬ Foreign other reached record.kind record.key := by
  obtain ⟨kind, key, fields⟩ := record
  obtain ⟨owner, inside, apart⟩ := elsewhere
  rcases key with id | ⟨place, id⟩
  · cases inside
  · cases inside
    exact apart

theorem or_ne {named : Option Snowflake} (own : named ≠ some other) (apart : other ≠ guild) :
    ∃ owner, named.or (some guild) = some owner ∧ owner ≠ other := by
  cases named with
  | none => exact ⟨guild, rfl, apart.symm⟩
  | some owner =>
    refine ⟨owner, rfl, ?_⟩
    rintro rfl
    exact own rfl

theorem off_of_root (leaf : kind = .member ∨ kind = .role ∨ kind = .emoji ∨ kind = .sticker)
    (done : ofJson kind (some guild) item = .ok split)
    (root : ¬ Foreign other reached split.root.kind split.root.key) :
    split.Off (Foreign other reached) := by
  obtain ⟨payload, rfl, apart⟩ := obj_of_ofJson done
  intro record member
  rcases mem_records.mp member with embedded | rfl
  · refine not_foreign_of_user ?_
    rcases leaf with rfl | rfl | rfl | rfl
    · exact ofUser_of_embedded rfl (by decide) apart record embedded
    · have none : split.embedded = [] := embedded_of_no_relation rfl apart
      simp [none] at embedded
    · exact ofUser_of_embedded rfl (by decide) apart record embedded
    · exact ofUser_of_embedded rfl (by decide) apart record embedded
  · exact root

theorem off_of_owner (leaf : kind = .member ∨ kind = .role ∨ kind = .emoji) (apart : other ≠ guild)
    (own : item.owner? ≠ some other) (done : ofJson kind (some guild) item = .ok split) :
    split.Off (Foreign other reached) := by
  have inGuild : kind.isScoped := by
    rcases leaf with rfl | rfl | rfl <;> rfl
  refine off_of_root ?_ done (not_foreign_of_guild? ?_)
  · rcases leaf with rfl | rfl | rfl <;> simp
  · obtain ⟨payload, rfl, taken⟩ := obj_of_ofJson done
    rw [root_guild? inGuild taken]
    exact or_ne own apart

theorem off_of_sticker (done : ofJson .sticker (some guild) item = .ok split)
    (carried : ∀ id, (item.get? "id").bind Snowflake.ofJson? = some id → reached .sticker id) :
    split.Off (Foreign other reached) := by
  refine off_of_root (by simp) done ?_
  obtain ⟨payload, rfl, taken⟩ := obj_of_ofJson done
  obtain ⟨kind, identified⟩ := ofFields_root taken
  have addressed := ofFields_address taken
  simp only [address?, Kind.isScoped, Bool.false_eq_true, if_false, Option.some.injEq] at addressed
  have named : payload.relationId "id" = some split.root.key.id := by
    simp only [Kind.identify, Kind.identifier?] at identified
    cases found : payload.get? "id" with
    | none => simp [found] at identified
    | some value =>
      cases reads : Snowflake.ofJson? value with
      | none => cases value <;> simp_all [Snowflake.readJson]
      | some id => cases value <;> simp_all [Snowflake.readJson, Fields.relationId, Record.id]
  rw [kind, ← addressed]
  rintro (⟨same, -⟩ | ⟨-, spared⟩)
  · cases same
  · exact spared (carried _ named)

theorem off_of_voiceState {payload : Fields} (apart : other ≠ guild)
    (own : payload.relationId "guild_id" = some guild)
    (within : ∀ object : Fields, payload.get? "member" = some (.obj object) →
      object.relationId "guild_id" ≠ some other)
    (done : ofFields .voiceState (some guild) payload = .ok split) :
    split.Off (Foreign other reached) := by
  intro record member
  rcases mem_records.mp member with embedded | rfl
  · rcases embedded_of_voiceState done embedded with user | ⟨object, found, -, owner⟩
    · exact not_foreign_of_user user
    · refine not_foreign_of_guild? ?_
      rw [owner, own]
      exact or_ne (within object found) apart
  · refine not_foreign_of_guild? ?_
    rw [root_guild? rfl done, own]
    exact ⟨guild, rfl, apart.symm⟩

end Split

namespace Update

/-- An update of one guild that stays off some cells, apart from those of the guild itself. -/
def Off (cells : Kind → Key → Prop) (store : Store) (guild : Snowflake) : Update → Prop
  | .membersListed _ members _ => ∀ split ∈ members, split.Off cells
  | .roleAdded owner role | .roleChanged owner role => owner = guild ∧ role.Off cells
  | .emojisReplaced owner emojis => owner = guild ∧ ∀ split ∈ emojis, split.Off cells
  | .stickersReplaced owner stickers =>
    owner = guild ∧ (∀ split ∈ stickers, split.Off cells) ∧
      ∀ id ∈ store.listed guild "sticker_ids", ¬ cells .sticker (.global id)
  | .removed kind key owner =>
    (owner = none ∨ owner = some guild) ∧ Store.address? kind key = some key ∧ ¬ cells kind key
  | .voiceChanged voice => voice.Off cells
  | .guildOutage owner => owner = guild
  | _ => False

end Update

namespace Cache

open Store

variable {cells : Kind → Key → Prop} {cache : Cache} {guild : Snowflake}

theorem keeps_place {split : Split} (off : split.Off cells) (config : Config) (store : Store) :
    Keeps cells store (store.place config split).2 := by
  rw [place_snd]
  exact keeps_writeAll config off store

theorem keeps_placeAll {splits : List Split} (off : ∀ split ∈ splits, split.Off cells)
    (config : Config) (store : Store) : Keeps cells store (store.placeAll config splits).2 := by
  rw [placeAll_snd]
  refine keeps_writeAll config (fun record member => ?_) store
  obtain ⟨split, here, inside⟩ := List.mem_flatMap.mp member
  exact off split here record inside

theorem keeps_linked (own : ¬ cells .guild (.global guild)) (kind : Kind) (id : Snowflake) :
    Keeps cells cache.store (cache.linked (some guild) kind id).store := by
  unfold linked
  split
  · next owner field same _ =>
    cases same
    exact keeps_link own cache.store
  · exact .refl cells cache.store

theorem keeps_unlinked {owner : Option Snowflake} (known : owner = none ∨ owner = some guild)
    (own : ¬ cells .guild (.global guild)) (kind : Kind) (id : Snowflake) :
    Keeps cells cache.store (cache.unlinked owner kind id).store := by
  rcases known with rfl | rfl
  · exact .refl cells cache.store
  · unfold unlinked
    split
    · next owner field same _ =>
      cases same
      exact keeps_unlink own cache.store
    · exact .refl cells cache.store

/-- An update of one guild keeps every cell that it stays off. -/
theorem perform_keeps (own : ¬ cells .guild (.global guild))
    (inside : ∀ id, ¬ cells .emoji (.scoped guild id)) {update : Update}
    (off : update.Off cells cache.store guild) :
    Keeps cells cache.store (cache.perform update).1.store := by
  cases update with
  | membersListed owner members last =>
    have stored : (cache.perform (.membersListed owner members last)).1.store =
        (cache.store.placeAll cache.config members).2 := by
      cases last <;> rfl
    rw [stored]
    exact keeps_placeAll off cache.config cache.store
  | roleAdded owner role | roleChanged owner role =>
    obtain ⟨rfl, off⟩ := off
    exact (keeps_place off cache.config cache.store).trans (keeps_linked own _ _)
  | emojisReplaced owner emojis =>
    obtain ⟨rfl, off⟩ := off
    refine (keeps_placeAll off cache.config cache.store).trans ?_
    refine Keeps.trans ?_ (keeps_setList own _ _ _)
    exact keeps_deletes (fun _ => rfl) (fun id _ => inside id) _
  | stickersReplaced owner stickers =>
    obtain ⟨rfl, off, listed⟩ := off
    refine (keeps_placeAll off cache.config cache.store).trans ?_
    refine Keeps.trans ?_ (keeps_setList own _ _ _)
    refine keeps_deletes (fun _ => rfl) (fun id stale => listed id ?_) _
    exact (mem_stickersOf.mp (mem_staleIds.mp stale).1).1
  | removed kind key owner =>
    obtain ⟨known, fit, off⟩ := off
    exact (keeps_unlinked known own kind key.id).trans (keeps_delete off fit _)
  | voiceChanged voice => exact keeps_place off cache.config cache.store
  | guildOutage owner =>
    obtain rfl := off
    simp only [perform, guildOutage]
    split
    · exact keeps_write own cache.store _
    · exact .refl cells cache.store
  | guildAvailable | guildPending | guildChanged | guildLeft | banAdded | banLifted
  | webhooksChanged | integrationAdded | integrationChanged | integrationRemoved | added
  | changed => cases off

end Cache

namespace Dispatch

variable {kind : UpdateKind} {field : String} {fields : Fields} {target : Kind} {guild : Snowflake}

theorem fieldsAs?_self (kind : UpdateKind) (fields : Fields) :
    (⟨kind.name, .obj fields⟩ : Dispatch).fieldsAs? kind = some fields := by
  simp [fieldsAs?, Json.fields?]

theorem mem_entities_of_splitList {splits : List Split}
    (reads : Update.splitList kind fields field target guild = .ok splits)
    (listed : kind.entityField? = some field) {split : Split} (member : split ∈ splits) :
    ∃ item ∈ (⟨kind.name, .obj fields⟩ : Dispatch).entities,
      Split.ofJson target (some guild) item = .ok split := by
  obtain ⟨items, found, each⟩ := Update.eachApart_of_splitList reads
  obtain ⟨item, here, apart⟩ := Update.entity_of_eachApart each member
  refine ⟨item, ?_, apart⟩
  simpa [entities, UpdateKind.ofName?_name, listed, Json.get?, Json.fields?, found] using here

theorem mem_entities_of_get? {object : Fields} (held : kind.entityField? = some field)
    (found : fields.get? field = some (.obj object)) :
    .obj object ∈ (⟨kind.name, .obj fields⟩ : Dispatch).entities := by
  simp [entities, UpdateKind.ofName?_name, held, Json.get?, Json.fields?, found]

end Dispatch

namespace Update

open Store

variable {kind : UpdateKind} {field : String} {fields : Fields} {guild other : Snowflake}
  {store : Store}

theorem eq_of_requireId {id : Snowflake} (required : requireId kind fields field = .ok id)
    (owner : fields.relationId field = some guild) : id = guild :=
  Option.some.inj ((relationId_of_requireId required).symm.trans owner)

/-- An update that leaves a guild or stays off what another guild has a say in. -/
def Within (dispatch : Dispatch) (store : Store) (guild other : Snowflake) (update : Update) : Prop :=
  update = .guildLeft guild ∨ update.Off (Foreign other (dispatch.Reaches store)) store guild

theorem not_foreign_scoped {reached : Kind → Snowflake → Prop} (apart : other ≠ guild) (kind : Kind)
    (id : Snowflake) : ¬ Foreign other reached kind (.scoped guild id) :=
  fun same => apart same.symm

theorem readRole_within {become : Snowflake → Split → Update}
    (becomes : ∀ cells store role, role.Off cells → (become guild role).Off cells store guild)
    (owner : fields.relationId "guild_id" = some guild) (apart : other ≠ guild)
    (entity : kind.entityField? = some "role")
    (own : ∀ entity ∈ (⟨kind.name, .obj fields⟩ : Dispatch).entities, entity.owner? ≠ some other) :
    Yields (Within ⟨kind.name, .obj fields⟩ store guild other) (readRole kind fields become) := by
  refine .bind fun id required => ?_
  obtain rfl := eq_of_requireId required owner
  refine .bind fun value found => ?_
  refine .bind fun role taken => .ok (.inr (becomes _ _ role ?_))
  obtain ⟨object, rfl, -⟩ := Split.obj_of_ofJson taken
  have among := Dispatch.mem_entities_of_get? entity (get?_of_require found)
  exact Split.off_of_owner (by simp) apart (own (.obj object) among) taken

theorem yields_of_requireId {property : Update → Prop}
    {next : Fields → Snowflake → Except CacheError Update}
    (owner : fields.relationId field = some guild) (yields : Yields property (next fields guild)) :
    Yields property
      (fieldsOf kind (.obj fields) >>= fun payload => requireId kind payload field >>= next payload) := by
  refine .ofFields (.bind fun id required => ?_)
  obtain rfl := eq_of_requireId required owner
  exact yields

/-- What is read of an update that is addressed to a guild stays within it. -/
theorem read_within (addressed : kind.addressField? = some field)
    (owner : fields.relationId field = some guild) (apart : other ≠ guild)
    (own : ∀ entity ∈ (⟨kind.name, .obj fields⟩ : Dispatch).entities, entity.owner? ≠ some other) :
    Yields (Within ⟨kind.name, .obj fields⟩ store guild other) (read kind (.obj fields)) := by
  by_cases delete : kind = .guildDelete
  · subst delete
    obtain rfl : "id" = field := Option.some.inj addressed
    refine yields_of_requireId owner ?_
    split
    · exact .ok (.inr rfl)
    · exact .ok (.inl rfl)
  -- Deletions apart, the guild stands in one and the same field.
  obtain rfl : field = "guild_id" := by
    cases kind <;> simp_all [UpdateKind.addressField?]
  cases kind with
  | guildMembersChunk =>
    refine yields_of_requireId owner (.bind fun members reads => ?_)
    simp only
    split
    · exact .error _
    · refine .ok (.inr fun split member => ?_)
      obtain ⟨item, here, taken⟩ := Dispatch.mem_entities_of_splitList reads rfl member
      exact Split.off_of_owner (by simp) apart (own item here) taken
  | guildRoleCreate | guildRoleUpdate =>
    exact .ofFields <| readRole_within (fun _ _ _ off => ⟨rfl, off⟩) owner apart rfl own
  | guildRoleDelete =>
    refine yields_of_requireId owner (.bind fun role _ => .ok (.inr ?_))
    exact ⟨.inr rfl, rfl, not_foreign_scoped apart .role role⟩
  | guildMemberRemove =>
    refine yields_of_requireId owner (.bind fun user _ => .ok (.inr ?_))
    exact ⟨.inr rfl, rfl, not_foreign_scoped apart .member user⟩
  | guildEmojisUpdate =>
    refine yields_of_requireId owner (.bind fun emojis reads => .ok (.inr ⟨rfl, ?_⟩))
    intro split member
    obtain ⟨item, here, taken⟩ := Dispatch.mem_entities_of_splitList reads rfl member
    exact Split.off_of_owner (by simp) apart (own item here) taken
  | guildStickersUpdate =>
    have update := Dispatch.fieldsAs?_self .guildStickersUpdate fields
    refine yields_of_requireId owner (.bind fun stickers reads => .ok (.inr ⟨rfl, ?_, ?_⟩))
    · intro split member
      obtain ⟨item, here, taken⟩ := Dispatch.mem_entities_of_splitList reads rfl member
      exact Split.off_of_sticker taken fun id named => .carried update here named
    · rintro id listed (⟨same, -⟩ | ⟨-, spared⟩)
      · cases same
      · exact spared (.replaced update owner listed)
  | voiceStateUpdate =>
    refine yields_of_requireId owner (.bind fun user _ => ?_)
    have left : (Update.removed .voiceState (.scoped guild user) none).Off
        (Foreign other (Dispatch.Reaches ⟨"VOICE_STATE_UPDATE", .obj fields⟩ store)) store guild :=
      ⟨.inl rfl, rfl, not_foreign_scoped apart .voiceState user⟩
    split
    · exact .ok (.inr left)
    · exact .ok (.inr left)
    · refine .bind fun voice taken => .ok (.inr ?_)
      refine Split.off_of_voiceState apart owner (fun object found => ?_) taken
      exact own (.obj object) (Dispatch.mem_entities_of_get? rfl found)
  | guildDelete => exact absurd rfl delete
  | _ => cases addressed

end Update

namespace Cache

open Store

theorem addressee?_eq_some {dispatch : Dispatch} {guild : Snowflake}
    (addressed : dispatch.addressee? = some guild) :
    ∃ (kind : UpdateKind) (fields : Fields) (field : String),
      dispatch = ⟨kind.name, .obj fields⟩ ∧ kind.addressField? = some field ∧
        fields.relationId field = some guild := by
  obtain ⟨name, data⟩ := dispatch
  simp only [Dispatch.addressee?, Option.bind_eq_bind, Option.bind_eq_some_iff] at addressed
  obtain ⟨kind, known, fields, object, field, addresses, owner⟩ := addressed
  obtain rfl := UpdateKind.name_of_ofName? known
  cases data with
  | obj payload =>
    cases object
    exact ⟨kind, fields, field, rfl, addresses, owner⟩
  | null | bool | num | str | arr => cases object

/-- An update that is addressed to one guild leaves every other guild alone, unless an entity in it
names that guild as its own: what is inside the other guild, its record, and the records outside of
guilds that name it are as they were, but for those that the update reaches by their id alone. -/
theorem apply_isolated (cache : Cache) (dispatch : Dispatch) (guild other : Snowflake)
    (addressed : dispatch.addressee? = some guild) (apart : other ≠ guild)
    (own : ∀ entity ∈ dispatch.entities, entity.owner? ≠ some other) :
    cache.store.Isolated (cache.apply dispatch).2.store other (dispatch.Reaches cache.store) := by
  obtain ⟨kind, fields, field, rfl, addresses, owner⟩ := addressee?_eq_some addressed
  rw [apply_eq, UpdateKind.ofName?_name]
  cases reads : Update.read kind (.obj fields) with
  | error error =>
    simp only [reads]
    exact isolated_of_keeps (.refl _ cache.store)
  | ok update =>
    simp only [reads]
    rcases Update.read_within addresses owner apart own update reads with rfl | off
    · have reflects := Update.read_reflects ⟨kind.name, .obj fields⟩ (UpdateKind.ofName?_name kind)
        (.guildLeft guild) reads
      have left : (⟨kind.name, .obj fields⟩ : Dispatch).left? = some guild := reflects.left?
      exact isolated_evict apart fun entry among id listed => .evicted left among listed
    · have notGuild : ¬ Foreign other ((⟨kind.name, .obj fields⟩ : Dispatch).Reaches cache.store)
          .guild (.global guild) := by
        rintro (⟨-, same⟩ | ⟨among, -⟩)
        · exact apart same.symm
        · simp [outside] at among
      exact isolated_of_keeps
        (perform_keeps notGuild (Update.not_foreign_scoped apart .emoji) off)

/-- A user is a member of two guilds, and a chunk of one guild leaves its nick in the other alone. -/
theorem apply_isolated_chunk :
    let before := (empty {}).applyAll
      [⟨"GUILD_MEMBER_ADD", .obj
        [("guild_id", .str "2"), ("nick", .str "a"), ("user", .obj [("id", .str "5")])]⟩]
    let chunk : Dispatch := ⟨"GUILD_MEMBERS_CHUNK", .obj
      [("guild_id", .str "1"),
       ("members", .arr [.obj [("nick", .str "b"), ("user", .obj [("id", .str "5")])]])]⟩
    (before.store.getScoped .member ⟨2⟩ ⟨5⟩).isSome ∧
      (before.apply chunk).2.store.getScoped .member ⟨2⟩ ⟨5⟩ =
        before.store.getScoped .member ⟨2⟩ ⟨5⟩ := by
  intro before chunk
  refine ⟨by decide +kernel, ?_⟩
  have isolated := apply_isolated before chunk ⟨1⟩ ⟨2⟩ (by decide +kernel) (by decide)
    (by decide +kernel)
  exact isolated.inside .member ⟨5⟩

/-- A chunk of guild 1 stores a member in guild 2, which that member names; guild 1 is left, and a
channel goes that it lists but that names guild 2; and a sticker of guild 2 comes to guild 1, whose update
carries it. -/
theorem not_isolated :
    let chunk : Dispatch := ⟨"GUILD_MEMBERS_CHUNK", .obj
      [("guild_id", .str "1"),
       ("members", .arr [.obj [("guild_id", .str "2"), ("user", .obj [("id", .str "5")])]])]⟩
    let joined := (empty {}).applyAll
      [⟨"GUILD_CREATE", .obj
        [("channels", .arr [.obj [("guild_id", .str "2"), ("id", .str "7")]]), ("id", .str "1")]⟩]
    let leaving : Dispatch := ⟨"GUILD_DELETE", .obj [("id", .str "1")]⟩
    let other := (empty {}).applyAll
      [⟨"GUILD_STICKERS_UPDATE", .obj
        [("guild_id", .str "2"), ("stickers", .arr [.obj [("id", .str "9")]])]⟩]
    let stickers : Dispatch := ⟨"GUILD_STICKERS_UPDATE", .obj
      [("guild_id", .str "1"), ("stickers", .arr [.obj [("id", .str "9")]])]⟩
    let owner (cache : Cache) (kind : Kind) (id : Snowflake) : Option Snowflake :=
      (cache.store.get kind id).bind (·.fields.relationId "guild_id")
    (chunk.addressee? = some ⟨1⟩ ∧ (empty {}).store.getScoped .member ⟨2⟩ ⟨5⟩ = none ∧
        ((empty {}).apply chunk).2.store.getScoped .member ⟨2⟩ ⟨5⟩ ≠ none) ∧
      (leaving.addressee? = some ⟨1⟩ ∧ owner joined .channel ⟨7⟩ = some ⟨2⟩ ∧
        (joined.apply leaving).2.store.get .channel ⟨7⟩ = none) ∧
      (stickers.addressee? = some ⟨1⟩ ∧ owner other .sticker ⟨9⟩ = some ⟨2⟩ ∧
        owner (other.apply stickers).2 .sticker ⟨9⟩ = some ⟨1⟩) := by
  decide +kernel

end Cache

end GatewayCache
