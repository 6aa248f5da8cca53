import GatewayCache.Proofs.Update.Reading

/-! # Payloads that updates are read from

Everything that an update writes was taken apart from some payload in its value, and
no update removes a guild on its own.
-/

namespace GatewayCache.Update

/-- The payloads of an update, taken apart. -/
def splits : Update → List Split
  | .guildAvailable split | .guildPending split | .guildChanged split | .banAdded _ split
  | .banLifted _ split | .integrationAdded split | .integrationChanged split | .roleAdded _ split
  | .roleChanged _ split | .added split | .changed split | .voiceChanged split => [split]
  | .emojisReplaced _ splits | .stickersReplaced _ splits | .membersListed _ splits _ => splits
  | .guildOutage _ | .guildLeft _ | .webhooksChanged _ _ | .integrationRemoved _ _ _
  | .removed _ _ _ => []

/-- The records that an update writes. -/
def records (update : Update) : List Record := update.splits.flatMap Split.records

/-- A payload taken apart that comes from a value, and is in order if that is. -/
def ComesFrom (data : Json) (split : Split) : Prop :=
  ∃ kind guild, ∃ payload : Json, (data.ordered → payload.ordered) ∧
    Split.ofJson kind guild payload = .ok split

/-- An update whose payloads come from a value, and that removes no guild by its key. -/
structure Drawn (data : Json) (update : Update) : Prop where
  splits : ∀ split ∈ update.splits, ComesFrom data split
  keepsGuilds : ∀ key owner, update ≠ .removed .guild key owner

variable {data : Json} {fields : Fields} {kind : UpdateKind} {split : Split} {target : Kind}
  {guild : Option Snowflake} {update : Update}

theorem comesFrom_self (apart : Split.ofJson target guild data = .ok split) :
    ComesFrom data split := ⟨target, guild, data, id, apart⟩

theorem comesFrom_fields (apart : Split.ofFields target guild fields = .ok split) :
    ComesFrom (.obj fields) split := ⟨target, guild, .obj fields, id, apart⟩

theorem comesFrom_field {field : String} {value : Json} (found : fields.get? field = some value)
    (apart : Split.ofJson target guild value = .ok split) : ComesFrom (.obj fields) split :=
  ⟨target, guild, value, fun ordered => Fields.ordered_of_get? ordered found, apart⟩

theorem comesFrom_splitList {field : String} {guild : Snowflake} {splits : List Split}
    (reads : splitList kind fields field target guild = .ok splits) :
    ∀ split ∈ splits, ComesFrom (.obj fields) split := by
  intro split member
  obtain ⟨items, found, each⟩ := eachApart_of_splitList reads
  obtain ⟨item, here, apart⟩ := entity_of_eachApart each member
  refine ⟨target, some guild, item, fun ordered => ?_, apart⟩
  have list : (Json.arr items).ordered := Fields.ordered_of_get? ordered found
  simp only [Json.ordered, itemsOrdered_iff] at list
  exact list item here

theorem drawn_one (one : update.splits = [split]) (comes : ComesFrom data split) :
    Drawn data update := by
  refine ⟨by simpa [one] using comes, ?_⟩
  rintro key owner rfl
  simp [splits] at one

theorem drawn_none (none : update.splits = []) (other : ∀ key owner, update ≠ .removed .guild key owner) :
    Drawn data update := ⟨by simp [none], other⟩

theorem readGuildCreate_drawn (fields : Fields) :
    Yields (Drawn (.obj fields)) (readGuildCreate fields) := by
  refine .bind fun _ _ => ?_
  split
  · exact .bind fun split apart => .ok (drawn_one rfl (comesFrom_fields apart))
  · refine .bind fun split apart => .ok (drawn_one rfl ?_)
    exact ⟨.guild, none, .obj (fields.insert "unavailable" (.bool false)),
      fun ordered => Fields.ordered_insert ordered rfl, apart⟩

theorem readBan_drawn {become : Snowflake → Split → Update}
    (one : ∀ guild split, (become guild split).splits = [split]) :
    Yields (Drawn (.obj fields)) (readBan kind fields become) := by
  refine .bind fun guild _ => ?_
  refine .bind fun user found => ?_
  exact .bind fun split apart =>
    .ok (drawn_one (one guild split) (comesFrom_field (get?_of_require found) apart))

theorem readRole_drawn {become : Snowflake → Split → Update}
    (one : ∀ guild split, (become guild split).splits = [split]) :
    Yields (Drawn (.obj fields)) (readRole kind fields become) := by
  refine .bind fun guild _ => ?_
  refine .bind fun role found => ?_
  exact .bind fun split apart =>
    .ok (drawn_one (one guild split) (comesFrom_field (get?_of_require found) apart))

theorem readMembersChunk_drawn (fields : Fields) :
    Yields (Drawn (.obj fields)) (readMembersChunk fields) := by
  refine .bind fun guild _ => ?_
  refine .bind fun members reads => ?_
  simp only
  split
  · exact .error _
  · exact .ok ⟨comesFrom_splitList reads, by simp⟩

theorem readVoiceState_drawn (fields : Fields) :
    Yields (Drawn (.obj fields)) (readVoiceState fields) := by
  refine .bind fun guild _ => ?_
  refine .bind fun id _ => ?_
  have left : (Update.removed .voiceState (.scoped guild id) none).Drawn (.obj fields) :=
    drawn_none rfl (by simp)
  split
  · exact .ok left
  · exact .ok left
  · exact .bind fun split apart => .ok (drawn_one rfl (comesFrom_fields apart))

/-- Whatever is read from an object is drawn from it. -/
theorem drawn_of_fieldsOf {next : Fields → Except CacheError Update}
    (drawn : ∀ fields, Yields (Drawn (.obj fields)) (next fields)) :
    Yields (Drawn data) (fieldsOf kind data >>= next) := by
  refine .bind fun fields reads => ?_
  obtain rfl := Cache.eq_obj_of_fieldsOf reads
  exact drawn fields

theorem drawn_of_split {become : Split → Update} (one : ∀ split, (become split).splits = [split]) :
    Yields (Drawn data) (Split.ofJson target guild data >>= fun split => .ok (become split)) :=
  .bind fun split apart => .ok (drawn_one (one split) (comesFrom_self apart))

theorem read_drawn (kind : UpdateKind) (data : Json) : Yields (Drawn data) (Update.read kind data) := by
  cases kind with
  | guildCreate => exact drawn_of_fieldsOf readGuildCreate_drawn
  | guildDelete =>
    refine drawn_of_fieldsOf fun fields => .bind fun guild _ => ?_
    split <;> exact .ok (drawn_none rfl (by simp))
  | guildMembersChunk => exact drawn_of_fieldsOf readMembersChunk_drawn
  | guildBanAdd | guildBanRemove => exact drawn_of_fieldsOf fun _ => readBan_drawn fun _ _ => rfl
  | guildRoleCreate | guildRoleUpdate => exact drawn_of_fieldsOf fun _ => readRole_drawn fun _ _ => rfl
  | voiceStateUpdate => exact drawn_of_fieldsOf readVoiceState_drawn
  | guildEmojisUpdate | guildStickersUpdate =>
    refine drawn_of_fieldsOf fun fields => .bind fun guild _ => ?_
    exact .bind fun splits reads => .ok ⟨comesFrom_splitList reads, by simp⟩
  | webhooksUpdate | integrationDelete | guildMemberRemove | guildRoleDelete =>
    refine drawn_of_fieldsOf fun fields => .bind fun _ _ => ?_
    exact .bind fun _ _ => .ok (drawn_none rfl (by simp))
  | channelDelete | threadDelete | messageDelete | autoModRuleDelete =>
    refine drawn_of_fieldsOf fun fields => .bind fun _ _ => ?_
    exact .ok (drawn_none rfl (by simp))
  | guildUpdate | integrationCreate | integrationUpdate | guildMemberAdd | guildMemberUpdate
  | channelCreate | channelUpdate | threadCreate | threadUpdate | messageCreate | messageUpdate
  | autoModRuleCreate | autoModRuleUpdate => exact drawn_of_split fun _ => rfl

end GatewayCache.Update
