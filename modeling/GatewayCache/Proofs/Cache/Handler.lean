import GatewayCache.Cache.Handler
import GatewayCache.Cache.Performance
import GatewayCache.Processing
import GatewayCache.Proofs.Intake

/-! # Handlers read before they write

A handler reads and writes in turn, and its writes are not taken back when it is
refused. Nevertheless every handler does what reading the whole update first and
performing it afterwards does: all that can be refused is refused before the first
write.
-/

namespace GatewayCache

namespace Update

theorem checkEach_eq (kind : Kind) (guild : Snowflake) (items : List Json) :
    checkEach kind items = (splitAll kind guild items).map (fun _ => ()) := by
  induction items with
  | nil => rfl
  | cons item rest ih =>
    cases item with
    | obj payload =>
      simp only [checkEach, splitAll, Split.ofJson, ih]
      rcases Split.ofFields_within kind guild payload with
        ⟨id, split, identified, apart⟩ | ⟨error, identified, apart⟩
      · simp only [identified, apart, bind, Except.bind]
        cases splitAll kind guild rest <;> rfl
      · simp only [identified, apart, bind, Except.bind]
        rfl
    | null | bool | num | str | arr => rfl

end Update

namespace Cache

open Update

theorem takeIn_on (kind : Kind) (guild : Option Snowflake) (payload : Json) (cache : Cache) :
    (takeIn kind guild payload).on cache =
      match Split.ofJson kind guild payload with
      | .ok split => (.ok (cache.placed split).1, (cache.placed split).2)
      | .error error => (.error error, cache) := by
  simp only [takeIn, onStore, Action.on_bind, Action.on_get, Action.on_ofFunction, Intake.place_on]
  cases Split.ofJson kind guild payload <;> rfl

theorem takeEach_on {kind : Kind} {guild : Snowflake} {payloads : List Json} {splits : List Split}
    (apart : splitAll kind guild payloads = .ok splits) (cache : Cache) :
    (takeEach kind guild payloads).on cache =
      (.ok (cache.store.placeAll cache.config splits).1,
        { cache with store := (cache.store.placeAll cache.config splits).2 }) := by
  induction payloads generalizing splits cache with
  | nil =>
    obtain rfl : [] = splits := by simpa [splitAll] using apart
    rfl
  | cons payload rest ih =>
    cases first : Split.ofJson kind (some guild) payload with
    | error => simp [splitAll, first, bind, Except.bind] at apart
    | ok split =>
      cases later : splitAll kind guild rest with
      | error => simp [splitAll, first, later, bind, Except.bind] at apart
      | ok more =>
        obtain rfl : split :: more = splits := by
          simpa [splitAll, first, later, bind, Except.bind] using apart
        simp only [takeEach, Action.on_bind, takeIn_on, first, ih later, Action.on_pure]
        rfl

/-- An action that does what performing a read update does, and nothing where reading was refused. -/
def Performs (action : Action Cache Reaction) (reading : Except CacheError Update) : Prop :=
  ∀ cache : Cache, action.on cache =
    match reading with
    | .ok update => (.ok (cache.perform update).2, (cache.perform update).1)
    | .error error => (.error error, cache)

namespace Performs

theorem throw (error : CacheError) : Performs (MonadExcept.throw error) (.error error) :=
  fun _ => rfl

theorem bind {α : Type} {read : Except CacheError α} {next : α → Action Cache Reaction}
    {following : α → Except CacheError Update}
    (performs : ∀ value, read = .ok value → Performs (next value) (following value)) :
    Performs (liftM read >>= next) (read >>= following) := by
  intro cache
  simp only [Action.on_bind, Action.on_liftExcept]
  cases reads : read with
  | error error => rfl
  | ok value => exact performs value reads cache

theorem takeIn {kind : Kind} {guild : Option Snowflake} {payload : Json}
    {next : Change → Action Cache Reaction} {become : Split → Update}
    (performs : ∀ split, Split.ofJson kind guild payload = .ok split → ∀ cache : Cache,
      (next (cache.placed split).1).on (cache.placed split).2 =
        (.ok (cache.perform (become split)).2, (cache.perform (become split)).1)) :
    Performs (takeIn kind guild payload >>= next)
      (Split.ofJson kind guild payload >>= fun split => .ok (become split)) := by
  intro cache
  simp only [Action.on_bind, takeIn_on]
  cases apart : Split.ofJson kind guild payload with
  | error error => rfl
  | ok split => exact performs split apart cache

/-- A list is read whole by the check that goes before its first write. -/
theorem requireList {update : UpdateKind} {fields : Fields} {field : String} {kind : Kind}
    {guild : Snowflake} {next : List Json → Action Cache Reaction}
    {following : List Split → Except CacheError Update}
    (performs : ∀ items splits, splitAll kind guild items = .ok splits →
      Performs (next items) (following splits)) :
    Performs (liftM (Update.requireList update fields field kind) >>= next)
      (splitList update fields field kind guild >>= following) := by
  intro cache
  simp only [Action.on_bind, Action.on_liftExcept, Update.requireList, splitList]
  cases (fields.get? field).bind Json.items? with
  | none => rfl
  | some items =>
    simp only [checkEach_eq kind guild items]
    cases apart : splitAll kind guild items with
    | error error => rfl
    | ok splits => exact performs items splits apart cache

end Performs

theorem requireId_eq_root {kind : UpdateKind} {fields : Fields} {guild : Snowflake} {split : Split}
    (required : requireId kind fields "id" = .ok guild)
    (apart : Split.ofFields .guild none fields = .ok split) : guild = split.root.id := by
  have identified := (Split.ofFields_root apart).2
  simp only [requireId, Kind.identify, Kind.identifier?] at required identified
  cases found : fields.get? "id" with
  | none => simp [found] at required
  | some value => cases value <;> simp_all

theorem requireId_insert {kind : UpdateKind} {field other : String} (apart : field ≠ other)
    (fields : Fields) (value : Json) :
    requireId kind (fields.insert other value) field = requireId kind fields field := by
  rw [requireId, Fields.get?_insert_of_ne apart, requireId]

theorem requireId_eq_root_available {kind : UpdateKind} {fields : Fields} {guild : Snowflake}
    {split : Split} (required : requireId kind fields "id" = .ok guild)
    (apart : Split.ofFields .guild none (fields.insert "unavailable" (.bool false)) = .ok split) :
    guild = split.root.id := by
  have kept : "id" ≠ "unavailable" := by decide
  rw [← requireId_insert kept fields (.bool false)] at required
  exact requireId_eq_root required apart

theorem createPending_on {fields : Fields} {guild : Snowflake}
    (required : requireId .guildCreate fields "id" = .ok guild) :
    Performs (createPending guild fields)
      (Split.ofFields .guild none fields >>= fun split => .ok (.guildPending split)) := by
  refine .takeIn fun split apart cache => ?_
  obtain rfl := requireId_eq_root required apart
  simp only [perform, guildPending, placed, gateOf, react, opened]
  cases fetch : cache.config.fetchMembers <;> simp [fetch, Except.map]

theorem createAvailable_on {fields : Fields} {guild : Snowflake}
    (required : requireId .guildCreate fields "id" = .ok guild) :
    Performs (createAvailable guild fields)
      (Split.ofFields .guild none (fields.insert "unavailable" (.bool false)) >>= fun split =>
        .ok (.guildAvailable split)) := by
  intro cache
  have taken := takeIn_on .guild none (.obj (fields.insert "unavailable" (.bool false))) cache
  simp only [createAvailable, Action.on_bind, Action.on_get, taken, Split.ofJson]
  cases apart : Split.ofFields .guild none (fields.insert "unavailable" (.bool false)) with
  | error error => rfl
  | ok split =>
    obtain rfl := requireId_eq_root_available required apart
    have read : (Except.ok split >>= fun split => Except.ok (Update.guildAvailable split) :
        Except CacheError Update) = .ok (.guildAvailable split) := rfl
    simp only [read, perform, guildAvailable, placed, gateOf, react, opened,
      Action.on_ofFunction]
    rcases cache.gates.getOrCreate split.root.id with ⟨gate, gates⟩
    by_cases alone : cache.config.fetchMembers = false
    · simp [alone, Except.map]
    · by_cases ready : gates.state gate = .ready
      · simp [alone, ready]
      · by_cases complete :
            hasAllMembers (cache.store.place cache.config split).2
              (cache.store.place cache.config split).1.after
        · simp [alone, ready, complete, Except.map]
        · simp [alone, ready, complete, Except.map]

theorem guildCreate_performs (data : Json) : Performs (guildCreate data) (read .guildCreate data) := by
  refine .bind fun fields _ => ?_
  refine .bind fun guild required => ?_
  by_cases unavailable : saysUnavailable fields
  · rw [if_pos unavailable, if_pos unavailable]
    exact createPending_on required
  · rw [if_neg unavailable, if_neg unavailable]
    exact createAvailable_on required

theorem markOutage_performs (guild : Snowflake) :
    Performs (markOutage guild) (.ok (.guildOutage guild)) := by
  intro cache
  have addressed : Store.address? .guild (.global guild) = some (.global guild) := rfl
  have marked := Intake.put_on addressed [("unavailable", .bool true)] cache.store
  simp only [markOutage, perform, guildOutage, Action.on_bind, Action.on_get]
  cases known : (cache.store.guild? guild).isSome <;> simp [onStore, marked, Except.map]

theorem guildDelete_performs (data : Json) : Performs (guildDelete data) (read .guildDelete data) := by
  refine .bind fun fields _ => ?_
  refine .bind fun guild _ => ?_
  by_cases unavailable : saysUnavailable fields
  · rw [if_pos unavailable, if_pos unavailable]
    exact markOutage_performs guild
  · rw [if_neg unavailable, if_neg unavailable]
    exact fun _ => rfl

theorem ban_performs {kind : UpdateKind} {event : Snowflake → Record → Event}
    {become : Snowflake → Split → Update}
    (performed : ∀ guild split (cache : Cache), cache.perform (become guild split) =
      ((cache.placed split).2, .emit (event guild (cache.placed split).1.after))) (data : Json) :
    Performs (ban kind event data) (fieldsOf kind data >>= fun fields => readBan kind fields become) := by
  refine .bind fun fields _ => ?_
  refine .bind fun guild _ => ?_
  refine .bind fun user _ => ?_
  refine .takeIn fun split _ cache => ?_
  rw [performed]
  rfl

theorem emojisUpdate_performs (data : Json) :
    Performs (emojisUpdate data) (read .guildEmojisUpdate data) := by
  refine .bind fun fields _ => ?_
  refine .bind fun guild _ => ?_
  refine .requireList fun items splits apart cache => ?_
  simp only [Action.on_bind, Action.on_get, takeEach_on apart]
  rfl

theorem stickersUpdate_performs (data : Json) :
    Performs (stickersUpdate data) (read .guildStickersUpdate data) := by
  refine .bind fun fields _ => ?_
  refine .bind fun guild _ => ?_
  refine .requireList fun items splits apart cache => ?_
  simp only [Action.on_bind, Action.on_get, takeEach_on apart]
  rfl

theorem membersChunk_performs (data : Json) :
    Performs (membersChunk data) (read .guildMembersChunk data) := by
  refine .bind fun fields _ => ?_
  refine .bind fun guild _ => ?_
  refine .requireList fun items splits apart => ?_
  generalize (fields.unsigned? "chunk_index").getD 0 = index
  generalize (fields.unsigned? "chunk_count").getD 1 = count
  by_cases outside : count ≤ index
  · simp only [if_pos outside]
    exact .throw _
  · have isLast : ¬ index + 1 < count ↔ index.toNat + 1 = count.toNat := by
      simp only [UInt64.lt_iff_toNat_lt, UInt64.le_iff_toNat_le] at outside ⊢
      have fits : (index + 1).toNat = index.toNat + 1 := by
        have bound := count.toNat_lt
        rw [UInt64.toNat_add, UInt64.toNat_one, Nat.mod_eq_of_lt]
        omega
      omega
    intro cache
    simp only [if_neg outside, Action.on_bind, takeEach_on apart, perform, membersListed]
    by_cases more : index + 1 < count
    · have notLast := mt isLast.mpr (not_not_intro more)
      simp [more, notLast]
    · have last := isLast.mp more
      simp [more, last, Except.map]

theorem webhooksUpdate_performs (data : Json) :
    Performs (webhooksUpdate data) (read .webhooksUpdate data) := by
  refine .bind fun fields _ => ?_
  refine .bind fun guild _ => ?_
  refine .bind fun channel _ => ?_
  exact fun _ => rfl

theorem upsert_performs (kind : Kind) (created : Bool) (data : Json) :
    Performs (upsert kind created data)
      (Split.ofJson kind none data >>= fun split =>
        .ok (if created then .added split else .changed split)) := by
  refine .takeIn fun split apart cache => ?_
  have placedKind : (cache.placed split).1.after.kind = kind :=
    (Store.place_after cache.config cache.store split).1.trans (Split.ofJson_root_kind apart)
  cases created with
  | true => simp [perform, added, placedKind, Except.map]
  | false => simp [perform]

theorem remove_performs (kind : Kind) (key : Key) (owner : Option Snowflake) :
    Performs (remove kind key owner) (.ok (.removed kind key owner)) :=
  fun _ => rfl

theorem roleUpsert_performs {kind : UpdateKind} {created : Bool}
    {become : Snowflake → Split → Update}
    (performed : ∀ guild split (cache : Cache), cache.perform (become guild split) =
      cache.rolePlaced created guild split) (data : Json) :
    Performs (roleUpsert kind created data)
      (fieldsOf kind data >>= fun fields => readRole kind fields become) := by
  refine .bind fun fields _ => ?_
  refine .bind fun guild _ => ?_
  refine .bind fun role _ => ?_
  refine .takeIn fun split _ cache => ?_
  rw [performed]
  rfl

theorem roleDelete_performs (data : Json) :
    Performs (roleDelete data) (read .guildRoleDelete data) := by
  refine .bind fun fields _ => ?_
  refine .bind fun guild _ => ?_
  refine .bind fun id _ => ?_
  exact remove_performs .role (.scoped guild id) (some guild)

theorem memberRemove_performs (data : Json) :
    Performs (memberRemove data) (read .guildMemberRemove data) := by
  refine .bind fun fields _ => ?_
  refine .bind fun guild _ => ?_
  refine .bind fun id _ => ?_
  exact remove_performs .member (.scoped guild id) (some guild)

theorem channelDelete_performs (update : UpdateKind) (kind : Kind) (data : Json) :
    Performs (channelDelete update kind data)
      (fieldsOf update data >>= fun fields => readChannelDelete update kind fields) := by
  refine .bind fun fields _ => ?_
  refine .bind fun id _ => ?_
  exact remove_performs kind (.global id) (fields.relationId "guild_id")

theorem plainDelete_performs (update : UpdateKind) (kind : Kind) (data : Json) :
    Performs (plainDelete update kind data)
      (fieldsOf update data >>= fun fields => readDelete update kind fields) := by
  refine .bind fun fields _ => ?_
  refine .bind fun id _ => ?_
  exact remove_performs kind (.global id) none

theorem integrationUpsert_performs {event : Change → Event} {become : Split → Update}
    (performed : ∀ split (cache : Cache), cache.perform (become split) =
      ((cache.placed split).2, .emit (event (cache.placed split).1))) (data : Json) :
    Performs (integrationUpsert event data)
      (Split.ofJson .integration none data >>= fun split => .ok (become split)) := by
  refine .takeIn fun split _ cache => ?_
  rw [performed]
  rfl

theorem integrationDelete_performs (data : Json) :
    Performs (integrationDelete data) (read .integrationDelete data) := by
  refine .bind fun fields _ => ?_
  refine .bind fun id _ => ?_
  refine .bind fun guild _ => ?_
  exact fun _ => rfl

theorem eq_obj_of_fieldsOf {kind : UpdateKind} {data : Json} {fields : Fields}
    (reads : fieldsOf kind data = .ok fields) : data = .obj fields := by
  cases data <;> simp_all [fieldsOf]

theorem voiceState_performs (data : Json) :
    Performs (voiceState data) (read .voiceStateUpdate data) := by
  refine .bind fun fields reads => ?_
  refine .bind fun guild _ => ?_
  refine .bind fun id _ => ?_
  obtain rfl := eq_obj_of_fieldsOf reads
  cases fields.get? "channel_id" with
  | none => exact remove_performs .voiceState (.scoped guild id) none
  | some channel =>
    cases channel with
    | null => exact remove_performs .voiceState (.scoped guild id) none
    | bool | num | str | arr | obj => exact .takeIn fun _ _ _ => rfl

/-- Handling an update does what reading it whole and then performing it does. -/
theorem handle_performs (kind : UpdateKind) (data : Json) :
    Performs (handle kind data) (read kind data) := by
  cases kind with
  | guildCreate => exact guildCreate_performs data
  | guildUpdate => exact .takeIn fun _ _ _ => rfl
  | guildDelete => exact guildDelete_performs data
  | guildBanAdd | guildBanRemove => exact ban_performs (fun _ _ _ => rfl) data
  | guildEmojisUpdate => exact emojisUpdate_performs data
  | guildStickersUpdate => exact stickersUpdate_performs data
  | webhooksUpdate => exact webhooksUpdate_performs data
  | integrationCreate | integrationUpdate =>
    exact integrationUpsert_performs (fun _ _ => rfl) data
  | integrationDelete => exact integrationDelete_performs data
  | guildMembersChunk => exact membersChunk_performs data
  | guildMemberAdd | channelCreate | threadCreate | messageCreate | autoModRuleCreate =>
    exact upsert_performs _ true data
  | guildMemberUpdate | channelUpdate | threadUpdate | messageUpdate | autoModRuleUpdate =>
    exact upsert_performs _ false data
  | guildMemberRemove => exact memberRemove_performs data
  | guildRoleCreate | guildRoleUpdate => exact roleUpsert_performs (fun _ _ _ => rfl) data
  | guildRoleDelete => exact roleDelete_performs data
  | channelDelete | threadDelete => exact channelDelete_performs _ _ data
  | messageDelete | autoModRuleDelete => exact plainDelete_performs _ _ data
  | voiceStateUpdate => exact voiceState_performs data

/-- What applying an update comes to, with all of its reading before all of its writing. -/
theorem apply_eq (cache : Cache) (dispatch : Dispatch) :
    cache.apply dispatch =
      match UpdateKind.ofName? dispatch.name with
      | none =>
        (.ok ⟨cache.rawEvents dispatch, none⟩,
          { cache with stats := { cache.stats with ignored := cache.stats.ignored + 1 } })
      | some kind =>
        match read kind dispatch.data with
        | .error error =>
          (.error error,
            { cache with stats := { cache.stats with failed := cache.stats.failed + 1 } })
        | .ok update =>
          let (after, reaction) := cache.perform update
          (.ok (Outcome.of (cache.rawEvents dispatch) reaction),
            { after with stats := Stats.counting after.stats reaction }) := by
  unfold apply
  cases UpdateKind.ofName? dispatch.name with
  | none => rfl
  | some kind =>
    simp only [handle_performs kind dispatch.data cache]
    cases read kind dispatch.data <;> rfl

theorem of_apply_ok {cache after : Cache} {dispatch : Dispatch} {outcome : Outcome} {kind : UpdateKind}
    (known : UpdateKind.ofName? dispatch.name = some kind)
    (done : cache.apply dispatch = (.ok outcome, after)) :
    ∃ update, read kind dispatch.data = .ok update ∧
      outcome = Outcome.of (cache.rawEvents dispatch) (cache.perform update).2 ∧
      after = { (cache.perform update).1 with
        stats := Stats.counting (cache.perform update).1.stats (cache.perform update).2 } := by
  rw [apply_eq, known] at done
  cases reads : read kind dispatch.data with
  | error error => simp [reads] at done
  | ok update =>
    simp only [reads, Prod.mk.injEq, Except.ok.injEq] at done
    exact ⟨update, rfl, done.1.symm, done.2.symm⟩

/-- A refused update leaves the records, the gates and the requests as they are, adds one to the count
of failures, and emits nothing: what comes out then was free before. -/
theorem apply_error_atomic (cache : Cache) (dispatch : Dispatch) (error : CacheError)
    (refused : (cache.apply dispatch).1 = .error error) :
    (cache.apply dispatch).2 =
        { cache with stats := { cache.stats with failed := cache.stats.failed + 1 } } ∧
      ∀ pending : List Deferred,
        ((⟨cache, pending⟩ : Processing).advance dispatch).1 = cache.gates.released pending := by
  have after : (cache.apply dispatch).2 =
      { cache with stats := { cache.stats with failed := cache.stats.failed + 1 } } := by
    rw [apply_eq] at refused ⊢
    split at refused
    · cases refused
    · next kind _ =>
      cases reads : read kind dispatch.data with
      | error => rfl
      | ok update => simp [reads] at refused
  refine ⟨after, fun pending => ?_⟩
  have outcome : cache.apply dispatch = (.error error,
      { cache with stats := { cache.stats with failed := cache.stats.failed + 1 } }) :=
    Prod.ext refused after
  simp only [Processing.advance, outcome, Processing.release]

/-- The second member of this chunk has no id, and the first is not stored either. -/
theorem apply_error_atomic_chunk :
    let chunk : Dispatch := ⟨"GUILD_MEMBERS_CHUNK", .obj
      [("guild_id", .str "1"),
       ("members", .arr [.obj [("user", .obj [("id", .str "2")])], .obj [("nick", .str "x")]])]⟩
    ((Cache.empty {}).apply chunk).1 = .error (.missingId .member) ∧
      ((Cache.empty {}).apply chunk).2 = { Cache.empty {} with stats := { failed := 1 } } := by
  refine ⟨rfl, ?_⟩
  exact (apply_error_atomic (Cache.empty {}) _ (.missingId .member) rfl).1

end Cache

end GatewayCache
