import GatewayCache.Proofs.Cache.Readiness
import GatewayCache.Proofs.Split.Parts
import GatewayCache.Proofs.Update.Payloads

/-! # Changes are told as they are

An event that tells of a change has the record from before the update and the one
from after it. Between the two the entities embedded in the payload are written, and
afterwards the lists of a guild may be; neither touches the record of the payload.
-/

namespace GatewayCache

open Store

namespace Event

/-- The record that a change came to, for events that tell of a change. -/
def after? : Event → Option Record
  | .guildUpdate _ after | .integrationUpdate _ after | .updated _ after => some after
  | .created record => some record
  | _ => none

/-- What was there before, for events that tell of it. -/
def before? : Event → Option (Option Record)
  | .guildUpdate before _ | .integrationUpdate before _ | .updated before _ => some before
  | _ => none

end Event

namespace Update

/-- The entity that an update creates or changes. -/
def subject? : Update → Option Split
  | .guildChanged split | .integrationChanged split | .roleAdded _ split | .roleChanged _ split
  | .added split | .changed split | .voiceChanged split => some split
  | _ => none

/-- An entity that an update has listed by its guild besides. -/
def listed? : Update → Option Split
  | .roleAdded _ split | .roleChanged _ split | .added split => some split
  | _ => none

/-- The content of an update tells the entity that is read from it, and no guild is listed. -/
structure Tells (dispatch : Dispatch) (update : Update) : Prop where
  subject : ∀ split, update.subject? = some split → ∃ part,
    dispatch.subject? = some part ∧ part.context.parent = none ∧ part.split = .ok split
  listed : ∀ split, update.listed? = some split → split.root.kind ≠ .guild

variable {dispatch : Dispatch} {kind : UpdateKind} {fields : Fields} {data : Json} {split : Split}
  {update : Update} {target : Kind}

theorem tells_of_none (none : update.subject? = none) : Tells dispatch update := by
  refine ⟨by simp [none], fun split listed => ?_⟩
  cases update <;> simp_all [subject?, listed?]

theorem tells_whole (kinds : kind.subjectKind? = some target) (single : target ≠ .role)
    (other : target ≠ .voiceState) {become : Split → Update}
    (subject : ∀ split, (become split).subject? = some split)
    (listed : ∀ split other, (become split).listed? = some other → other = split ∧ target ≠ .guild) :
    Yields (Tells ⟨kind.name, data⟩)
      (Split.ofJson target none data >>= fun split => .ok (become split)) := by
  refine .bind fun split apart => .ok ⟨?_, ?_⟩
  · intro found same
    obtain rfl : split = found := Option.some.inj ((subject split).symm.trans same)
    cases data with
    | obj payload =>
      refine ⟨⟨target, ⟨none, none⟩, payload⟩, ?_, rfl, apart⟩
      simp only [Dispatch.subject?, UpdateKind.ofName?_name, kinds, Option.bind_some,
        Option.bind_eq_bind, Json.fields?]
    | null | bool | num | str | arr => simp [Split.ofJson] at apart
  · intro found same
    obtain ⟨rfl, notGuild⟩ := listed split found same
    rw [Split.ofJson_root_kind apart]
    exact notGuild

theorem readRole_tells (kinds : kind.subjectKind? = some .role) {become : Snowflake → Split → Update}
    (subject : ∀ guild split, (become guild split).subject? = some split)
    (listed : ∀ guild split, (become guild split).listed? = some split) :
    Yields (Tells ⟨kind.name, .obj fields⟩) (readRole kind fields become) := by
  refine .bind fun guild required => ?_
  refine .bind fun value found => ?_
  refine .bind fun split apart => .ok ⟨?_, ?_⟩
  · intro other same
    obtain rfl : split = other := Option.some.inj ((subject guild split).symm.trans same)
    cases value with
    | obj role =>
      refine ⟨⟨.role, ⟨some guild, none⟩, role⟩, ?_, rfl, apart⟩
      simp [Dispatch.subject?, UpdateKind.ofName?_name, kinds, Json.fields?, get?_of_require found,
        relationId_of_requireId required]
    | null | bool | num | str | arr => simp [Split.ofJson] at apart
  · intro other same
    obtain rfl : split = other := Option.some.inj ((listed guild split).symm.trans same)
    rw [Split.ofJson_root_kind apart]
    decide

theorem readVoiceState_tells (fields : Fields) :
    Yields (Tells ⟨"VOICE_STATE_UPDATE", .obj fields⟩) (readVoiceState fields) := by
  refine .bind fun guild required => ?_
  refine .bind fun id _ => ?_
  split
  · exact .ok (tells_of_none rfl)
  · exact .ok (tells_of_none rfl)
  · refine .bind fun split apart => .ok ⟨?_, by simp [listed?]⟩
    intro other same
    obtain rfl : split = other := Option.some.inj same
    refine ⟨⟨.voiceState, ⟨some guild, none⟩, fields⟩, ?_, rfl, apart⟩
    have name : UpdateKind.ofName? "VOICE_STATE_UPDATE" = some .voiceStateUpdate := by decide
    simp [Dispatch.subject?, name, UpdateKind.subjectKind?, Json.fields?,
      relationId_of_requireId required]

theorem tells_of_fieldsOf {next : Fields → Except CacheError Update}
    (tells : ∀ fields, Yields (Tells ⟨kind.name, .obj fields⟩) (next fields)) :
    Yields (Tells ⟨kind.name, data⟩) (fieldsOf kind data >>= next) := by
  refine .bind fun fields reads => ?_
  obtain rfl := Cache.eq_obj_of_fieldsOf reads
  exact tells fields

theorem read_tells (kind : UpdateKind) (data : Json) :
    Yields (Tells ⟨kind.name, data⟩) (Update.read kind data) := by
  cases kind with
  | guildUpdate | integrationUpdate | guildMemberUpdate | channelUpdate | threadUpdate
  | messageUpdate | autoModRuleUpdate =>
    exact tells_whole rfl (by decide) (by decide) (fun _ => rfl) (by simp [listed?])
  | guildMemberAdd | channelCreate | threadCreate | messageCreate | autoModRuleCreate =>
    exact tells_whole rfl (by decide) (by decide) (fun _ => rfl) (by simp [listed?, eq_comm])
  | guildRoleCreate | guildRoleUpdate =>
    exact tells_of_fieldsOf fun _ => readRole_tells rfl (fun _ _ => rfl) (fun _ _ => rfl)
  | voiceStateUpdate => exact tells_of_fieldsOf readVoiceState_tells
  | guildCreate =>
    refine .bind fun fields _ => .bind fun _ _ => ?_
    split <;> exact .bind fun _ _ => .ok (tells_of_none rfl)
  | guildDelete =>
    refine .bind fun fields _ => .bind fun _ _ => ?_
    split <;> exact .ok (tells_of_none rfl)
  | guildMembersChunk =>
    refine .bind fun fields _ => .bind fun _ _ => .bind fun _ _ => ?_
    simp only
    split
    · exact .error _
    · exact .ok (tells_of_none rfl)
  | guildBanAdd | guildBanRemove =>
    exact .bind fun _ _ => .bind fun _ _ => .bind fun _ _ => .bind fun _ _ => .ok (tells_of_none rfl)
  | guildEmojisUpdate | guildStickersUpdate | webhooksUpdate | integrationDelete
  | guildMemberRemove | guildRoleDelete =>
    exact .bind fun _ _ => .bind fun _ _ => .bind fun _ _ => .ok (tells_of_none rfl)
  | integrationCreate => exact .bind fun _ _ => .ok (tells_of_none rfl)
  | channelDelete | threadDelete | messageDelete | autoModRuleDelete =>
    exact .bind fun _ _ => .bind fun _ _ => .ok (tells_of_none rfl)

end Update

namespace Part

variable {part : Part} {split : Split}

theorem split_of_whole (whole : part.context.parent = none) :
    part.split = Split.ofJson part.kind part.context.guild (.obj part.payload) := by
  obtain ⟨kind, ⟨guild, parent⟩, payload⟩ := part
  obtain rfl : parent = none := whole
  rfl

theorem apart_of_embedded (apart : part.split = .ok split)
    (reply : part.kind = .message → ∀ object,
      part.payload.get? "referenced_message" = some (.obj object) →
        Kind.identify .message object ≠ .ok split.root.id) :
    ∀ record ∈ split.embedded, (record.kind, record.key) ≠ (split.root.kind, split.root.key) := by
  rintro record member same
  obtain ⟨kinds, keys⟩ := Prod.mk.inj same
  rw [split_root_kind apart] at kinds
  by_cases message : part.kind = .message
  · obtain ⟨object, found, own⟩ :=
      reply_of_embedded message apart member (kinds.trans message)
    refine reply message object found ?_
    rw [own, Record.id, keys, Record.id]
  · exact kind_ne_of_embedded message apart member kinds

end Part

namespace Store

/-- Where nothing embedded in a payload is written in the place of its root, the change is made to the
root as it was before all of it. -/
theorem place_of_apart {config : Config} {split : Split} (stored : config.stores split.root.kind)
    (apart : ∀ record ∈ split.embedded,
      (record.kind, record.key) ≠ (split.root.kind, split.root.key)) (store : Store) :
    (store.place config split).1 = store.changeBy split.root.kind split.root.key split.root.fields := by
  have kept : (store.placeEmbedded config split).recordAt split.root.kind split.root.key =
      store.recordAt split.root.kind split.root.key :=
    congrArg _ (fieldsAt_writeAll_of_untouched fun record member _ => apart record member)
  rw [place, placeRoot, if_pos stored]
  simp only [changeBy, kept]

theorem changeBy_before (store : Store) (kind : Kind) (key : Key) (fields : Fields) :
    (store.changeBy kind key fields).before = store.recordAt kind key := by
  unfold changeBy
  split <;> simp [*]

theorem changeBy_after (store : Store) (kind : Kind) (key : Key) (fields : Fields) :
    (store.changeBy kind key fields).after.fields =
      (store.recordAt kind key).elim fields (fun old => old.fields.merge fields) := by
  unfold changeBy
  split <;> simp [*, Record.merge]

theorem getKey_of_address {kind : Kind} {key : Key} (fit : address? kind key = some key)
    (store : Store) : store.getKey kind key = store.recordAt kind key := by
  simp only [getKey, fit]

end Store

namespace Cache

variable {cache : Cache} {update : Update}

theorem fieldsAt_linked {kind : Kind} (other : kind ≠ .guild) (owner : Option Snowflake)
    (listed : Kind) (id : Snowflake) (place : Key) :
    (cache.linked owner listed id).store.fieldsAt kind place = cache.store.fieldsAt kind place := by
  unfold linked
  split
  · exact fieldsAt_link other place
  · rfl

theorem after?_of_guildAvailable {split : Split} {event : Event}
    (emits : (cache.guildAvailable split).2 = .emit event) : event.after? = none := by
  have welcome : ∀ was : Bool, ∀ guild,
      (if was then Event.guildAvailable guild else .guildJoin guild).after? = none := by
    rintro (_ | _) guild <;> rfl
  simp only [guildAvailable] at emits
  split at emits
  · rw [← Reaction.emit.inj emits, welcome]
  · split at emits
    · rw [← Reaction.emit.inj emits, welcome]
    · split at emits
      · rw [← Reaction.emit.inj emits, welcome]
      · cases emits

/-- An event that tells of a change tells of the one to the record of the update's payload. -/
theorem perform_tells {event : Event} {record : Record} (emits : (cache.perform update).2 = .emit event)
    (tells : event.after? = some record) :
    ∃ split, update.subject? = some split ∧
      (cache.store.place cache.config split).1.after = record ∧
      ∀ old, event.before? = some old → old = (cache.store.place cache.config split).1.before := by
  have told : ∀ created change, changeEvent created change = event →
      change.after = record ∧ ∀ old, event.before? = some old → old = change.before := by
    rintro created change rfl
    cases created <;> simp_all [changeEvent, Event.after?, Event.before?]
  cases update with
  | guildChanged split | integrationChanged split =>
    obtain rfl := Reaction.emit.inj emits
    exact ⟨split, rfl, Option.some.inj tells, fun old same => (Option.some.inj same).symm⟩
  | roleAdded guild split | roleChanged guild split | added split | changed split
  | voiceChanged split => exact ⟨split, rfl, told _ _ (Reaction.emit.inj emits)⟩
  | guildAvailable split => simp [after?_of_guildAvailable emits] at tells
  | membersListed guild members last =>
    cases last with
    | true =>
      obtain rfl := Reaction.emit.inj emits
      cases tells
    | false => cases emits
  | guildPending | guildOutage | guildLeft | banAdded | banLifted | emojisReplaced
  | stickersReplaced | webhooksChanged | integrationAdded | integrationRemoved | removed =>
    obtain rfl := Reaction.emit.inj emits
    cases tells

theorem perform_subject {split : Split} (subject : update.subject? = some split)
    (listed : ∀ split, update.listed? = some split → split.root.kind ≠ .guild) (place : Key) :
    (cache.perform update).1.store.fieldsAt split.root.kind place =
      (cache.store.place cache.config split).2.fieldsAt split.root.kind place := by
  cases update with
  | guildChanged other | integrationChanged other | changed other | voiceChanged other =>
    obtain rfl := Option.some.inj subject
    rfl
  | roleAdded guild other | roleChanged guild other | added other =>
    obtain rfl := Option.some.inj subject
    exact fieldsAt_linked (listed other rfl) _ _ _ place
  | guildAvailable | guildPending | guildOutage | guildLeft | banAdded | banLifted | emojisReplaced
  | stickersReplaced | webhooksChanged | integrationAdded | integrationRemoved | membersListed
  | removed => cases subject

theorem after?_of_mem_rawEvents {dispatch : Dispatch} {event : Event}
    (member : event ∈ cache.rawEvents dispatch) : event.after? = none := by
  unfold rawEvents at member
  split at member
  · obtain rfl := List.mem_singleton.mp member
    rfl
  · cases member

theorem emit_of_mem {dispatch : Dispatch} {reaction : Reaction} {event : Event} {record : Record}
    (member : event ∈ (Outcome.of (cache.rawEvents dispatch) reaction).events)
    (tells : event.after? = some record) : reaction = .emit event := by
  have other : event ∉ cache.rawEvents dispatch := by
    intro raw
    simp [after?_of_mem_rawEvents raw] at tells
  cases reaction with
  | emit told =>
    rcases List.mem_append.mp member with raw | one
    · exact absurd raw other
    · rw [List.mem_singleton.mp one]
  | defer | silent => exact absurd member other

theorem get?_of_subject? {dispatch : Dispatch} {part : Part} (subject : dispatch.subject? = some part)
    (single : part.kind ≠ .role) (field : String) :
    dispatch.data.get? field = part.payload.get? field := by
  simp only [Dispatch.subject?, Option.bind_eq_bind, Option.bind_eq_some_iff] at subject
  obtain ⟨kind, -, fields, whole, made⟩ := subject
  rw [Json.get?, whole, Option.bind_some]
  split at made
  · obtain ⟨role, -, made⟩ := Option.bind_eq_some_iff.mp made
    exact absurd (congrArg Part.kind (Option.some.inj made)).symm single
  · rw [← Option.some.inj made]
  · rw [← Option.some.inj made]

/-- The store tells the record of a change as it was before an update and as it is afterwards, and the
payload of the update is all that came to it. A message that replies to one of its own id is left
out: the reply is written in its place first. -/
theorem apply_before_after {dispatch : Dispatch} {outcome : Outcome} {after : Cache} {event : Event}
    {record : Record} (done : cache.apply dispatch = (.ok outcome, after))
    (member : event ∈ outcome.events) (tells : event.after? = some record)
    (stored : cache.config.stores record.kind)
    (reply : record.kind = .message → ∀ object,
      dispatch.data.get? "referenced_message" = some (.obj object) →
        Kind.identify .message object ≠ .ok record.id) :
    after.store.getKey record.kind record.key = some record ∧
      (∀ old, event.before? = some old → old = cache.store.getKey record.kind record.key) ∧
      ∃ part normalized, dispatch.subject? = some part ∧
        (∀ store, ((Intake.decompose cache.config part.kind part.context.guild
          (.obj part.payload)).on store).1 = .ok normalized) ∧
        normalized.kind = record.kind ∧ normalized.key = record.key ∧
        record.fields = (cache.store.getKey record.kind record.key).elim normalized.fields
          (fun old => old.fields.merge normalized.fields) := by
  rw [apply_eq] at done
  cases known : UpdateKind.ofName? dispatch.name with
  | none =>
    simp only [known, Prod.mk.injEq, Except.ok.injEq] at done
    obtain ⟨rfl, -⟩ := done
    simp [after?_of_mem_rawEvents member] at tells
  | some kind =>
    cases reads : Update.read kind dispatch.data with
    | error error => simp [known, reads] at done
    | ok update =>
      simp only [known, reads, Prod.mk.injEq, Except.ok.injEq] at done
      obtain ⟨rfl, rfl⟩ := done
      obtain ⟨split, subject, rfl, old⟩ := perform_tells (emit_of_mem member tells) tells
      have told := Update.read_tells kind dispatch.data update reads
      rw [← UpdateKind.name_of_ofName? known] at told
      obtain ⟨part, within, whole, apart⟩ := told.subject split subject
      obtain ⟨kinds, keys⟩ := Store.place_after cache.config cache.store split
      have ids : (cache.store.place cache.config split).1.after.id = split.root.id :=
        congrArg Key.id keys
      -- The record of the event is in the place of the root, and nothing embedded is written there.
      rw [kinds] at stored
      rw [kinds, ids] at reply
      have spared := Part.apart_of_embedded apart fun message object found =>
        reply ((Part.split_root_kind apart).trans message) object
          ((get?_of_subject? within (by simp [message]) _).trans found)
      have change := Store.place_of_apart stored spared cache.store
      have fit := Part.address?_root apart
      simp only [kinds, keys, Store.getKey_of_address fit]
      refine ⟨?_, fun before told => ?_, part, split.root, within, fun store => ?_, rfl, rfl, ?_⟩
      · rw [Store.recordAt, perform_subject subject told.listed split.root.key, Store.place_after_eq,
          if_pos stored, Store.recordAt]
      · rw [old before told, change, Store.changeBy_before]
      · rw [Intake.decompose_on, ← Part.split_of_whole whole, apart, Intake.played]
      · rw [change, Store.changeBy_after]

/-- A message is edited to reply to another one, which is stored first. -/
theorem apply_before_after_reply :
    let sent : Dispatch := ⟨"MESSAGE_CREATE", .obj [("content", .str "a"), ("id", .str "1")]⟩
    let edited : Dispatch := ⟨"MESSAGE_UPDATE", .obj [("content", .str "b"), ("id", .str "1"),
      ("referenced_message", .obj [("id", .str "2")])]⟩
    let cache := ((Cache.empty {}).apply sent).2
    let old : Record := ⟨.message, .global ⟨1⟩, [("content", .str "a"), ("id", .str "1")]⟩
    let new : Record := ⟨.message, .global ⟨1⟩,
      [("content", .str "b"), ("id", .str "1"), ("referenced_message_id", .str "2")]⟩
    (cache.apply edited).1 = .ok ⟨[.updated (some old) new], none⟩ ∧
      (cache.apply edited).2.store.getKey .message (.global ⟨1⟩) = some new ∧
      cache.store.getKey .message (.global ⟨1⟩) = some old ∧
      (cache.apply edited).2.store.getKey .message (.global ⟨2⟩) ≠ none := by
  intro sent edited cache old new
  have told : (cache.apply edited).1 = .ok ⟨[.updated (some old) new], none⟩ := by decide +kernel
  have other : ∀ object, edited.data.get? "referenced_message" = some (.obj object) →
      Kind.identify .message object ≠ .ok new.id := by
    intro object found
    obtain rfl : [("id", .str "2")] = object := Json.obj.inj (Option.some.inj found)
    decide
  obtain ⟨here, before, -⟩ := apply_before_after (Prod.ext told rfl) (List.mem_singleton_self _) rfl
    (by decide) fun _ => other
  exact ⟨told, here, (before _ rfl).symm, by decide +kernel⟩

end Cache

end GatewayCache
