import GatewayCache.Proofs.Intake.Order
import GatewayCache.Proofs.Intake.Writes
import GatewayCache.Proofs.Split.Fields
import GatewayCache.Proofs.Split.Identity
import GatewayCache.Split.People

/-! # Members from messages

The people of a message become members exactly where member data came with them in a
guild. The member data beside the author goes to the author and to no one else, and a
message that is replied to has its own people, in its own guild or else in that of the
message around it.
-/

namespace GatewayCache

open Split (Context)

namespace Part

variable {part : Part} {split : Split} {context : Context} {relation : Relation}
  {user data : Fields} {id owner : Snowflake}

theorem split_user (named : user.relationId "id" = some id) :
    (Part.mk .user context user).split = .ok ⟨[], ⟨.user, .global id, user⟩⟩ := by
  have identified : Kind.identify .user user = .ok id := Kind.identify_eq_ok.mpr named
  have entered : ∀ guild, Split.entering .user guild user = ⟨user, none⟩ := by
    intro guild
    cases guild <;> rfl
  rw [Part.split, ← Split.nested_maxLevels, Split.step]
  simp only [identified, bind, Except.bind, Kind.relations, List.foldl_nil, entered]
  rfl

theorem identify_around (named : user.relationId "id" = some id) :
    Kind.identify .member (data.insert "user" (.obj user)) = .ok id := by
  rw [Kind.identify_eq_ok]
  obtain ⟨value, found, reads⟩ := Option.bind_eq_some_iff.mp named
  simp [Kind.identifier?, Json.get?, Json.fields?, found, reads]

theorem split_member (named : user.relationId "id" = some id)
    (forward : context.parent ≠ some .user)
    (owned : (data.relationId "guild_id").or context.guild = some owner) :
    (Part.mk .member context (data.insert "user" (.obj user))).split =
      .ok ⟨[⟨.user, .global id, user⟩], ⟨.member, .scoped owner id,
        ((Split.withGuild .member (some owner) data).erase "user").insert "user_id" id.toJson⟩⟩ := by
  have identified : Kind.identify .member (data.insert "user" (.obj user)) = .ok id :=
    identify_around named
  have guild : Split.guildOf .member id (data.insert "user" (.obj user)) context.guild = some owner := by
    rw [← owned]
    simp [Split.guildOf, Fields.relationId, Fields.get?_insert_of_ne]
  -- The guild is added to the member data as if the user were not in it.
  have known : Split.withGuild .member (some owner) (data.insert "user" (.obj user)) =
      (Split.withGuild .member (some owner) data).insert "user" (.obj user) := by
    have same : (data.insert "user" (.obj user)).contains "guild_id" = data.contains "guild_id" := by
      simp [Fields.contains, Fields.get?_insert_of_ne]
    cases named : data.contains "guild_id" with
    | true => simp [Split.withGuild, same, named]
    | false =>
      simp only [Split.withGuild, same, named]
      exact Fields.insert_comm (by decide) _ _ _
  have follows := Split.leadsBack_record forward "user" .one "user_id" false
  rw [Part.split, ← Split.nested_maxLevels, Split.step]
  simp only [identified, bind, Except.bind, guild, Split.keyOf, Kind.isScoped, if_true,
    Option.elim_some, Kind.relations, List.foldl_cons, List.foldl_nil, Split.entering, known,
    reduceCtorEq, false_and, if_false, Relation.single, Split.takeRelation, follows,
    Fields.get?_insert_self, Split.Remainder.handOver, extract_whole, ofObject, Split.promote,
    split_user named, Bool.false_eq_true, Split.Remainder.setId, Fields.erase_insert_self,
    Split.Remainder.finish, Split.records, List.nil_append, Record.id, Key.id]

theorem filter_isObject (value : Option Json) :
    value.filter Json.isObject = (value.bind Json.fields?).map Json.obj := by
  cases value with
  | none => rfl
  | some value => cases value <;> rfl

/-- In a guild, what a relation of a message hands over is the object beside it, if it looks there. -/
theorem handOver_message (owner : Snowflake) (payload : Fields) (relation : Relation) :
    ((Split.entering .message (some owner) payload).handOver relation).1 =
      (if relation.memberBeside then (payload.get? "member").bind Json.fields? else none).map
        Json.obj := by
  have known : Split.withGuild .message (some owner) payload = payload := rfl
  cases looks : relation.memberBeside with
  | true => simp [Split.Remainder.handOver, Split.entering, known, looks, filter_isObject]
  | false => simp [Split.Remainder.handOver, looks]

/-- One of the people of a message is stored as a user, or in a guild as a member around the user that
its member data came with. -/
theorem heldAt_people (message : part.kind = .message) (among : relation ∈ Relation.people)
    (user : Fields) :
    (part.guild? = none ∨ part.memberData? relation user = none →
      part.heldAt relation user = ⟨.user, ⟨part.guild?, some .message⟩, user⟩) ∧
    ∀ data, part.guild?.isSome → part.memberData? relation user = some data →
      ∃ inside, part.heldAt relation user =
          ⟨.member, ⟨part.guild?, some .message⟩, data.insert "user" (.obj inside)⟩ ∧
        (inside = user ∨ inside = user.erase "member" ∧ user.get? "member" = some (.obj data)) := by
  have target : relation.target = .userOrMember := by
    simp only [Relation.people, List.mem_cons, List.not_mem_nil, or_false] at among
    rcases among with rfl | rfl <;> rfl
  unfold heldAt ofObject memberData?
  rw [message, target]
  -- The same order everywhere: outside of a guild nothing counts, then what is beside, then what is inside.
  cases part.guild? with
  | none => simp [Split.promote]
  | some owner =>
    simp only [handOver_message]
    cases (if relation.memberBeside then (part.payload.get? "member").bind Json.fields? else none) with
    | some beside =>
      refine ⟨by simp, fun data _ same => ⟨user, ?_, .inl rfl⟩⟩
      obtain rfl : beside = data := by simpa using same
      rfl
    | none =>
      cases own : user.get? "member" with
      | none => simp [Split.promote, own]
      | some value =>
        cases value with
        | obj inside =>
          refine ⟨by simp [Json.fields?], fun data _ same => ⟨user.erase "member", ?_, .inr ⟨rfl, ?_⟩⟩⟩
          all_goals obtain rfl : inside = data := by simpa [Json.fields?] using same
          · simp [Split.promote, own]
          · rfl
        | null | bool | num | str | arr => simp [Split.promote, own, Json.fields?]

/-- A part that comes to one of the people, and is held by their id. -/
def IsPerson (part : Part) (guild : Option Snowflake) (id : Snowflake) (data? : Option Fields) : Prop :=
  Person guild id data? part.records ∧ part.id? = some id

theorem isPerson_user {guild : Option Snowflake} {data? : Option Fields}
    (named : user.relationId "id" = some id) (alone : guild = none ∨ data? = none) :
    (Part.mk .user context user).IsPerson guild id data? := by
  refine ⟨?_, id?_of_split (split_user named)⟩
  rw [records_of_split (split_user named), Split.records, List.nil_append]
  refine ⟨⟨user, by simp⟩, fun _ record member => ?_, fun owner data inGuild came _ => ?_⟩
  · obtain rfl := List.mem_singleton.mp member
    rfl
  · rcases alone with outside | without
    · cases outside.symm.trans inGuild
    · cases without.symm.trans came

theorem isPerson_member (named : user.relationId "id" = some id)
    (forward : context.parent ≠ some .user) (inGuild : context.guild = some owner) :
    (Part.mk .member context (data.insert "user" (.obj user))).IsPerson (some owner) id
      (some data) := by
  obtain ⟨keeper, owned⟩ :
      ∃ keeper, (data.relationId "guild_id").or context.guild = some keeper := by
    cases data.relationId "guild_id" <;> simp [inGuild]
  have apart := split_member named forward owned
  refine ⟨?_, id?_of_split apart⟩
  rw [records_of_split apart]
  refine ⟨⟨user, by simp [Split.records]⟩, by simp, fun own other sameGuild sameData free => ?_⟩
  obtain rfl : owner = own := Option.some.inj sameGuild
  obtain rfl : data = other := Option.some.inj sameData
  have unnamed : data.get? "guild_id" = none := by
    simpa [Fields.contains] using free
  obtain rfl : owner = keeper := by
    simpa [Fields.relationId, unnamed, inGuild] using owned
  refine ⟨user, ?_⟩
  simp [Split.records, Split.withGuild, Kind.inheritsGuild, Kind.isScoped, free, Fields.asMember]

theorem isPerson_heldAt (message : part.kind = .message) (among : relation ∈ Relation.people)
    (named : user.relationId "id" = some id) :
    (part.heldAt relation user).IsPerson part.guild? id (part.memberData? relation user) := by
  obtain ⟨plain, promoted⟩ := heldAt_people message among user
  cases inGuild : part.guild? with
  | none =>
    rw [plain (.inl inGuild)]
    exact isPerson_user named (.inl rfl)
  | some owner =>
    cases came : part.memberData? relation user with
    | none =>
      rw [plain (.inr came)]
      exact isPerson_user named (.inr rfl)
    | some data =>
      obtain ⟨inside, held, source⟩ := promoted data (by simp [inGuild]) came
      have namedInside : Fields.relationId inside "id" = some id := by
        rcases source with rfl | ⟨rfl, -⟩
        · exact named
        · simpa [Fields.relationId, Fields.get?_erase_of_ne] using named
      rw [held]
      exact isPerson_member namedInside (by simp) inGuild

theorem guild?_of_message (message : part.kind = .message) (apart : part.split = .ok split) :
    part.guild? = (part.payload.relationId "guild_id").or part.context.guild := by
  rw [guild?_of_identify (split_root_id apart), message]
  rfl

theorem people_followed (message : part.kind = .message)
    (parent : ∀ kind ∈ part.context.parent, kind = .message) (among : relation ∈ Relation.people) :
    relation ∈ part.kind.relations ∧ Split.leadsBack relation part.context.parent = false := by
  have follows : ∀ relation ∈ Relation.people, relation ∈ Kind.message.relations ∧
      Split.leadsBack relation none = false ∧ Split.leadsBack relation (some .message) = false := by
    decide
  obtain ⟨listed, outermost, inside⟩ := follows relation among
  refine ⟨message ▸ listed, ?_⟩
  cases within : part.context.parent with
  | none => exact outermost
  | some kind =>
    obtain rfl := parent kind within
    exact inside

theorem records_infix_of_held {held : Part} (apart : part.split = .ok split) (here : held ∈ part.held) :
    held.records <:+: split.embedded := by
  rw [split_embedded apart, List.flatMap_def]
  exact List.infix_of_mem_flatten (List.mem_map_of_mem here)

theorem peopled (message : part.kind = .message) (parent : ∀ kind ∈ part.context.parent, kind = .message)
    (apart : part.split = .ok split) : part.Peopled split where
  written relation among user here := by
    obtain ⟨listed, forward⟩ := people_followed message parent among
    exact records_infix_of_held apart (heldAt_mem_held forward listed here)
  person relation among user _ id named := (isPerson_heldAt message among named).1
  outside free relation among user _ record member := by
    rw [(heldAt_people message among user).1 (.inl free)] at member
    obtain ⟨split, apart, here⟩ := split_of_mem_records member
    exact (Split.ofUser_of_nested apart record here).kind
  author user id found named := by
    have among : Relation.author ∈ Relation.people := by simp [Relation.people]
    obtain ⟨listed, forward⟩ := people_followed message parent among
    have held := (isPerson_heldAt message among named).2
    exact ((root_single apart forward listed rfl found).1 id held).1
  mentions items found := by
    have among : Relation.mentions ∈ Relation.people := by simp [Relation.people]
    obtain ⟨listed, forward⟩ := people_followed message parent among
    exact ⟨(root_list apart forward listed rfl found).1,
      fun user id _ named => (isPerson_heldAt message among named).2⟩

theorem reply?_eq_some {reply : Part} :
    part.reply? = some reply ↔ reply.kind = .message ∧
      reply.context = ⟨part.guild?, some part.kind⟩ ∧
      part.payload.get? "referenced_message" = some (.obj reply.payload) := by
  obtain ⟨kind, context, payload⟩ := reply
  cases found : part.payload.get? "referenced_message" with
  | none => simp [reply?, Relation.reply, Relation.single, found]
  | some value =>
    cases value with
    | obj object =>
      simp only [reply?, Relation.reply, Relation.single, found, Option.bind_some, Json.fields?,
        Option.map_some, Option.some.injEq, Part.mk.injEq, Json.obj.injEq]
      constructor
      · rintro ⟨rfl, rfl, rfl⟩
        exact ⟨rfl, rfl, rfl⟩
      · rintro ⟨rfl, rfl, rfl⟩
        exact ⟨rfl, rfl, rfl⟩
    | null | bool | num | str | arr =>
      simp [reply?, Relation.reply, Relation.single, found, Json.fields?]

theorem reply_listed (message : part.kind = .message) : Relation.reply ∈ part.kind.relations := by
  rw [message]
  decide

theorem heldBy_reply (message : part.kind = .message) :
    part.heldBy .reply = part.reply?.toList := by
  rw [heldBy_eq (reply_listed message), reply?, objectsAt]
  cases part.payload.get? Relation.reply.field with
  | none => rfl
  | some value => cases value <;> rfl

theorem reply_mem_held {reply : Part} (message : part.kind = .message)
    (outermost : part.context.parent = none) (replied : part.reply? = some reply) :
    reply ∈ part.held := by
  refine mem_held.mpr ⟨.reply, reply_listed message, by rw [outermost]; rfl, ?_⟩
  rw [heldBy_reply message, replied]
  exact List.mem_singleton_self reply

end Part

namespace Intake

/-- A message that is taken in has its people written with it, and so has the message that it replies
to. -/
theorem place_people (config : Config) (guild : Option Snowflake) (payload : Fields)
    (store after : Store) (change : Change)
    (done : (place config .message guild (.obj payload)).on store = (.ok change, after)) :
    let whole := Part.ofPayload .message guild payload
    ∃ split, whole.split = .ok split ∧ after = store.writeAll config split.records ∧
      (∀ record ∈ split.embedded, record.kind = .user ∨ record.kind = .member →
        (after.recordAt record.kind record.key).isSome) ∧
      whole.guild? = (payload.relationId "guild_id").or guild ∧ whole.Peopled split ∧
      ∀ reply id, whole.reply? = some reply → reply.payload.relationId "id" = some id →
        ∃ own, reply.split = .ok own ∧ own.records <:+: split.embedded ∧
          reply.guild? = (reply.payload.relationId "guild_id").or whole.guild? ∧ reply.Peopled own := by
  intro whole
  obtain ⟨split, taken, rfl⟩ := split_of_place done
  refine ⟨split, taken, rfl, fun record embedded person => ?_, Part.guild?_of_message rfl taken,
    Part.peopled rfl (by simp [whole, Part.ofPayload]) taken, fun reply id replied named => ?_⟩
  · have stored : config.stores record.kind := by
      rcases person with user | member
      · rw [user]
        rfl
      · rw [member]
        rfl
    exact Store.isSome_recordAt_writeAll (Split.mem_records.mpr (.inl embedded)) stored store
  · have held := Part.reply_mem_held rfl rfl replied
    obtain ⟨message, context, -⟩ := Part.reply?_eq_some.mp replied
    have identified : reply.kind.identify reply.payload = .ok id := by
      rw [message]
      exact Kind.identify_eq_ok.mpr named
    obtain ⟨own, inside⟩ := Part.exists_split_of_identify (by rw [message]; rfl) identified
    have around := Part.guild?_of_message message inside
    rw [context] at around
    refine ⟨own, inside, ?_, around, Part.peopled message ?_ inside⟩
    · rw [← Part.records_of_split inside]
      exact Part.records_infix_of_held taken held
    · rw [context]
      exact fun kind same => (Option.some.inj same).symm

/-- The author has member data beside it, one of the users mentioned inside it, and the author of the
message that is replied to inside it. -/
theorem place_people_reply :
    let author : Fields := [("id", .str "5")]
    let reply : Fields :=
      [("author", .obj [("id", .str "8"), ("member", .obj [("nick", .str "z")])]), ("id", .str "9")]
    let payload : Fields :=
      [("author", .obj author), ("guild_id", .str "1"), ("id", .str "10"),
       ("member", .obj [("nick", .str "x"), ("user", .null)]),
       ("mentions", .arr [.obj [("id", .str "6"), ("member", .obj [])], .obj [("id", .str "7")]]),
       ("referenced_message", .obj reply)]
    let result := (place {} .message none (.obj payload)).on .empty
    let whole := Part.ofPayload .message none payload
    ∃ change split, result.1 = .ok change ∧ whole.split = .ok split ∧
      split.root.fields.get? "author_id" = some (.str "5") ∧
      split.root.fields.get? "mention_ids" = some (.arr [.str "6", .str "7"]) ∧
      (∃ fields, (whole.heldAt .author author).records =
        [⟨.user, .global ⟨5⟩, fields⟩, ⟨.member, .scoped ⟨1⟩ ⟨5⟩,
          [("guild_id", .str "1"), ("nick", .str "x"), ("user_id", .str "5")]⟩]) ∧
      (result.2.recordAt .member (.scoped ⟨1⟩ ⟨6⟩)).isSome ∧
      result.2.recordAt .member (.scoped ⟨1⟩ ⟨7⟩) = none ∧
      (result.2.recordAt .member (.scoped ⟨1⟩ ⟨8⟩)).isSome := by
  intro author reply payload result whole
  obtain ⟨change, done⟩ : ∃ change, result.1 = .ok change := ⟨_, rfl⟩
  obtain ⟨split, apart, -, -, -, people, -⟩ :=
    place_people {} none payload .empty result.2 change (Prod.ext done rfl)
  have authorId := people.author author ⟨5⟩ (by decide +kernel) (by decide +kernel)
  have mentionIds := (people.mentions _ (show whole.payload.get? "mentions" = some (.arr _) by rfl)).1
  have person := people.person .author (by decide) author (by decide +kernel) ⟨5⟩ (by decide +kernel)
  obtain ⟨fields, records⟩ := person.member ⟨1⟩ [("nick", .str "x"), ("user", .null)]
    (by decide +kernel) (by decide +kernel) (by decide +kernel)
  have member : Fields.asMember [("nick", .str "x"), ("user", .null)] ⟨1⟩ ⟨5⟩ =
      [("guild_id", .str "1"), ("nick", .str "x"), ("user_id", .str "5")] := by
    decide +kernel
  refine ⟨change, split, done, apart, authorId, mentionIds.trans (by decide +kernel),
    ⟨fields, member ▸ records⟩, ?_, ?_, ?_⟩ <;> decide +kernel

end Intake

end GatewayCache
