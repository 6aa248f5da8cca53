import Mathlib.Data.List.Basic
import GatewayCache.Proofs.Split.Levels
import GatewayCache.Proofs.Split.Owners
import GatewayCache.Split.Part

/-! # Records of parts

The records of a payload are those of the parts that it holds, and then its own. So
every record is the root of a part, and what is shown for the root of any part holds
of every record. A root keeps the fields of its own payload, but for those of its
relations.
-/

namespace GatewayCache

open Split (Context Remainder Draft Extracted)

namespace Split

/-- The splitter that payloads are taken apart with. -/
abbrev whole : Splitter := nested maxLevels

/-- Taking the first relation leaves alone what the second one reads. -/
def Spares (first second : Relation) : Prop :=
  second.field ≠ first.field ∧ second.field ≠ first.idField ∧
    (first.memberBeside → second.memberBeside = false)

instance (first second : Relation) : Decidable (Spares first second) := by
  unfold Spares
  infer_instance

theorem relations_spare (kind : Kind) : kind.relations.Pairwise Spares := by
  cases kind <;> decide

/-- No relation of a kind is about a field. -/
def Unrelated (kind : Kind) (field : String) : Prop :=
  ∀ relation ∈ kind.relations, field ≠ relation.field ∧ field ≠ relation.idField

instance (kind : Kind) (field : String) : Decidable (Unrelated kind field) := by
  unfold Unrelated
  infer_instance

theorem unrelated_id (kind : Kind) : Unrelated kind "id" := by
  cases kind <;> decide

theorem unrelated_guild (kind : Kind) : Unrelated kind "guild_id" := by
  cases kind <;> decide

theorem leadsBack_record {parent : Option Kind} {target : Kind} (forward : parent ≠ some target)
    (field : String) (shape : Shape) (idField : String) (beside : Bool) :
    leadsBack ⟨field, .record target, shape, idField, beside⟩ parent = false := by
  cases parent with
  | none => rfl
  | some kind =>
    have other : kind ≠ target := fun same => forward (same ▸ rfl)
    simp [leadsBack, Target.kinds, other]

variable {inner : Splitter} {parent : Option Kind} {context : Context} {draft : Draft}
  {relation other : Relation} {field : String} {rest : Remainder}

theorem get?_setIds (apart : field ≠ relation.field) (apartId : field ≠ relation.idField)
    (ids : List Snowflake) (left : List Json) :
    (rest.setIds relation ids left).fields.get? field = rest.fields.get? field := by
  unfold Remainder.setIds
  simp only
  split <;> simp [Fields.get?_insert_of_ne, Fields.get?_erase_of_ne, apart, apartId]

theorem handOver_fields : (rest.handOver relation).2.fields = rest.fields := by
  unfold Remainder.handOver
  split <;> rfl

theorem get?_hold (apart : field ≠ relation.field) (apartId : field ≠ relation.idField)
    (extracted : Extracted) :
    (rest.hold relation extracted).fields.get? field = rest.fields.get? field := by
  cases extracted <;>
    simp [Remainder.hold, Remainder.setId, Remainder.setInline, Fields.get?_insert_of_ne,
      Fields.get?_erase_of_ne, apart, apartId]

theorem beside_hold (extracted : Extracted) : (rest.hold relation extracted).beside = rest.beside := by
  cases extracted <;> rfl

theorem get?_takeRelation (apart : field ≠ relation.field) (apartId : field ≠ relation.idField) :
    (takeRelation inner parent context draft relation).rest.fields.get? field =
      draft.rest.fields.get? field := by
  rcases takeRelation_cases inner parent context draft relation with
    same | ⟨object, -, taken⟩ | ⟨items, -, taken⟩
  · rw [same]
  · rw [taken, get?_hold apart apartId, handOver_fields]
  · rw [taken, get?_setIds apart apartId]

theorem get?_takeRelations {relations : List Relation}
    (apart : ∀ relation ∈ relations, field ≠ relation.field ∧ field ≠ relation.idField) :
    (relations.foldl (takeRelation inner parent context) draft).rest.fields.get? field =
      draft.rest.fields.get? field := by
  induction relations generalizing draft with
  | nil => rfl
  | cons relation rest ih =>
    rw [List.foldl_cons, ih fun later member => apart later (by simp [member])]
    exact get?_takeRelation (apart relation (by simp)).1 (apart relation (by simp)).2

theorem beside_takeRelation (plain : relation.memberBeside = false) :
    (takeRelation inner parent context draft relation).rest.beside = draft.rest.beside := by
  rcases takeRelation_cases inner parent context draft relation with
    same | ⟨object, -, taken⟩ | ⟨items, -, taken⟩
  · rw [same]
  · rw [taken, beside_hold]
    simp [Remainder.handOver, plain]
  · rw [taken, Remainder.setIds]

theorem handOver_takeRelation (once : relation.memberBeside → other.memberBeside = false) :
    ((takeRelation inner parent context draft relation).rest.handOver other).1 =
      (draft.rest.handOver other).1 := by
  unfold Remainder.handOver
  cases takes : other.memberBeside with
  | false => rfl
  | true =>
    have plain : relation.memberBeside = false := by
      cases beside : relation.memberBeside with
      | false => rfl
      | true => simp [once beside] at takes
    exact beside_takeRelation plain

theorem objects_takeRelation (spares : Spares relation other) :
    (takeRelation inner parent context draft relation).rest.objects other =
      draft.rest.objects other := by
  obtain ⟨apart, apartId, once⟩ := spares
  unfold Remainder.objects
  rw [get?_takeRelation apart apartId, handOver_takeRelation once]

theorem get?_entering {kind : Kind} (notMember : kind = .message → field ≠ "member")
    (guild : Option Snowflake) (payload : Fields) :
    (entering kind guild payload).fields.get? field = (withGuild kind guild payload).get? field := by
  unfold entering
  simp only
  split
  · next message => exact Fields.get?_erase_of_ne (notMember message.1) _
  · rfl

theorem beside_entering {kind : Kind} (plain : kind ≠ .message) (guild : Option Snowflake)
    (payload : Fields) : (entering kind guild payload).beside = none := by
  simp [entering, plain]

theorem beside_takeRelation_of_none (nothing : draft.rest.beside = none) :
    (takeRelation inner parent context draft relation).rest.beside = none := by
  rcases takeRelation_cases inner parent context draft relation with
    same | ⟨object, -, taken⟩ | ⟨items, -, taken⟩
  · rw [same, nothing]
  · rw [taken, beside_hold]
    unfold Remainder.handOver
    split <;> simp [nothing]
  · rw [taken, Remainder.setIds, nothing]

theorem beside_takeRelations_of_none {relations : List Relation} (nothing : draft.rest.beside = none) :
    (relations.foldl (takeRelation inner parent context) draft).rest.beside = none := by
  induction relations generalizing draft with
  | nil => exact nothing
  | cons relation rest ih => exact ih (beside_takeRelation_of_none nothing)

theorem get?_finish {kind : Kind} {guild : Option Snowflake} {payload : Fields}
    (notMember : kind = .message → field ≠ "member") :
    let draft := kind.relations.foldl (takeRelation inner parent context)
      ⟨entering kind guild payload, []⟩
    draft.rest.finish.get? field = draft.rest.fields.get? field := by
  intro draft
  unfold Remainder.finish
  by_cases message : kind = .message
  · split
    · exact Fields.get?_insert_of_ne (notMember message) _ _
    · rfl
  · have nothing : draft.rest.beside = none :=
      beside_takeRelations_of_none (beside_entering message guild payload)
    rw [nothing]

end Split

namespace Part

variable {context : Context} {target : Target} {part outer : Part} {split : Split}
  {record : Record} {field : String}

theorem records_of_split (apart : part.split = .ok split) : part.records = split.records := by
  simp [records, apart, Except.toOption]

theorem root?_of_split (apart : part.split = .ok split) : part.root? = some split.root := by
  simp [root?, apart, Except.toOption]

theorem split_of_root? (own : part.root? = some record) :
    ∃ split, part.split = .ok split ∧ split.root = record := by
  cases apart : part.split with
  | error error => simp [root?, apart, Except.toOption] at own
  | ok split => exact ⟨split, rfl, Option.some.inj ((root?_of_split apart).symm.trans own)⟩

theorem records_of_error {error : CacheError} (refused : part.split = .error error) :
    part.records = [] := by
  simp [records, refused, Except.toOption]

theorem split_of_mem_records (member : record ∈ part.records) :
    ∃ split, part.split = .ok split ∧ record ∈ split.records := by
  cases apart : part.split with
  | error error => simp [records, apart, Except.toOption] at member
  | ok split =>
    rw [records_of_split apart] at member
    exact ⟨split, rfl, member⟩

theorem extract_whole (beside : Option Json) (object : Fields) :
    Split.extract Split.whole context target beside object =
      match (ofObject context target (beside, object)).split with
      | .ok split => .stored split.root.id split.records
      | .error _ => .inline (ofObject context target (beside, object)).payload := rfl

theorem records_extract (beside : Option Json) (object : Fields) :
    (Split.extract Split.whole context target beside object).records =
      (ofObject context target (beside, object)).records := by
  rw [extract_whole]
  cases apart : (ofObject context target (beside, object)).split with
  | ok split => rw [records_of_split apart, Extracted.records]
  | error error => rw [records_of_error apart, Extracted.records]

theorem records_sift (items : List Json) :
    (Split.sift Split.whole context target items).records =
      (((items.filterMap Json.fields?).map (none, ·)).map (ofObject context target)).flatMap
        records := by
  induction items with
  | nil => rfl
  | cons item rest ih =>
    cases item with
    | obj object =>
      simp only [List.filterMap_cons, Json.fields?, List.map_cons, List.flatMap_cons, ← ih,
        ← records_extract, Split.sift]
      cases Split.extract Split.whole context target none object <;> rfl
    | null | bool | num | str | arr =>
      simp only [Split.sift, List.filterMap_cons, Json.fields?]
      split <;> exact ih

theorem embedded_takeRelation {parent : Option Kind} {relation : Relation}
    (forward : Split.leadsBack relation parent = false) (draft : Draft) :
    (Split.takeRelation Split.whole parent context draft relation).embedded =
      draft.embedded ++
        ((draft.rest.objects relation).map (ofObject context relation.target)).flatMap records := by
  unfold Remainder.objects
  split
  · next object one found =>
    rw [Split.takeRelation_object forward one found, records_extract]
    simp
  · next items many found => rw [Split.takeRelation_items forward many found, records_sift]
  · next notOne notMany =>
    rw [Split.takeRelation_other (fun one object => notOne object one)
      (fun many items => notMany items many)]
    simp

/-- Relations that spare each other add the records of what they lead to at first. -/
theorem embedded_takeRelations {parent : Option Kind} {relations : List Relation}
    (spare : relations.Pairwise Split.Spares) (draft : Draft) :
    (relations.foldl (Split.takeRelation Split.whole parent context) draft).embedded =
      draft.embedded ++
        (relations.filter (fun relation => !Split.leadsBack relation parent)).flatMap fun relation =>
          ((draft.rest.objects relation).map (ofObject context relation.target)).flatMap records := by
  induction relations generalizing draft with
  | nil => simp
  | cons relation rest ih =>
    obtain ⟨spares, spareRest⟩ := List.pairwise_cons.mp spare
    rw [List.foldl_cons, ih spareRest]
    cases back : Split.leadsBack relation parent with
    | true => simp [back, Split.takeRelation_of_leadsBack]
    | false =>
      rw [embedded_takeRelation back, List.append_assoc, List.filter_cons_of_pos (by simp [back]),
        List.flatMap_cons]
      congr 2
      refine List.flatMap_congr fun other member => ?_
      rw [Split.objects_takeRelation (spares other (List.mem_filter.mp member).1)]

theorem guild?_of_identify {id : Snowflake} (identified : part.kind.identify part.payload = .ok id) :
    part.guild? = Split.guildOf part.kind id part.payload part.context.guild := by
  simp [guild?, identified, Except.toOption]

/-- What a part comes to, if it comes to anything. -/
theorem split_ok (apart : part.split = .ok split) :
    ∃ id key, part.kind.identify part.payload = .ok id ∧
      Split.keyOf part.kind id part.guild? = .ok key ∧
      split =
        let draft := part.kind.relations.foldl
          (Split.takeRelation Split.whole part.context.parent ⟨part.guild?, some part.kind⟩)
          ⟨Split.entering part.kind part.guild? part.payload, []⟩
        ⟨draft.embedded, ⟨part.kind, key, draft.rest.finish⟩⟩ := by
  rw [Part.split, ← Split.nested_maxLevels] at apart
  obtain ⟨id, key, identified, keyed, made⟩ := Split.step_ok apart
  rw [← guild?_of_identify identified] at keyed made
  exact ⟨id, key, identified, keyed, made⟩

theorem split_embedded (apart : part.split = .ok split) :
    split.embedded = part.held.flatMap records := by
  obtain ⟨id, key, -, -, rfl⟩ := split_ok apart
  simp only [embedded_takeRelations (Split.relations_spare part.kind), List.nil_append]
  rw [held, List.flatMap_assoc]
  rfl

theorem split_root_kind (apart : part.split = .ok split) : split.root.kind = part.kind := by
  obtain ⟨id, key, -, -, rfl⟩ := split_ok apart
  rfl

theorem split_root_id (apart : part.split = .ok split) :
    part.kind.identify part.payload = .ok split.root.id := by
  obtain ⟨id, key, identified, keyed, rfl⟩ := split_ok apart
  rw [identified, Record.id, (Split.keyOf_ok keyed).2.1]

theorem split_root_key (apart : part.split = .ok split) :
    Split.keyOf part.kind split.root.id part.guild? = .ok split.root.key := by
  obtain ⟨id, key, identified, keyed, rfl⟩ := split_ok apart
  rw [Record.id, (Split.keyOf_ok keyed).2.1, keyed]

theorem address?_root (apart : part.split = .ok split) :
    Store.address? split.root.kind split.root.key = some split.root.key := by
  rw [split_root_kind apart]
  exact (Split.keyOf_ok (split_root_key apart)).1

theorem get?_root (apart : part.split = .ok split) (notMember : part.kind = .message → field ≠ "member")
    (unrelated : Split.Unrelated part.kind field) :
    split.root.fields.get? field =
      (Split.withGuild part.kind part.guild? part.payload).get? field := by
  obtain ⟨id, key, -, -, rfl⟩ := split_ok apart
  simp only
  rw [Split.get?_finish notMember, Split.get?_takeRelations unrelated, Split.get?_entering notMember]

theorem mem_held {inner : Part} :
    inner ∈ outer.held ↔ ∃ relation ∈ outer.kind.relations,
      Split.leadsBack relation outer.context.parent = false ∧ inner ∈ outer.heldBy relation := by
  simp [held, relations, and_assoc]

theorem mem_heldBy {relation : Relation} {inner : Part} :
    inner ∈ outer.heldBy relation ↔
      ∃ object ∈ (Split.entering outer.kind outer.guild? outer.payload).objects relation,
        ofObject ⟨outer.guild?, some outer.kind⟩ relation.target object = inner := by
  simp [heldBy]

theorem context_of_held {inner : Part} (held : inner ∈ outer.held) :
    inner.context = ⟨outer.guild?, some outer.kind⟩ := by
  obtain ⟨relation, -, -, heldBy⟩ := mem_held.mp held
  obtain ⟨object, -, rfl⟩ := mem_heldBy.mp heldBy
  rfl

theorem kind_of_heldBy {relation : Relation} {inner : Part} (held : inner ∈ outer.heldBy relation) :
    inner.kind ∈ relation.target.kinds := by
  obtain ⟨object, -, rfl⟩ := mem_heldBy.mp held
  exact Split.promote_kind _ _ _ _

theorem height_lt_of_held {inner : Part} (held : inner ∈ outer.held) :
    Split.height inner.kind inner.context.parent < Split.height outer.kind outer.context.parent := by
  obtain ⟨relation, member, forward, heldBy⟩ := mem_held.mp held
  rw [context_of_held held]
  exact Split.height_lt member forward (kind_of_heldBy heldBy)

theorem Within.trans {whole outer inner : Part} (first : whole.Within outer)
    (second : outer.Within inner) : whole.Within inner := by
  induction second with
  | self => exact first
  | deeper _ held ih => exact .deeper ih held

/-- Every record of a payload is the root of some part of it. -/
theorem exists_root {whole : Part} (member : record ∈ whole.records) :
    ∃ part split, whole.Within part ∧ part.split = .ok split ∧ split.root = record := by
  -- What is held has fewer levels, and its parts are parts of the whole.
  induction size : Split.height whole.kind whole.context.parent using Nat.strongRecOn
    generalizing whole with
  | ind size ih =>
    obtain ⟨split, apart, inside⟩ := split_of_mem_records member
    rcases Split.mem_records.mp inside with embedded | rfl
    · rw [split_embedded apart, List.mem_flatMap] at embedded
      obtain ⟨inner, held, here⟩ := embedded
      have fewer := height_lt_of_held held
      obtain ⟨part, own, within, found⟩ := ih _ (size ▸ fewer) here rfl
      exact ⟨part, own, Within.trans (.deeper .self held) within, found⟩
    · exact ⟨whole, split, .self, apart, rfl⟩

theorem height_le_of_within {whole : Part} (within : whole.Within part) :
    Split.height part.kind part.context.parent ≤ Split.height whole.kind whole.context.parent := by
  induction within with
  | self => exact Nat.le_refl _
  | deeper _ held ih => exact Nat.le_trans (Nat.le_of_lt (height_lt_of_held held)) ih

theorem exists_root_of_embedded (apart : part.split = .ok split) (member : record ∈ split.embedded) :
    ∃ held ∈ part.held, ∃ inner own, held.Within inner ∧ inner.split = .ok own ∧ own.root = record := by
  rw [split_embedded apart, List.mem_flatMap] at member
  obtain ⟨held, here, inside⟩ := member
  exact ⟨held, here, exists_root inside⟩

/-- Nothing of the same kind is embedded in a payload, but for messages. -/
theorem kind_ne_of_embedded (other : part.kind ≠ .message) (apart : part.split = .ok split)
    (member : record ∈ split.embedded) : record.kind ≠ part.kind := by
  obtain ⟨held, here, inner, own, within, found, rfl⟩ := exists_root_of_embedded apart member
  intro same
  rw [split_root_kind found] at same
  have level : Split.height inner.kind inner.context.parent =
      Split.height part.kind part.context.parent := by
    rw [same]
    exact Split.height_eq other _ _
  have less := height_lt_of_held here
  have below := height_le_of_within within
  omega

theorem not_message_of_held {inner : Part} (held : inner ∈ outer.held)
    (other : outer.kind ≠ .message ∨ outer.context.parent = some .message) :
    inner.kind ≠ .message := by
  obtain ⟨relation, among, forward, heldBy⟩ := mem_held.mp held
  intro message
  have leads := message ▸ kind_of_heldBy heldBy
  rcases other with plain | inside
  · have never : ∀ kind : Kind, kind ≠ .message → ∀ relation ∈ kind.relations,
        Kind.message ∉ relation.target.kinds := by
      intro kind
      cases kind <;> decide
    exact never outer.kind plain relation among leads
  · simp [Split.leadsBack, inside, leads] at forward

theorem parent_of_message {whole : Part} (within : whole.Within part)
    (outermost : whole.context.parent = none) (message : part.kind = .message) :
    ∀ kind ∈ part.context.parent, kind = .message := by
  cases within with
  | self => simp [outermost]
  | @deeper outer _ _ held =>
    rw [context_of_held held]
    intro kind same
    obtain rfl := Option.some.inj same
    by_contra other
    exact not_message_of_held held (.inl other) message

theorem reply_of_heldBy {relation : Relation} {inner : Part} (kind : part.kind = .message)
    (member : relation ∈ part.kind.relations) (held : inner ∈ part.heldBy relation)
    (message : inner.kind = .message) :
    part.payload.get? "referenced_message" = some (.obj inner.payload) := by
  have only : ∀ relation ∈ Kind.message.relations, Kind.message ∈ relation.target.kinds →
      relation = .single "referenced_message" .message "referenced_message_id" := by decide
  obtain rfl := only relation (kind ▸ member) (message ▸ kind_of_heldBy held)
  obtain ⟨object, here, rfl⟩ := mem_heldBy.mp held
  have kept : (Split.entering part.kind part.guild? part.payload).fields.get? "referenced_message" =
      part.payload.get? "referenced_message" := by
    rw [Split.get?_entering (fun _ => by decide), Split.get?_withGuild (by decide)]
  simp only [Remainder.objects, Relation.single, kept] at here
  cases found : part.payload.get? "referenced_message" with
  | none => simp [found] at here
  | some value =>
    cases value with
    | obj reply =>
      simp only [found, List.mem_singleton] at here
      rw [here]
      rfl
    | null | bool | num | str | arr => simp [found] at here

/-- Of messages, only one that the payload replies to is embedded in it. -/
theorem reply_of_embedded (kind : part.kind = .message) (apart : part.split = .ok split)
    (member : record ∈ split.embedded) (message : record.kind = .message) :
    ∃ object, part.payload.get? "referenced_message" = some (.obj object) ∧
      Kind.identify .message object = .ok record.id := by
  obtain ⟨held, here, inner, own, within, found, rfl⟩ := exists_root_of_embedded apart member
  rw [split_root_kind found] at message
  have less := height_lt_of_held here
  have most := Split.height_le_maxLevels part.kind part.context.parent
  cases within with
  | self =>
    obtain ⟨relation, among, -, heldBy⟩ := mem_held.mp here
    have own := split_root_id found
    rw [message] at own
    exact ⟨held.payload, reply_of_heldBy kind among heldBy message, own⟩
  | deeper between deep =>
    -- A message has three levels, and whatever holds one has more.
    have deeper := height_lt_of_held deep
    have below := height_le_of_within between
    have three : 3 ≤ Split.height inner.kind inner.context.parent := by
      rw [message]
      exact Split.three_le_height_message _
    simp only [Split.maxLevels] at most
    omega

end Part

end GatewayCache
