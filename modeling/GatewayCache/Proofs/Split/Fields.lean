import GatewayCache.Proofs.Split.Parts
import GatewayCache.Split.Entry

/-! # Fields of relations

A relation is about two fields, the one that it reads and the one that holds ids
afterwards, and neither is another relation's. So a record holds in them what the
relation made of them in its turn, and that can be told from the payload alone.
-/

namespace GatewayCache

open Split (Context Draft Remainder Splitter)

/-- The fields that a relation is about. -/
def Relation.fields (relation : Relation) : List String := [relation.field, relation.idField]

namespace Part

variable {part : Part} {split : Split}

theorem id?_of_split (apart : part.split = .ok split) : part.id? = some split.root.id := by
  have identified := split_root_id apart
  have owned := (Split.keyOf_ok (split_root_key apart)).2.2
  simp only [id?, identified, Except.toOption]
  cases inGuild : part.kind.isScoped with
  | false => rfl
  | true => simp [owned inGuild]

theorem id?_of_error {error : CacheError} (refused : part.split = .error error) : part.id? = none := by
  rw [Part.split, ← Split.nested_maxLevels, Split.step] at refused
  cases identified : part.kind.identify part.payload with
  | error => simp [id?, identified, Except.toOption]
  | ok id =>
    simp only [identified, bind, Except.bind, ← guild?_of_identify identified] at refused
    cases inGuild : part.kind.isScoped with
    | false => simp [Split.keyOf, inGuild] at refused
    | true =>
      cases owner : part.guild? with
      | none => simp [id?, identified, inGuild, owner, Except.toOption]
      | some guild => simp [Split.keyOf, inGuild, owner] at refused

theorem split_of_id? {id : Snowflake} (known : part.id? = some id) :
    ∃ split, part.split = .ok split ∧ split.root.id = id := by
  cases apart : part.split with
  | error error => simp [id?_of_error apart] at known
  | ok split => exact ⟨split, rfl, Option.some.inj ((id?_of_split apart).symm.trans known)⟩

theorem extract_eq (context : Context) (target : Target) (beside : Option Json) (object : Fields) :
    let held := ofObject context target (beside, object)
    Split.extract Split.whole context target beside object =
      held.id?.elim (.inline held.payload) (fun id => .stored id held.records) := by
  intro held
  rw [extract_whole]
  cases apart : (ofObject context target (beside, object)).split with
  | ok split => simp only [held, id?_of_split apart, records_of_split apart, Option.elim_some]
  | error error => simp only [held, id?_of_error apart, Option.elim_none]

theorem keyOf_root (apart : part.split = .ok split) : part.keyOf split.root.id = split.root.key := by
  have made := split_root_key apart
  unfold Split.keyOf at made
  unfold keyOf
  split at made
  · next inGuild =>
    rw [if_pos inGuild]
    cases owner : part.guild? with
    | none => simp [owner] at made
    | some guild => simpa [owner, Key.within] using made
  · next outside =>
    rw [if_neg outside]
    simpa [Key.within] using made

end Part

namespace Split

variable {inner : Splitter} {parent : Option Kind} {context : Context} {target : Target}
  {draft : Draft} {relation : Relation} {rest : Remainder} {items : List Json}

/-- Sifting a list holds what it can by an id and keeps the rest. -/
theorem sift_whole (items : List Json) :
    (sift whole context target items).ids = items.filterMap (entryId? context target) ∧
      (sift whole context target items).left = items.filterMap (entryLeft? context target) := by
  induction items with
  | nil => exact ⟨rfl, rfl⟩
  | cons item rest ih =>
    obtain ⟨ids, left⟩ := ih
    cases item with
    | obj object =>
      cases known : (Part.ofObject context target (none, object)).id? <;>
        simp [sift, Part.extract_eq, entryLeft?, entryId?, staying, known, ids, left]
    | null | bool | num | str | arr =>
      simp only [sift, List.filterMap_cons, entryLeft?, entryId?, staying]
      split <;> simp_all

/-- No field of one relation is one of the other's. -/
def Separate (first second : Relation) : Prop := ∀ field ∈ first.fields, field ∉ second.fields

instance (first second : Relation) : Decidable (Separate first second) := by
  unfold Separate
  infer_instance

theorem relations_separate (kind : Kind) : kind.relations.Pairwise Separate := by
  cases kind <;> decide

theorem relation_fields (kind : Kind) : ∀ relation ∈ kind.relations,
    relation.field ≠ relation.idField ∧ (∀ field ∈ relation.fields, field ≠ "guild_id") ∧
      (kind = .message → ∀ field ∈ relation.fields, field ≠ "member") := by
  cases kind <;> decide

theorem plain_of_many (kind : Kind) : ∀ relation ∈ kind.relations, relation.shape = .many →
    relation.memberBeside = false := by
  cases kind <;> decide

/-- Of relations that are separate, each reads its fields as they were at first, and leaves them as they
are in the end. -/
theorem takeRelations_own (inner : Splitter) (parent : Option Kind) (context : Context)
    {relations : List Relation} (spare : relations.Pairwise Spares)
    (separate : relations.Pairwise Separate) (here : relation ∈ relations) (draft : Draft) :
    ∃ before : Draft,
      (∀ field ∈ relation.fields,
        before.rest.fields.get? field = draft.rest.fields.get? field ∧
          (relations.foldl (takeRelation inner parent context) draft).rest.fields.get? field =
            (takeRelation inner parent context before relation).rest.fields.get? field) ∧
      (before.rest.handOver relation).1 = (draft.rest.handOver relation).1 := by
  induction relations generalizing draft with
  | nil => cases here
  | cons first rest ih =>
    obtain ⟨spares, spareRest⟩ := List.pairwise_cons.mp spare
    obtain ⟨differs, separateRest⟩ := List.pairwise_cons.mp separate
    rcases List.mem_cons.mp here with rfl | later
    · -- It is its turn: all later relations leave its fields alone.
      refine ⟨draft, fun field own => ⟨rfl, ?_⟩, rfl⟩
      rw [List.foldl_cons]
      refine get?_takeRelations fun other member => ?_
      simpa [Relation.fields] using differs other member field own
    · -- It comes later: the first relation leaves its fields and its member data alone.
      obtain ⟨before, fields, handed⟩ :=
        ih spareRest separateRest later (takeRelation inner parent context draft first)
      refine ⟨before, fun field own => ⟨(fields field own).1.trans ?_, (fields field own).2⟩,
        handed.trans (handOver_takeRelation (spares relation later).2.2)⟩
      have apart : field ≠ first.field ∧ field ≠ first.idField :=
        ⟨fun same => differs relation later first.field (by simp [Relation.fields]) (same ▸ own),
          fun same => differs relation later first.idField (by simp [Relation.fields]) (same ▸ own)⟩
      exact get?_takeRelation apart.1 apart.2

variable {ids : List Snowflake} {left : List Json}

theorem get?_setIds_idField (apart : relation.field ≠ relation.idField) :
    (rest.setIds relation ids left).fields.get? relation.idField =
      some (.arr (ids.map Snowflake.toJson)) := by
  unfold Remainder.setIds
  simp only
  split <;> simp [Fields.get?_insert_self, Fields.get?_insert_of_ne, Ne.symm apart]

theorem get?_setIds_field (apart : relation.field ≠ relation.idField) :
    (rest.setIds relation ids left).fields.get? relation.field =
      if left = [] then none else some (.arr left) := by
  unfold Remainder.setIds
  cases left <;>
    simp [Fields.get?_insert_self, Fields.get?_insert_of_ne, Fields.get?_erase_self, apart]

theorem takeRelation_list (forward : leadsBack relation parent = false) (many : relation.shape = .many)
    (found : draft.rest.fields.get? relation.field = some (.arr items)) :
    (takeRelation whole parent context draft relation).rest =
      draft.rest.setIds relation (items.filterMap (entryId? context relation.target))
        (items.filterMap (entryLeft? context relation.target)) := by
  rw [takeRelation_items forward many found, (sift_whole items).1, (sift_whole items).2]

theorem takeRelation_single (context : Context) {object : Fields}
    (forward : leadsBack relation parent = false) (one : relation.shape = .one)
    (found : draft.rest.fields.get? relation.field = some (.obj object)) :
    let held := Part.ofObject context relation.target ((draft.rest.handOver relation).1, object)
    let rest := (draft.rest.handOver relation).2
    (takeRelation whole parent context draft relation).rest =
      held.id?.elim (rest.setInline relation held.payload) (rest.setId relation) := by
  intro held rest
  rw [takeRelation_object forward one found, Part.extract_eq]
  cases held.id? <;> rfl

end Split

namespace Part

variable {part : Part} {split : Split} {relation : Relation} {items : List Json} {field : String}

theorem get?_entering_own (among : relation ∈ part.kind.relations) (own : field ∈ relation.fields) :
    (Split.entering part.kind part.guild? part.payload).fields.get? field =
      part.payload.get? field := by
  obtain ⟨-, notGuild, notMember⟩ := Split.relation_fields part.kind relation among
  have spared : part.kind = .message → field ≠ "member" := fun message =>
    notMember message field own
  rw [Split.get?_entering spared, Split.get?_withGuild (notGuild field own)]

/-- The record of a payload holds in the fields of a relation what the relation made of them. -/
theorem root_own (apart : part.split = .ok split) (among : relation ∈ part.kind.relations) :
    ∃ before : Draft,
      (∀ field ∈ relation.fields,
        before.rest.fields.get? field = part.payload.get? field ∧
          split.root.fields.get? field =
            (Split.takeRelation Split.whole part.context.parent ⟨part.guild?, some part.kind⟩ before
              relation).rest.fields.get? field) ∧
      (before.rest.handOver relation).1 =
        ((Split.entering part.kind part.guild? part.payload).handOver relation).1 := by
  obtain ⟨id, key, -, -, rfl⟩ := split_ok apart
  obtain ⟨before, fields, handed⟩ := Split.takeRelations_own Split.whole part.context.parent
    ⟨part.guild?, some part.kind⟩ (Split.relations_spare part.kind)
    (Split.relations_separate part.kind) among ⟨Split.entering part.kind part.guild? part.payload, []⟩
  refine ⟨before, fun field own => ⟨?_, ?_⟩, handed⟩
  · rw [(fields field own).1, get?_entering_own among own]
  · have spared : part.kind = .message → field ≠ "member" := fun message =>
      (Split.relation_fields part.kind relation among).2.2 message field own
    rw [← (fields field own).2, Split.get?_finish spared]

theorem root_list (apart : part.split = .ok split)
    (forward : Split.leadsBack relation part.context.parent = false)
    (among : relation ∈ part.kind.relations) (many : relation.shape = .many)
    (found : part.payload.get? relation.field = some (.arr items)) :
    let inside : Split.Context := ⟨part.guild?, some part.kind⟩
    let left := items.filterMap (Split.entryLeft? inside relation.target)
    split.root.fields.get? relation.idField =
        some (.arr ((items.filterMap (Split.entryId? inside relation.target)).map
          Snowflake.toJson)) ∧
      split.root.fields.get? relation.field = if left = [] then none else some (.arr left) := by
  obtain ⟨before, fields, -⟩ := root_own apart among
  obtain ⟨here, made⟩ := fields relation.field (by simp [Relation.fields])
  have madeIds := (fields relation.idField (by simp [Relation.fields])).2
  have differ := (Split.relation_fields part.kind relation among).1
  rw [made, madeIds, Split.takeRelation_list forward many (here.trans found)]
  exact ⟨Split.get?_setIds_idField differ, Split.get?_setIds_field differ⟩

theorem root_single {object : Fields} (apart : part.split = .ok split)
    (forward : Split.leadsBack relation part.context.parent = false)
    (among : relation ∈ part.kind.relations) (one : relation.shape = .one)
    (found : part.payload.get? relation.field = some (.obj object)) :
    let held := part.heldAt relation object
    (∀ id, held.id? = some id → split.root.fields.get? relation.idField = some id.toJson ∧
      split.root.fields.get? relation.field = none) ∧
    (held.id? = none → split.root.fields.get? relation.field = some (.obj held.payload)) := by
  intro held
  obtain ⟨before, fields, handed⟩ := root_own apart among
  obtain ⟨here, made⟩ := fields relation.field (by simp [Relation.fields])
  have madeId := (fields relation.idField (by simp [Relation.fields])).2
  have differ := (Split.relation_fields part.kind relation among).1
  have same : ofObject ⟨part.guild?, some part.kind⟩ relation.target
      ((before.rest.handOver relation).1, object) = held := by
    rw [handed]
    rfl
  have taken := Split.takeRelation_single ⟨part.guild?, some part.kind⟩ forward one (here.trans found)
  simp only [same] at taken
  rw [made, madeId, taken]
  refine ⟨fun id known => ?_, fun unknown => ?_⟩
  · simp [known, Remainder.setId, Fields.get?_insert_of_ne differ]
  · simp [unknown, Remainder.setInline]

theorem root_left (apart : part.split = .ok split) (among : relation ∈ part.kind.relations)
    (left : Split.leadsBack relation part.context.parent = true ∨
      (relation.shape = .one → ∀ object, part.payload.get? relation.field ≠ some (.obj object)) ∧
      (relation.shape = .many → ∀ items, part.payload.get? relation.field ≠ some (.arr items)))
    (own : field ∈ relation.fields) :
    split.root.fields.get? field = part.payload.get? field := by
  obtain ⟨before, fields, -⟩ := root_own apart among
  obtain ⟨here, made⟩ := fields field own
  have same := (fields relation.field (by simp [Relation.fields])).1
  rw [made, ← here]
  rcases left with back | ⟨notOne, notMany⟩
  · rw [Split.takeRelation_of_leadsBack back]
  · rw [Split.takeRelation_other (same ▸ notOne) (same ▸ notMany)]

theorem heldAt_of_many (among : relation ∈ part.kind.relations) (many : relation.shape = .many)
    (object : Fields) :
    part.heldAt relation object =
      ofObject ⟨part.guild?, some part.kind⟩ relation.target (none, object) := by
  have plain := Split.plain_of_many part.kind relation among many
  simp [heldAt, Remainder.handOver, plain]

theorem heldBy_eq (among : relation ∈ part.kind.relations) :
    part.heldBy relation = (part.objectsAt relation).map (part.heldAt relation) := by
  have own : relation.field ∈ relation.fields := by simp [Relation.fields]
  have here := get?_entering_own among own
  unfold heldBy Remainder.objects objectsAt heldAt
  rw [here]
  cases shape : relation.shape with
  | one =>
    cases part.payload.get? relation.field with
    | none => rfl
    | some value => cases value <;> rfl
  | many =>
    have plain := Split.plain_of_many part.kind relation among shape
    cases part.payload.get? relation.field with
    | none => rfl
    | some value => cases value <;> simp [Remainder.handOver, plain]

theorem heldAt_mem_held (forward : Split.leadsBack relation part.context.parent = false)
    (among : relation ∈ part.kind.relations) {object : Fields}
    (here : object ∈ part.objectsAt relation) : part.heldAt relation object ∈ part.held := by
  refine mem_held.mpr ⟨relation, among, forward, ?_⟩
  rw [heldBy_eq among]
  exact List.mem_map_of_mem here

end Part

end GatewayCache
