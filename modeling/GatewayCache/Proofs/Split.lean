import GatewayCache.Proofs.Json.Fields
import GatewayCache.Proofs.Snowflake
import GatewayCache.Split
import GatewayCache.Store

/-! # What a split payload holds

The root of a split payload is of the kind asked for and of the id in the payload.
Its records are of kinds that the relations lead to, and their fields are in order
where those of the payload are.
-/

namespace GatewayCache.Split

theorem mem_records {split : Split} {record : Record} :
    record ∈ split.records ↔ record ∈ split.embedded ∨ record = split.root := by
  simp [records]

/-- The fields of every record are in order. -/
def InOrder (split : Split) : Prop := ∀ record ∈ split.records, record.fields.ordered

theorem keyOf_ok {kind : Kind} {id : Snowflake} {guild : Option Snowflake} {key : Key}
    (made : keyOf kind id guild = .ok key) :
    Store.address? kind key = some key ∧ key.id = id ∧ (kind.isScoped → guild.isSome) := by
  unfold keyOf at made
  split at made
  · next inGuild =>
    cases guild with
    | none => simp at made
    | some guild =>
      simp only [Option.elim_some, Except.ok.injEq] at made
      subst made
      exact ⟨by simp [Store.address?, inGuild], rfl, by simp⟩
  · next global =>
    simp only [Except.ok.injEq] at made
    subst made
    exact ⟨by simp [Store.address?, global, Key.id], rfl, fun inGuild => absurd inGuild global⟩

/-- What taking a payload apart comes to, if it comes to anything. -/
theorem step_ok {inner : Splitter} {kind : Kind} {context : Context} {payload : Fields}
    {split : Split} (done : step inner kind context payload = .ok split) :
    ∃ id key, kind.identify payload = .ok id ∧
      keyOf kind id (guildOf kind id payload context.guild) = .ok key ∧
      split =
        let guild := guildOf kind id payload context.guild
        let draft := kind.relations.foldl (takeRelation inner context.parent ⟨guild, some kind⟩)
          ⟨entering kind guild payload, []⟩
        ⟨draft.embedded, ⟨kind, key, draft.rest.finish⟩⟩ := by
  unfold step at done
  cases identified : kind.identify payload with
  | error => simp [identified, bind, Except.bind] at done
  | ok id =>
    cases keyed : keyOf kind id (guildOf kind id payload context.guild) with
    | error => simp [identified, keyed, bind, Except.bind] at done
    | ok key =>
      simp only [identified, keyed, bind, Except.bind, Except.ok.injEq] at done
      exact ⟨id, key, rfl, keyed, done.symm⟩

theorem guildOf_isSome {kind : Kind} {id : Snowflake} {payload : Fields}
    {around : Option Snowflake} (inGuild : kind.isScoped)
    (known : (guildOf kind id payload around).isSome) :
    around.isSome ∨ payload.contains "guild_id" := by
  have reading : guildOf kind id payload around = (payload.relationId "guild_id").or around := by
    cases kind <;> first | rfl | cases inGuild
  rw [reading] at known
  cases named : payload.relationId "guild_id" with
  | none => exact .inl (by simpa [named] using known)
  | some guild => exact .inr (Fields.contains_of_relationId named)

theorem keyOf_within (kind : Kind) (id guild : Snowflake) :
    ∃ key, keyOf kind id (some guild) = .ok key := by
  unfold keyOf
  split
  · exact ⟨.scoped guild id, rfl⟩
  · exact ⟨.global id, rfl⟩

theorem guildOf_within (kind : Kind) (id guild : Snowflake) (payload : Fields) :
    ∃ owner, guildOf kind id payload (some guild) = some owner := by
  cases payload.relationId "guild_id" <;> cases kind <;> simp_all [guildOf]

theorem ofFields_within (kind : Kind) (guild : Snowflake) (payload : Fields) :
    (∃ id split, kind.identify payload = .ok id ∧ ofFields kind (some guild) payload = .ok split) ∨
      ∃ error, kind.identify payload = .error error ∧
        ofFields kind (some guild) payload = .error error := by
  cases identified : kind.identify payload with
  | error error =>
    refine .inr ⟨error, rfl, ?_⟩
    simp only [ofFields, maxLevels, nested, step, identified, bind, Except.bind]
  | ok id =>
    obtain ⟨owner, owned⟩ := guildOf_within kind id guild payload
    obtain ⟨key, keyed⟩ := keyOf_within kind id owner
    obtain ⟨split, apart⟩ : ∃ split, ofFields kind (some guild) payload = .ok split := by
      simp only [ofFields, maxLevels, nested, step, identified, owned, keyed, bind, Except.bind]
      exact ⟨_, rfl⟩
    exact .inl ⟨id, split, rfl, apart⟩

theorem ofFields_root {kind : Kind} {guild : Option Snowflake} {payload : Fields} {split : Split}
    (apart : ofFields kind guild payload = .ok split) :
    split.root.kind = kind ∧ kind.identify payload = .ok split.root.id := by
  obtain ⟨id, key, identified, keyed, rfl⟩ := step_ok apart
  exact ⟨rfl, by rw [identified, ← (keyOf_ok keyed).2.1]; rfl⟩

theorem ofFields_address {kind : Kind} {guild : Option Snowflake} {payload : Fields} {split : Split}
    (apart : ofFields kind guild payload = .ok split) :
    Store.address? kind split.root.key = some split.root.key := by
  obtain ⟨id, key, identified, keyed, rfl⟩ := step_ok apart
  exact (keyOf_ok keyed).1

theorem obj_of_ofJson {kind : Kind} {guild : Option Snowflake} {payload : Json} {split : Split}
    (apart : ofJson kind guild payload = .ok split) :
    ∃ fields : Fields, payload = .obj fields ∧ ofFields kind guild fields = .ok split := by
  cases payload with
  | obj fields => exact ⟨fields, rfl, apart⟩
  | null | bool | num | str | arr => cases apart

theorem ofJson_root_kind {kind : Kind} {guild : Option Snowflake} {payload : Json} {split : Split}
    (apart : ofJson kind guild payload = .ok split) : split.root.kind = kind := by
  obtain ⟨fields, rfl, apart⟩ := obj_of_ofJson apart
  exact (ofFields_root apart).1

/-- Whether every kind that a kind's relations lead to is among some. -/
def LeadsTo (among : Kind → Prop) (kind : Kind) : Prop :=
  ∀ relation ∈ kind.relations, ∀ target ∈ relation.target.kinds, among target

/-- A record of one of some kinds, with its fields in order. -/
structure Fit (among : Kind → Prop) (record : Record) : Prop where
  /-- The kind is one of those. -/
  kind : among record.kind
  /-- Every object in the fields lists its keys in order. -/
  ordered : record.fields.ordered

/-- A splitter that makes fit records of ordered payloads of some kinds. -/
structure Sound (among : Kind → Prop) (inner : Splitter) : Prop where
  /-- Every record is fit. -/
  fit : ∀ {kind context payload split}, inner kind context payload = .ok split → among kind →
    payload.ordered → ∀ record ∈ split.records, Fit among record

/-- An embedded object whose records are fit, or that stays in order. -/
def Extracted.Fit (among : Kind → Prop) : Extracted → Prop
  | .stored _ records => ∀ record ∈ records, Split.Fit among record
  | .inline object => object.ordered

variable {among : Kind → Prop} {inner : Splitter}

theorem promote_kind (target : Target) (guild : Option Snowflake) (beside : Option Json)
    (object : Fields) : (promote target guild beside object).1 ∈ target.kinds := by
  unfold promote
  split
  · simp [Target.kinds]
  · split
    · simp [Target.kinds]
    · split <;> simp [Target.kinds]
    · simp [Target.kinds]

theorem promote_ordered (target : Target) (guild : Option Snowflake) {beside : Option Json}
    {object : Fields} (ordered : object.ordered) (waiting : ∀ value ∈ beside, value.ordered) :
    (promote target guild beside object).2.ordered := by
  unfold promote
  split
  · exact ordered
  · split
    · next member =>
      have orderedMember : Fields.ordered member := waiting (.obj member) rfl
      exact Fields.ordered_insert orderedMember ordered
    · split
      · next member found =>
        have orderedMember : Fields.ordered member := Fields.ordered_of_get? ordered found
        exact Fields.ordered_insert orderedMember (Fields.ordered_erase ordered "member")
      · exact ordered
    · exact ordered

theorem extract_fit (sound : Sound among inner) (context : Context) {target : Target}
    {beside : Option Json} {object : Fields} (targets : ∀ kind ∈ target.kinds, among kind)
    (ordered : object.ordered) (waiting : ∀ value ∈ beside, value.ordered) :
    (extract inner context target beside object).Fit among := by
  have kind := promote_kind target context.guild beside object
  have payload := promote_ordered target context.guild ordered waiting
  unfold extract
  simp only
  split
  · next split apart => exact sound.fit apart (targets _ kind) payload
  · exact payload

theorem sift_fit (sound : Sound among inner) (context : Context) {target : Target}
    (targets : ∀ kind ∈ target.kinds, among kind) {items : List Json}
    (ordered : ∀ item ∈ items, item.ordered) :
    (∀ record ∈ (sift inner context target items).records, Fit among record) ∧
      ∀ item ∈ (sift inner context target items).left, item.ordered := by
  induction items with
  | nil => simp [sift]
  | cons item rest ih =>
    obtain ⟨records, left⟩ := ih (fun other member => ordered other (by simp [member]))
    have here : item.ordered := ordered item (by simp)
    cases item with
    | obj object =>
      have waiting : ∀ value ∈ (none : Option Json), value.ordered := by simp
      have extracted := extract_fit sound context targets here waiting
      rw [sift]
      revert extracted
      cases extract inner context target none object with
      | stored id found =>
        intro extracted
        exact ⟨List.forall_mem_append.mpr ⟨extracted, records⟩, left⟩
      | inline object =>
        intro extracted
        exact ⟨records, List.forall_mem_cons.mpr ⟨extracted, left⟩⟩
    | null | bool | num | str | arr =>
      rw [sift]
      · split
        · exact ⟨records, left⟩
        · exact ⟨records, List.forall_mem_cons.mpr ⟨here, left⟩⟩
      · simp

/-- A draft with fit records and the rest of the payload in order. -/
structure Draft.Fit (among : Kind → Prop) (draft : Draft) : Prop where
  /-- The fields so far are in order. -/
  fields : draft.rest.fields.ordered
  /-- So is member data that waits. -/
  beside : ∀ value ∈ draft.rest.beside, value.ordered
  /-- The records so far are fit. -/
  embedded : ∀ record ∈ draft.embedded, Split.Fit among record

theorem entering_fit (kind : Kind) (guild : Option Snowflake) {payload : Fields}
    (ordered : payload.ordered) : Draft.Fit among ⟨entering kind guild payload, []⟩ := by
  have known : (withGuild kind guild payload).ordered := by
    unfold withGuild
    split
    · split
      · exact Fields.ordered_insert ordered rfl
      · exact ordered
    · exact ordered
  unfold entering
  simp only
  split
  · refine ⟨Fields.ordered_erase known "member", fun value waits => ?_, by simp⟩
    simp only [Option.mem_def, Option.filter_eq_some_iff] at waits
    exact Fields.ordered_of_get? known waits.1
  · exact ⟨known, by simp, by simp⟩

theorem setIds_fit {rest : Remainder} {relation : Relation} {ids : List Snowflake}
    {left : List Json} (fields : rest.fields.ordered) (staying : ∀ item ∈ left, item.ordered) :
    (rest.setIds relation ids left).fields.ordered := by
  have listed : ((rest.fields.erase relation.field).insert relation.idField
      (.arr (ids.map Snowflake.toJson))).ordered :=
    Fields.ordered_insert (Fields.ordered_erase fields relation.field) (Snowflake.list_ordered ids)
  unfold Remainder.setIds
  simp only
  split
  · exact listed
  · refine Fields.ordered_insert listed ?_
    simpa only [Json.ordered, itemsOrdered_iff] using staying

theorem handOver_fit {draft : Draft} (fit : draft.Fit among) (relation : Relation) :
    (∀ value ∈ (draft.rest.handOver relation).1, value.ordered) ∧
      Draft.Fit among ⟨(draft.rest.handOver relation).2, draft.embedded⟩ := by
  unfold Remainder.handOver
  split
  · exact ⟨fit.beside, fit.fields, by simp, fit.embedded⟩
  · exact ⟨by simp, fit.fields, fit.beside, fit.embedded⟩

/-- What is held in the place of an embedded object. -/
def Remainder.hold (rest : Remainder) (relation : Relation) : Extracted → Remainder
  | .stored id _ => rest.setId relation id
  | .inline object => rest.setInline relation object

/-- The records of an embedded object. -/
def Extracted.records : Extracted → List Record
  | .stored _ records => records
  | .inline _ => []

section TakeRelation

variable {parent : Option Kind} {context : Context} {draft : Draft} {relation : Relation}

theorem takeRelation_of_leadsBack (back : leadsBack relation parent = true) :
    takeRelation inner parent context draft relation = draft := by
  simp [takeRelation, back]

theorem takeRelation_object {object : Fields} (forward : leadsBack relation parent = false)
    (one : relation.shape = .one)
    (found : draft.rest.fields.get? relation.field = some (.obj object)) :
    let handed := draft.rest.handOver relation
    let extracted := extract inner context relation.target handed.1 object
    takeRelation inner parent context draft relation =
      ⟨handed.2.hold relation extracted, draft.embedded ++ extracted.records⟩ := by
  simp only [takeRelation, forward, one, found]
  cases extract inner context relation.target (draft.rest.handOver relation).1 object with
  | stored id records => rfl
  | inline object => simp [Remainder.hold, Extracted.records]

theorem takeRelation_items {items : List Json} (forward : leadsBack relation parent = false)
    (many : relation.shape = .many)
    (found : draft.rest.fields.get? relation.field = some (.arr items)) :
    let sifted := sift inner context relation.target items
    takeRelation inner parent context draft relation =
      ⟨draft.rest.setIds relation sifted.ids sifted.left, draft.embedded ++ sifted.records⟩ := by
  simp [takeRelation, forward, many, found]

theorem takeRelation_other (notOne : relation.shape = .one →
      ∀ object, draft.rest.fields.get? relation.field ≠ some (.obj object))
    (notMany : relation.shape = .many →
      ∀ items, draft.rest.fields.get? relation.field ≠ some (.arr items)) :
    takeRelation inner parent context draft relation = draft := by
  unfold takeRelation
  split
  · rfl
  · split
    · next object one found => exact absurd found (notOne one object)
    · next items many found => exact absurd found (notMany many items)
    · rfl

/-- What taking a relation can do: nothing, hold what an object comes to, or hold what a list does. -/
theorem takeRelation_cases (inner : Splitter) (parent : Option Kind) (context : Context)
    (draft : Draft) (relation : Relation) :
    let next := takeRelation inner parent context draft relation
    next = draft ∨
    (∃ object, draft.rest.fields.get? relation.field = some (.obj object) ∧
      let handed := draft.rest.handOver relation
      let extracted := extract inner context relation.target handed.1 object
      next = ⟨handed.2.hold relation extracted, draft.embedded ++ extracted.records⟩) ∨
    ∃ items, draft.rest.fields.get? relation.field = some (.arr items) ∧
      let sifted := sift inner context relation.target items
      next = ⟨draft.rest.setIds relation sifted.ids sifted.left,
        draft.embedded ++ sifted.records⟩ := by
  intro next
  cases back : leadsBack relation parent with
  | true => exact .inl (takeRelation_of_leadsBack back)
  | false =>
    by_cases single : relation.shape = .one ∧
        ∃ object, draft.rest.fields.get? relation.field = some (.obj object)
    · obtain ⟨one, object, found⟩ := single
      exact .inr (.inl ⟨object, found, takeRelation_object back one found⟩)
    by_cases list : relation.shape = .many ∧
        ∃ items, draft.rest.fields.get? relation.field = some (.arr items)
    · obtain ⟨many, items, found⟩ := list
      exact .inr (.inr ⟨items, found, takeRelation_items back many found⟩)
    · exact .inl (takeRelation_other (fun one object found => single ⟨one, object, found⟩)
        fun many items found => list ⟨many, items, found⟩)

end TakeRelation

theorem takeRelation_fit (sound : Sound among inner) (parent : Option Kind) (context : Context)
    {draft : Draft} {relation : Relation} (targets : ∀ kind ∈ relation.target.kinds, among kind)
    (fit : draft.Fit among) : (takeRelation inner parent context draft relation).Fit among := by
  rcases takeRelation_cases inner parent context draft relation with
    same | ⟨object, found, taken⟩ | ⟨items, found, taken⟩
  · rw [same]
    exact fit
  · rw [taken]
    have ordered : Fields.ordered object := Fields.ordered_of_get? fit.fields found
    obtain ⟨waiting, rest⟩ := handOver_fit fit relation
    have extracted := extract_fit sound context targets ordered waiting
    have erased := Fields.ordered_erase rest.fields relation.field
    revert extracted
    cases extract inner context relation.target (draft.rest.handOver relation).1 object with
    | stored id records =>
      intro extracted
      exact ⟨Fields.ordered_insert erased rfl, rest.beside,
        List.forall_mem_append.mpr ⟨fit.embedded, extracted⟩⟩
    | inline object =>
      intro extracted
      exact ⟨Fields.ordered_insert erased extracted, rest.beside,
        List.forall_mem_append.mpr ⟨fit.embedded, nofun⟩⟩
  · rw [taken]
    have ordered : ∀ item ∈ items, item.ordered := by
      have list : (Json.arr items).ordered := Fields.ordered_of_get? fit.fields found
      simpa only [Json.ordered, itemsOrdered_iff] using list
    obtain ⟨records, left⟩ := sift_fit sound context targets ordered
    exact ⟨setIds_fit fit.fields left, fit.beside,
      List.forall_mem_append.mpr ⟨fit.embedded, records⟩⟩

theorem takeRelations_fit (sound : Sound among inner) (parent : Option Kind) (context : Context)
    {relations : List Relation} {draft : Draft}
    (targets : ∀ relation ∈ relations, ∀ kind ∈ relation.target.kinds, among kind)
    (fit : draft.Fit among) :
    (relations.foldl (takeRelation inner parent context) draft).Fit among := by
  induction relations generalizing draft with
  | nil => exact fit
  | cons relation rest ih =>
    have first := takeRelation_fit sound parent context (targets relation (by simp)) fit
    exact ih (fun other member => targets other (by simp [member])) first

theorem finish_ordered {rest : Remainder} (fields : rest.fields.ordered)
    (beside : ∀ value ∈ rest.beside, value.ordered) : rest.finish.ordered := by
  unfold Remainder.finish
  split
  · next member waits => exact Fields.ordered_insert fields (beside member waits)
  · exact fields

/-- What is embedded in a payload is fit where the payload is in order, and so is what is left of it. -/
theorem step_fit (sound : Sound among inner) {kind : Kind} {context : Context} {payload : Fields}
    {split : Split} (done : step inner kind context payload = .ok split)
    (targets : LeadsTo among kind) (ordered : payload.ordered) :
    (∀ record ∈ split.embedded, Fit among record) ∧ split.root.fields.ordered := by
  obtain ⟨id, key, -, -, rfl⟩ := step_ok done
  let guild := guildOf kind id payload context.guild
  have fit := takeRelations_fit sound context.parent ⟨guild, some kind⟩ targets
    (entering_fit kind guild ordered)
  exact ⟨fit.embedded, finish_ordered fit.fields fit.beside⟩

/-- Kinds that lead only to kinds among themselves are kept by splitting, however deep. -/
theorem nested_sound (closed : ∀ kind, among kind → LeadsTo among kind) (levels : Nat) :
    Sound among (nested levels) := by
  induction levels with
  | zero => exact ⟨fun done => by simp [nested] at done⟩
  | succ levels ih =>
    refine ⟨fun done kind ordered record member => ?_⟩
    obtain ⟨embedded, root⟩ := step_fit ih done (closed _ kind) ordered
    rcases mem_records.mp member with inside | rfl
    · exact embedded record inside
    · obtain ⟨id, key, -, -, rfl⟩ := step_ok done
      exact ⟨kind, root⟩

theorem ofJson_fit (closed : ∀ kind, among kind → LeadsTo among kind) {kind : Kind}
    {guild : Option Snowflake} {payload : Json} {split : Split}
    (apart : ofJson kind guild payload = .ok split) (targets : LeadsTo among kind)
    (ordered : payload.ordered) :
    (∀ record ∈ split.embedded, Fit among record) ∧ split.root.fields.ordered := by
  cases payload with
  | obj payload => exact step_fit (nested_sound closed _) apart targets ordered
  | null | bool | num | str | arr => simp [ofJson] at apart

theorem ofJson_ordered {kind : Kind} {guild : Option Snowflake} {payload : Json} {split : Split}
    (apart : ofJson kind guild payload = .ok split) (ordered : payload.ordered) : split.InOrder := by
  have every : ∀ kind, LeadsTo (fun _ => True) kind := fun _ _ _ _ _ => trivial
  obtain ⟨embedded, root⟩ := ofJson_fit (fun kind _ => every kind) apart (every kind) ordered
  intro record member
  rcases mem_records.mp member with inside | rfl
  · exact (embedded record inside).ordered
  · exact root

theorem ofFields_ordered {kind : Kind} {guild : Option Snowflake} {payload : Fields} {split : Split}
    (apart : ofFields kind guild payload = .ok split) (ordered : payload.ordered) : split.InOrder := by
  have whole : ofJson kind guild (.obj payload) = .ok split := apart
  have data : (Json.obj payload).ordered := ordered
  exact ofJson_ordered whole data

theorem ofJson_not_guild {kind : Kind} {guild : Option Snowflake} {payload : Json} {split : Split}
    (apart : ofJson kind guild payload = .ok split) (ordered : payload.ordered)
    (other : kind ≠ .guild) : ∀ record ∈ split.records, record.kind ≠ .guild := by
  have leads : ∀ kind, LeadsTo (· ≠ .guild) kind := by
    intro kind
    cases kind <;> (unfold LeadsTo; decide)
  obtain ⟨embedded, -⟩ := ofJson_fit (fun kind _ => leads kind) apart (leads kind) ordered
  intro record member
  rcases mem_records.mp member with inside | rfl
  · exact (embedded record inside).kind
  · rw [ofJson_root_kind apart]
    exact other

theorem ofJson_users {kind : Kind} {guild : Option Snowflake} {payload : Json} {split : Split}
    (apart : ofJson kind guild payload = .ok split) (ordered : payload.ordered)
    (leads : LeadsTo (· = .user) kind) : ∀ record ∈ split.embedded, record.kind = .user := by
  have closed : ∀ kind : Kind, kind = .user → LeadsTo (· = .user) kind := by
    rintro _ rfl
    unfold LeadsTo
    decide
  intro record member
  exact ((ofJson_fit closed apart leads ordered).1 record member).kind

end GatewayCache.Split
