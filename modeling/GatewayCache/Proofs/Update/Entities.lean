import GatewayCache.Proofs.Intake.Writes
import GatewayCache.Proofs.Split.People
import GatewayCache.Proofs.Update.Repeatable
import GatewayCache.Update.Entities

/-! # Entities taken apart

The entities of an update are taken apart one by one, in the order of the update. An
entity with no relation but to its user comes to its own record and to that of the
user, so what all of them write to a place is seen from their payloads.
-/

namespace GatewayCache

theorem Json.kind_of_user? {payload : Json} {user : Record} (embedded : payload.user? = some user) :
    user.kind = .user := by
  simp only [Json.user?, Option.bind_eq_bind, Option.bind_eq_some_iff] at embedded
  obtain ⟨fields, -, id, -, made⟩ := embedded
  rw [← Option.some.inj made]

namespace Part

theorem records_user (context : Split.Context) (user : Fields) :
    (Part.mk .user context user).records =
      ((Kind.user.identify user).toOption.map (⟨.user, .global ·, user⟩ : Snowflake → Record)).toList := by
  cases identified : Kind.user.identify user with
  | ok id =>
    have named : user.relationId "id" = some id := Kind.identify_eq_ok.mp identified
    rw [records_of_split (split_user named)]
    rfl
  | error error =>
    have unknown : (Part.mk .user context user).id? = none := by
      simp [id?, identified, Except.toOption]
    cases apart : (Part.mk .user context user).split with
    | ok split => cases (id?_of_split apart).symm.trans unknown
    | error refusal => rw [records_of_error apart]; rfl

end Part

namespace Split

variable {kind : Kind} {guild : Option Snowflake} {payload : Json} {split : Split}

theorem ownId?_of_ofJson (plain : ∀ fields, kind.identifier? fields = fields.get? "id")
    (done : ofJson kind guild payload = .ok split) : payload.ownId? = some split.root.id := by
  obtain ⟨fields, rfl, apart⟩ := obj_of_ofJson done
  have identified := (ofFields_root apart).2
  rw [Kind.identify_eq_ok, plain] at identified
  exact identified

theorem embedded_eq_user (one : kind.relations = [.single "user" .user "user_id"])
    (done : ofJson kind guild payload = .ok split) : split.embedded = payload.user?.toList := by
  obtain ⟨fields, rfl, apart⟩ := obj_of_ofJson done
  replace apart : (Part.ofPayload kind guild fields).split = .ok split := apart
  have followed : (Part.ofPayload kind guild fields).relations = [.single "user" .user "user_id"] := by
    simp [Part.relations, Part.ofPayload, one, leadsBack]
  have among : Relation.single "user" .user "user_id" ∈
      (Part.ofPayload kind guild fields).kind.relations := by
    simp [Part.ofPayload, one]
  rw [Part.split_embedded apart, Part.held, followed, List.flatMap_singleton, Part.heldBy_eq among]
  simp only [Part.objectsAt, Relation.single, Part.ofPayload, Json.user?, Json.get?, Json.fields?,
    Option.bind_some]
  cases Fields.get? fields "user" with
  | none => rfl
  | some value =>
    cases value with
    | obj user =>
      simp only [List.map_cons, List.map_nil, List.flatMap_singleton, Part.heldAt, Part.ofObject, promote]
      rw [Part.records_user]
      cases identified : Kind.user.identify user <;>
        simp [Json.fields?, identified, Except.toOption]
    | null | bool | num | str | arr => rfl

end Split

namespace Update

variable {kind : Kind} {guild : Snowflake} {items : List Json} {splits : List Split}

/-- The records of a kind that entities found in a guild come to, one by one and whatever is stored. -/
def Normalizes (config : Config) (kind : Kind) (guild : Snowflake) : List Json → List Record → Prop :=
  List.Forall₂ fun entity record => ∀ store : Store,
    ((Intake.decompose config kind (some guild) entity).on store).1 = .ok record

theorem normalizes_of_eachApart {config : Config} (apart : EachApart kind guild items splits) :
    Normalizes config kind guild items (splits.map Split.root) := by
  refine List.forall₂_map_right_iff.mpr (apart.imp fun item split done store => ?_)
  rw [Intake.decompose_on, done, Intake.played]

theorem ownIds_of_eachApart (plain : ∀ fields, kind.identifier? fields = fields.get? "id")
    (apart : EachApart kind guild items splits) :
    items.filterMap Json.ownId? = splits.map (fun split => split.root.id) := by
  induction apart with
  | nil => rfl
  | cons first _ ih =>
    rw [List.filterMap_cons, Split.ownId?_of_ofJson plain first, List.map_cons, ih]

theorem users_of_eachApart (one : kind.relations = [.single "user" .user "user_id"])
    (apart : EachApart kind guild items splits) :
    items.filterMap Json.user? = splits.flatMap Split.embedded := by
  induction apart with
  | nil => rfl
  | @cons item split _ _ first _ ih =>
    rw [List.flatMap_cons, Split.embedded_eq_user one first, ← ih, List.filterMap_cons]
    cases item.user? <;> rfl

/-- An update of a set of entities names its guild, and every entity can be taken apart. -/
theorem read_set {update : UpdateKind} {field : String} {data : Json}
    {become : Snowflake → List Split → Update} {result : Update}
    (addressed : update.addressField? = some "guild_id")
    (listed : update.entityField? = some field)
    (reads : (do
      let fields ← fieldsOf update data
      let guild ← requireId update fields "guild_id"
      .ok (become guild (← splitList update fields field kind guild))) = .ok result) :
    ∃ guild splits, (⟨update.name, data⟩ : Dispatch).addressee? = some guild ∧
      EachApart kind guild (⟨update.name, data⟩ : Dispatch).entities splits ∧
        result = become guild splits := by
  obtain ⟨fields, object, named⟩ := of_bind_eq_ok reads
  obtain ⟨guild, required, listing⟩ := of_bind_eq_ok named
  obtain ⟨splits, taken, done⟩ := of_bind_eq_ok listing
  obtain rfl := Cache.eq_obj_of_fieldsOf object
  obtain ⟨items, found, apart⟩ := eachApart_of_splitList taken
  have entities : (⟨update.name, .obj fields⟩ : Dispatch).entities = items := by
    simp [Dispatch.entities, UpdateKind.ofName?_name, listed, Json.get?, Json.fields?, found]
  have owner : (⟨update.name, .obj fields⟩ : Dispatch).addressee? = some guild := by
    simp [Dispatch.addressee?, UpdateKind.ofName?_name, addressed, Json.fields?,
      relationId_of_requireId required]
  rw [entities]
  exact ⟨guild, splits, owner, apart, (Except.ok.inj done).symm⟩

end Update

theorem Dispatch.own_of_owner? {dispatch : Dispatch}
    (owners : ∀ entity ∈ dispatch.entities,
      entity.owner? = none ∨ entity.owner? = dispatch.addressee?) :
    ∀ entity ∈ dispatch.entities, ∀ other, entity.owner? = some other →
      dispatch.addressee? = some other := by
  intro entity member other named
  rcases owners entity member with unnamed | same
  · rw [unnamed] at named
    cases named
  · rw [← same, named]

namespace Store

variable {config : Config} {kind : Kind} {guild : Snowflake} {items : List Json}
  {splits : List Split} {store : Store} {key : Key}

theorem fieldsAt_writeAll_of_stored (stored : config.stores kind) (records : List Record) :
    (writeAll config store records).fieldsAt kind key =
      contentAfter (store.fieldsAt kind key) kind key records := by
  rw [writeAll, fieldsAt_foldl_writeRecord]
  unfold contentAfter
  rw [List.filter_filter]
  congr 1
  apply List.filter_congr
  intro record _
  by_cases here : (record.kind, record.key) = (kind, key)
  · obtain ⟨rfl, rfl⟩ := Prod.mk.inj here
    simp [stored]
  · simp [here]

theorem filter_records_roots {among : Record → Bool}
    (none : ∀ split ∈ splits, ∀ record ∈ split.embedded, among record = false) :
    (splits.flatMap Split.records).filter among = (splits.map Split.root).filter among := by
  induction splits with
  | nil => rfl
  | cons split rest ih =>
    have embedded : split.embedded.filter among = [] := by
      simpa using none split (by simp)
    rw [List.flatMap_cons, List.filter_append, ih fun other member => none other (by simp [member]),
      Split.records, List.filter_append, embedded, List.nil_append, List.map_cons, ← List.filter_append]
    rfl

theorem filter_records_embedded {among : Record → Bool}
    (none : ∀ split ∈ splits, among split.root = false) :
    (splits.flatMap Split.records).filter among = (splits.flatMap Split.embedded).filter among := by
  induction splits with
  | nil => rfl
  | cons split rest ih =>
    rw [List.flatMap_cons, List.filter_append, ih fun other member => none other (by simp [member]),
      Split.records, List.filter_append, List.filter_singleton, none split (by simp), List.flatMap_cons,
      List.filter_append]
    simp

theorem contentAfter_roots_of_absent {content : Option Fields}
    (absent : key.id ∉ splits.map (fun split => split.root.id)) :
    contentAfter content kind key (splits.map Split.root) = content := by
  apply contentAfter_of_untouched
  intro write member same
  obtain ⟨split, here, rfl⟩ := List.mem_map.mp member
  obtain ⟨-, rfl⟩ := Prod.mk.inj same
  exact absent (List.mem_map.mpr ⟨split, here, rfl⟩)

theorem root_kind_of_eachApart (apart : Update.EachApart kind guild items splits) {split : Split}
    (member : split ∈ splits) : split.root.kind = kind := by
  obtain ⟨item, -, done⟩ := Update.entity_of_eachApart apart member
  exact Split.ofJson_root_kind done

theorem embedded_kind_of_eachApart (one : kind.relations = [.single "user" .user "user_id"])
    (apart : Update.EachApart kind guild items splits) {split : Split} (member : split ∈ splits)
    {record : Record} (inside : record ∈ split.embedded) : record.kind = .user := by
  have among : record ∈ items.filterMap Json.user? := by
    rw [Update.users_of_eachApart one apart]
    exact List.mem_flatMap.mpr ⟨split, member, inside⟩
  obtain ⟨item, -, embedded⟩ := List.mem_filterMap.mp among
  exact Json.kind_of_user? embedded

theorem own_of_eachApart (one : kind.relations = [.single "user" .user "user_id"])
    (apart : Update.EachApart kind guild items splits) (other : kind ≠ .user) :
    ∀ record ∈ splits.flatMap Split.records, record.kind = kind →
      record.id ∈ splits.map (fun split => split.root.id) := by
  intro record member same
  obtain ⟨split, here, inside⟩ := List.mem_flatMap.mp member
  rcases Split.mem_records.mp inside with embedded | rfl
  · exact absurd (same.symm.trans (embedded_kind_of_eachApart one apart here embedded)) other
  · exact List.mem_map_of_mem here

theorem fieldsAt_placeAll_own (one : kind.relations = [.single "user" .user "user_id"])
    (apart : Update.EachApart kind guild items splits) (stored : config.stores kind)
    (other : kind ≠ .user) :
    (store.placeAll config splits).2.fieldsAt kind key =
      contentAfter (store.fieldsAt kind key) kind key (splits.map Split.root) := by
  rw [placeAll_snd, fieldsAt_writeAll_of_stored stored]
  unfold contentAfter
  rw [filter_records_roots]
  intro split member record inside
  have user := embedded_kind_of_eachApart one apart member inside
  simp [user, other.symm]

theorem fieldsAt_placeAll_user (one : kind.relations = [.single "user" .user "user_id"])
    (apart : Update.EachApart kind guild items splits) (other : kind ≠ .user) :
    (store.placeAll config splits).2.fieldsAt .user key =
      contentAfter (store.fieldsAt .user key) .user key (items.filterMap Json.user?) := by
  rw [placeAll_snd, fieldsAt_writeAll_of_stored rfl, Update.users_of_eachApart one apart]
  unfold contentAfter
  rw [filter_records_embedded]
  intro split member
  simp [root_kind_of_eachApart apart member, other]

theorem fieldsAt_placeAll_of_ne (one : kind.relations = [.single "user" .user "user_id"])
    (apart : Update.EachApart kind guild items splits) {target : Kind} (notUser : target ≠ .user)
    (other : target ≠ kind) :
    (store.placeAll config splits).2.fieldsAt target key = store.fieldsAt target key := by
  rw [placeAll_snd]
  apply fieldsAt_writeAll_of_untouched
  intro record member _ same
  obtain ⟨rfl, -⟩ := Prod.mk.inj same
  obtain ⟨split, here, inside⟩ := List.mem_flatMap.mp member
  rcases Split.mem_records.mp inside with embedded | rfl
  · exact notUser (embedded_kind_of_eachApart one apart here embedded)
  · exact other (root_kind_of_eachApart apart here)

end Store

end GatewayCache
