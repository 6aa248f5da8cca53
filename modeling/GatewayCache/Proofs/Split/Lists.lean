import GatewayCache.Proofs.Intake.Order
import GatewayCache.Proofs.Intake.Writes
import GatewayCache.Proofs.Split.Fields

/-! # Lists are split without loss

Each entry of an embedded list is held by its id or stays in the list, both in the
order of the payload, and what is held by an id is in the store.
-/

namespace GatewayCache

namespace Split

variable {context : Context} {target : Target}

theorem length_entries (items : List Json) :
    (items.filterMap (entryId? context target)).length +
      (items.filterMap (entryLeft? context target)).length = items.length := by
  induction items with
  | nil => rfl
  | cons item rest ih =>
    simp only [List.filterMap_cons, entryLeft?]
    cases entryId? context target item <;> simp <;> omega

end Split

namespace Part

variable {part : Part} {split : Split} {relation : Relation} {items : List Json}

theorem embedded_of_entry (apart : part.split = .ok split)
    (forward : Split.leadsBack relation part.context.parent = false)
    (among : relation ∈ part.kind.relations) (many : relation.shape = .many)
    (found : part.payload.get? relation.field = some (.arr items)) {object : Fields}
    (here : .obj object ∈ items) {id : Snowflake}
    (known : (ofObject ⟨part.guild?, some part.kind⟩ relation.target (none, object)).id? = some id) :
    let held := ofObject ⟨part.guild?, some part.kind⟩ relation.target (none, object)
    ∃ record ∈ split.embedded, record.kind = held.kind ∧ record.key = held.keyOf id := by
  intro held
  have listed : object ∈ part.objectsAt relation := by
    simp only [objectsAt, many, found]
    exact List.mem_filterMap.mpr ⟨_, here, rfl⟩
  have inside : held ∈ part.held := by
    have member := heldAt_mem_held forward among listed
    rwa [heldAt_of_many among many] at member
  obtain ⟨own, apartHeld, rfl⟩ : ∃ own, held.split = .ok own ∧ own.root.id = id :=
    split_of_id? known
  have embedded : own.root ∈ split.embedded := by
    rw [split_embedded apart, List.mem_flatMap]
    exact ⟨held, inside, by simp [records_of_split apartHeld, Split.records]⟩
  exact ⟨own.root, embedded, split_root_kind apartHeld, (keyOf_root apartHeld).symm⟩

end Part

namespace Intake

/-- The record of a payload holds each of its lists in two: the ids of the entries that are bare ids or
could be taken in, and the entries that stay, if there are any. Each entry goes one way, and both lists
keep the order. The objects that are held by their ids are found in the store under them. -/
theorem decompose_splits_lists (config : Config) (kind : Kind) (guild : Option Snowflake)
    (fields : Fields) (store after : Store) (root : Record)
    (done : (decompose config kind guild (.obj fields)).on store = (.ok root, after))
    (relation : Relation) (among : relation ∈ kind.relations) (many : relation.shape = .many)
    (items : List Json) (listed : fields.get? relation.field = some (.arr items)) :
    let inside : Split.Context := ⟨(Part.ofPayload kind guild fields).guild?, some kind⟩
    let ids := items.filterMap (Split.entryId? inside relation.target)
    let left := items.filterMap (Split.entryLeft? inside relation.target)
    root.fields.get? relation.idField = some (.arr (ids.map Snowflake.toJson)) ∧
      root.fields.get? relation.field = (if left = [] then none else some (.arr left)) ∧
      ids.length + left.length = items.length ∧
      ∀ object, .obj object ∈ items → ∀ id,
        Split.entryId? inside relation.target (.obj object) = some id →
        let held := Part.ofObject inside relation.target (none, object)
        config.stores held.kind →
          (after.recordAt held.kind (held.keyOf id)).isSome ∧
            (((place config kind guild (.obj fields)).on store).2.recordAt held.kind
              (held.keyOf id)).isSome := by
  intro inside ids left
  rw [decompose_on] at done
  rw [place_on]
  cases apart : Split.ofJson kind guild (.obj fields) with
  | error error =>
    rw [apart] at done
    cases done
  | ok split =>
    have own : (Part.ofPayload kind guild fields).split = .ok split := apart
    simp only [apart, played, Prod.mk.injEq, Except.ok.injEq] at done
    obtain ⟨rfl, rfl⟩ := done
    obtain ⟨idField, field⟩ := Part.root_list own rfl among many listed
    refine ⟨idField, field, Split.length_entries items, ?_⟩
    intro object here id known held stored
    obtain ⟨record, embedded, sameKind, sameKey⟩ : ∃ record ∈ split.embedded,
        record.kind = held.kind ∧ record.key = held.keyOf id :=
      Part.embedded_of_entry own rfl among many listed here known
    rw [← sameKind] at stored ⊢
    rw [← sameKey]
    refine ⟨Store.isSome_recordAt_writeAll embedded stored store, ?_⟩
    rw [Store.place_snd]
    exact Store.isSome_recordAt_writeAll (Split.mem_records.mpr (.inl embedded)) stored store

/-- A member is mentioned in a message, and a bare id, an object without an id and no value at all. -/
theorem decompose_splits_mentions :
    let mentions : List Json :=
      [.obj [("id", .str "5"), ("member", .obj [("nick", .str "x")])], .str "7",
       .obj [("username", .str "y")], .null]
    let fields : Fields :=
      [("guild_id", .str "1"), ("id", .str "10"), ("mentions", .arr mentions)]
    let result := (decompose {} .message none (.obj fields)).on .empty
    ∃ root, result.1 = .ok root ∧
      root.fields.get? "mention_ids" = some (.arr [.str "5", .str "7"]) ∧
      root.fields.get? "mentions" = some (.arr [.obj [("username", .str "y")], .null]) ∧
      (result.2.recordAt .member (.scoped ⟨1⟩ ⟨5⟩)).isSome := by
  intro mentions fields result
  let relation : Relation := ⟨"mentions", .userOrMember, .many, "mention_ids", false⟩
  obtain ⟨root, done⟩ : ∃ root, result.1 = .ok root := ⟨_, rfl⟩
  obtain ⟨ids, left, -, found⟩ := decompose_splits_lists {} .message none fields .empty result.2 root
    (Prod.ext done rfl) relation (by decide) rfl mentions (by decide +kernel)
  refine ⟨root, done, ids.trans (by decide +kernel), left.trans (by decide +kernel), ?_⟩
  exact (found _ (.head _) ⟨5⟩ (by decide +kernel) rfl).1

end Intake

end GatewayCache
