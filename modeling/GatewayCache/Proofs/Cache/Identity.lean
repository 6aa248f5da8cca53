import GatewayCache.Fetch
import GatewayCache.Proofs.Cache.Edits
import GatewayCache.Proofs.Split.Identity

/-! # Records are kept under their own identity

Whatever updates and fetches have led to a store, each of its records tells the id it
is kept under, and lives in a guild just where its kind does.
-/

namespace GatewayCache

open Store

namespace Store

/-- Every record tells the id it is kept under, at an address of its kind. -/
def Identified (store : Store) : Prop :=
  ∀ kind place fields, store.fieldsAt kind place = some fields →
    address? kind place = some place ∧ kind.Keyed place.id fields

theorem identified_empty : Store.empty.Identified := by
  intro kind place fields found
  cases place <;> simp [fieldsAt, shelf, Store.empty, Key.guild?] at found

variable {before after store : Store} {written : Record → Prop} {left : Snowflake → Prop}

theorem Identified.write (identified : store.Identified) {record : Record}
    (own : record.Identified) : (store.writeRecord record).Identified := by
  intro kind place fields found
  rw [writeRecord, fieldsAt_write] at found
  split at found
  · next same =>
    obtain ⟨rfl, rfl⟩ := Prod.mk.inj same
    refine ⟨own.address, ?_⟩
    obtain rfl := Option.some.inj found
    cases old : store.fieldsAt record.kind record.key with
    | none => exact own.keyed
    | some fields => exact Kind.keyed_merge own.ordered (identified _ _ _ old).2 own.keyed
  · exact identified kind place fields found

theorem Identified.amend (identified : store.Identified) {guild : Snowflake} {update : Fields}
    (known : (store.guild? guild).isSome) (ordered : update.ordered)
    (keepsId : update.get? "id" = none) :
    (store.write .guild (.global guild) update).Identified := by
  intro kind place fields found
  rw [fieldsAt_write] at found
  split at found
  · next same =>
    obtain ⟨rfl, rfl⟩ := Prod.mk.inj same
    obtain rfl := Option.some.inj found
    rw [guild?_isSome] at known
    obtain ⟨old, here⟩ := Option.isSome_iff_exists.mp known
    obtain ⟨address, keyed⟩ := identified _ _ _ here
    rw [here]
    exact ⟨address, (Fields.relationId_merge_of_none ordered keepsId old).trans keyed⟩
  · exact identified kind place fields found

theorem Edits.identified (edits : Edits written left before after)
    (sound : ∀ record, written record → record.Identified) (identified : before.Identified) :
    after.Identified := by
  induction edits with
  | refl => exact identified
  | trans _ _ first second => exact second (first identified)
  | write allowed store => exact identified.write (sound _ allowed)
  | amend known ordered keepsId => exact identified.amend known ordered keepsId
  | drop fewer _ =>
    intro kind place fields found
    rcases fewer kind place with same | gone
    · exact identified kind place fields (same ▸ found)
    · simp [gone] at found

theorem identified_placeFetched {payload : Json} (ordered : payload.ordered) (config : Config)
    (reference : Reference) (identified : store.Identified) :
    (store.placeFetched config reference payload).2.Identified := by
  unfold placeFetched
  rw [Intake.place_on]
  cases apart : Split.ofJson reference.kind reference.key.guild? payload with
  | error error => exact identified
  | ok split =>
    have edits : Edits (· ∈ split.records) (fun _ => False) store (store.place config split).2 :=
      Edits.place config (fun _ member => member) store
    exact edits.identified (Split.ofJson_identified apart ordered) identified

end Store

/-- An origin that answers with payloads in order. -/
def Origin.Ordered {σ : Type} (origin : Origin σ) : Prop :=
  ∀ reference state payload, (origin reference state).1 = .payload payload → payload.ordered

/-- The stores that updates and fetches lead to, under any configurations, from the empty one. -/
inductive Store.Reachable : Store → Prop
  | empty : Reachable .empty
  | apply {cache : Cache} (reachable : Reachable cache.store) {dispatch : Dispatch}
    (ordered : dispatch.data.ordered) : Reachable (cache.apply dispatch).2.store
  | fetch {store : Store} (reachable : Reachable store) {σ : Type} {origin : Origin σ}
    (ordered : origin.Ordered) (config : Config) (reference : Reference) (state : σ) :
    Reachable (reference.fetch origin config store state).2.1

namespace Store

theorem identified_apply {cache : Cache} {dispatch : Dispatch} (ordered : dispatch.data.ordered)
    (identified : cache.store.Identified) : (cache.apply dispatch).2.store.Identified := by
  rcases Cache.apply_edits cache dispatch with same | ⟨kind, update, -, reads, edits⟩
  · rwa [same]
  · refine edits.identified (fun record member => ?_) identified
    obtain ⟨split, inside, here⟩ := List.mem_flatMap.mp member
    obtain ⟨target, guild, payload, sorted, apart⟩ :=
      (Update.read_drawn kind _ update reads).splits split inside
    exact Split.ofJson_identified apart (sorted ordered) record here

theorem identified_fetch {σ : Type} {origin : Origin σ} (ordered : origin.Ordered)
    (config : Config) (reference : Reference) (state : σ) {store : Store}
    (identified : store.Identified) :
    (reference.fetch origin config store state).2.1.Identified := by
  unfold Reference.fetch
  split
  · exact identified
  · cases answer : origin reference state with
    | mk reply next =>
      cases reply with
      | payload value =>
        have sorted := ordered reference state value (by rw [answer])
        exact identified_placeFetched sorted config reference identified
      | missing | failure | hanging => exact identified

theorem Reachable.identified {store : Store} (reachable : store.Reachable) : store.Identified := by
  induction reachable with
  | empty => exact identified_empty
  | apply _ ordered ih => exact identified_apply ordered ih
  | fetch _ ordered config reference state ih => exact identified_fetch ordered config reference state ih

/-- Every record of a store that can be reached is of the kind and under the key that it is found at, lives
in a guild just where its kind does, and is identified by the id of its key. -/
theorem reachable_identify {store : Store} (reachable : store.Reachable) {kind : Kind} {place : Key}
    {record : Record} (found : store.recordAt kind place = some record) :
    record.kind = kind ∧ record.key = place ∧ place.guild?.isSome = kind.isScoped ∧
      kind.identify record.fields = .ok place.id := by
  obtain ⟨fields, here, rfl⟩ := Option.map_eq_some_iff.mp found
  obtain ⟨address, keyed⟩ := reachable.identified kind place fields here
  refine ⟨rfl, rfl, ?_, Kind.identify_of_keyed keyed⟩
  unfold address? at address
  cases place <;> cases inGuild : kind.isScoped <;> simp_all [Key.guild?]

/-- A member is stored with its user and told of later by its id alone, with a user that tells none; its
record is still found to be of the user. -/
theorem reachable_identify_member :
    let added : Dispatch := ⟨"GUILD_MEMBER_ADD", .obj
      [("guild_id", .str "1"), ("user", .obj [("id", .str "5"), ("name", .str "a")])]⟩
    let changed : Dispatch := ⟨"GUILD_MEMBER_UPDATE", .obj
      [("guild_id", .str "1"), ("id", .str "5"), ("user", .obj [("name", .str "b")])]⟩
    let cache := ((Cache.empty {}).apply added).2
    let place : Key := .scoped ⟨1⟩ ⟨5⟩
    ∃ record, (cache.apply changed).2.store.recordAt .member place = some record ∧
      (record.fields.get? "user").isSome ∧ record.kind = .member ∧ record.key = place ∧
        place.guild?.isSome = Kind.member.isScoped ∧
          Kind.identify .member record.fields = .ok place.id := by
  intro added changed cache place
  have reachable : (cache.apply changed).2.store.Reachable :=
    .apply (.apply .empty (by decide)) (by decide)
  have stays : ((cache.apply changed).2.store.recordAt .member place).any
      (fun record => (record.fields.get? "user").isSome) = true := by decide +kernel
  obtain ⟨record, found, user⟩ := (Option.any_eq_true _ _).mp stays
  exact ⟨record, found, user, reachable_identify reachable found⟩

theorem reachable_streamFrom {σ : Type} {origin : Origin σ} (ordered : origin.Ordered)
    (config : Config) (references : List Reference) {store : Store} (reachable : store.Reachable)
    (state : σ) : (References.streamFrom origin config references store state).2.1.Reachable := by
  induction references generalizing store state with
  | nil => exact reachable
  | cons reference rest ih =>
    have next := reachable.fetch ordered config reference state
    rw [References.streamFrom]
    generalize reference.fetch origin config store state = answer at next ⊢
    obtain ⟨fetched, after, later⟩ := answer
    cases fetched with
    | hanging => exact next
    | record | error => exact ih next later

theorem reachable_fetchFrom {σ : Type} {origin : Origin σ} (ordered : origin.Ordered)
    (config : Config) (inOrder : Bool) (references : List Reference) {store : Store}
    (reachable : store.Reachable) (records : Std.ExtTreeMap Snowflake Record) (hangs : Bool)
    (state : σ) :
    (References.fetchFrom origin config inOrder records hangs references store state).2.1.Reachable := by
  induction references generalizing store records hangs state with
  | nil => exact reachable
  | cons reference rest ih =>
    have next := reachable.fetch ordered config reference state
    rw [References.fetchFrom]
    generalize reference.fetch origin config store state = answer at next ⊢
    obtain ⟨fetched, after, later⟩ := answer
    cases fetched with
    | record record => exact ih next _ _ later
    | hanging => exact ih next _ _ later
    | error error =>
      cases error with
      | notFound => exact ih next _ _ later
      | origin | unplaceable =>
        simp only
        split
        · exact ih next _ _ later
        · exact next

end Store

end GatewayCache
