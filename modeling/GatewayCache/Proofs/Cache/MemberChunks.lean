import GatewayCache.Proofs.Cache.ChunkOrder
import GatewayCache.Proofs.Split.Guilds
import GatewayCache.Proofs.Update.Entities

/-! # Chunks that are stored

A chunk of members is refused for its numbers before anything is written, and what is
not refused is stored as a whole. With the last chunk its guild is ready.
-/

namespace GatewayCache

open Store

namespace Gates

variable {guild : Snowflake}

/-- The gate of a guild was opened, if it was waited for. -/
structure Signalled (guild : Snowflake) (before after : Gates) : Prop where
  /-- No gate is made, and none is taken off. -/
  registered : ∀ other, after.get? other = before.get? other
  /-- The gate of the guild, if there is one and it is pending, is ready. -/
  opened : after.stateOf? guild =
    (before.stateOf? guild).map (fun state => if state = .pending then .ready else state)
  /-- No other gate changes, whether it is registered or not. -/
  apart : ∀ handle, before.get? guild ≠ some handle → after.gate? handle = before.gate? handle
  /-- So the gates of other guilds are as they were. -/
  elsewhere : before.Sound → ∀ other, other ≠ guild → after.stateOf? other = before.stateOf? other

theorem signalled_signalGuild (gates : Gates) (guild : Snowflake) :
    Signalled guild gates (gates.signalGuild guild).2 := by
  have registered := get?_signalGuild gates guild
  refine ⟨registered, ?_, ?_, ?_⟩
  · cases found : gates.get? guild with
    | none => simp [stateOf?, registered, found]
    | some handle =>
      have opened := (step_signalGuild gates guild).here handle found
      simp [stateOf?, registered, found, opened]
  · intro handle other
    unfold signalGuild
    split
    · next gate found => exact gate?_settle_of_ne fun same => other (same ▸ found)
    · rfl
  · intro sound other apart
    cases found : gates.get? other with
    | none => simp [stateOf?, registered, found]
    | some handle =>
      have kept := (step_signalGuild gates guild).elsewhere sound other handle apart found
      simp [stateOf?, registered, found, kept.2]

end Gates

namespace Cache

variable {chunk : Dispatch} {guild : Snowflake} {config : Config} {store : Store}
  {splits : List Split}

/-- The records before and after the members of a chunk were stored, which come to the given records. -/
structure MembersStored (chunk : Dispatch) (guild : Snowflake) (normalized : List Record)
    (before after : Store) : Prop where
  /-- A member that names no guild is stored in that of the chunk, under the id that it is told by. -/
  inside : ∀ payload id, .obj payload ∈ chunk.entities → payload.relationId "guild_id" = none →
    Kind.member.identify payload = .ok id → (after.getScoped .member guild id).isSome
  /-- Each record of a member is what it was before, with all that the chunk has of it merged in. -/
  members : ∀ key, after.fieldsAt .member key =
    contentAfter (before.fieldsAt .member key) .member key normalized
  /-- The user of a member is stored. -/
  embedded : ∀ entity ∈ chunk.entities, ∀ user, entity.user? = some user →
    (after.recordAt .user user.key).isSome
  /-- All users in the chunk are merged in. -/
  users : ∀ key, after.fieldsAt .user key =
    contentAfter (before.fieldsAt .user key) .user key chunk.users
  /-- All other records are as they were. -/
  others : ∀ kind key, kind ≠ .member → kind ≠ .user → after.fieldsAt kind key = before.fieldsAt kind key

theorem membersStored_of_eachApart (apart : Update.EachApart .member guild chunk.entities splits) :
    MembersStored chunk guild (splits.map Split.root) store (store.placeAll config splits).2 := by
  have members : ∀ key, (store.placeAll config splits).2.fieldsAt .member key =
      contentAfter (store.fieldsAt .member key) .member key (splits.map Split.root) :=
    fun _ => fieldsAt_placeAll_own rfl apart rfl (by decide)
  have users : ∀ key, (store.placeAll config splits).2.fieldsAt .user key =
      contentAfter (store.fieldsAt .user key) .user key chunk.users :=
    fun _ => fieldsAt_placeAll_user rfl apart (by decide)
  constructor
  case inside =>
    intro payload id here unnamed identified
    -- Without a guild of its own, the member is put under that of the chunk.
    obtain ⟨split, member, taken⟩ := Update.split_of_eachApart apart here
    obtain ⟨kind, own⟩ := Split.ofFields_root taken
    obtain rfl : split.root.id = id := Except.ok.inj (own.symm.trans identified)
    have owner : split.root.key.guild? = some guild := by
      rw [Split.root_guild? rfl taken, unnamed]
      rfl
    have key : split.root.key = .scoped guild split.root.id := Key.eq_of_parts owner rfl
    have written := isSome_contentAfter (List.mem_map_of_mem (f := Split.root) member)
      (store.fieldsAt .member split.root.key)
    rw [kind, ← members, key] at written
    simpa [getScoped, Kind.isScoped, recordAt] using written
  case members => exact members
  case embedded =>
    intro entity here user known
    have listed : user ∈ chunk.users := List.mem_filterMap.mpr ⟨entity, here, known⟩
    have written := isSome_contentAfter listed (store.fieldsAt .user user.key)
    rw [Json.kind_of_user? known, ← users] at written
    rwa [recordAt, Option.isSome_map]
  case users => exact users
  case others => exact fun _ _ other notUser => fieldsAt_placeAll_of_ne rfl apart notUser other

theorem toNat_succ_of_lt {index count : UInt64} (below : index < count) :
    (index + 1).toNat = index.toNat + 1 := by
  rw [UInt64.lt_iff_toNat_lt] at below
  have bound := count.toNat_lt
  rw [UInt64.toNat_add, UInt64.toNat_one, Nat.mod_eq_of_lt (by omega)]

theorem toNat_succ_eq_iff {index count : UInt64} (below : index < count) :
    index.toNat + 1 = count.toNat ↔ index = count - 1 := by
  rw [← toNat_succ_of_lt below, UInt64.toNat_inj]
  grind

/-- A chunk is read with all its members taken apart, unless its number is not below that of all
chunks. -/
theorem read_chunk (lists : chunk.ListsMembers guild) :
    let index := chunk.chunkIndex
    let count := chunk.chunkCount
    ∃ splits, Update.EachApart .member guild chunk.entities splits ∧
      (count ≤ index → Update.read .guildMembersChunk chunk.data =
        .error (.malformed .guildMembersChunk (.chunkOutOfRange index count))) ∧
      (index < count → Update.read .guildMembersChunk chunk.data =
        .ok (.membersListed guild splits (index = count - 1))) := by
  obtain ⟨fields, items, rfl, owner, listed, entities, identified⟩ := lists.content
  obtain ⟨splits, taken, -⟩ := Update.splitAll_of_identified guild identified
  intro index count
  have reads : Update.read .guildMembersChunk (.obj fields) =
      if count ≤ index then .error (.malformed .guildMembersChunk (.chunkOutOfRange index count))
      else .ok (.membersListed guild splits (index.toNat + 1 = count.toNat)) :=
    Update.readMembersChunk_eq owner listed taken
  rw [entities]
  refine ⟨splits, Update.eachApart_of_splitAll taken, fun outside => ?_, fun inside => ?_⟩
  · rw [reads, if_pos outside]
  · rw [reads, if_neg (UInt64.not_le.mpr inside)]
    simp only [toNat_succ_eq_iff inside]

/-- A chunk of members is refused if its number is not below that of all chunks, and then nothing is
stored and no gate opens. Otherwise all its members are stored with their users, and with the last chunk,
and only then, it is told that the guild is ready and its gate opens. The number of the next chunk still
has 64 bits. -/
theorem apply_chunk_stored (cache : Cache) (lists : chunk.ListsMembers guild) :
    let index := chunk.chunkIndex
    let count := chunk.chunkCount
    (count ≤ index → cache.apply chunk =
      (.error (.malformed .guildMembersChunk (.chunkOutOfRange index count)),
        { cache with stats := { cache.stats with failed := cache.stats.failed + 1 } })) ∧
    (index < count → (index + 1).toNat = index.toNat + 1 ∧ ∃ normalized after,
      cache.apply chunk =
        (.ok ⟨cache.rawEvents chunk ++ if index = count - 1 then [.guildReady guild] else [], none⟩,
          after) ∧
      Update.Normalizes cache.config .member guild chunk.entities normalized ∧
      MembersStored chunk guild normalized cache.store after.store ∧
      if index = count - 1 then Gates.Signalled guild cache.gates after.gates
      else after.gates = cache.gates) := by
  intro index count
  have known : UpdateKind.ofName? chunk.name = some .guildMembersChunk := by rw [lists.name]; decide
  obtain ⟨splits, apart, refused, accepted⟩ := read_chunk lists
  rw [apply_eq, known]
  constructor
  · intro outside
    simp only [refused outside]
    rfl
  · intro inside
    have normalizes : Update.Normalizes cache.config .member guild chunk.entities
      (splits.map Split.root) := Update.normalizes_of_eachApart apart
    have stored : MembersStored chunk guild (splits.map Split.root) cache.store
      (cache.store.placeAll cache.config splits).2 := membersStored_of_eachApart apart
    refine ⟨toNat_succ_of_lt inside, splits.map Split.root, ?_⟩
    simp only [accepted inside]
    by_cases last : index = count - 1
    · rw [decide_eq_true last, if_pos last]
      refine ⟨_, rfl, normalizes, stored, ?_⟩
      rw [if_pos last]
      exact Gates.signalled_signalGuild cache.gates guild
    · rw [decide_eq_false last, if_neg last, List.append_nil]
      refine ⟨_, rfl, normalizes, stored, ?_⟩
      rw [if_neg last]
      rfl

/-- The last chunk that 64 bits can count is stored, and the one after it is refused. -/
theorem apply_chunk_stored_at_limit :
    let joined (id : String) : Dispatch :=
      ⟨"GUILD_CREATE", .obj [("id", .str id), ("member_count", .num (.unsigned 2))]⟩
    let cache := (empty { fetchMembers := true }).applyAll [joined "1", joined "2"]
    let chunk (index : UInt64) : Dispatch := ⟨"GUILD_MEMBERS_CHUNK", .obj
      [("chunk_count", .num (.unsigned 18446744073709551615)),
       ("chunk_index", .num (.unsigned index)), ("guild_id", .str "1"),
       ("members", .arr [.obj [("nick", .str "a"), ("user", .obj [("id", .str "12")])],
         .obj [("user_id", .str "13")]])]⟩
    let after := (cache.apply (chunk 18446744073709551614)).2
    (cache.apply (chunk 18446744073709551615)).2.store = cache.store ∧
      (after.store.getScoped .member ⟨1⟩ ⟨12⟩).isSome ∧ (after.store.getScoped .member ⟨1⟩ ⟨13⟩).isSome ∧
      (after.store.recordAt .user (.global ⟨12⟩)).isSome ∧
      after.readiness ⟨1⟩ = .ready ∧ after.readiness ⟨2⟩ = .pending := by
  intro joined cache chunk after
  have lists (index : UInt64) : (chunk index).ListsMembers ⟨1⟩ := by
    refine ⟨rfl, rfl, _, rfl, ?_⟩
    simp only [List.mem_cons, List.not_mem_nil, or_false, forall_eq_or_imp, forall_eq]
    exact ⟨⟨_, ⟨12⟩, rfl, by decide +kernel⟩, ⟨_, ⟨13⟩, rfl, by decide +kernel⟩⟩
  have sound : cache.gates.Sound := applyAll_sound Gates.sound_empty _
  have refused := (apply_chunk_stored cache (lists 18446744073709551615)).1 (by decide +kernel)
  obtain ⟨-, normalized, now, applied, -, stored, opens⟩ :=
    (apply_chunk_stored cache (lists 18446744073709551614)).2 (by decide +kernel)
  obtain rfl : after = now := congrArg Prod.snd applied
  rw [if_pos (by decide +kernel)] at opens
  refine ⟨by rw [refused], ?_, ?_, ?_, ?_, ?_⟩
  · exact stored.inside [("nick", .str "a"), ("user", .obj [("id", .str "12")])] ⟨12⟩ (by decide +kernel)
      (by decide +kernel) (by decide +kernel)
  · exact stored.inside [("user_id", .str "13")] ⟨13⟩ (by decide +kernel) (by decide +kernel)
      (by decide +kernel)
  · exact stored.embedded (.obj [("nick", .str "a"), ("user", .obj [("id", .str "12")])])
      (by decide +kernel) ⟨.user, .global ⟨12⟩, [("id", .str "12")]⟩ (by decide +kernel)
  · rw [readiness, opens.opened]
    decide +kernel
  · rw [readiness, opens.elsewhere sound ⟨2⟩ (by decide)]
    decide +kernel

end Cache

end GatewayCache
