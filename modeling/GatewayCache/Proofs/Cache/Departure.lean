import GatewayCache.Proofs.Cache.Handler
import GatewayCache.Proofs.Gate.Register
import GatewayCache.Proofs.Store.Eviction
import GatewayCache.Proofs.Update.Reading

/-! # What goes with a guild

The records that go when a guild is left are told by the store as it was before:
the record of the guild, all that is kept inside it, what that record lists, and what
names the guild. Nothing else is touched, and no gate but that of the guild.
-/

namespace GatewayCache

namespace Store

/-- A place whose record is part of a guild, as the store tells. -/
inductive PartOf (store : Store) (guild : Snowflake) : Kind → Key → Prop where
  | own : PartOf store guild .guild (.global guild)
  | inside {kind : Kind} (among : kind ∈ [Kind.member, .role, .emoji, .voiceState]) (id : Snowflake) :
    PartOf store guild kind (.scoped guild id)
  /-- The record of the guild lists it. -/
  | listed {kind : Kind} {field : String} {id : Snowflake}
    (entry : (kind, field) ∈
      [(Kind.channel, "channel_ids"), (.thread, "thread_ids"), (.sticker, "sticker_ids")])
    (here : id ∈ store.listed guild field) : PartOf store guild kind (.global id)
  /-- It names the guild. -/
  | naming {kind : Kind} {id : Snowflake} (among : kind ∈ [Kind.sticker, .integration, .autoModRule])
    (named : store.Names kind guild id) : PartOf store guild kind (.global id)

variable {store : Store} {guild : Snowflake} {kind : Kind} {key : Key} {fields : Fields}

theorem partOf_scoped_iff {owner id : Snowflake} (inGuild : kind.isScoped) :
    store.PartOf guild kind (.scoped owner id) ↔ owner = guild := by
  constructor
  · rintro ⟨⟩
    rfl
  · rintro rfl
    exact .inside (by cases kind <;> simp_all [Kind.isScoped]) id

theorem partOf_global_iff {id : Snowflake} (global : kind.isScoped = false)
    (found : store.fieldsAt kind (.global id) = some fields) :
    store.PartOf guild kind (.global id) ↔ store.goesWith guild ⟨kind, id⟩ fields := by
  have names : store.Names kind guild id ↔ fields.relationId "guild_id" = some guild := by
    have here : store.globals[Slot.mk kind id]? = some fields := found
    rw [names_iff global, here]
    simp
  simp only [goesWith, Bool.or_eq_true, beq_iff_eq, List.any_eq_true]
  constructor
  · rintro (_ | _ | ⟨entry, here⟩ | ⟨among, named⟩)
    · exact .inl (.inl rfl)
    · next field => exact .inl (.inr ⟨(kind, field), entry, by simpa [isAmong] using here⟩)
    · exact .inr ⟨kind, among, by simpa [namesGuild] using names.mp named⟩
  · rintro ((own | ⟨⟨other, field⟩, entry, here⟩) | ⟨other, among, named⟩)
    · obtain ⟨rfl, rfl⟩ := Slot.mk.inj own
      exact .own
    · simp only [isAmong, Bool.and_eq_true, decide_eq_true_eq, List.contains_iff_mem] at here
      obtain ⟨rfl, here⟩ := here
      exact .listed entry here
    · simp only [namesGuild, Bool.and_eq_true, decide_eq_true_eq, beq_iff_eq] at named
      obtain ⟨rfl, named⟩ := named
      exact .naming among (names.mpr named)

/-- An eviction takes a record if and only if it is part of the guild. -/
theorem recordAt_evict (store : Store) (guild : Snowflake) (fits : address? kind key = some key) :
    (store.PartOf guild kind key → (store.evict guild).2.recordAt kind key = none) ∧
      (¬ store.PartOf guild kind key →
        (store.evict guild).2.recordAt kind key = store.recordAt kind key) := by
  simp only [recordAt, fieldsAt_evict]
  cases found : store.fieldsAt kind key with
  | none => simp
  | some fields =>
    rcases key with id | ⟨owner, id⟩
    · have global : kind.isScoped = false := by
        cases inGuild : kind.isScoped <;> simp_all [address?]
      rw [partOf_global_iff global found]
      cases goes : store.goesWith guild ⟨kind, id⟩ fields <;>
        simp [Option.filter, goes, Key.guild?, Key.id]
    · have inGuild : kind.isScoped := by
        cases inGuild : kind.isScoped <;> simp_all [address?]
      rw [partOf_scoped_iff inGuild]
      by_cases same : owner = guild <;> simp [Option.filter, same, Key.guild?]

theorem fieldsAt_deleteIds_of_ne {other : Kind} (apart : kind ≠ other) (store : Store)
    (ids : List Snowflake) (place : Key) :
    (store.deleteIds kind ids).fieldsAt other place = store.fieldsAt other place := by
  induction ids generalizing store with
  | nil => rfl
  | cons id rest ih =>
    rw [deleteIds, List.foldl_cons, ← deleteIds, ih, fieldsAt_delete_of_ne apart]

theorem fieldsAt_deleteByGuild_of_ne {other : Kind} (apart : kind ≠ other) (store : Store)
    (guild : Snowflake) (place : Key) :
    (store.deleteByGuild kind guild).2.fieldsAt other place = store.fieldsAt other place := by
  rw [fieldsAt_deleteByGuild]
  cases store.fieldsAt other place <;> simp [namesGuild, apart.symm, Option.filter]

theorem evict_fst (store : Store) (guild : Snowflake) : (store.evict guild).1 = store.guild? guild := by
  have kept : ((store.evictListed guild).evictNaming guild).fieldsAt .guild (.global guild) =
      store.fieldsAt .guild (.global guild) := by
    simp only [evictNaming, namingKinds, evictListed, listedKinds, List.foldl_cons, List.foldl_nil]
    repeat rw [fieldsAt_deleteByGuild_of_ne (by decide)]
    repeat rw [fieldsAt_deleteIds_of_ne (by decide)]
  simp only [evict, deleteGuild, guild?, recordAt, kept]

end Store

namespace Update

theorem left_of_read {data : Json} {update : Update}
    (reached : data.get? "unavailable" ≠ some (.bool true))
    (reads : read .guildDelete data = .ok update) :
    ∃ guild, (data.get? "id").bind Snowflake.ofJson? = some guild ∧ update = .guildLeft guild := by
  cases data with
  | obj fields =>
    cases required : requireId .guildDelete fields "id" with
    | error error => simp [read, fieldsOf, readGuildDelete, required, bind, Except.bind] at reads
    | ok guild =>
      have owner : Fields.relationId fields "id" = some guild := relationId_of_requireId required
      have left : saysUnavailable fields = false := by
        have other : Fields.get? fields "unavailable" ≠ some (.bool true) := reached
        unfold saysUnavailable Fields.bool?
        cases found : Fields.get? fields "unavailable" with
        | none => rfl
        | some value => cases value <;> simp_all [Json.bool?]
      have leaves : update = .guildLeft guild := by
        simpa [read, fieldsOf, readGuildDelete, required, left, bind, Except.bind, eq_comm] using reads
      exact ⟨guild, owner, leaves⟩
  | null | bool | num | str | arr => cases reads

end Update

namespace Cache

/-- A guild that is left takes just what was part of it along. Its record is told as it was before, and
its gate, of all gates, is taken off the register, and closed if it was still waited for. -/
theorem guild_left_takes_its_part (cache : Cache) {dispatch : Dispatch} {outcome : Outcome}
    (named : dispatch.name = "GUILD_DELETE")
    (reached : dispatch.data.get? "unavailable" ≠ some (.bool true))
    (done : (cache.apply dispatch).1 = .ok outcome) :
    ∃ guild, (dispatch.data.get? "id").bind Snowflake.ofJson? = some guild ∧
      let after := (cache.apply dispatch).2
      (∀ kind key, Store.address? kind key = some key →
        (cache.store.PartOf guild kind key → after.store.recordAt kind key = none) ∧
        (¬ cache.store.PartOf guild kind key →
          after.store.recordAt kind key = cache.store.recordAt kind key)) ∧
      outcome = ⟨cache.rawEvents dispatch ++ [.guildLeft guild (cache.store.guild? guild)], none⟩ ∧
      (∀ other, after.gates.get? other = if other = guild then none else cache.gates.get? other) ∧
      ∀ handle, after.gates.state handle =
        if cache.gates.get? guild = some handle ∧ cache.gates.state handle = .pending then .closed
        else cache.gates.state handle := by
  have known : UpdateKind.ofName? dispatch.name = some .guildDelete := by rw [named]; decide
  obtain ⟨guild, owner, reads⟩ : ∃ guild, (dispatch.data.get? "id").bind Snowflake.ofJson? = some guild ∧
      Update.read .guildDelete dispatch.data = .ok (.guildLeft guild) := by
    cases reads : Update.read .guildDelete dispatch.data with
    | error error => simp [apply_eq, known, reads] at done
    | ok update =>
      obtain ⟨guild, owner, rfl⟩ := Update.left_of_read reached reads
      exact ⟨guild, owner, rfl⟩
  have applied : cache.apply dispatch =
      (.ok ⟨cache.rawEvents dispatch ++ [.guildLeft guild (cache.store.guild? guild)], none⟩,
        { cache with
          store := (cache.store.evict guild).2
          gates := cache.gates.remove guild
          stats := { cache.stats with processed := cache.stats.processed + 1 } }) := by
    simp [apply_eq, known, reads, perform, guildLeft, Outcome.of, Stats.counting, Store.evict_fst]
  rw [applied] at done ⊢
  exact ⟨guild, owner, fun kind key fits => Store.recordAt_evict cache.store guild fits,
    (Except.ok.inj done).symm, Gates.get?_remove cache.gates guild,
    Gates.state_remove cache.gates guild⟩

/-- A guild is left while its members are waited for. The channel that it lists and its member go, and
the channel that was only updated stays. -/
theorem guild_left_while_waiting :
    let config : Config := { fetchMembers := true }
    let before := (empty config).applyAll
      [⟨"GUILD_CREATE", .obj
        [("channels", .arr [.obj [("id", .str "5")]]), ("id", .str "1"),
         ("member_count", .num (.unsigned 3)),
         ("members", .arr [.obj [("user", .obj [("id", .str "12")])]])]⟩,
       ⟨"CHANNEL_UPDATE", .obj [("guild_id", .str "1"), ("id", .str "6")]⟩]
    let after := (before.apply ⟨"GUILD_DELETE", .obj [("id", .str "1")]⟩).2
    before.readiness ⟨1⟩ = .pending ∧
      after.store.recordAt .channel (.global ⟨5⟩) = none ∧
      after.store.recordAt .member (.scoped ⟨1⟩ ⟨12⟩) = none ∧
      (after.store.recordAt .channel (.global ⟨6⟩)).isSome ∧
      after.gates.get? ⟨1⟩ = none ∧ after.gates.state ⟨0⟩ = .closed := by
  intro config before after
  obtain ⟨outcome, done⟩ : ∃ outcome,
      (before.apply ⟨"GUILD_DELETE", .obj [("id", .str "1")]⟩).1 = .ok outcome := ⟨_, rfl⟩
  obtain ⟨guild, owner, records, -, registered, states⟩ :=
    guild_left_takes_its_part before rfl (by decide +kernel) done
  obtain rfl : (⟨1⟩ : Snowflake) = guild := by
    have named : (some ⟨1⟩ : Option Snowflake) = some guild := owner
    exact Option.some.inj named
  have listed : (⟨5⟩ : Snowflake) ∈ before.store.listed ⟨1⟩ "channel_ids" := by decide +kernel
  have unlisted : (⟨6⟩ : Snowflake) ∉ before.store.listed ⟨1⟩ "channel_ids" := by decide +kernel
  have stays : ¬ before.store.PartOf ⟨1⟩ .channel (.global ⟨6⟩) := by
    rintro (_ | _ | ⟨entry, here⟩ | ⟨among, -⟩)
    · simp only [List.mem_cons, Prod.mk.injEq, reduceCtorEq, false_and, or_false, true_and,
        List.not_mem_nil] at entry
      exact unlisted (entry ▸ here)
    · exact absurd among (by decide)
  refine ⟨by decide +kernel, ?_, ?_, ?_, registered ⟨1⟩, ?_⟩
  · exact (records .channel _ rfl).1 (.listed (by decide) listed)
  · exact (records .member _ rfl).1 (.inside (by decide) ⟨12⟩)
  · rw [(records .channel _ rfl).2 stays]
    decide +kernel
  · rw [states, if_pos (by decide +kernel)]

end Cache

end GatewayCache
