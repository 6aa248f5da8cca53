import GatewayCache.Proofs.Cache.Edits
import GatewayCache.Proofs.Cache.Leaving
import GatewayCache.Proofs.Cache.Readiness
import GatewayCache.Proofs.Store.GuildFields
import GatewayCache.Proofs.Update.Guilds

/-! # Guilds that come back

Whether a guild that is created again was only out of reach is told by a field of its
record, between fields that many other updates write. The field follows the reports of
the guild alone: so a guild comes back just where the last of them marked its record.
-/

namespace GatewayCache

open Store

namespace Cache

variable {cache : Cache} {update : Update} {dispatch : Dispatch} {guild : Snowflake}

theorem isUnavailable_iff (store : Store) (guild : Snowflake) :
    isUnavailable store guild ↔ store.guildField guild "unavailable" = some (.bool true) := by
  rw [isUnavailable, Store.guild?, recordAt, guildField]
  cases store.fieldsAt .guild (.global guild) with
  | none => simp
  | some fields => exact Update.saysUnavailable_iff

theorem isUnavailable_eq {before after : Store}
    (same : after.guildField guild "unavailable" = before.guildField guild "unavailable") :
    isUnavailable after guild = isUnavailable before guild := by
  rw [Bool.eq_iff_iff, isUnavailable_iff, isUnavailable_iff, same]

theorem isUnavailable_of_absent {store : Store} (absent : (store.guild? guild).isSome = false) :
    isUnavailable store guild = false := by
  rw [Option.isSome_eq_false_iff, Option.isNone_iff_eq_none] at absent
  rw [isUnavailable, absent]
  rfl

theorem linked_keeps (cache : Cache) (owner : Option Snowflake) (kind : Kind) (id : Snowflake) :
    KeepsField "unavailable" cache.store (cache.linked owner kind id).store := by
  unfold linked
  split
  · next listed => exact .link (listField?_ne listed (by decide)).symm cache.store id
  · exact .refl _ cache.store

theorem unlinked_keeps (cache : Cache) (owner : Option Snowflake) (kind : Kind) (id : Snowflake) :
    KeepsField "unavailable" cache.store (cache.unlinked owner kind id).store := by
  unfold unlinked
  split
  · next listed => exact .unlink (listField?_ne listed (by decide)).symm cache.store id
  · exact .refl _ cache.store

theorem place_keeps {split : Split} (others : ∀ record ∈ split.records, record.kind ≠ .guild)
    (cache : Cache) :
    KeepsField "unavailable" cache.store (cache.store.place cache.config split).2 := by
  rw [place_snd]
  exact .of_keeps (keeps_writeAll cache.config others cache.store)

theorem placeAll_keeps {splits : List Split}
    (others : ∀ split ∈ splits, ∀ record ∈ split.records, record.kind ≠ .guild) (cache : Cache) :
    KeepsField "unavailable" cache.store (cache.store.placeAll cache.config splits).2 := by
  rw [placeAll_snd]
  refine .of_keeps (keeps_writeAll cache.config (fun record member => ?_) cache.store)
  obtain ⟨split, here, inside⟩ := List.mem_flatMap.mp member
  exact others split here record inside

theorem deletes_keeps {kind : Kind} (other : kind ≠ .guild) {keyOf : Snowflake → Key}
    (fit : ∀ id, address? kind (keyOf id) = some (keyOf id)) (ids : List Snowflake) (store : Store) :
    KeepsField "unavailable" store
      (ids.foldl (fun store id => (store.delete kind (keyOf id)).2) store) :=
  .of_keeps (keeps_deletes fit (fun _ _ => other) store)

theorem delete_keeps {kind : Kind} (other : kind ≠ .guild) (key : Key) (store : Store) :
    KeepsField "unavailable" store (store.delete kind key).2 := by
  refine .of_keeps fun same place guild => ?_
  subst guild
  exact fieldsAt_delete_of_ne other store key place

theorem perform_keeps_availability (marks : update.Marks dispatch) (silent : update.reported? = none)
    (other : ∀ split, update ≠ .guildChanged split) (cache : Cache) :
    KeepsField "unavailable" cache.store (cache.perform update).1.store := by
  cases update with
  | guildAvailable | guildPending | guildOutage | guildLeft => cases silent
  | guildChanged split => exact absurd rfl (other split)
  | banAdded _ split | banLifted _ split | integrationAdded split | integrationChanged split
  | changed split | voiceChanged split => exact place_keeps (marks split (by simp [Update.splits])) cache
  | roleAdded _ split | roleChanged _ split | added split =>
    have placed := place_keeps (marks split (by simp [Update.splits])) cache
    exact placed.trans (linked_keeps (cache.placed split).2 _ _ _)
  | emojisReplaced guild splits =>
    refine (placeAll_keeps marks cache).trans (.trans ?_ (.setList (by decide) _ _))
    exact deletes_keeps (by decide) (fun _ => rfl) _ _
  | stickersReplaced guild splits =>
    refine (placeAll_keeps marks cache).trans (.trans ?_ (.setList (by decide) _ _))
    exact deletes_keeps (by decide) (fun _ => rfl) _ _
  | membersListed guild splits last => cases last <;> exact placeAll_keeps marks cache
  | removed kind key owner =>
    exact (unlinked_keeps cache owner kind key.id).trans (delete_keeps marks key _)
  | integrationRemoved guild id application =>
    have other : Kind.integration ≠ .guild := Kind.noConfusion
    exact delete_keeps other (.global id) cache.store
  | webhooksChanged guild channel => exact .refl _ cache.store

theorem isUnavailable_place {split : Split} (ofGuild : Update.OfGuild split) {mark : Bool}
    (marked : split.root.fields.get? "unavailable" = some (.bool mark)) (config : Config)
    (store : Store) (guild : Snowflake) :
    isUnavailable (store.place config split).2 guild =
      if split.root.id = guild then mark else isUnavailable store guild := by
  have placed := guildField_place ofGuild.kind ofGuild.key ofGuild.ordered ofGuild.embedded config
    store guild "unavailable"
  split
  · next own =>
    rw [if_pos own, marked, Option.elim_some,
      Json.laid_of_not_object _ (rfl : (Json.bool mark).fields? = none)] at placed
    rw [Bool.eq_iff_iff, isUnavailable_iff, placed]
    simp
  · next apart =>
    rw [if_neg apart] at placed
    exact isUnavailable_eq placed

theorem isUnavailable_place_of_plain {split : Split} (ofGuild : Update.OfGuild split)
    (plain : split.root.fields.get? "unavailable" = none) (config : Config) (store : Store)
    (guild : Snowflake) :
    isUnavailable (store.place config split).2 guild = isUnavailable store guild := by
  refine isUnavailable_eq ?_
  rw [guildField_place ofGuild.kind ofGuild.key ofGuild.ordered ofGuild.embedded, plain]
  split <;> rfl

theorem isUnavailable_guildOutage (cache : Cache) (other guild : Snowflake) :
    isUnavailable (cache.guildOutage other).1.store guild =
      if other = guild then ((cache.guildOutage other).1.store.guild? guild).isSome
      else isUnavailable cache.store guild := by
  cases known : (cache.store.guild? other).isSome with
  | false =>
    have same : (cache.guildOutage other).1.store = cache.store := by
      simp only [guildOutage, known, Bool.false_eq_true, if_false]
    rw [same]
    split
    · next own => rw [← own, known, isUnavailable_of_absent known]
    · rfl
  | true =>
    have marked : (cache.guildOutage other).1.store =
        cache.store.write .guild (.global other) [("unavailable", .bool true)] := by
      simp only [guildOutage, known, if_true]
    have ordered : Fields.ordered [("unavailable", .bool true)] := by decide
    have written := guildField_write ordered cache.store other guild "unavailable"
    rw [marked]
    split
    · next own =>
      subst own
      rw [if_pos rfl] at written
      have mark : Fields.get? [("unavailable", .bool true)] "unavailable" = some (.bool true) := by
        decide
      rw [mark, Option.elim_some, Json.laid_of_not_object _ rfl] at written
      rw [Store.guild?_isSome, fieldsAt_write, if_pos rfl, Option.isSome_some]
      exact (isUnavailable_iff _ other).mpr written
    · next apart =>
      rw [if_neg apart] at written
      exact isUnavailable_eq written

/-- The mark that an update leaves. -/
theorem isUnavailable_perform (marks : update.Marks dispatch)
    (plain : ∀ fields, dispatch.fieldsAs? .guildUpdate = some fields →
      fields.get? "unavailable" = none) (cache : Cache) (guild : Snowflake) :
    isUnavailable (cache.perform update).1.store guild =
      if update.reported? = some guild then
        update.isOutage && ((cache.perform update).1.store.guild? guild).isSome
      else isUnavailable cache.store guild := by
  by_cases silent : update.reported? = none ∧ ∀ split, update ≠ .guildChanged split
  · rw [silent.1, if_neg (by simp)]
    exact isUnavailable_eq (perform_keeps_availability marks silent.1 silent.2 cache guild)
  cases update with
  | guildAvailable split =>
    obtain ⟨ofGuild, marked⟩ := marks
    simp only [perform, guildAvailable_store, Update.reported?, Update.isOutage, Option.some.injEq]
    exact isUnavailable_place ofGuild marked cache.config cache.store guild
  | guildPending split =>
    obtain ⟨ofGuild, marked⟩ := marks
    simp only [perform, guildPending, Update.reported?, Update.isOutage, Option.some.injEq,
      isUnavailable_place ofGuild marked]
    split
    · next own =>
      rw [← own, guild?_place ofGuild.kind ofGuild.key]
      rfl
    · rfl
  | guildChanged split =>
    obtain ⟨ofGuild, fields, named, kept⟩ := marks
    exact isUnavailable_place_of_plain ofGuild (kept.trans (plain fields named)) cache.config
      cache.store guild
  | guildOutage other =>
    simp only [perform, Update.reported?, Update.isOutage, Option.some.injEq, Bool.true_and]
    exact isUnavailable_guildOutage cache other guild
  | guildLeft other =>
    simp only [perform, guildLeft, Update.reported?, Update.isOutage, Option.some.injEq,
      Bool.false_and]
    split
    · next own =>
      subst own
      refine isUnavailable_of_absent ?_
      rw [Store.guild?_isSome, fieldsAt_guild_evict, if_pos rfl]
      rfl
    · next apart =>
      refine isUnavailable_eq ?_
      rw [guildField_evict, if_neg (Ne.symm apart)]
  | banAdded | banLifted | emojisReplaced | stickersReplaced | webhooksChanged | integrationAdded
  | integrationChanged | integrationRemoved | membersListed | roleAdded | roleChanged | added
  | changed | removed | voiceChanged => exact absurd ⟨rfl, fun _ => Update.noConfusion⟩ silent

/-- What a run has heard of a guild, or what was so before. -/
def outOfReach (standing : Option Standing) (before : Bool) : Bool :=
  (standing.map Standing.outOfReach).getD before

theorem isUnavailable_apply (ordered : dispatch.data.ordered)
    (plain : ∀ fields, dispatch.fieldsAs? .guildUpdate = some fields →
      fields.get? "unavailable" = none) (cache : Cache) (guild : Snowflake) :
    isUnavailable (cache.apply dispatch).2.store guild =
      outOfReach (cache.standing? guild dispatch) (isUnavailable cache.store guild) := by
  unfold standing?
  rw [apply_eq]
  cases known : UpdateKind.ofName? dispatch.name with
  | none =>
    have silent : dispatch.reported? = none := by
      simp [Dispatch.reported?, fieldsAs?_of_unknown known]
    simp [silent, outOfReach]
  | some kind =>
    cases reads : Update.read kind dispatch.data with
    | error error => simp [outOfReach, reads, Except.isOk, Except.toBool]
    | ok update =>
      obtain ⟨reported, agrees⟩ := Update.read_reported dispatch known update reads
      have marks := Update.read_marks dispatch known ordered update reads
      simp only [reads, isUnavailable_perform marks plain, reported, Except.isOk, Except.toBool,
        and_true]
      split
      · next own =>
        rw [agrees (by rw [own]; rfl)]
        rfl
      · rfl

/-- A guild is marked after a run just where the last report of it left it known and out of reach. -/
theorem isUnavailable_applyAll {run : List Dispatch}
    (ordered : ∀ dispatch ∈ run, dispatch.data.ordered)
    (plain : ∀ dispatch ∈ run, ∀ fields, dispatch.fieldsAs? .guildUpdate = some fields →
      fields.get? "unavailable" = none) (cache : Cache) (guild : Snowflake) :
    isUnavailable (cache.applyAll run).store guild =
      outOfReach (cache.lastStanding? guild run) (isUnavailable cache.store guild) := by
  induction run generalizing cache with
  | nil => rfl
  | cons dispatch rest ih =>
    rw [applyAll, List.foldl_cons, ← applyAll,
      ih (fun later member => ordered later (by simp [member]))
        (fun later member => plain later (by simp [member])),
      isUnavailable_apply (ordered dispatch (by simp)) (plain dispatch (by simp)), lastStanding?]
    cases (cache.apply dispatch).2.lastStanding? guild rest <;> rfl

theorem guildAvailable_produces (cache : Cache) (split : Split) (events : List Event) :
    (Outcome.of events (cache.guildAvailable split).2).produced =
      events ++ [if isUnavailable cache.store split.root.id then
        .guildAvailable (cache.store.place cache.config split).1.after
        else .guildJoin (cache.store.place cache.config split).1.after] := by
  simp only [guildAvailable]
  split
  · simp [Outcome.of, Outcome.produced]
  split
  · simp [Outcome.of, Outcome.produced]
  split <;> simp [Outcome.of, Outcome.produced]

theorem apply_available {guild : Snowflake} (available : dispatch.available? = some guild)
    (cache : Cache) :
    ∃ outcome after record, cache.apply dispatch = (.ok outcome, after) ∧
      after.store.guild? guild = some record ∧
      outcome.produced = cache.rawEvents dispatch ++
        [if isUnavailable cache.store guild then .guildAvailable record else .guildJoin record] := by
  obtain ⟨known, split, reads, kind, key, rfl⟩ := Update.read_available available
  simp only [apply_eq, known, reads]
  refine ⟨_, _, (cache.store.place cache.config split).1.after, rfl, ?_,
    guildAvailable_produces cache split _⟩
  simp only [perform, guildAvailable_store]
  exact guild?_place kind key cache.config cache.store

theorem apply_outage (outage : dispatch.outage? = some guild) (cache : Cache) :
    ∃ outcome after, cache.apply dispatch = (.ok outcome, after) ∧
      (∀ kind key, (kind, key) ≠ (.guild, .global guild) →
        after.store.fieldsAt kind key = cache.store.fieldsAt kind key) ∧
      (after.store.guild? guild).isSome = (cache.store.guild? guild).isSome ∧
      ∀ field, field ≠ "unavailable" →
        after.store.guildField guild field = cache.store.guildField guild field := by
  obtain ⟨known, reads⟩ := Update.read_outage outage
  simp only [apply_eq, known, reads]
  refine ⟨_, _, rfl, ?_⟩
  simp only [perform, guildOutage]
  cases present : (cache.store.guild? guild).isSome with
  | false => simp [present]
  | true =>
    simp only [if_true, Store.guild?_isSome]
    refine ⟨fun kind key apart => ?_, ?_, fun field other => ?_⟩
    · rw [fieldsAt_write, if_neg (Ne.symm apart)]
    · rw [fieldsAt_write, if_pos rfl, Option.isSome_some]
    · have ordered : Fields.ordered [("unavailable", .bool true)] := by decide
      have absent : Fields.get? [("unavailable", .bool true)] field = none := by
        rw [Fields.get?_cons, if_neg other]
        rfl
      rw [guildField_write ordered, absent, if_pos rfl, Option.elim_none]

/-- From an empty cache on, and as long as no change of a guild writes the mark itself, a guild that is
created and can be reached is told of as available again just where the last report of it left it known
and out of reach, and as joined otherwise. An outage, in any cache, only marks the record of its guild. -/
theorem guild_returns (config : Config) {run : List Dispatch}
    (ordered : ∀ dispatch ∈ run, dispatch.data.ordered)
    (plain : ∀ dispatch ∈ run, ∀ fields, dispatch.fieldsAs? .guildUpdate = some fields →
      fields.get? "unavailable" = none) :
    (∀ (dispatch : Dispatch) guild, dispatch.available? = some guild →
      let cache := (empty config).applyAll run
      ∃ outcome after record, cache.apply dispatch = (.ok outcome, after) ∧
        after.store.guild? guild = some record ∧
        outcome.produced = cache.rawEvents dispatch ++
          [if ((empty config).lastStanding? guild run).any Standing.outOfReach then
            .guildAvailable record else .guildJoin record]) ∧
      ∀ (cache : Cache) (dispatch : Dispatch) guild, dispatch.outage? = some guild →
        ∃ outcome after, cache.apply dispatch = (.ok outcome, after) ∧
          (∀ kind key, (kind, key) ≠ (.guild, .global guild) →
            after.store.fieldsAt kind key = cache.store.fieldsAt kind key) ∧
          (after.store.guild? guild).isSome = (cache.store.guild? guild).isSome ∧
          ∀ field, field ≠ "unavailable" →
            after.store.guildField guild field = cache.store.guildField guild field := by
  refine ⟨fun dispatch guild available => ?_, fun cache dispatch guild outage =>
    apply_outage outage cache⟩
  have fresh : isUnavailable (empty config).store guild = false := rfl
  have marked := isUnavailable_applyAll ordered plain (empty config) guild
  have last : outOfReach ((empty config).lastStanding? guild run) false =
      ((empty config).lastStanding? guild run).any Standing.outOfReach := by
    cases (empty config).lastStanding? guild run <;> rfl
  rw [fresh, last] at marked
  rw [← marked]
  exact apply_available available _

/-- A guild is joined, goes out of reach, has a channel created meanwhile, and comes back. One that was
not known when it went out of reach is joined. -/
theorem guild_returns_after_outage :
    let joined : Dispatch := ⟨"GUILD_CREATE", .obj [("id", .str "1")]⟩
    let outage : Dispatch :=
      ⟨"GUILD_DELETE", .obj [("id", .str "1"), ("unavailable", .bool true)]⟩
    let channel : Dispatch := ⟨"CHANNEL_CREATE", .obj [("guild_id", .str "1"), ("id", .str "5")]⟩
    let back : Record := ⟨.guild, .global ⟨1⟩,
      [("channel_ids", .arr [.str "5"]), ("id", .str "1"), ("unavailable", .bool false)]⟩
    let fresh : Record := ⟨.guild, .global ⟨1⟩, [("id", .str "1"), ("unavailable", .bool false)]⟩
    ∃ outcome other, (((empty {}).applyAll [joined, outage, channel]).apply joined).1 = .ok outcome ∧
      outcome.produced = [.guildAvailable back] ∧
      (((empty {}).applyAll [outage, channel]).apply joined).1 = .ok other ∧
      other.produced = [.guildJoin fresh] := by
  intro joined outage channel back fresh
  have first : ∀ dispatch ∈ [joined, outage, channel], dispatch.data.ordered := by decide
  have second : ∀ dispatch ∈ [outage, channel], dispatch.data.ordered := by decide
  have plain : ∀ dispatch ∈ [joined, outage, channel], ∀ fields,
      dispatch.fieldsAs? .guildUpdate = some fields → fields.get? "unavailable" = none := by
    have silent : ∀ dispatch ∈ [joined, outage, channel],
      dispatch.fieldsAs? .guildUpdate = none := by decide
    intro dispatch member fields named
    rw [silent dispatch member] at named
    cases named
  have later : ∀ dispatch ∈ [outage, channel], ∀ fields,
      dispatch.fieldsAs? .guildUpdate = some fields → fields.get? "unavailable" = none :=
    fun dispatch member => plain dispatch (List.mem_cons_of_mem joined member)
  obtain ⟨outcome, after, record, done, found, produced⟩ :=
    (guild_returns {} first plain).1 joined ⟨1⟩ (by decide)
  obtain ⟨other, ending, new, doneToo, foundToo, producedToo⟩ :=
    (guild_returns {} second later).1 joined ⟨1⟩ (by decide)
  have stored : (((empty {}).applyAll [joined, outage, channel]).apply joined).2.store.guild? ⟨1⟩ =
      some back := by decide +kernel
  have storedToo : (((empty {}).applyAll [outage, channel]).apply joined).2.store.guild? ⟨1⟩ =
      some fresh := by decide +kernel
  have away : ((empty {}).lastStanding? ⟨1⟩ [joined, outage, channel]).any Standing.outOfReach := by
    decide +kernel
  have unknown : ((empty {}).lastStanding? ⟨1⟩ [outage, channel]).any Standing.outOfReach = false := by
    decide +kernel
  rw [done, found] at stored
  rw [doneToo, foundToo] at storedToo
  obtain rfl := Option.some.inj stored
  obtain rfl := Option.some.inj storedToo
  refine ⟨outcome, other, by rw [done], ?_, by rw [doneToo], ?_⟩
  · rw [produced, if_pos away]
    rfl
  · rw [producedToo, unknown]
    rfl

end Cache

end GatewayCache
