import GatewayCache.Proofs.Cache.Handler
import GatewayCache.Proofs.Store.Eviction

/-! # Leaving a guild

When a guild is left, its members, roles, emoji and voice states go with its shelf,
and stickers, integrations and moderation rules by the guild that they name.
Channels and threads go by the lists in the guild's record, so one of them stays if
it came to be known on a way that does not list it.
-/

namespace GatewayCache

namespace Store

/-- Nothing in the store belongs to a guild. -/
structure HasNothingOf (store : Store) (guild : Snowflake) : Prop where
  /-- There is no record of the guild itself. -/
  unrecorded : store.guild? guild = none
  /-- There is nothing inside it. -/
  inside : ∀ kind id, store.getScoped kind guild id = none
  /-- Nothing of the kinds that go with a guild names it. -/
  naming : ∀ kind ∈ [Kind.channel, .thread, .sticker, .integration, .autoModRule], ∀ id,
    ¬ store.Names kind guild id

/-- The kinds that go by the lists of a guild alone, with their lists. -/
def listedOnly : List (Kind × String) := [(.channel, "channel_ids"), (.thread, "thread_ids")]

/-- An eviction leaves nothing if and only if every channel and thread of the guild is listed. -/
theorem hasNothingOf_evict_iff (store : Store) (guild : Snowflake) :
    (store.evict guild).2.HasNothingOf guild ↔
      ∀ entry ∈ listedOnly, ∀ id, store.Names entry.1 guild id → id ∈ store.listed guild entry.2 := by
  constructor
  · rintro nothing ⟨kind, field⟩ entry id named
    have owned : kind ∈ [Kind.channel, .thread, .sticker, .integration, .autoModRule] := by
      simp only [listedOnly, List.mem_cons, Prod.mk.injEq, List.not_mem_nil, or_false] at entry
      rcases entry with ⟨rfl, -⟩ | ⟨rfl, -⟩ <;> decide
    have gone := nothing.naming kind owned id
    rw [names_evict_of_listed entry, not_and, Classical.not_not] at gone
    exact gone named
  · intro all
    refine ⟨guild?_evict store guild, fun kind id => getScoped_evict store kind guild id, ?_⟩
    intro kind owned id stays
    by_cases naming : kind ∈ namingKinds
    · exact not_names_evict naming store guild id stays
    · obtain ⟨field, entry⟩ : ∃ field, (kind, field) ∈ listedOnly := by
        cases kind <;> simp_all [namingKinds, listedOnly]
      obtain ⟨named, unlisted⟩ := (names_evict_of_listed entry store guild id).mp stays
      exact unlisted (all _ entry id named)

end Store

namespace Cache

open Update

/-- Leaving a guild is never refused, takes away all that is inside the guild or goes by the guild that
it names, and leaves nothing of the guild at all if and only if its record lists every channel and
thread that names it. -/
theorem guild_delete_evicts (cache : Cache) (fields : Fields) (guild : Snowflake)
    (named : requireId .guildDelete fields "id" = .ok guild)
    (left : saysUnavailable fields = false) :
    let result := cache.apply ⟨"GUILD_DELETE", .obj fields⟩
    (∃ outcome, result.1 = .ok outcome) ∧
      result.2.store.guild? guild = none ∧
      (∀ kind id, result.2.store.getScoped kind guild id = none) ∧
      (∀ kind ∈ [Kind.sticker, .integration, .autoModRule], ∀ id,
        ¬ result.2.store.Names kind guild id) ∧
      (result.2.store.HasNothingOf guild ↔
        ∀ entry ∈ [(Kind.channel, "channel_ids"), (.thread, "thread_ids")], ∀ id,
          cache.store.Names entry.1 guild id → id ∈ cache.store.listed guild entry.2) := by
  have reads : read .guildDelete (.obj fields) = .ok (.guildLeft guild) := by
    simp [Update.read, fieldsOf, readGuildDelete, named, left, bind, Except.bind]
  have known : UpdateKind.ofName? "GUILD_DELETE" = some .guildDelete := by decide
  have stored : (cache.apply ⟨"GUILD_DELETE", .obj fields⟩).2.store =
      (cache.store.evict guild).2 := by
    simp [apply_eq, known, reads, perform, guildLeft]
  simp only [stored]
  refine ⟨?_, Store.guild?_evict .., fun kind id => Store.getScoped_evict .., ?_, ?_⟩
  · simp [apply_eq, known, reads, perform, guildLeft]
  · exact fun kind naming id => Store.not_names_evict naming cache.store guild id
  · exact Store.hasNothingOf_evict_iff cache.store guild

/-- An update of a channel stores it but does not list it, and so it outlives its guild. -/
theorem guild_delete_keeps_unlisted_channel :
    let before := (empty {}).applyAll
      [⟨"GUILD_CREATE", .obj [("id", .str "1")]⟩,
       ⟨"CHANNEL_UPDATE", .obj [("guild_id", .str "1"), ("id", .str "5")]⟩]
    let result := before.apply ⟨"GUILD_DELETE", .obj [("id", .str "1")]⟩
    (∃ outcome, result.1 = .ok outcome) ∧ result.2.store.Names .channel ⟨1⟩ ⟨5⟩ ∧
      ¬ result.2.store.HasNothingOf ⟨1⟩ := by
  intro before result
  have leaving := guild_delete_evicts before [("id", .str "1")] ⟨1⟩ rfl rfl
  have known : before.store.Names .channel ⟨1⟩ ⟨5⟩ := ⟨_, rfl, rfl⟩
  have unlisted : (⟨5⟩ : Snowflake) ∉ before.store.listed ⟨1⟩ "channel_ids" := by decide +kernel
  let channel : Record :=
    ⟨.channel, .global ⟨5⟩, [("guild_id", .str "1"), ("id", .str "5")]⟩
  have stays : result.2.store.get .channel ⟨5⟩ = some channel := by decide +kernel
  refine ⟨leaving.1, ⟨channel, stays, rfl⟩, ?_⟩
  intro nothing
  have listed := leaving.2.2.2.2.mp nothing (.channel, "channel_ids") (by decide)
  exact unlisted (listed ⟨5⟩ known)

end Cache

end GatewayCache
