import Mathlib.Data.List.Lattice
import Mathlib.Data.List.Perm.Basic
import GatewayCache.Proofs.Cache.Isolation
import GatewayCache.Proofs.Cache.Lifecycle
import GatewayCache.Proofs.Intake.Order
import GatewayCache.Proofs.Processing.Telling

/-! # The order of chunks

A chunk of members writes what its members are taken apart into, whatever the cache
holds, and opens a gate if it is the last one by its own numbers. So chunks whose
members share no place leave the same cache behind in whatever order they come.
-/

namespace GatewayCache

namespace Update

theorem splitAll_of_identified {kind : Kind} (guild : Snowflake) {items : List Json}
    (identified : ∀ item ∈ items, ∃ payload id, item = .obj payload ∧ kind.identify payload = .ok id) :
    ∃ splits, splitAll kind guild items = .ok splits ∧
      splits.flatMap Split.records =
        (items.map (⟨kind, some guild, ·⟩ : Json → Parcel)).flatMap Parcel.records := by
  induction items with
  | nil => exact ⟨[], rfl, rfl⟩
  | cons item rest ih =>
    obtain ⟨splits, taken, records⟩ := ih fun other member => identified other (by simp [member])
    obtain ⟨payload, id, rfl, known⟩ := identified item (by simp)
    rcases Split.ofFields_within kind guild payload with
      ⟨_, split, -, apart⟩ | ⟨error, unknown, -⟩
    · have all : splitAll kind guild (.obj payload :: rest) = .ok (split :: splits) := by
        simp only [splitAll, Split.ofJson, apart, taken, bind, Except.bind]
      have first : (Parcel.mk kind (some guild) (.obj payload)).records = split.records := by
        simp [Parcel.records, Split.ofJson, apart, Except.toOption]
      exact ⟨split :: splits, all, by
        rw [List.flatMap_cons, List.map_cons, List.flatMap_cons, first, records]⟩
    · rw [known] at unknown
      cases unknown

theorem readMembersChunk_eq {fields : Fields} {guild : Snowflake} {items : List Json}
    {splits : List Split} (owner : fields.relationId "guild_id" = some guild)
    (listed : fields.get? "members" = some (.arr items))
    (taken : splitAll .member guild items = .ok splits) :
    readMembersChunk fields =
      let index := (fields.unsigned? "chunk_index").getD 0
      let count := (fields.unsigned? "chunk_count").getD 1
      if count ≤ index then .error (.malformed .guildMembersChunk (.chunkOutOfRange index count))
      else .ok (.membersListed guild splits (index.toNat + 1 = count.toNat)) := by
  simp [readMembersChunk, requireId_of_relationId _ owner, splitList, listed, Json.items?, taken, bind,
    Except.bind]

end Update

namespace Dispatch

variable {chunk : Dispatch} {guild : Snowflake}

theorem ListsMembers.content (lists : chunk.ListsMembers guild) :
    ∃ (fields : Fields) (items : List Json), chunk = ⟨"GUILD_MEMBERS_CHUNK", .obj fields⟩ ∧
      fields.relationId "guild_id" = some guild ∧ fields.get? "members" = some (.arr items) ∧
      chunk.entities = items ∧
      ∀ item ∈ items, ∃ payload id, item = .obj payload ∧ Kind.member.identify payload = .ok id := by
  obtain ⟨name, addressed, items, listed, identified⟩ := lists
  obtain ⟨kind, fields, field, rfl, addresses, owner⟩ := Cache.addressee?_eq_some addressed
  obtain rfl : kind = .guildMembersChunk := by
    by_contra apart
    exact UpdateKind.name_ne apart name
  obtain rfl : "guild_id" = field := Option.some.inj addresses
  have found : fields.get? "members" = some (.arr items) := by
    simpa [Json.get?, Json.fields?] using listed
  have members : Dispatch.entities ⟨"GUILD_MEMBERS_CHUNK", .obj fields⟩ = items := by
    have known : UpdateKind.ofName? "GUILD_MEMBERS_CHUNK" = some .guildMembersChunk := by decide
    simp [entities, known, UpdateKind.entityField?, Json.get?, Json.fields?, found]
  exact ⟨fields, items, rfl, owner, found, members, identified⟩

/-- A chunk is refused for its numbers alone, and the last chunk never is. -/
theorem ListsMembers.read (lists : chunk.ListsMembers guild) :
    ∃ splits, splits.flatMap Split.records = (chunk.members guild).flatMap Parcel.records ∧
      if chunk.isRefused then
        chunk.lastChunk? ≠ some guild ∧
          ∃ error, Update.read .guildMembersChunk chunk.data = .error error
      else
        Update.read .guildMembersChunk chunk.data =
          .ok (.membersListed guild splits (chunk.lastChunk? = some guild)) := by
  obtain ⟨fields, items, rfl, owner, listed, entities, identified⟩ := lists.content
  obtain ⟨splits, taken, records⟩ := Update.splitAll_of_identified guild identified
  refine ⟨splits, by rw [records, members, entities], ?_⟩
  have known : UpdateKind.ofName? "GUILD_MEMBERS_CHUNK" = some .guildMembersChunk := by decide
  have reads : Update.read .guildMembersChunk (.obj fields) = _ :=
    Update.readMembersChunk_eq owner listed taken
  have last : (⟨"GUILD_MEMBERS_CHUNK", .obj fields⟩ : Dispatch).lastChunk? =
      if ((fields.unsigned? "chunk_index").getD 0).toNat + 1 =
          ((fields.unsigned? "chunk_count").getD 1).toNat then some guild else none := by
    simp [lastChunk?, fieldsAs?, UpdateKind.name, Json.fields?, owner]
  rw [isRefused, known, Option.any_some, reads, last]
  generalize (fields.unsigned? "chunk_index").getD 0 = index
  generalize (fields.unsigned? "chunk_count").getD 1 = count
  by_cases outside : count ≤ index
  · have notLast : ¬ index.toNat + 1 = count.toNat := by
      rw [UInt64.le_iff_toNat_le] at outside
      omega
    simp [outside, notLast, Except.isOk, Except.toBool]
  · simp [outside, Except.isOk, Except.toBool]

end Dispatch

namespace Cache

variable {cache : Cache} {chunk other : Dispatch} {guild : Snowflake}

theorem apply_chunk (lists : chunk.ListsMembers guild) (cache : Cache) :
    (cache.apply chunk).2 =
      if chunk.isRefused then
        { cache with stats := { cache.stats with failed := cache.stats.failed + 1 } }
      else
        { cache with
          store := cache.store.writeAll cache.config ((chunk.members guild).flatMap Parcel.records)
          gates :=
            if chunk.lastChunk? = some guild then (cache.gates.signalGuild guild).2
            else cache.gates
          stats := { cache.stats with processed := cache.stats.processed + 1 } } := by
  obtain ⟨splits, records, reads⟩ := lists.read
  have known : UpdateKind.ofName? chunk.name = some .guildMembersChunk := by rw [lists.name]; decide
  cases refused : chunk.isRefused with
  | true =>
    rw [refused, if_pos rfl] at reads
    obtain ⟨-, error, reads⟩ := reads
    simp [apply_eq, known, reads]
  | false =>
    rw [refused, if_neg Bool.false_ne_true] at reads
    by_cases last : chunk.lastChunk? = some guild <;>
      simp [apply_eq, known, reads, last, perform, membersListed, Store.placeAll_snd, records,
        Stats.counting]

theorem apply_apply_comm (lists : chunk.ListsMembers guild) (listsToo : other.ListsMembers guild)
    (apart : (chunk.memberPlaces cache.config guild).Disjoint
      (other.memberPlaces cache.config guild)) :
    ((cache.apply chunk).2.apply other).2 = ((cache.apply other).2.apply chunk).2 := by
  simp only [apply_chunk lists, apply_chunk listsToo]
  simp only [Dispatch.memberPlaces] at apart
  cases refused : chunk.isRefused with
  | true => cases other.isRefused <;> simp
  | false =>
    cases refusedToo : other.isRefused with
    | true => simp
    | false =>
      simp only [refused, refusedToo, Bool.false_eq_true, if_false] at apart
      have swap := Store.writeAll_comm apart cache.store
      -- The counts and the gate do not tell the order either: the gate is the same one.
      by_cases last : chunk.lastChunk? = some guild <;>
        by_cases lastToo : other.lastChunk? = some guild <;> simp [swap, last, lastToo]

/-- Chunks of a guild whose members share no place leave the same cache behind in every order. -/
theorem applyAll_perm {config : Config} {chunks reordered : List Dispatch}
    (set : cache.config = config) (lists : ∀ chunk ∈ chunks, chunk.ListsMembers guild)
    (apart : chunks.Pairwise fun chunk other =>
      (chunk.memberPlaces config guild).Disjoint (other.memberPlaces config guild))
    (reorders : chunks.Perm reordered) : cache.applyAll reordered = cache.applyAll chunks := by
  induction reorders generalizing cache with
  | nil => rfl
  | cons chunk _ ih =>
    have still : (cache.apply chunk).2.config = config := by rw [apply_config, set]
    exact ih still (fun other member => lists other (by simp [member])) (List.pairwise_cons.mp apart).2
  | swap first second rest =>
    have differ := (List.pairwise_cons.mp apart).1 first (by simp)
    rw [← set] at differ
    have swapped := apply_apply_comm (lists second (by simp)) (lists first (by simp)) differ
    simp only [applyAll, List.foldl_cons, swapped]
  | trans reorder _ first second =>
    have listsToo := fun chunk member => lists chunk (reorder.mem_iff.mpr member)
    have apartToo := (reorder.pairwise_iff List.Disjoint.symm).mp apart
    rw [second set listsToo apartToo, first set lists apart]

theorem left?_of_listsMembers (lists : chunk.ListsMembers guild) : chunk.left? = none := by
  simp [Dispatch.left?, Dispatch.fieldsAs?, lists.name, UpdateKind.name]

theorem not_refused_of_last (lists : chunk.ListsMembers guild)
    (last : chunk.lastChunk? = some guild) : chunk.isRefused = false := by
  obtain ⟨splits, -, reads⟩ := lists.read
  cases refused : chunk.isRefused with
  | false => rfl
  | true =>
    rw [refused, if_pos rfl] at reads
    exact absurd last reads.1

theorem readiness_of_last (sound : cache.gates.Sound) {handle : Handle}
    (registered : cache.gates.get? guild = some handle) (lists : chunk.ListsMembers guild)
    (last : chunk.lastChunk? = some guild) : (cache.apply chunk).2.readiness guild = .ready := by
  have accepted := not_refused_of_last lists last
  have gates : (cache.apply chunk).2.gates = (cache.gates.signalGuild guild).2 := by
    simp [apply_chunk lists, accepted, last]
  have stays : (cache.apply chunk).2.gates.get? guild = some handle := by
    rw [gates, Gates.get?_signalGuild, registered]
  have opens := (Gates.step_signalGuild cache.gates guild).here handle registered
  obtain ⟨state, made, notClosed⟩ := sound.registered guild handle registered
  have opened : (cache.apply chunk).2.gates.state handle = .ready := by
    rw [gates, opens, Gates.state_of_gate? made]
    cases state with
    | pending | ready => rfl
    | closed => exact absurd rfl notClosed
  rw [readiness, Gates.stateOf?, stays, Option.map_some, Option.getD_some, opened]

theorem readiness_of_chunk {config : Config} {chunks : List Dispatch} (set : cache.config = config)
    (sound : cache.gates.Sound) (registered : (cache.gates.get? guild).isSome)
    (lists : ∀ chunk ∈ chunks, chunk.ListsMembers guild)
    (apart : chunks.Pairwise fun chunk other =>
      (chunk.memberPlaces config guild).Disjoint (other.memberPlaces config guild))
    (here : chunk ∈ chunks) (last : chunk.lastChunk? = some guild) :
    (cache.applyAll chunks).readiness guild = .ready := by
  obtain ⟨handle, registered⟩ := Option.isSome_iff_exists.mp registered
  -- In any order the cache is the same, so the last chunk may as well be the last to come.
  have final : chunks.Perm (chunks.erase chunk ++ [chunk]) :=
    (List.perm_cons_erase here).trans (List.perm_append_singleton chunk _).symm
  have others : ∀ other ∈ chunks.erase chunk, other.left? ≠ some guild := by
    intro other member
    simp [left?_of_listsMembers (lists other (List.mem_of_mem_erase member))]
  rw [← applyAll_perm set lists apart final, applyAll_concat]
  exact readiness_of_last (applyAll_sound sound _) (applyAll_keeps_gate registered others)
    (lists chunk here) last

/-- Two parcels that share no place can be taken in in either order, and neither the store nor what is
told of either of them shows which came first. So chunks of one guild whose members share no place leave
the same cache behind in every order, with the gate of the guild open if it has one and the last chunk is
among them. -/
theorem apart_in_any_order (config : Config) (store : Store) :
    (∀ (first second : Parcel) (change other : Change),
      ((first.takeIn config).on store).1 = .ok change →
      ((second.takeIn config).on store).1 = .ok other →
      (first.places config).Disjoint (second.places config) →
      ∃ afterFirst afterSecond final,
        (first.takeIn config).on store = (.ok change, afterFirst) ∧
        (second.takeIn config).on afterFirst = (.ok other, final) ∧
        (second.takeIn config).on store = (.ok other, afterSecond) ∧
        (first.takeIn config).on afterSecond = (.ok change, final)) ∧
    ∀ (before : List Dispatch) (guild : Snowflake) (chunks reordered : List Dispatch),
      let cache := (ofStore config store).applyAll before
      (∀ chunk ∈ chunks, chunk.ListsMembers guild) →
      (chunks.Pairwise fun chunk other =>
        (chunk.memberPlaces config guild).Disjoint (other.memberPlaces config guild)) →
      chunks.Perm reordered →
      cache.applyAll reordered = cache.applyAll chunks ∧
        ((∃ chunk ∈ chunks, chunk.lastChunk? = some guild) → (cache.gates.get? guild).isSome →
          (cache.applyAll reordered).readiness guild = .ready) := by
  constructor
  · intro first second change other taken takenToo apart
    obtain ⟨split, -, told, takes⟩ := Parcel.takeIn_ok taken
    obtain ⟨splitToo, -, toldToo, takesToo⟩ := Parcel.takeIn_ok takenToo
    have here := takes store
    have there := takesToo store
    rw [told] at here
    rw [toldToo] at there
    have later := Parcel.takeIn_after taken (List.Disjoint.symm apart)
    rw [Store.writeAll_comm (List.Disjoint.symm apart)] at later
    exact ⟨_, _, _, here, Parcel.takeIn_after takenToo apart, there, later⟩
  · intro before guild chunks reordered cache lists apart reorders
    have set : cache.config = config := applyAll_config _ before
    have sound : cache.gates.Sound := applyAll_sound Gates.sound_empty before
    have same := applyAll_perm set lists apart reorders
    constructor
    · exact same
    · rintro ⟨chunk, here, last⟩ registered
      rw [same]
      exact readiness_of_chunk set sound registered lists apart here last

/-- The last chunk of a guild comes before the first. -/
theorem last_chunk_first :
    let config : Config := { fetchMembers := true }
    let member (id : String) : Json := .obj [("user", .obj [("id", .str id)])]
    let parcel (id : String) : Parcel := ⟨.member, some ⟨1⟩, member id⟩
    let chunk (index : UInt64) (id : String) : Dispatch := ⟨"GUILD_MEMBERS_CHUNK", .obj
      [("chunk_count", .num (.unsigned 2)), ("chunk_index", .num (.unsigned index)),
       ("guild_id", .str "1"), ("members", .arr [member id])]⟩
    let create : Dispatch :=
      ⟨"GUILD_CREATE", .obj [("id", .str "1"), ("member_count", .num (.unsigned 3))]⟩
    let cache := (ofStore config .empty).applyAll [create]
    (((parcel "13").takeIn config).on (((parcel "12").takeIn config).on .empty).2).2 =
        (((parcel "12").takeIn config).on (((parcel "13").takeIn config).on .empty).2).2 ∧
      cache.applyAll [chunk 1 "13", chunk 0 "12"] = cache.applyAll [chunk 0 "12", chunk 1 "13"] ∧
      cache.readiness ⟨1⟩ = .pending ∧
      (cache.applyAll [chunk 1 "13", chunk 0 "12"]).readiness ⟨1⟩ = .ready := by
  intro config member parcel chunk create cache
  obtain ⟨parcels, chunks⟩ := apart_in_any_order config .empty
  have apart : ∀ place ∈ (parcel "12").places config, place ∉ (parcel "13").places config := by
    decide +kernel
  obtain ⟨afterFirst, afterSecond, final, first, second, firstToo, secondToo⟩ :=
    parcels (parcel "12") (parcel "13") _ _ rfl rfl fun place => apart place
  have lists (index : UInt64) (id : String) (number : Snowflake)
      (known : Kind.member.identify [("user", .obj [("id", .str id)])] = .ok number) :
      (chunk index id).ListsMembers ⟨1⟩ := by
    refine ⟨rfl, rfl, [member id], rfl, ?_⟩
    simp only [List.mem_singleton, forall_eq]
    exact ⟨_, _, rfl, known⟩
  have all : ∀ one ∈ [chunk 0 "12", chunk 1 "13"], one.ListsMembers ⟨1⟩ := by
    simp only [List.mem_cons, List.not_mem_nil, or_false, forall_eq_or_imp, forall_eq]
    exact ⟨lists 0 "12" ⟨12⟩ (by decide +kernel), lists 1 "13" ⟨13⟩ (by decide +kernel)⟩
  have differ : ∀ place ∈ (chunk 0 "12").memberPlaces config ⟨1⟩,
      place ∉ (chunk 1 "13").memberPlaces config ⟨1⟩ := by
    decide +kernel
  obtain ⟨same, ready⟩ := chunks [create] ⟨1⟩ _ [chunk 1 "13", chunk 0 "12"] all
    (List.pairwise_pair.mpr fun place => differ place) (.swap ..)
  have last : (chunk 1 "13").lastChunk? = some ⟨1⟩ := by decide +kernel
  have opens := ready ⟨chunk 1 "13", by simp, last⟩ (by decide +kernel)
  refine ⟨?_, same, by decide +kernel, opens⟩
  rw [first, second, firstToo, secondToo]

end Cache

end GatewayCache
