import GatewayCache.Fetch.Calls
import GatewayCache.Proofs.Intake
import GatewayCache.Proofs.Split.Owners
import GatewayCache.Proofs.Split.Parts
import GatewayCache.Proofs.Store.Flat

/-! # Fetching reads through the store

What is stored is not asked for. What is not is asked for once: it is stored afterwards
where its kind is stored at all, under a key that finds it, or else nothing has happened
to the store.
-/

namespace GatewayCache

namespace Store

variable {store : Store} {kind : Kind} {key place : Key} {owner id : Snowflake} {record : Record}

theorem mem_scopes_keys {fields : Fields}
    (found : store.fieldsAt kind (.scoped owner id) = some fields) : owner ∈ store.scopes.keys :=
  Std.ExtTreeMap.mem_keys.mpr (Represents.mem_scopes (mem_iff_getElem?.mpr ⟨fields, found⟩))

theorem get_eq_none (inGuild : kind.isScoped) :
    store.get kind id = none ↔ ∀ guild, store.fieldsAt kind (.scoped guild id) = none := by
  simp only [get, inGuild, if_true, List.findSome?_eq_none_iff, getScoped, recordAt,
    Option.map_eq_none_iff]
  refine ⟨fun absent guild => ?_, fun absent guild _ => absent guild⟩
  cases found : store.fieldsAt kind (.scoped guild id) with
  | none => rfl
  | some fields => exact found ▸ absent guild (mem_scopes_keys found)

theorem get_of_only (inGuild : kind.isScoped)
    (found : store.recordAt kind (.scoped owner id) = some record)
    (only : ∀ guild, guild ≠ owner → store.fieldsAt kind (.scoped guild id) = none) :
    store.get kind id = some record := by
  cases first : store.get kind id with
  | none => simp [recordAt, (get_eq_none inGuild).mp first owner] at found
  | some other =>
    rw [get, if_pos inGuild] at first
    obtain ⟨guild, -, here⟩ := List.exists_of_findSome?_eq_some first
    rw [getScoped, if_pos inGuild] at here
    by_cases own : guild = owner
    · rw [← here, own, found]
    · simp [recordAt, only guild own] at here

variable {config : Config} {around : Option Snowflake} {payload : Json} {split : Split}

/-- A key of the id of an address, and of no other guild, stands for that address, unless it leaves open
the guild that the kind lives in. -/
theorem address?_of_agrees (fit : address? kind place = some place) (same : place.id = key.id)
    (within : kind.isScoped → ∀ guild ∈ key.guild?, place.guild? = some guild) :
    address? kind key = some place ∨
      kind.isScoped ∧ address? kind key = none ∧ ∃ owner, place = .scoped owner key.id := by
  cases inGuild : kind.isScoped <;> cases key <;> cases place <;>
    simp_all [address?, Key.id, Key.guild?]

theorem fieldsAt_place_of_ne (apart : Split.ofJson kind around payload = .ok split)
    (plain : kind ≠ .message) (elsewhere : split.root.key ≠ place) :
    (store.place config split).2.fieldsAt kind place = store.fieldsAt kind place := by
  obtain ⟨fields, rfl, whole⟩ := Split.obj_of_ofJson apart
  have part : (Part.mk kind ⟨around, none⟩ fields).split = .ok split := whole
  rw [place_snd]
  refine fieldsAt_writeAll_of_untouched fun record member _ same => ?_
  obtain ⟨sameKind, samePlace⟩ := Prod.mk.inj same
  rcases Split.mem_records.mp member with embedded | rfl
  · exact Part.kind_ne_of_embedded plain part embedded sameKind
  · exact elsewhere samePlace

theorem getKey_place (apart : Split.ofJson kind around payload = .ok split)
    (stored : config.stores kind) (same : split.root.id = key.id)
    (within : kind.isScoped → ∀ guild ∈ key.guild?, split.root.key.guild? = some guild)
    (absent : store.getKey kind key = none) :
    (store.place config split).2.getKey kind key = some (store.place config split).1.after := by
  have rootKind := Split.ofJson_root_kind apart
  have fit : address? kind split.root.key = some split.root.key := by
    obtain ⟨fields, rfl, whole⟩ := Split.obj_of_ofJson apart
    exact Split.ofFields_address whole
  have left := place_after_eq config store split
  rw [rootKind, if_pos stored] at left
  rcases address?_of_agrees fit same within with named | ⟨inGuild, unnamed, owner, place⟩
  · simp only [getKey, named]
    exact left.symm
  · simp only [getKey, unnamed] at absent ⊢
    rw [place] at left
    refine get_of_only inGuild left.symm fun guild other => ?_
    have elsewhere : split.root.key ≠ .scoped guild key.id := by
      rw [place]
      rintro ⟨⟩
      exact other rfl
    have plain : kind ≠ .message := by
      rintro rfl
      cases inGuild
    rw [fieldsAt_place_of_ne apart plain elsewhere]
    exact (get_eq_none inGuild).mp absent guild

end Store

namespace Reference

variable {σ : Type} {origin : Origin σ} {config : Config} {reference : Reference} {store : Store}

theorem Fits.root {payload : Json} {split : Split} (fits : reference.Fits payload)
    (apart : Split.ofJson reference.kind reference.key.guild? payload = .ok split) :
    split.root.id = reference.key.id ∧
      (reference.kind.isScoped → ∀ guild ∈ reference.key.guild?, split.root.key.guild? = some guild) := by
  obtain ⟨fields, rfl, identified⟩ := fits.identified
  have whole : Split.ofFields reference.kind reference.key.guild? fields = .ok split := apart
  refine ⟨Except.ok.inj ((Split.ofFields_root whole).2.symm.trans identified), fun inGuild guild named => ?_⟩
  rw [Split.root_guild? inGuild whole]
  cases told : fields.relationId "guild_id" with
  | none => exact named
  | some other => rw [fits.within fields rfl guild named other told, Option.some_or]

theorem placeFetched_eq (config : Config) (store : Store) (reference : Reference) (payload : Json) :
    store.placeFetched config reference payload =
      match Split.ofJson reference.kind reference.key.guild? payload with
      | .error cause => (.error (.unplaceable reference.kind cause), store)
      | .ok split => (.record (store.place config split).1.after, (store.place config split).2) := by
  rw [Store.placeFetched, Intake.place_on]
  cases Split.ofJson reference.kind reference.key.guild? payload <;> rfl

theorem fetch_of_stored {record : Record} (found : reference.find? store = some record)
    (origin : Origin σ) (config : Config) (state : σ) :
    reference.fetch origin config store state = (.record record, store, state) := by
  rw [fetch, found]

/-- What is not stored is asked for once, whatever comes of it. -/
theorem calls_of_missing (absent : reference.find? store = none) (origin : Origin σ)
    (config : Config) (state : σ × List Reference) :
    (reference.fetch origin.noting config store state).2.2.2 = state.2.concat reference := by
  rw [fetch, absent, Origin.noting]
  cases origin reference state.1 with
  | mk reply => cases reply <;> rfl

theorem fetch_of_missing (absent : reference.find? store = none) (answers : origin.Answers)
    (config : Config) (state : σ) :
    ∃ fetched after left, reference.fetch origin config store state = (fetched, after, left) ∧
      ((∃ error, fetched = .error error ∧ after = store) ∨
        ∃ payload split, (origin reference state).1 = .payload payload ∧
          Split.ofJson reference.kind reference.key.guild? payload = .ok split ∧
          fetched = .record (store.place config split).1.after ∧
          after = (store.place config split).2) := by
  have answered := answers reference state
  cases answer : origin reference state with
  | mk reply left =>
    rw [answer] at answered
    simp only [fetch, absent, answer]
    cases reply with
    | payload value =>
      refine ⟨_, _, left, rfl, ?_⟩
      rw [placeFetched_eq]
      cases apart : Split.ofJson reference.kind reference.key.guild? value with
      | error cause => exact .inl ⟨_, rfl, rfl⟩
      | ok split => exact .inr ⟨value, split, rfl, apart, rfl, rfl⟩
    | missing | failure => exact ⟨_, _, left, rfl, .inl ⟨_, rfl, rfl⟩⟩
    | hanging => exact absurd rfl answered

/-- A stored record is fetched without a call. Any other fetch makes one call, and it fails, which
leaves the store alone so that the next one calls again, or it gives a record. Such a record is
found from then on, and fetched without a call, if its kind is stored and the payload fits. -/
theorem fetch_reads_through (answers : origin.Answers) (config : Config) (reference : Reference)
    (store : Store) (state : σ) (calls : List Reference) :
    (∀ record, reference.find? store = some record →
      reference.fetch origin.noting config store (state, calls) =
        (.record record, store, state, calls)) ∧
    (reference.find? store = none → ∃ left,
      (∃ error,
        reference.fetch origin.noting config store (state, calls) =
          (.error error, store, left, calls.concat reference) ∧
        ∀ later, (reference.fetch origin.noting config store later).2.2.2 =
          later.2.concat reference) ∨
      ∃ record after,
        reference.fetch origin.noting config store (state, calls) =
          (.record record, after, left, calls.concat reference) ∧
        (config.stores reference.kind →
          (∀ payload, (origin reference state).1 = .payload payload → reference.Fits payload) →
          reference.find? after = some record ∧
            ∀ later, reference.fetch origin.noting config after later =
              (.record record, after, later))) := by
  refine ⟨fun record found => fetch_of_stored found _ config _, fun absent => ?_⟩
  have noted : origin.noting.Answers := fun reference state => answers reference state.1
  obtain ⟨fetched, after, ⟨left, asked⟩, came, outcome⟩ :=
    fetch_of_missing absent noted config (state, calls)
  obtain rfl : asked = calls.concat reference :=
    (congrArg (·.2.2.2) came).symm.trans (calls_of_missing absent origin config (state, calls))
  refine ⟨left, ?_⟩
  rcases outcome with ⟨error, rfl, rfl⟩ | ⟨payload, split, answer, apart, rfl, rfl⟩
  · exact .inl ⟨error, came, calls_of_missing absent origin config⟩
  · refine .inr ⟨_, _, came, fun stored fitting => ?_⟩
    obtain ⟨id, within⟩ := (fitting payload answer).root apart
    have found := Store.getKey_place apart stored id within absent
    exact ⟨found, fetch_of_stored found _ config⟩

/-- A member is asked for by its id alone. The origin does not know it the first time, and the second
time brings it with its user, from a guild that was not asked for. -/
theorem fetch_reads_through_member :
    let origin : Origin Nat := fun _ asked =>
      (if asked = 0 then .missing else .payload (.obj
        [("guild_id", .str "1"), ("user", .obj [("id", .str "5")])]), asked + 1)
    let reference : Reference := ⟨.member, .global ⟨5⟩⟩
    (∃ error left, reference.fetch origin.noting {} .empty (0, []) =
      (.error error, .empty, left, [reference])) ∧
    ∃ record after left,
      reference.fetch origin.noting {} .empty (1, [reference]) =
        (.record record, after, left, [reference, reference]) ∧
      reference.find? after = some record ∧ record.key = .scoped ⟨1⟩ ⟨5⟩ ∧
      ∀ later, reference.fetch origin.noting {} after later = (.record record, after, later) := by
  intro origin reference
  have answers : origin.Answers := by
    intro _ asked
    simp only [origin]
    split <;> simp
  have fits : ∀ payload, (origin reference 1).1 = .payload payload → reference.Fits payload := by
    rintro payload ⟨⟩
    exact ⟨⟨_, rfl, by decide⟩, nofun⟩
  refine ⟨⟨_, _, rfl⟩, ?_⟩
  have through := fetch_reads_through answers {} reference .empty
  obtain ⟨left, ⟨error, failed, -⟩ | ⟨record, after, came, reads⟩⟩ := (through 1 [reference]).2 rfl
  · have brought : (reference.fetch origin.noting {} .empty (1, [reference])).1 ≠ .error error := by
      rintro ⟨⟩
    exact absurd (congrArg Prod.fst failed) brought
  · obtain ⟨found, again⟩ := reads (by decide) fits
    refine ⟨record, after, left, came, found, ?_, again⟩
    have brought := congrArg Prod.fst came
    rw [← Fetched.record.inj brought]
    rfl

end Reference

end GatewayCache
