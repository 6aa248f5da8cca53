import GatewayCache.Proofs.Cache.Leaving
import GatewayCache.Proofs.Cache.Readiness
import GatewayCache.Proofs.Processing.Turn

/-! # Chunks of members

Chunks are not counted. The gate of a guild that is waited for opens with the first
chunk that is the last by its own numbers, whichever of the others have come.
-/

namespace GatewayCache.Cache

theorem applyAll_sound {cache : Cache} (sound : cache.gates.Sound) (dispatches : List Dispatch) :
    (cache.applyAll dispatches).gates.Sound := by
  induction dispatches generalizing cache with
  | nil => exact sound
  | cons dispatch rest ih => exact ih (apply_sound sound dispatch)

theorem applyAll_config (cache : Cache) (dispatches : List Dispatch) :
    (cache.applyAll dispatches).config = cache.config := by
  induction dispatches generalizing cache with
  | nil => rfl
  | cons dispatch rest ih => exact (ih (cache.apply dispatch).2).trans (apply_config cache dispatch)

/-- Where nothing but chunks can end the wait for a guild, its gate stays registered, and opens with the
first last chunk. -/
theorem state_of_chunks {cache : Cache} (fetching : cache.config.fetchMembers)
    (sound : cache.gates.Sound) {guild : Snowflake} {handle : Handle}
    (registered : cache.gates.get? guild = some handle) (run : List Dispatch)
    (alone : ∀ turn ∈ cache.turns run, turn.filled ≠ some guild ∧ turn.left ≠ some guild) :
    (cache.applyAll run).gates.get? guild = some handle ∧
      (cache.applyAll run).gates.state handle =
        if cache.gates.state handle = .pending ∧ ∃ turn ∈ cache.turns run, turn.chunked = some guild
        then .ready else cache.gates.state handle := by
  induction run generalizing cache with
  | nil => simpa [turns, applyAll] using registered
  | cons dispatch rest ih =>
    obtain ⟨owner, outcome, moves⟩ := apply_moves fetching dispatch
    obtain ⟨unfilled, stays⟩ := alone (cache.turn dispatch) (by simp [turns])
    have now := moves.state sound registered
    have here := moves.registered sound registered stays
    have goes : (cache.apply dispatch).2.config.fetchMembers := by rwa [apply_config]
    obtain ⟨still, later⟩ := ih goes (apply_sound sound dispatch) here
      fun turn member => alone turn (by simp [turns, member])
    refine ⟨still, later.trans ?_⟩
    have verdict : (cache.turn dispatch).verdict guild =
        if (cache.turn dispatch).chunked = some guild then .ready else .pending := by
      simp [Turn.verdict, Turn.Completes, unfilled, stays]
    rw [now, verdict]
    by_cases waiting : cache.gates.state handle = .pending
    · by_cases last : (cache.turn dispatch).chunked = some guild
      · simp [waiting, last, turns]
      · simp [waiting, last, turns]
    · simp [waiting]

/-- While the members of a guild are waited for, and it is neither left nor created with all of them
stored, its gate opens if and only if some chunk is stored that is the last by its own numbers. No
other chunk is needed for that. -/
theorem readiness_of_chunks (config : Config) (store : Store) (before run : List Dispatch)
    (guild : Snowflake) (fetching : config.fetchMembers)
    (waiting : ((ofStore config store).applyAll before).readiness guild = .pending)
    (alone : ∀ turn ∈ ((ofStore config store).applyAll before).turns run,
      turn.filled ≠ some guild ∧ turn.left ≠ some guild) :
    (((ofStore config store).applyAll before).applyAll run).readiness guild =
      if ∃ turn ∈ ((ofStore config store).applyAll before).turns run, turn.chunked = some guild
      then .ready else .pending := by
  have sound : ((ofStore config store).applyAll before).gates.Sound :=
    applyAll_sound Gates.sound_empty before
  have fetches : ((ofStore config store).applyAll before).config.fetchMembers := by
    rwa [applyAll_config]
  generalize (ofStore config store).applyAll before = cache at *
  cases found : cache.gates.get? guild with
  | none => simp [readiness, Gates.stateOf?, found] at waiting
  | some handle =>
    have pending : cache.gates.state handle = .pending := by
      simpa [readiness, Gates.stateOf?, found] using waiting
    obtain ⟨registered, state⟩ := state_of_chunks fetches sound found run alone
    simp only [pending, true_and] at state
    simpa [readiness, Gates.stateOf?, registered] using state

/-- Of two chunks only the second has come, and two of three members are missing. -/
theorem readiness_of_second_chunk :
    let start := (ofStore { fetchMembers := true } .empty).applyAll
      [⟨"GUILD_CREATE", .obj [("id", .str "1"), ("member_count", .num (.unsigned 3))]⟩]
    let chunk : Dispatch := ⟨"GUILD_MEMBERS_CHUNK", .obj
      [("chunk_count", .num (.unsigned 2)), ("chunk_index", .num (.unsigned 1)),
       ("guild_id", .str "1"),
       ("members", .arr [.obj [("user", .obj [("id", .str "12")])]])]⟩
    start.readiness ⟨1⟩ = .pending ∧ (start.applyAll [chunk]).readiness ⟨1⟩ = .ready ∧
      (start.applyAll [chunk]).isComplete ⟨1⟩ = false := by
  intro start chunk
  have waiting : start.readiness ⟨1⟩ = .pending := by decide +kernel
  have alone : ∀ turn ∈ start.turns [chunk], turn.filled ≠ some ⟨1⟩ ∧ turn.left ≠ some ⟨1⟩ := by
    decide +kernel
  have last : ∃ turn ∈ start.turns [chunk], turn.chunked = some ⟨1⟩ := by decide +kernel
  have opened := readiness_of_chunks { fetchMembers := true } .empty
    [⟨"GUILD_CREATE", .obj [("id", .str "1"), ("member_count", .num (.unsigned 3))]⟩] [chunk] ⟨1⟩
    rfl waiting alone
  rw [if_pos last] at opened
  exact ⟨waiting, opened, by decide +kernel⟩

end GatewayCache.Cache
