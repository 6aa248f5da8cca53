import GatewayCache.Proofs.Cache.Redelivery
import GatewayCache.Proofs.Gate.Register
import GatewayCache.Proofs.Update.Reading

/-! # Who is ready

An update opens the gate of the guild that it completes, closes that of the guild
that is left by it, and leaves all others alone. An event is held back just where a
gate is left pending.
-/

namespace GatewayCache.Cache

open Update

variable {cache : Cache} {owner : Option Snowflake} {kind : Kind} {id : Snowflake}

theorem linked_gates : (cache.linked owner kind id).gates = cache.gates := by
  unfold linked
  split <;> rfl

theorem unlinked_gates : (cache.unlinked owner kind id).gates = cache.gates := by
  unfold unlinked
  split <;> rfl

theorem unlinked_config : (cache.unlinked owner kind id).config = cache.config := by
  unfold unlinked
  split <;> rfl

theorem membersListed_gates (guild : Snowflake) (members : List Split) (last : Bool) :
    (cache.membersListed guild members last).1.gates =
      if last then (cache.gates.signalGuild guild).2 else cache.gates := by
  cases last <;> rfl

theorem perform_gates (cache : Cache) (update : Update) :
    (cache.perform update).1.gates =
      match update with
      | .guildAvailable guild => cache.gates.withGate guild.root.id (cache.isReady guild)
      | .guildPending guild => cache.gates.withGate guild.root.id (!cache.config.fetchMembers)
      | .guildLeft guild => cache.gates.remove guild
      | .membersListed guild _ last =>
        if last then (cache.gates.signalGuild guild).2 else cache.gates
      | _ => cache.gates := by
  cases update with
  | guildAvailable guild => exact guildAvailable_gates cache guild
  | guildPending guild => exact guildPending_gates cache guild
  | membersListed guild members last => exact membersListed_gates guild members last
  | roleAdded | roleChanged | added => exact linked_gates
  | removed => exact unlinked_gates
  | guildChanged | guildOutage | guildLeft | banAdded | banLifted | emojisReplaced
  | stickersReplaced | webhooksChanged | integrationAdded | integrationChanged
  | integrationRemoved | changed | voiceChanged => rfl

theorem perform_step (cache : Cache) (update : Update) :
    ∃ guild outcome, Gates.Step cache.gates (cache.perform update).1.gates guild outcome := by
  rw [perform_gates]
  cases update with
  | guildAvailable | guildPending => exact ⟨_, _, Gates.step_withGate ..⟩
  | guildLeft guild => exact ⟨_, _, Gates.step_remove ..⟩
  | membersListed guild members last =>
    cases last with
    | true => exact ⟨_, _, Gates.step_signalGuild ..⟩
    | false => exact ⟨guild, _, Gates.step_refl ..⟩
  | guildChanged | guildOutage | banAdded | banLifted | emojisReplaced | stickersReplaced
  | webhooksChanged | integrationAdded | integrationChanged | integrationRemoved | roleAdded
  | roleChanged | added | changed | removed | voiceChanged =>
    exact ⟨⟨0⟩, _, Gates.step_refl ..⟩

theorem perform_config (cache : Cache) (update : Update) :
    (cache.perform update).1.config = cache.config := by
  cases update with
  | guildAvailable guild => exact guildAvailable_config
  | membersListed guild members last => cases last <;> rfl
  | roleAdded | roleChanged | added => exact linked_config
  | removed => exact unlinked_config
  | guildPending | guildChanged | guildOutage | guildLeft | banAdded | banLifted | emojisReplaced
  | stickersReplaced | webhooksChanged | integrationAdded | integrationChanged
  | integrationRemoved | changed | voiceChanged => rfl

theorem apply_config (cache : Cache) (dispatch : Dispatch) :
    (cache.apply dispatch).2.config = cache.config := by
  rw [apply_eq]
  split
  · rfl
  · split
    · rfl
    · exact perform_config cache _

theorem apply_step (cache : Cache) (dispatch : Dispatch) :
    ∃ guild outcome, Gates.Step cache.gates (cache.apply dispatch).2.gates guild outcome := by
  rw [apply_eq]
  split
  · exact ⟨⟨0⟩, _, Gates.step_refl ..⟩
  · split
    · exact ⟨⟨0⟩, _, Gates.step_refl ..⟩
    · exact perform_step cache _

theorem apply_sound (sound : cache.gates.Sound) (dispatch : Dispatch) :
    (cache.apply dispatch).2.gates.Sound := by
  obtain ⟨guild, outcome, step⟩ := apply_step cache dispatch
  exact step.sound sound

theorem guild?_place {split : Split} (kind : split.root.kind = .guild)
    (key : split.root.key = .global split.root.id) (config : Config) (store : Store) :
    (store.place config split).2.guild? split.root.id = some (store.place config split).1.after := by
  have after := Store.place_after_eq config store split
  rw [kind] at after
  rw [Store.guild?, ← key, after]
  rfl

theorem isComplete_guildAvailable {split : Split} (kind : split.root.kind = .guild)
    (key : split.root.key = .global split.root.id) (cache : Cache) :
    (cache.guildAvailable split).1.isComplete split.root.id =
      hasAllMembers (cache.store.place cache.config split).2
        (cache.store.place cache.config split).1.after := by
  rw [isComplete, guildAvailable_store, guild?_place kind key, Option.any_some]

/-- What the gates of an update's own guild come to can be told from the update. -/
structure Moves (before after : Gates) (turn : Turn) (guild : Snowflake) (outcome : GateState) :
    Prop where
  /-- The step of the gates. -/
  step : Gates.Step before after guild outcome
  /-- The gate opens just where the guild is completed. -/
  completes : ∀ other, turn.Completes other ↔ other = guild ∧ outcome = .ready
  /-- The gate closes just where the guild is left. -/
  left : ∀ other, turn.left = some other ↔ other = guild ∧ outcome = .closed

/-- The gate of a guild that is waited for comes to what the turn says of the guild. -/
theorem Moves.state {before after : Gates} {turn : Turn} {owner guild : Snowflake}
    {outcome : GateState} {handle : Handle} (moves : Moves before after turn owner outcome)
    (sound : before.Sound) (registered : before.get? guild = some handle) :
    after.state handle =
      if before.state handle = .pending then turn.verdict guild else before.state handle := by
  by_cases own : guild = owner
  · subst own
    rw [moves.step.here handle registered]
    have ready := moves.completes guild
    have closed := moves.left guild
    simp only [true_and] at ready closed
    congr 1
    cases outcome <;> simp [Turn.verdict, ready, closed]
  · rw [(moves.step.elsewhere sound guild handle own registered).2]
    have quiet : turn.verdict guild = .pending := by
      simp [Turn.verdict, moves.completes, moves.left, own]
    rw [quiet]
    split <;> simp_all

theorem Moves.registered {before after : Gates} {turn : Turn} {owner guild : Snowflake}
    {outcome : GateState} {handle : Handle} (moves : Moves before after turn owner outcome)
    (sound : before.Sound) (registered : before.get? guild = some handle)
    (stays : turn.left ≠ some guild) : after.get? guild = some handle := by
  by_cases own : guild = owner
  · subst own
    refine moves.step.registered (fun closed => stays ?_) handle registered
    exact (moves.left guild).mpr ⟨rfl, closed⟩
  · exact (moves.step.elsewhere sound guild handle own registered).1

theorem Moves.refl (gates : Gates) {turn : Turn} (chunked : turn.chunked = none)
    (filled : turn.filled = none) (left : turn.left = none) :
    Moves gates gates turn ⟨0⟩ .pending where
  step := Gates.step_refl gates ⟨0⟩
  completes := by simp [Turn.Completes, chunked, filled]
  left := by simp [left]

/-- The part of a turn that is about gates, from the update that was performed. -/
def turnOf (after : Cache) (update : Update) : Turn where
  chunked := update.lastChunk?
  filled := update.available?.filter after.isComplete
  left := update.left?

theorem perform_moves (fetching : cache.config.fetchMembers) {kind : UpdateKind} {update : Update}
    (fits : update.Fits kind) :
    ∃ guild outcome, Moves cache.gates (cache.perform update).1.gates
      (turnOf (cache.perform update).1 update) guild outcome := by
  rw [perform_gates]
  cases update with
  | guildAvailable split =>
    obtain ⟨-, kind, key⟩ := fits
    have complete := isComplete_guildAvailable kind key cache
    have ready : cache.isReady split = (cache.guildAvailable split).1.isComplete split.root.id := by
      rw [complete, isReady, fetching]
      rfl
    refine ⟨_, _, Gates.step_withGate .., fun other => ?_, fun other => ?_⟩
    · rw [ready]
      cases finished : (cache.guildAvailable split).1.isComplete split.root.id <;>
        simp [turnOf, perform, Turn.Completes, lastChunk?, available?, Option.filter, finished,
          @eq_comm _ other]
    · split <;> simp [turnOf, left?]
  | guildPending split =>
    refine ⟨_, _, Gates.step_withGate .., fun other => ?_, fun other => ?_⟩
    · simp [turnOf, Turn.Completes, lastChunk?, available?, fetching]
    · simp [turnOf, left?, fetching]
  | guildLeft guild =>
    refine ⟨_, _, Gates.step_remove .., fun other => ?_, fun other => ?_⟩
    · simp [turnOf, Turn.Completes, lastChunk?, available?]
    · simp [turnOf, left?, eq_comm]
  | membersListed guild members last =>
    cases last with
    | true =>
      refine ⟨_, _, Gates.step_signalGuild .., fun other => ?_, fun other => ?_⟩
      · simp [turnOf, Turn.Completes, lastChunk?, available?, eq_comm]
      · simp [turnOf, left?]
    | false => exact ⟨_, _, .refl cache.gates rfl rfl rfl⟩
  | guildChanged | guildOutage | banAdded | banLifted | emojisReplaced | stickersReplaced
  | webhooksChanged | integrationAdded | integrationChanged | integrationRemoved | roleAdded
  | roleChanged | added | changed | removed | voiceChanged =>
    exact ⟨_, _, .refl cache.gates rfl rfl rfl⟩

theorem fieldsAs?_of_unknown {dispatch : Dispatch} (unknown : UpdateKind.ofName? dispatch.name = none)
    (kind : UpdateKind) : dispatch.fieldsAs? kind = none := by
  rw [Dispatch.fieldsAs?, if_neg]
  intro named
  rw [named, UpdateKind.ofName?_name] at unknown
  cases unknown

theorem apply_moves (fetching : cache.config.fetchMembers) (dispatch : Dispatch) :
    ∃ guild outcome, Moves cache.gates (cache.apply dispatch).2.gates (cache.turn dispatch)
      guild outcome := by
  cases known : UpdateKind.ofName? dispatch.name with
  | none =>
    have silent := fieldsAs?_of_unknown known
    simp only [turn, apply_eq, known]
    refine ⟨_, _, .refl cache.gates ?_ ?_ ?_⟩
    · simp [Dispatch.lastChunk?, silent]
    · simp [Dispatch.available?, silent]
    · simp [Dispatch.left?, silent]
  | some kind =>
    cases reads : Update.read kind dispatch.data with
    | error error =>
      simp only [turn, apply_eq, known, reads]
      exact ⟨_, _, .refl cache.gates rfl rfl rfl⟩
    | ok update =>
      have reflects := read_reflects dispatch known update reads
      obtain ⟨guild, outcome, moves⟩ := perform_moves fetching (read_fits kind _ update reads)
      refine ⟨guild, outcome, ?_⟩
      simp only [turn, apply_eq, known, reads]
      refine ⟨moves.step, ?_, ?_⟩
      · intro other
        rw [← moves.completes other, Turn.Completes, Turn.Completes, reflects.lastChunk?,
          reflects.available?]
        rfl
      · intro other
        rw [← moves.left other, reflects.left?]
        rfl

/-- An event that is held back for a guild waits for the gate registered for it, which is pending. -/
structure Holds (cache : Cache) (guild : Snowflake) (deferred : Deferred) : Prop where
  fetching : cache.config.fetchMembers
  registered : cache.gates.get? guild = some deferred.gate
  pending : cache.gates.state deferred.gate = .pending

theorem perform_defer (sound : cache.gates.Sound) {update : Update} {deferred : Deferred}
    (held : (cache.perform update).2 = .defer deferred) :
    ∃ guild, (cache.perform update).1.Holds guild deferred ∧ deferred.event.Welcomes guild := by
  cases update with
  | guildAvailable split =>
    have registered := Gates.get?_getOrCreate cache.gates split.root.id
    obtain ⟨state, made, notClosed⟩ :=
      (sound.getOrCreate split.root.id).registered split.root.id _ registered
    have known := Gates.state_of_gate? made
    have after : (cache.store.place cache.config split).1.after.id = split.root.id :=
      congrArg Key.id (Store.place_after cache.config cache.store split).2
    simp only [perform, guildAvailable] at held ⊢
    by_cases fetch : cache.config.fetchMembers = false
    · simp [fetch] at held
    by_cases ready : (cache.gates.getOrCreate split.root.id).2.state
        (cache.gates.getOrCreate split.root.id).1 = .ready
    · simp [fetch, ready] at held
    by_cases complete : hasAllMembers (cache.store.place cache.config split).2
        (cache.store.place cache.config split).1.after
    · simp [fetch, ready, complete] at held
    simp only [fetch, ready, complete, if_false] at held ⊢
    cases held
    refine ⟨split.root.id, ⟨by simpa using fetch, registered, ?_⟩, _, after, ?_⟩
    · cases state with
      | pending => exact known
      | ready => exact absurd known ready
      | closed => exact absurd rfl notClosed
    · by_cases was : isUnavailable cache.store split.root.id
      · simp [was]
      · simp [was]
  | membersListed guild members last => cases last <;> cases held
  | guildPending | guildChanged | guildOutage | guildLeft | banAdded | banLifted | emojisReplaced
  | stickersReplaced | webhooksChanged | integrationAdded | integrationChanged
  | integrationRemoved | roleAdded | roleChanged | added | changed | removed | voiceChanged =>
    cases held

/-- An update holds back at most an event that welcomes a guild, which then waits for the gate of that
guild. -/
theorem apply_held (sound : cache.gates.Sound) {dispatch : Dispatch} {outcome : Outcome}
    {after : Cache} {deferred : Deferred} (done : cache.apply dispatch = (.ok outcome, after))
    (held : outcome.deferred = some deferred) :
    ∃ guild, (cache.turn dispatch).held = some (guild, deferred.event) ∧
      after.Holds guild deferred ∧ deferred.event.Welcomes guild := by
  have still := apply_sound sound dispatch
  rw [done] at still
  suffices holds : ∃ guild, after.Holds guild deferred ∧ deferred.event.Welcomes guild by
    obtain ⟨guild, waits, welcomes⟩ := holds
    obtain ⟨state, made, -⟩ := still.registered guild deferred.gate waits.registered
    refine ⟨guild, ?_, waits, welcomes⟩
    simp only [turn, done, held, Option.bind_some, made, Option.map_some]
  cases known : UpdateKind.ofName? dispatch.name with
  | none =>
    rw [apply_eq, known, Prod.mk.injEq, Except.ok.injEq] at done
    obtain ⟨rfl, -⟩ := done
    cases held
  | some kind =>
    obtain ⟨update, -, rfl, rfl⟩ := of_apply_ok known done
    cases reaction : (cache.perform update).2 with
    | emit event =>
      rw [reaction] at held
      cases held
    | silent =>
      rw [reaction] at held
      cases held
    | defer waiting =>
      rw [reaction] at held
      cases held
      obtain ⟨guild, waits, welcomes⟩ := perform_defer sound reaction
      exact ⟨guild, ⟨waits.fetching, waits.registered, waits.pending⟩, welcomes⟩

end GatewayCache.Cache
