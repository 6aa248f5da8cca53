import GatewayCache.Proofs.Cache.Chunks
import GatewayCache.Proofs.Cache.Edits

/-! # Gates follow the guilds

A guild has a gate from its creation until it is left or everything is shut down, and
all that time its record is stored. The gates and the records are kept apart, and an
update writes the one and the other on its own, so it is shown of both together that
they stay in step.
-/

namespace GatewayCache

open Update

theorem Store.Edits.guild?_isSome {written : Record → Prop} {left : Snowflake → Prop}
    {before after : Store} (edits : Store.Edits written left before after) {guild : Snowflake}
    (stays : ¬ left guild) (known : (before.guild? guild).isSome) : (after.guild? guild).isSome := by
  induction edits with
  | refl => exact known
  | trans _ _ first second => exact second (first known)
  | write allowed store =>
    rw [Store.guild?_isSome] at known ⊢
    rw [Store.writeRecord, Store.fieldsAt_write]
    split
    · rfl
    · exact known
  | amend present ordered keepsId =>
    rw [Store.guild?_isSome] at known ⊢
    rw [Store.fieldsAt_write]
    split
    · rfl
    · exact known
  | drop fewer guilds =>
    rw [Store.guild?_isSome] at known ⊢
    rwa [guilds guild stays]

namespace Cache

variable {cache : Cache} {update : Update} {dispatch : Dispatch} {guild : Snowflake}

theorem linked_stats (owner : Option Snowflake) (kind : Kind) (id : Snowflake) :
    (cache.linked owner kind id).stats = cache.stats := by
  unfold linked
  split <;> rfl

theorem unlinked_stats (owner : Option Snowflake) (kind : Kind) (id : Snowflake) :
    (cache.unlinked owner kind id).stats = cache.stats := by
  unfold unlinked
  split <;> rfl

theorem perform_stats (cache : Cache) (update : Update) :
    (cache.perform update).1.stats = cache.stats := by
  cases update with
  | guildAvailable guild =>
    simp only [perform, guildAvailable]
    split
    · rfl
    split
    · rfl
    split <;> rfl
  | membersListed guild members last => cases last <;> rfl
  | roleAdded | roleChanged | added => exact linked_stats _ _ _
  | removed => exact unlinked_stats _ _ _
  | guildPending | guildChanged | guildOutage | guildLeft | banAdded | banLifted | emojisReplaced
  | stickersReplaced | webhooksChanged | integrationAdded | integrationChanged
  | integrationRemoved | changed | voiceChanged => rfl

/-- A guild has a gate if it is created now, or had one and is not left now. -/
theorem perform_registered (cache : Cache) (update : Update) (guild : Snowflake) :
    ((cache.perform update).1.gates.get? guild).isSome ↔
      update.created? = some guild ∨
        (cache.gates.get? guild).isSome ∧ update.left? ≠ some guild := by
  rw [perform_gates]
  cases update with
  | guildAvailable split | guildPending split =>
    rw [Gates.get?_withGate]
    simp [created?, left?, @eq_comm _ guild]
  | guildLeft other =>
    by_cases own : guild = other
    · simp [Gates.get?_remove, created?, left?, own]
    · simp [Gates.get?_remove, created?, left?, own, Ne.symm own]
  | membersListed other members last =>
    cases last <;> simp [Gates.get?_signalGuild, created?, left?]
  | guildChanged | guildOutage | banAdded | banLifted | emojisReplaced | stickersReplaced
  | webhooksChanged | integrationAdded | integrationChanged | integrationRemoved | roleAdded
  | roleChanged | added | changed | removed | voiceChanged => simp [created?, left?]

theorem perform_created {kind : UpdateKind} (fits : update.Fits kind)
    (created : update.created? = some guild) :
    ((cache.perform update).1.store.guild? guild).isSome := by
  cases update with
  | guildAvailable split =>
    obtain ⟨-, kind, key⟩ := fits
    obtain rfl := Option.some.inj created
    rw [perform, guildAvailable_store, guild?_place kind key]
    rfl
  | guildPending split =>
    obtain ⟨-, kind, key⟩ := fits
    obtain rfl := Option.some.inj created
    have stored := guild?_place kind key cache.config cache.store
    simp only [perform, guildPending, stored, Option.isSome_some]
  | guildChanged | guildOutage | guildLeft | banAdded | banLifted | emojisReplaced
  | stickersReplaced | webhooksChanged | integrationAdded | integrationChanged
  | integrationRemoved | membersListed | roleAdded | roleChanged | added | changed | removed
  | voiceChanged => cases created

theorem perform_ready (opened : cache.gates.AllReady) (sound : cache.gates.Sound)
    (alone : cache.config.fetchMembers = false) : (cache.perform update).1.gates.AllReady := by
  rw [perform_gates]
  cases update with
  | guildAvailable split =>
    have ready : cache.isReady split = true := by simp [isReady, alone]
    simp only [ready]
    exact opened.withGate sound split.root.id
  | guildPending split =>
    simp only [alone, Bool.not_false]
    exact opened.withGate sound split.root.id
  | guildLeft guild => exact opened.remove sound guild
  | membersListed guild members last =>
    cases last with
    | true => exact opened.signalGuild sound guild
    | false => exact opened
  | guildChanged | guildOutage | banAdded | banLifted | emojisReplaced | stickersReplaced
  | webhooksChanged | integrationAdded | integrationChanged | integrationRemoved | roleAdded
  | roleChanged | added | changed | removed | voiceChanged => exact opened

/-- Gates and records that are in step with each other. -/
structure InStep (cache : Cache) : Prop where
  sound : cache.gates.Sound
  known : ∀ guild, (cache.gates.get? guild).isSome → (cache.store.guild? guild).isSome
  /-- Without fetching no gate is waited for. -/
  ready : cache.config.fetchMembers = false → cache.gates.AllReady
  prompt : cache.config.fetchMembers = false → cache.stats.deferred = 0

theorem inStep_empty (config : Config) : (empty config).InStep where
  sound := Gates.sound_empty
  known guild registered := by simp [empty, ofStore, Gates.get?, Gates.empty] at registered
  ready _ guild handle registered := by simp [empty, ofStore, Gates.get?, Gates.empty] at registered
  prompt _ := rfl

namespace InStep

theorem shutdown (inStep : cache.InStep) : cache.shutdown.InStep where
  sound := inStep.sound.closeAll
  known guild registered := by simp [Cache.shutdown, Gates.get?_closeAll] at registered
  ready _ guild handle registered := by simp [Cache.shutdown, Gates.get?_closeAll] at registered
  prompt := inStep.prompt

theorem undeferred (inStep : cache.InStep) (alone : cache.config.fetchMembers = false)
    {deferred : Deferred} : (cache.perform update).2 ≠ .defer deferred := by
  intro held
  obtain ⟨guild, holds, -⟩ := perform_defer inStep.sound held
  have fetching := holds.fetching
  rw [perform_config, alone] at fetching
  cases fetching

theorem counting {reaction : Reaction} (stats : Stats)
    (prompt : ∀ deferred, reaction ≠ .defer deferred) :
    (Stats.counting stats reaction).deferred = stats.deferred := by
  cases reaction with
  | defer deferred => exact absurd rfl (prompt deferred)
  | emit | silent => rfl

theorem apply (inStep : cache.InStep) (dispatch : Dispatch) : (cache.apply dispatch).2.InStep := by
  have sound := apply_sound inStep.sound dispatch
  rw [apply_eq] at sound ⊢
  cases known : UpdateKind.ofName? dispatch.name with
  | none => exact ⟨inStep.sound, inStep.known, inStep.ready, inStep.prompt⟩
  | some kind =>
    cases reads : Update.read kind dispatch.data with
    | error error =>
      simp only [reads]
      exact ⟨inStep.sound, inStep.known, inStep.ready, inStep.prompt⟩
    | ok update =>
      simp only [known, reads] at sound ⊢
      have edits := perform_edits (read_drawn kind _ update reads).keepsGuilds cache
      refine ⟨sound, fun guild registered => ?_, fun alone => ?_, fun alone => ?_⟩
      -- A guild that has a gate now was created by this update, or had one and was not left by it.
      · rcases (perform_registered cache update guild).mp registered with created | ⟨before, stays⟩
        · exact perform_created (read_fits kind _ update reads) created
        · refine edits.guild?_isSome ?_ (inStep.known guild before)
          rintro rfl
          exact stays rfl
      · rw [perform_config] at alone
        exact perform_ready (inStep.ready alone) inStep.sound alone
      · rw [perform_config] at alone
        simp only
        rw [counting _ fun _ => inStep.undeferred alone, perform_stats, inStep.prompt alone]

theorem readiness_eq_closed (inStep : cache.InStep) (guild : Snowflake) :
    cache.readiness guild = .closed ↔ cache.gates.get? guild = none := by
  cases found : cache.gates.get? guild with
  | none => simp [readiness, Gates.stateOf?, found]
  | some handle =>
    obtain ⟨state, made, notClosed⟩ := inStep.sound.registered guild handle found
    simp [readiness, Gates.stateOf?, found, Gates.state_of_gate? made, notClosed]

end InStep

theorem registered_of_created {outcome : Outcome} {after : Cache}
    (done : cache.apply dispatch = (.ok outcome, after)) (created : dispatch.created? = some guild) :
    (after.gates.get? guild).isSome := by
  cases known : UpdateKind.ofName? dispatch.name with
  | none => simp [Dispatch.created?, fieldsAs?_of_unknown known] at created
  | some kind =>
    obtain ⟨update, reads, -, rfl⟩ := of_apply_ok known done
    rw [read_created dispatch known update reads] at created
    exact (perform_registered cache update guild).mpr (.inl created)

theorem perform_keeps_gate {handle : Handle} (registered : cache.gates.get? guild = some handle)
    (stays : update.left? ≠ some guild) :
    (cache.perform update).1.gates.get? guild = some handle := by
  rw [perform_gates]
  cases update with
  | guildAvailable | guildPending => exact Gates.get?_withGate_of_get? registered _ _
  | guildLeft other =>
    have apart : guild ≠ other := fun own => stays (congrArg some own.symm)
    rwa [Gates.get?_remove, if_neg apart]
  | membersListed other members last =>
    cases last with
    | true => exact (Gates.get?_signalGuild ..).trans registered
    | false => exact registered
  | guildChanged | guildOutage | banAdded | banLifted | emojisReplaced | stickersReplaced
  | webhooksChanged | integrationAdded | integrationChanged | integrationRemoved | roleAdded
  | roleChanged | added | changed | removed | voiceChanged => exact registered

theorem apply_keeps_gate {handle : Handle} (registered : cache.gates.get? guild = some handle)
    (stays : dispatch.left? ≠ some guild) :
    (cache.apply dispatch).2.gates.get? guild = some handle := by
  rw [apply_eq]
  cases known : UpdateKind.ofName? dispatch.name with
  | none => exact registered
  | some kind =>
    cases reads : Update.read kind dispatch.data with
    | error error => simpa only [reads] using registered
    | ok update =>
      simp only [reads]
      rw [(read_reflects dispatch known update reads).left?] at stays
      exact perform_keeps_gate registered stays

theorem applyAll_keeps_gate {handle : Handle} (registered : cache.gates.get? guild = some handle)
    {run : List Dispatch} (stays : ∀ dispatch ∈ run, dispatch.left? ≠ some guild) :
    (cache.applyAll run).gates.get? guild = some handle := by
  induction run generalizing cache with
  | nil => exact registered
  | cons dispatch rest ih =>
    exact ih (apply_keeps_gate registered (stays dispatch (by simp)))
      fun later member => stays later (by simp [member])

/-- The caches that updates and shutdowns lead to from an empty one. -/
inductive Reachable : Cache → Prop
  | empty (config : Config) : Reachable (.empty config)
  | apply {cache : Cache} (reachable : Reachable cache) (dispatch : Dispatch) :
    Reachable (cache.apply dispatch).2
  | shutdown {cache : Cache} (reachable : Reachable cache) : Reachable cache.shutdown

theorem Reachable.inStep (reachable : cache.Reachable) : cache.InStep := by
  induction reachable with
  | empty config => exact inStep_empty config
  | apply _ dispatch ih => exact ih.apply dispatch
  | shutdown _ ih => exact ih.shutdown

theorem Reachable.applyAll (reachable : cache.Reachable) (run : List Dispatch) :
    (cache.applyAll run).Reachable := by
  induction run generalizing cache with
  | nil => exact reachable
  | cons dispatch rest ih => exact ih (reachable.apply dispatch)

/-- In every cache that can be reached a guild with a gate is known and its gate is not closed, and
without fetching it is open and nothing was ever held back. So the wait for a guild ends closed at
once just where it has no gate. From its creation on a guild has one and the same gate, which is
not closed, until it is left or everything is shut down. -/
theorem reachable_gates (reachable : cache.Reachable) :
    (∀ guild handle, cache.gates.get? guild = some handle →
      (cache.store.guild? guild).isSome ∧ cache.gates.state handle ≠ .closed ∧
        (cache.config.fetchMembers = false → cache.gates.state handle = .ready)) ∧
      (cache.config.fetchMembers = false → cache.stats.deferred = 0 ∧
        ∀ dispatch outcome, (cache.apply dispatch).1 = .ok outcome → outcome.deferred = none) ∧
      (∀ guild, cache.readiness guild = .closed ↔ cache.gates.get? guild = none) ∧
      ∀ guild dispatch outcome after, dispatch.created? = some guild →
        cache.apply dispatch = (.ok outcome, after) → ∃ handle, ∀ run : List Dispatch,
          (∀ later ∈ run, later.left? ≠ some guild) →
            (after.applyAll run).gates.get? guild = some handle ∧
              (after.applyAll run).readiness guild ≠ .closed := by
  have inStep := reachable.inStep
  refine ⟨fun guild handle registered => ⟨?_, ?_, ?_⟩, fun alone => ⟨?_, ?_⟩,
    inStep.readiness_eq_closed, ?_⟩
  · exact inStep.known guild (by simp [registered])
  · obtain ⟨state, made, notClosed⟩ := inStep.sound.registered guild handle registered
    rwa [Gates.state_of_gate? made]
  · exact fun alone => inStep.ready alone guild handle registered
  · exact inStep.prompt alone
  · intro dispatch outcome done
    cases held : outcome.deferred with
    | none => rfl
    | some deferred =>
      obtain ⟨_, -, holds, -⟩ := apply_held inStep.sound (Prod.ext done rfl) held
      have fetching := holds.fetching
      rw [apply_config, alone] at fetching
      cases fetching
  · intro guild dispatch outcome after created done
    obtain ⟨handle, registered⟩ := Option.isSome_iff_exists.mp (registered_of_created done created)
    refine ⟨handle, fun run stays => ?_⟩
    have still := applyAll_keeps_gate registered stays
    have later : (after.applyAll run).Reachable := by
      have next := (reachable.apply dispatch).applyAll run
      rwa [done] at next
    refine ⟨still, fun closed => ?_⟩
    rw [later.inStep.readiness_eq_closed, still] at closed
    cases closed

/-- One guild was left. Another one is created while it cannot be reached, and an outage of it does not
take its gate away. -/
theorem reachable_gates_outage :
    let joined : Dispatch := ⟨"GUILD_CREATE", .obj [("id", .str "1")]⟩
    let left : Dispatch := ⟨"GUILD_DELETE", .obj [("id", .str "1")]⟩
    let pending : Dispatch :=
      ⟨"GUILD_CREATE", .obj [("id", .str "2"), ("unavailable", .bool true)]⟩
    let outage : Dispatch :=
      ⟨"GUILD_DELETE", .obj [("id", .str "2"), ("unavailable", .bool true)]⟩
    let before := (empty {}).applyAll [joined, left]
    let after := (before.apply pending).2.applyAll [outage, joined]
    before.readiness ⟨1⟩ = .closed ∧ (after.store.guild? ⟨1⟩).isSome ∧ after.stats.deferred = 0 ∧
      ∃ handle, after.gates.get? ⟨2⟩ = some handle ∧ after.gates.state handle = .ready := by
  intro joined left pending outage before after
  have reachable : before.Reachable := (Reachable.empty {}).applyAll _
  have later : after.Reachable := (reachable.apply pending).applyAll _
  obtain ⟨-, -, closed, created⟩ := reachable_gates reachable
  obtain ⟨gates, counts, -⟩ := reachable_gates later
  have alone : after.config.fetchMembers = false := by decide +kernel
  have gone : before.gates.get? ⟨1⟩ = none := by decide +kernel
  obtain ⟨back, joins⟩ : ∃ handle, after.gates.get? ⟨1⟩ = some handle :=
    Option.isSome_iff_exists.mp (by decide +kernel)
  have made : (before.apply pending).1 = .ok ⟨[.guildJoin ⟨.guild, .global ⟨2⟩,
      [("id", .str "2"), ("unavailable", .bool true)]⟩], none⟩ := by decide +kernel
  obtain ⟨handle, keeps⟩ := created ⟨2⟩ pending _ _ (by decide +kernel) (Prod.ext made rfl)
  obtain ⟨registered, -⟩ := keeps [outage, joined] (by decide +kernel)
  exact ⟨(closed ⟨1⟩).mpr gone, (gates ⟨1⟩ back joins).1, (counts alone).1, handle, registered,
    (gates ⟨2⟩ handle registered).2.2 alone⟩

end Cache

theorem Processing.reachable_advanceAll {state : Processing} (reachable : state.cache.Reachable)
    (dispatches : List Dispatch) : (state.advanceAll dispatches).2.cache.Reachable := by
  induction dispatches generalizing state with
  | nil => exact reachable
  | cons dispatch rest ih =>
    have applied := reachable.apply dispatch
    have next : (state.advance dispatch).2.cache.Reachable := by
      unfold advance
      split <;> simp_all [release]
    exact ih next

theorem Loop.reachable_play {loop : Loop} (reachable : loop.state.cache.Reachable)
    (moves : List Move) : (loop.play moves).2.state.cache.Reachable := by
  induction moves generalizing loop with
  | nil => exact reachable
  | cons move rest ih =>
    apply ih
    cases move with
    | send dispatch =>
      simp only [send]
      split <;> exact reachable
    | close => exact reachable
    | shutdown => exact reachable.shutdown
    | settle =>
      have released : loop.state.release.2.cache.Reachable := reachable
      have applied := Processing.reachable_advanceAll released loop.queue
      simp only [settle]
      split
      · exact reachable
      · split
        · exact reachable
        · split <;> exact applied

end GatewayCache
