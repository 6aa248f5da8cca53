import Mathlib.Data.List.Induction
import GatewayCache.Proofs.Cache.Switches
import GatewayCache.Proofs.Processing.Loop

/-! # Updates given out as they came

Where updates are to be given out as they came, each is, ahead of whatever else it
leads to and whether or not its kind is known. Only a refused one is not: it leads to
no event at all.
-/

namespace GatewayCache

/-- The event that gives an update out as it came. -/
def Dispatch.asRaw (dispatch : Dispatch) : Event := .raw dispatch.name dispatch.data

/-- The update is given out as it came, before all other events of its turn. -/
def Turn.Mirrors (turn : Turn) (dispatch : Dispatch) : Prop :=
  ∃ others, turn.events = dispatch.asRaw :: others ∧ (∀ event ∈ others, event.isRaw = false) ∧
    ∀ guild event, turn.held = some (guild, event) → event.isRaw = false

theorem Event.Welcomes.isRaw {event : Event} {guild : Snowflake} (welcomes : event.Welcomes guild) :
    event.isRaw = false := by
  obtain ⟨record, -, rfl | rfl⟩ := welcomes <;> rfl

namespace Cache

variable {cache : Cache} {dispatch : Dispatch}

theorem apply_isOk (cache : Cache) (dispatch : Dispatch) :
    (cache.apply dispatch).1.isOk = !dispatch.isRefused := by
  rw [apply_eq, Dispatch.isRefused]
  cases UpdateKind.ofName? dispatch.name with
  | none => rfl
  | some kind => cases reads : Update.read kind dispatch.data <;> simp [reads, Except.isOk, Except.toBool]

/-- What an update leads to by itself is never an update as it came. -/
theorem isRaw_of_perform {update : Update} {event : Event}
    (emits : (cache.perform update).2 = .emit event) : event.isRaw = false := by
  have ofChange : ∀ created change, (changeEvent created change).isRaw = false := by
    intro created change
    cases created <;> rfl
  cases update with
  | guildAvailable split =>
    -- Each branch either holds an event back or emits one of the two that welcome a guild.
    simp only [perform, guildAvailable] at emits
    split at emits
    · cases emits
      split <;> rfl
    split at emits
    · cases emits
      split <;> rfl
    split at emits
    · cases emits
      split <;> rfl
    · cases emits
  | membersListed guild members last =>
    cases last <;> cases emits
    rfl
  | roleAdded | roleChanged | added | changed | voiceChanged =>
    cases emits
    exact ofChange _ _
  | guildPending | guildChanged | guildOutage | guildLeft | banAdded | banLifted | emojisReplaced
  | stickersReplaced | webhooksChanged | integrationAdded | integrationChanged
  | integrationRemoved | removed =>
    cases emits
    rfl

theorem turn_of_refused (refused : dispatch.isRefused) : cache.turn dispatch = {} := by
  have result := apply_isOk cache dispatch
  cases applied : cache.apply dispatch with
  | mk result after => cases result <;> simp_all [turn, Except.isOk, Except.toBool]

theorem emitted_of_accepted (raw : cache.config.dispatchRaw) (accepted : dispatch.isRefused = false) :
    ∃ others, cache.emitted dispatch = dispatch.asRaw :: others ∧
      ∀ event ∈ others, event.isRaw = false := by
  have given : cache.rawEvents dispatch = [dispatch.asRaw] := by
    rw [rawEvents, if_pos raw, Dispatch.asRaw]
  rw [emitted, apply_eq]
  rw [Dispatch.isRefused] at accepted
  cases known : UpdateKind.ofName? dispatch.name with
  | none => exact ⟨[], by simp [given, Except.toOption], by simp⟩
  | some kind =>
    cases reads : Update.read kind dispatch.data with
    | error error => simp [known, reads, Except.isOk, Except.toBool] at accepted
    | ok update =>
      cases reaction : (cache.perform update).2 with
      | emit event =>
        refine ⟨[event], by simp [reads, reaction, Outcome.of, given, Except.toOption], ?_⟩
        intro other member
        obtain rfl := List.mem_singleton.mp member
        exact isRaw_of_perform reaction
      | defer | silent =>
        exact ⟨[], by simp [reads, reaction, Outcome.of, given, Except.toOption], by simp⟩

/-- The turns of updates are empty for those that are refused and mirror all others. -/
theorem turns_mirror (sound : cache.gates.Sound) (raw : cache.config.dispatchRaw)
    (dispatches : List Dispatch) :
    List.Forall₂ (fun dispatch turn => if dispatch.isRefused then turn = {} else turn.Mirrors dispatch)
      dispatches (cache.turns dispatches) := by
  have welcomes := welcomes_of_held sound dispatches
  induction dispatches generalizing cache with
  | nil => exact .nil
  | cons dispatch rest ih =>
    rw [turns] at welcomes ⊢
    have still : (cache.apply dispatch).2.config.dispatchRaw := by rwa [apply_config]
    have later := ih (apply_sound sound dispatch) still
      fun turn member => welcomes turn (List.mem_cons_of_mem _ member)
    refine .cons ?_ later
    split
    · next refused => exact turn_of_refused refused
    · next accepted =>
      obtain ⟨others, events, quiet⟩ := emitted_of_accepted raw (Bool.eq_false_iff.mpr accepted)
      rw [← turn_events] at events
      exact ⟨others, events, quiet, fun guild event held =>
        (welcomes _ (List.mem_cons_self ..) guild event held).isRaw⟩

end Cache

namespace Turn

theorem mem_of_mem_waiting {turns : List Turn} {wait : Snowflake × Event} (waits : wait ∈ waiting turns) :
    ∃ turn ∈ turns, turn.held = some wait := by
  obtain ⟨earlier, -, since⟩ := List.mem_filterMap.mp waits
  obtain ⟨turn, began, held⟩ := Option.bind_eq_some_iff.mp (Option.filter_eq_some_iff.mp since).1
  exact ⟨turn, List.mem_of_getElem? began, held⟩

theorem filter_isRaw_output {turns : List Turn}
    (quiet : ∀ turn ∈ turns, ∀ wait, turn.held = some wait → wait.2.isRaw = false) :
    (output turns).filter Event.isRaw = turns.flatMap (fun turn => turn.events.filter Event.isRaw) := by
  induction turns using List.reverseRecOn with
  | nil => rfl
  | append_singleton turns next ih =>
    have freed : (((waiting turns).filter (fun wait => next.Completes wait.1)).map Prod.snd).filter
        Event.isRaw = [] := by
      simp only [List.filter_eq_nil_iff, List.mem_map, List.mem_filter]
      rintro _ ⟨wait, ⟨waits, -⟩, rfl⟩
      obtain ⟨turn, member, held⟩ := mem_of_mem_waiting waits
      simp [quiet turn (List.mem_append_left _ member) wait held]
    have before := ih fun turn member => quiet turn (List.mem_append_left _ member)
    rw [output_append, List.filter_append, List.filter_append, freed, before, List.append_nil,
      List.flatMap_append, List.flatMap_singleton]

theorem Mirrors.filter_isRaw {turn : Turn} {dispatch : Dispatch} (mirrors : turn.Mirrors dispatch) :
    turn.events.filter Event.isRaw = [dispatch.asRaw] := by
  obtain ⟨others, events, quiet, -⟩ := mirrors
  have none : others.filter Event.isRaw = [] := by
    rw [List.filter_eq_nil_iff]
    intro event member
    simp [quiet event member]
  rw [events, List.filter_cons_of_pos rfl, none]

theorem flatMap_isRaw {turns : List Turn} {dispatches : List Dispatch}
    (each : List.Forall₂
      (fun dispatch turn => if dispatch.isRefused then turn = {} else turn.Mirrors dispatch)
      dispatches turns) :
    turns.flatMap (fun turn => turn.events.filter Event.isRaw) =
      (dispatches.filter (!·.isRefused)).map Dispatch.asRaw := by
  induction each with
  | nil => rfl
  | cons first _ ih =>
    rw [List.flatMap_cons, ih]
    split at first
    · next refused => simp [first, refused]
    · next accepted => simp [first.filter_isRaw, accepted]

end Turn

namespace Loop

theorem applied_one_by_one {loop : Loop} (opened : loop.isOpen) (goesOn : loop.finished = false)
    (runs : loop.stopped = false) (empty : loop.queue = []) (dispatches : List Dispatch) :
    loop.applied (dispatches.flatMap fun dispatch => [.send dispatch, .settle]) = dispatches := by
  induction dispatches generalizing loop with
  | nil => rfl
  | cons dispatch rest ih =>
    have accepts : loop.accepts := by simp [Loop.accepts, opened, goesOn, empty, queueCapacity]
    have queued : (loop.move (.send dispatch)).2 = { loop with queue := [dispatch] } := by
      simp [Loop.move, send, accepts, empty]
    have worked : ({ loop with queue := [dispatch] } : Loop).appliedBy .settle = [dispatch] := by
      simp [appliedBy, goesOn, runs]
    rw [List.flatMap_cons, List.cons_append, List.cons_append, List.nil_append, applied, applied, queued,
      worked, ih]
    · rfl
    all_goals simp [Loop.move, settle, goesOn, runs, opened]

/-- Where updates are given out as they came, the turn of each update that a loop applies begins with
that and holds no other such event, now or later; but that of a refused update is empty. So the updates
that come out of the loop are, in their order, those that are not refused, and they are all of them if
and only if none is refused. All lists of updates are applied by some moves. -/
theorem play_mirrors (config : Config) (raw : config.dispatchRaw) (store : Store)
    (moves : List Loop.Move) :
    let cache := Cache.ofStore config store
    let loop := Loop.ofCache cache
    let dispatches := loop.applied moves
    let events := (loop.play moves).1
    events = Turn.output (cache.turns dispatches) ∧
      List.Forall₂
        (fun dispatch turn => if dispatch.isRefused then turn = {} else turn.Mirrors dispatch)
        dispatches (cache.turns dispatches) ∧
      events.filter Event.isRaw = (dispatches.filter (!·.isRefused)).map Dispatch.asRaw ∧
      (events.filter Event.isRaw = dispatches.map Dispatch.asRaw ↔
        ∀ dispatch ∈ dispatches, dispatch.isRefused = false) ∧
      ∀ sent : List Dispatch,
        loop.applied (sent.flatMap fun dispatch => [.send dispatch, .settle]) = sent := by
  intro cache loop dispatches events
  have runs : loop.Runs [] := ⟨rfl, rfl, Gates.sound_empty, .nil⟩
  have output : events = Turn.output (cache.turns dispatches) := (runs.play moves).symm
  have sound : cache.gates.Sound := Gates.sound_empty
  have turns := Cache.turns_mirror sound raw dispatches
  have welcomes := Cache.welcomes_of_held sound dispatches
  have raws : events.filter Event.isRaw =
      (dispatches.filter (!·.isRefused)).map Dispatch.asRaw := by
    rw [output, Turn.filter_isRaw_output fun turn member wait held =>
      (welcomes turn member wait.1 wait.2 held).isRaw, Turn.flatMap_isRaw turns]
  refine ⟨output, turns, raws, ?_, applied_one_by_one rfl rfl rfl rfl⟩
  rw [raws]
  constructor
  · intro same
    have all := congrArg List.length same
    rw [List.length_map, List.length_map, List.length_filter_eq_length_iff] at all
    simpa using all
  · intro accepted
    rw [List.filter_eq_self.mpr fun dispatch member => by simp [accepted dispatch member]]

/-- A guild is updated without an id, before an update of no known kind. -/
theorem play_mirrors_without_refused :
    let cache := Cache.ofStore { dispatchRaw := true } .empty
    let refused : Dispatch := ⟨"GUILD_UPDATE", .obj [("name", .str "x")]⟩
    let unknown : Dispatch := ⟨"TYPING_START", .obj []⟩
    let moves : List Loop.Move := [.send refused, .send unknown, .settle]
    refused.isRefused = true ∧ (Loop.ofCache cache).applied moves = [refused, unknown] ∧
      ((Loop.ofCache cache).play moves).1.filter Event.isRaw = [unknown.asRaw] := by
  intro cache refused unknown moves
  have applied : (Loop.ofCache cache).applied moves = [refused, unknown] := by decide +kernel
  have rejected : refused.isRefused = true := by decide +kernel
  have accepted : unknown.isRefused = false := by decide +kernel
  obtain ⟨-, -, raws, -, -⟩ := play_mirrors { dispatchRaw := true } rfl .empty moves
  refine ⟨rejected, applied, raws.trans ?_⟩
  rw [applied]
  simp [rejected, accepted]

end Loop

end GatewayCache
