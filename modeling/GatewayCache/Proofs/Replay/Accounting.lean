import GatewayCache.Proofs.Replay.Schedule

/-! # A replay accounts for every line

What a replay writes is what the updates of its log tell, and its summary counts every
line, update and event once, in whichever place the count is kept.
-/

namespace GatewayCache

namespace Replay

variable {config : Config} {lines : List String}

namespace Output

theorem write_unlimited {output : Output} (unlimited : output.limit = none)
    (working : output.failed = false) (piece : String) :
    output.write piece =
      { output with
        text := output.text ++ piece
        lines := output.lines + piece.toList.count '\n' } := by
  simp [write, unlimited, working]

theorem writeLine_unlimited {output : Output} (unlimited : output.limit = none)
    (working : output.failed = false) (text : String) :
    let after := output.writeLine text
    after.limit = none ∧ after.failed = false ∧ after.text = output.text ++ (text ++ "\n") := by
  have line := write_unlimited unlimited working text
  have newline : output.writeLine text = _ :=
    write_unlimited (by rw [line, unlimited]) (by rw [line, working]) "\n"
  rw [newline, line]
  exact ⟨unlimited, working, String.append_assoc ..⟩

theorem writeEvents_text (format : Format) (events : List Event) {output : Output}
    (unlimited : output.limit = none) (working : output.failed = false) :
    let after := output.writeEvents format events
    after.failed = false ∧ after.text =
      output.text ++ String.join (events.map (fun event => format.event event ++ "\n")) := by
  induction events generalizing output with
  | nil => exact ⟨working, by simp [writeEvents]⟩
  | cons event rest ih =>
    obtain ⟨still, goesOn, line⟩ := writeLine_unlimited unlimited working (format.event event)
    obtain ⟨last, text⟩ := ih still goesOn
    refine ⟨last, text.trans ?_⟩
    rw [line, List.map_cons, String.join_cons, String.append_assoc]

end Output

theorem Reading.ofLines_text (number : Nat) (lines : List String) :
    let reading := ofLines false number (lines.map some)
    reading.failure = none ∧ reading.lines = lines.length ∧ reading.dispatches = updatesOf lines ∧
      reading.lines = reading.dispatches.length + reading.skipped := by
  induction lines generalizing number with
  | nil => exact ⟨rfl, rfl, rfl, rfl⟩
  | cons line rest ih =>
    obtain ⟨unfailed, all, updates, shared⟩ := ih (number + 1)
    simp only [List.map_cons, ofLines, updatesOf, List.filterMap_cons, List.length_cons]
    have passed := congrArg (· + 1) shared
    cases Dispatch.ofLine line with
    | error error => exact ⟨unfailed, congrArg (· + 1) all, updates, passed⟩
    | ok found =>
      cases found with
      | none => exact ⟨unfailed, congrArg (· + 1) all, updates, passed⟩
      | some dispatch =>
        refine ⟨unfailed, congrArg (· + 1) all, congrArg (dispatch :: ·) updates, passed.trans ?_⟩
        exact Nat.add_right_comm ..

theorem accounts_of_told {reading : Reading} {written freed : List Event}
    (reads : reading = read false (lines.map some))
    (told : (Cache.empty config).Told reading.dispatches written freed) :
    Accounts config lines written
      { lines := reading.lines
        dispatched := reading.dispatches.length
        skipped := reading.skipped
        events := written.length
        lagged := 0
        cache := (Cache.empty config).applyAll reading.dispatches } := by
  have sound : (Cache.empty config).gates.Sound := Gates.sound_empty
  obtain ⟨-, all, updates, shared⟩ := Reading.ofLines_text 1 lines
  rw [← read, ← reads] at all updates shared
  obtain ⟨counted, held⟩ := (Cache.empty config).applyAll_stats reading.dispatches
  have once := told.freed_perm sound
  rw [updates] at told once counted held shared ⊢
  refine ⟨⟨freed, told, once, ?_⟩, rfl, all, shared, rfl, ?_, rfl, rfl⟩
  · have few := Gates.free_length_le ((Cache.empty config).applyAll (updatesOf lines)).gates
      ((Cache.empty config).heldBack (updatesOf lines))
    rw [once.length_eq, held]
    exact Nat.le_trans few (Nat.le_add_left ..)
  · rw [counted]
    exact (Nat.zero_add _).symm

/-- However the reader, the loop and the writer take turns, a replay that is done and has lost nothing
has its books in order. -/
theorem accounts_of_reaches {count : Nat} {state : Underway}
    (reaches : Underway.Reaches false (.start (Cache.empty config) (lines.map some)) count state)
    (done : state.Done) (unlagged : state.lagged = 0) :
    ∃ summary, state.result = .ok summary ∧ Accounts config lines state.written summary := by
  obtain ⟨applied, emitted, freed, reads, works, writes⟩ := reaches.kept Gates.sound_empty
  obtain ⟨unread, finished, caughtUp⟩ := done
  have found : state.reading = read false (lines.map some) := by
    rw [reads.all, unread]
    exact state.reading.append_nil.symm
  have unfailed : state.reading.failure = none := found ▸ (Reading.ofLines_text 1 lines).1
  have all : state.written = emitted := by
    have fetched := writes.carries.receive_eq_none.mp caughtUp
    rw [unlagged, Nat.add_zero] at fetched
    rw [writes.written unlagged, fetched, List.take_length]
  obtain ⟨-, cache, told⟩ := works.ended finished
  have applied_all : state.reading.dispatches = applied := by
    rw [reads.queued, (reads.ended finished).2, List.append_nil]
  rw [← all, ← applied_all] at told
  rw [← applied_all] at cache
  refine ⟨_, ?_, accounts_of_told found told⟩
  simp only [Underway.result, unfailed, unlagged, cache]

theorem accounts_of_run (config : Config) (format : Format) (lines : List String) :
    let replayed := run (Cache.empty config) { format } none (lines.map some)
    ∃ written summary, replayed.summary = .ok summary ∧ Accounts config lines written summary ∧
      replayed.output.text = String.join (written.map (fun event => format.event event ++ "\n")) := by
  intro replayed
  obtain ⟨unfailed, -⟩ := Reading.ofLines_text 1 lines
  rw [← read] at unfailed
  obtain ⟨freed, tells, quiet⟩ := (Processing.tells_ofCache (Cache.empty config)).advanceAll
    Gates.sound_empty (Processing.quiet_ofCache _) (read false (lines.map some)).dispatches
  have told := tells.told_of_quiet quiet
  rw [List.nil_append, List.nil_append] at told
  have emitted : events (Cache.empty config) (read false (lines.map some)).dispatches =
      (((Processing.ofCache (Cache.empty config)).advanceAll
          (read false (lines.map some)).dispatches).1,
        (Cache.empty config).applyAll (read false (lines.map some)).dispatches) := by
    simp only [events, quiet.release, List.append_nil, tells.cache, List.nil_append]
  have limit : ({} : Output).limit = none := rfl
  obtain ⟨working, text⟩ := Output.writeEvents_text format
    ((Processing.ofCache (Cache.empty config)).advanceAll
      (read false (lines.map some)).dispatches).1 limit rfl
  refine ⟨_, _, ?_, accounts_of_told rfl told, ?_⟩
  · simp only [replayed, run, emitted, working, unfailed]
    rfl
  · simp only [replayed, run, emitted, working, unfailed]
    simpa using text

/-- A replay of a fresh cache writes, for each update of its log in order, the events that it emits and
then those held back that it sets free, each once, and its summary accounts for every line. The loop
that works off the updates one by one does so, and so does every schedule of the reader, the loop and
the writer that loses no event. No schedule gets stuck or goes on forever, and some lose nothing. -/
theorem replay_accounts (config : Config) (format : Format) (lines : List String) :
    let replayed := run (Cache.empty config) { format } none (lines.map some)
    let start := Underway.start (Cache.empty config) (lines.map some)
    (∃ written summary, replayed.summary = .ok summary ∧ Accounts config lines written summary ∧
      replayed.output.text = String.join (written.map (fun event => format.event event ++ "\n"))) ∧
    (∃ count state, start.Reaches false count state ∧ state.Done ∧ state.lagged = 0) ∧
    ∀ count state, start.Reaches false count state →
      count ≤ 9 * lines.length + 2 ∧
      (¬ state.Done → ∃ next, state.Step false next) ∧
      (state.Done → state.lagged = 0 →
        ∃ summary, state.result = .ok summary ∧ Accounts config lines state.written summary) := by
  intro replayed start
  have sound : (Cache.empty config).gates.Sound := Gates.sound_empty
  refine ⟨accounts_of_run config format lines, ?_, fun count state reaches => ⟨?_, ?_, ?_⟩⟩
  · exact Underway.exists_done .refl sound ⟨rfl, Nat.zero_le _⟩
  · have bound := reaches.count_le sound
    rw [List.length_map] at bound
    omega
  · intro behind
    cases fetched : state.bus.receive 0 with
    | mk found bus =>
      cases found with
      | some found => exact ⟨_, .receive fetched⟩
      | none => exact (reaches.kept sound).moves behind (by rw [fetched])
  · exact accounts_of_reaches reaches

end Replay

end GatewayCache
