import GatewayCache.Proofs.Json.Writer
import GatewayCache.Proofs.Replay.Accounting
import GatewayCache.Proofs.Snowflake
import GatewayCache.Replay.Lines

/-! # One line for every event

An event is written as one line if it is written as JSON. As text it is one line just
where the names that it shows have no line feed: each line feed in a name begins another
line, which may read like a line about an event that never was.
-/

namespace GatewayCache

namespace Text

theorem length_lines_append (piece rest : List Char) :
    (lines (piece ++ '\n' :: rest)).length = piece.count '\n' + 1 + (lines rest).length := by
  induction piece with
  | nil => simp [lines, Nat.add_comm]
  | cons c piece ih =>
    rw [List.cons_append, lines]
    split
    · next feed =>
      rw [List.length_cons, ih, feed, List.count_cons_self]
      omega
    · next other =>
      rw [List.count_cons_of_ne other]
      cases more : lines (piece ++ '\n' :: rest) with
      | nil => simp [more] at ih; omega
      | cons line further => rw [← ih, more]; rfl

theorem lines_append {piece : List Char} (plain : '\n' ∉ piece) (rest : List Char) :
    lines (piece ++ '\n' :: rest) = piece :: lines rest := by
  induction piece with
  | nil => simp [lines]
  | cons c piece ih =>
    obtain ⟨apart, later⟩ := not_or.mp (mt List.mem_cons.mpr plain)
    rw [List.cons_append, lines, if_neg (Ne.symm apart), ih later]

@[simp]
theorem lineFeeds_append (first second : String) :
    lineFeeds (first ++ second) = lineFeeds first + lineFeeds second := by
  simp [lineFeeds]

@[simp]
theorem lineFeeds_empty : lineFeeds "" = 0 := rfl

@[simp]
theorem lineFeeds_join_cons (first : String) (rest : List String) :
    lineFeeds (String.join (first :: rest)) = lineFeeds first + lineFeeds (String.join rest) := by
  rw [String.join_cons, lineFeeds_append]

theorem lineFeeds_eq_zero {text : String} : lineFeeds text = 0 ↔ '\n' ∉ text.toList :=
  List.count_eq_zero

theorem lineFeeds_join_eq_zero {texts : List String} :
    lineFeeds (String.join texts) = 0 ↔ ∀ text ∈ texts, '\n' ∉ text.toList := by
  simp [lineFeeds_eq_zero, String.toList_join]

@[simp]
theorem lineFeeds_toString (text : String) : lineFeeds (toString text) = lineFeeds text := rfl

theorem lineFeeds_between :
    ∀ text ∈ ["/", " ", " (", ")", "-", " (was ", "guild ", " (last known ", " -> ", " channel ",
      " integration "], lineFeeds text = 0 := by
  decide

@[simp]
theorem lineFeeds_nat (n : Nat) : lineFeeds n.repr = 0 := by
  rw [lineFeeds_eq_zero, Nat.toList_repr]
  exact Number.lineFeed_not_mem_decimal n

@[simp]
theorem lineFeeds_id (id : Snowflake) : lineFeeds (toString id) = 0 := by
  rw [lineFeeds_eq_zero]
  change '\n' ∉ (String.ofList id.chars).toList
  rw [String.toList_ofList]
  exact Number.lineFeed_not_mem_decimal _

@[simp]
theorem lineFeeds_key (key : Key) : lineFeeds (toString key) = 0 := by
  rcases key with id | ⟨guild, id⟩
  · exact lineFeeds_id id
  · change lineFeeds (toString guild ++ "/" ++ toString id) = 0
    simp [lineFeeds_between]

@[simp]
theorem lineFeeds_kind (kind : Kind) : lineFeeds (toString kind) = 0 := by
  cases kind <;> rfl

end Text

open Text (lineFeeds lineFeeds_between)

@[simp]
theorem Record.lineFeeds_label (record : Record) :
    lineFeeds record.label = lineFeeds (String.join record.shownName?.toList) := by
  unfold label shownName?
  cases (record.fields.text? "name").or (record.fields.text? "username") with
  | none => simp [lineFeeds_between]
  | some name => simp [lineFeeds_between]

@[simp]
theorem Record.lineFeeds_labelOrDash (record : Option Record) :
    lineFeeds (labelOrDash record) = lineFeeds (String.join (record.bind shownName?).toList) := by
  cases record with
  | none => exact lineFeeds_between "-" (by simp)
  | some record => exact lineFeeds_label record

theorem Event.lineFeeds_name (event : Event) : lineFeeds event.name = 0 := by
  cases event <;> simp [Event.name, lineFeeds]

/-- A line of text has just the line feeds of the names that it shows. -/
theorem Event.lineFeeds_describe (event : Event) :
    lineFeeds event.describe = lineFeeds (String.join event.shownNames) := by
  have detail : lineFeeds event.detail = lineFeeds (String.join event.shownNames) := by
    cases event <;> simp [Event.detail, shownNames, lineFeeds_between]
  simp [describe, lineFeeds_name, lineFeeds_between, detail]

namespace Replay

theorem Format.lineFeeds_event (format : Format) (event : Event) :
    lineFeeds (format.event event) = lineFeeds (String.join (format.unescaped event)) := by
  cases format with
  | text => exact event.lineFeeds_describe
  | json =>
    change lineFeeds event.toJson.compact = 0
    rw [Text.lineFeeds_eq_zero, Json.compact, String.toList_ofList]
    exact Json.lineFeed_not_mem_chars event.toJson

theorem Format.plain_iff (format : Format) (events : List Event) :
    (∀ event ∈ events, '\n' ∉ (format.event event).toList) ↔
      format = .json ∨ ∀ event ∈ events, ∀ name ∈ event.shownNames, '\n' ∉ name.toList := by
  have plain (event : Event) : '\n' ∉ (format.event event).toList ↔
      ∀ name ∈ format.unescaped event, '\n' ∉ name.toList := by
    rw [← Text.lineFeeds_eq_zero, lineFeeds_event, Text.lineFeeds_join_eq_zero]
  simp only [plain]
  cases format <;> simp [unescaped]

theorem Format.lineFeeds_events (format : Format) (events : List Event) :
    lineFeeds (String.join (events.map format.event)) =
      lineFeeds (String.join (events.flatMap format.unescaped)) := by
  induction events with
  | nil => rfl
  | cons event rest ih => simp [lineFeeds_event, ih]

theorem lines_of_writes (texts : List String) :
    (Text.lines (String.join (texts.map (· ++ "\n"))).toList).length =
        texts.length + lineFeeds (String.join texts) ∧
      ((∀ text ∈ texts, '\n' ∉ text.toList) →
        Text.lines (String.join (texts.map (· ++ "\n"))).toList = texts.map String.toList) := by
  have joined (text : String) (rest : List String) :
      (String.join ((text :: rest).map (· ++ "\n"))).toList =
        text.toList ++ '\n' :: (String.join (rest.map (· ++ "\n"))).toList := by
    simp [String.toList_join]
  induction texts with
  | nil => simp [Text.lines]
  | cons text rest ih =>
    obtain ⟨number, lines⟩ := ih
    rw [joined]
    constructor
    · have feeds : lineFeeds text = text.toList.count '\n' := rfl
      rw [Text.length_lines_append, number, List.length_cons, Text.lineFeeds_join_cons, feeds]
      omega
    · intro plain
      rw [Text.lines_append (plain text (by simp)), lines fun later member => plain later (by simp [member])]
      rfl

/-- Whatever events are written, what is written has a line for each, but for the line feeds in names. -/
theorem lined_writeEvents (format : Format) (events : List Event) :
    Lined format events (({} : Output).writeEvents format events).text := by
  have limit : ({} : Output).limit = none := rfl
  obtain ⟨-, text⟩ := Output.writeEvents_text format events limit rfl
  have joined : (({} : Output).writeEvents format events).text =
      String.join ((events.map format.event).map (· ++ "\n")) := by
    simpa [Function.comp_def] using text
  obtain ⟨number, lines⟩ := lines_of_writes (events.map format.event)
  rw [← joined] at number lines
  have plain : lineFeeds (String.join (events.map format.event)) = 0 ↔
      format = .json ∨ ∀ event ∈ events, ∀ name ∈ event.shownNames, '\n' ∉ name.toList := by
    rw [← format.plain_iff, Text.lineFeeds_join_eq_zero]
    simp
  rw [List.length_map] at number
  refine ⟨number.trans (congrArg _ (format.lineFeeds_events events)), ?_, fun none => ?_⟩
  · rw [number, ← plain]
    omega
  · rw [lines (by simpa using (format.plain_iff events).mpr none), List.map_map]
    rfl

/-- Events are written as one line each, whatever they hold, if they are written as JSON, and as text just
where no name that is shown has a line feed. So it is with those that a replay writes, and its summary
counts them. -/
theorem run_lined (cache : Cache) (options : Options) (log : List (Option String)) :
    let replayed := run cache options none log
    let written := (events cache (read options.strict log).dispatches).1
    (∀ format events, Lined format events (({} : Output).writeEvents format events).text) ∧
      Lined options.format written replayed.output.text ∧
      ∀ summary, replayed.summary = .ok summary → summary.events = written.length := by
  intro replayed written
  have limit : ({} : Output).limit = none := rfl
  obtain ⟨working, -⟩ := Output.writeEvents_text options.format written limit rfl
  have output : replayed.output = ({} : Output).writeEvents options.format written := by
    simp only [replayed, run, working, written]
    cases (read options.strict log).failure <;> rfl
  refine ⟨lined_writeEvents, output ▸ lined_writeEvents options.format written, ?_⟩
  intro summary done
  simp only [replayed, run, working, written] at done
  cases failed : (read options.strict log).failure with
  | some failure => simp [failed] at done
  | none =>
    rw [failed] at done
    obtain rfl := Except.ok.inj done
    rfl

/-- A guild is named so that the line about it reads like two: a second guild seems to be ready that the
log does not mention. -/
theorem run_lined_forged :
    let log : List (Option String) :=
      [some "\x7b\"t\":\"GUILD_CREATE\",\"d\":\x7b\"id\":\"1\",\"name\":\"a)\\nguild_ready guild 2 (b\"\x7d\x7d"]
    let replayed := run (Cache.empty {}) {} none log
    (∃ summary, replayed.summary = .ok summary ∧ summary.events = 1) ∧
      replayed.output.text = "guild_join guild 1 (a)\nguild_ready guild 2 (b)\n" ∧
      (Text.lines replayed.output.text.toList).length = 2 := by
  intro log replayed
  have goesWell : replayed.summary.isOk := by decide +kernel
  have text : replayed.output.text = "guild_join guild 1 (a)\nguild_ready guild 2 (b)\n" := by
    decide +kernel
  have one : (events (Cache.empty {}) (read false log).dispatches).1.length = 1 := by
    decide +kernel
  obtain ⟨-, -, counted⟩ := run_lined (Cache.empty {}) {} log
  refine ⟨?_, text, ?_⟩
  · cases done : replayed.summary with
    | error failure =>
      rw [done] at goesWell
      cases goesWell
    | ok summary => exact ⟨summary, rfl, (counted summary done).trans one⟩
  · rw [text]
    decide +kernel

end Replay

end GatewayCache
