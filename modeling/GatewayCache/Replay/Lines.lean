import GatewayCache.Replay.Summary
import GatewayCache.Text.Lines

/-! # Lines about events

What a line of text says about an event is of the program's own making but for names: those
of the records that it labels, and the one that an update came with. They are arbitrary
texts, and a line has them as they are.
-/

namespace GatewayCache

/-- The name that the label of a record shows. -/
def Record.shownName? (record : Record) : Option String :=
  (record.fields.text? "name").or (record.fields.text? "username")

namespace Event

/-- The names that the text of an event shows. -/
def shownNames : Event → List String
  | guildJoin record | guildAvailable record | banCreate _ record | banRemove _ record
  | integrationCreate record | created record => record.shownName?.toList
  | guildUpdate before after | integrationUpdate before after | updated before after =>
    after.shownName?.toList ++ (before.bind Record.shownName?).toList
  | guildLeft _ lastKnown | guildUnavailable _ lastKnown | deleted _ _ lastKnown =>
    (lastKnown.bind Record.shownName?).toList
  | raw name _ => [name]
  | guildReady _ | guildEmojisUpdate .. | guildStickersUpdate .. | webhooksUpdate ..
  | integrationDelete .. => []

end Event

namespace Replay

/-- The names that an event is written with as they are. -/
def Format.unescaped (format : Format) (event : Event) : List String :=
  match format with
  | text => event.shownNames
  | json => []

/-- A text has a line for every event, but for the line feeds in names. -/
structure Lined (format : Format) (events : List Event) (text : String) : Prop where
  /-- Every line feed in a name makes one line more. -/
  number : (Text.lines text.toList).length =
    events.length + Text.lineFeeds (String.join (events.flatMap format.unescaped))
  /-- There are as many lines as events just where no name has a line feed, or none is written as it
  is. -/
  exact_iff : (Text.lines text.toList).length = events.length ↔
    format = .json ∨ ∀ event ∈ events, ∀ name ∈ event.shownNames, '\n' ∉ name.toList
  /-- Then each line is what is written about one event. -/
  lines : (format = .json ∨ ∀ event ∈ events, ∀ name ∈ event.shownNames, '\n' ∉ name.toList) →
    Text.lines text.toList = events.map (fun event => (format.event event).toList)

end Replay

end GatewayCache
