import GatewayCache.Config
import GatewayCache.Json.Form

/-! # Configuration in text

A configuration file is one JSON object or array. No setting may occur twice in
it. Other fields are passed over, and need no more than the form of a value.
-/

namespace GatewayCache.Config

open Json.Reader

/-- A value, or nothing for what has the form of a value but stands for none. -/
def looseValue? : Reads (Option Json) := fun cs =>
  match value? (Json.maxLevels - 1) cs with
  | some (value, rest) => some (some value, rest)
  | none => (Json.Form.value? cs).map (fun read => (none, read.2))

def repeatsSetting {α : Type} (pairs : List (String × α)) : Bool :=
  settingNames.any (fun name => 1 < pairs.countP (fun pair => pair.1 == name))

/-- The configuration of the fields of an object, repeated keys and all. -/
def ofPairs? (pairs : List (String × Option Json)) : Option Config := do
  let settings := pairs.filter (fun pair => settingNames.contains pair.1)
  if repeatsSetting settings then none
  else readAll {} (← settings.mapM (fun pair => pair.2.map (fun value => (pair.1, value))))

def ofText? (text : String) : Option Config :=
  match skipBlanks text.toList with
  | '\x7b' :: rest => do
    let (pairs, rest) ← object? text? looseValue? rest
    if (skipBlanks rest).isEmpty then ofPairs? pairs else none
  | _ => do ofJson? (← Json.read? text)

end GatewayCache.Config
