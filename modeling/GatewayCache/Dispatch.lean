import GatewayCache.Json.Reader
import GatewayCache.Update

/-! # Dispatches in text

A recorded update is one line of JSON text, with the name under `t` and the data
under `d`. Lines that are blank or name nothing are no updates.
-/

namespace GatewayCache.Dispatch

def toJson (dispatch : Dispatch) : Json :=
  Json.object [("t", .str dispatch.name), ("d", dispatch.data)]

/-- The fields of a frame: those of the update and others, each under another name than these, in
any order. -/
def Frames (dispatch : Dispatch) (others fields : List (String × Json)) : Prop :=
  (∀ field ∈ others, field.1 ≠ "t" ∧ field.1 ≠ "d") ∧
    fields.Perm (("t", .str dispatch.name) :: ("d", dispatch.data) :: others)

/-- The update in a frame, if the frame names one; the name has to be a text. -/
def ofFrame (frame : Json) : Except CacheError (Option Dispatch) :=
  match frame.get? "t" with
  | none | some .null => .ok none
  | some (.str name) => .ok (some ⟨name, Json.ofOption (frame.get? "d")⟩)
  | some _ => .error .unreadable

/-- The update in a line, if there is one. White space around the frame does not count. -/
def ofLine (line : String) : Except CacheError (Option Dispatch) :=
  let trimmed := Text.trim line.toList
  if trimmed.isEmpty then .ok none
  else
    match Json.read? (String.ofList trimmed) with
    | none => .error .unreadable
    | some frame => ofFrame frame

end GatewayCache.Dispatch
