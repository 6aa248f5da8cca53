import Mathlib.Data.List.DropRight
import GatewayCache.Json.Merge

/-! # Histories of fields

What a history of updates leaves can be told from the updates alone, without laying
any of them over another. Under each key the last value counts. Where that is an
object, so do the objects right before it, back to the last value that was none, and
these are the history of the level below.
-/

namespace GatewayCache

/-- The longest run of objects at the end of some values. -/
def Json.closing (values : List Json) : List Fields :=
  (values.rtakeWhile Json.isObject).filterMap Json.fields?

namespace Fields

/-- The values that updates carry under a key, in turn. An update without the key has no part in
them. -/
def carried (updates : List Fields) (key : String) : List Json := updates.filterMap (·.get? key)

/-- The history of the object under a key. -/
def historyAt (updates : List Fields) (key : String) : List Fields :=
  Json.closing (carried updates key)

/-- The history of the object at the end of a path of keys. -/
def history (updates : List Fields) (path : List String) : List Fields := path.foldl historyAt updates

/-- The object at the end of a path of keys. -/
def inside? (fields : Fields) : List String → Option Fields
  | [] => some fields
  | key :: path => ((fields.get? key).bind Json.fields?).bind (·.inside? path)

/-- What updates leave at one level. -/
structure Outcome (updates : List Fields) (fields : Fields) : Prop where
  /-- A key is there if and only if some update carried it. -/
  present : ∀ key, fields.contains key ↔ ∃ update ∈ updates, update.contains key
  /-- A last value that is no object stays as it came. -/
  plain : ∀ key value, (carried updates key).getLast? = some value → value.isObject = false →
    fields.get? key = some value
  /-- Where the last value is an object, the objects of the closing run are merged. -/
  merged : ∀ key object, (carried updates key).getLast? = some (.obj object) →
    fields.get? key = some (.obj ((historyAt updates key).foldl merge []))

end Fields

end GatewayCache
