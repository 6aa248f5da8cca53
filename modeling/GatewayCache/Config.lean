import GatewayCache.Error

/-! # Configuration

The switches of the cache, with a reader and a builder.
-/

namespace GatewayCache

/-- The switches of the cache. -/
structure Config where
  /-- Whether the event of a join waits until every member of the guild is known. -/
  fetchMembers : Bool := false
  cacheMessages : Bool := true
  cacheEmoji : Bool := true
  /-- The number of events kept for a slow receiver, before rounding. -/
  eventCapacity : UInt64 := 4096
  /-- Whether every update is also given out as it came. -/
  dispatchRaw : Bool := false
  deriving Repr, DecidableEq, Inhabited

namespace Config

/-- Whether records of a kind are stored. -/
def stores (config : Config) : Kind → Bool
  | .message => config.cacheMessages
  | .emoji => config.cacheEmoji
  | _ => true

/-- One setting of a configuration. -/
inductive Setting where
  | fetchMembers (enabled : Bool)
  | cacheMessages (enabled : Bool)
  | cacheEmoji (enabled : Bool)
  | eventCapacity (capacity : UInt64)
  | dispatchRaw (enabled : Bool)
  deriving Repr, DecidableEq

def set (config : Config) : Setting → Config
  | .fetchMembers enabled => { config with fetchMembers := enabled }
  | .cacheMessages enabled => { config with cacheMessages := enabled }
  | .cacheEmoji enabled => { config with cacheEmoji := enabled }
  | .eventCapacity capacity => { config with eventCapacity := capacity }
  | .dispatchRaw enabled => { config with dispatchRaw := enabled }

/-- The names of the settings, in the order of their listing without names. -/
def settingNames : List String :=
  ["fetch_members", "cache_messages", "cache_emoji", "event_capacity", "dispatch_raw"]

/-- A setting from its name and a value of its sort. -/
def Setting.ofJson? (name : String) (value : Json) : Option Setting :=
  if name = "fetch_members" then value.bool?.map .fetchMembers
  else if name = "cache_messages" then value.bool?.map .cacheMessages
  else if name = "cache_emoji" then value.bool?.map .cacheEmoji
  else if name = "event_capacity" then value.unsigned?.map .eventCapacity
  else if name = "dispatch_raw" then value.bool?.map .dispatchRaw
  else none

/-- The configuration with the named settings of a list changed; every value has to fit its name. -/
def readAll (config : Config) : List (String × Json) → Option Config
  | [] => some config
  | (name, value) :: rest => do
    let setting ← Setting.ofJson? name value
    readAll (config.set setting) rest

/-- The configuration that a value describes: an object with any of the settings, where other fields
are passed over, or a list of the leading ones. Settings that are left out keep their defaults. -/
def ofJson? : Json → Option Config
  | .obj fields => readAll {} (fields.filter (fun field => settingNames.contains field.1))
  | .arr items =>
    if settingNames.length < items.length then none else readAll {} (settingNames.zip items)
  | _ => none

/-- The configuration built by settings in turn, where the event capacity is at least one. -/
def build (settings : List Setting) : Config :=
  settings.foldl
    (fun config setting =>
      match setting with
      | .eventCapacity capacity => config.set (.eventCapacity (max capacity 1))
      | other => config.set other)
    {}

def toJson (config : Config) : Json :=
  Json.object
    [("fetch_members", .bool config.fetchMembers), ("cache_messages", .bool config.cacheMessages),
     ("cache_emoji", .bool config.cacheEmoji),
     ("event_capacity", Json.ofUInt64 config.eventCapacity),
     ("dispatch_raw", .bool config.dispatchRaw)]

end Config

end GatewayCache
