/-! # Update kinds

The updates that the cache processes, by the names they are dispatched under.
-/

namespace GatewayCache

/-- A kind of update. -/
inductive UpdateKind where
  | guildCreate
  | guildUpdate
  | guildDelete
  | guildBanAdd
  | guildBanRemove
  | guildEmojisUpdate
  | guildStickersUpdate
  | webhooksUpdate
  | integrationCreate
  | integrationUpdate
  | integrationDelete
  | guildMembersChunk
  | guildMemberAdd
  | guildMemberUpdate
  | guildMemberRemove
  | guildRoleCreate
  | guildRoleUpdate
  | guildRoleDelete
  | channelCreate
  | channelUpdate
  | channelDelete
  | threadCreate
  | threadUpdate
  | threadDelete
  | messageCreate
  | messageUpdate
  | messageDelete
  | autoModRuleCreate
  | autoModRuleUpdate
  | autoModRuleDelete
  | voiceStateUpdate
  deriving Repr, DecidableEq, Inhabited

namespace UpdateKind

/-- Every kind of update, in order of declaration. -/
def all : List UpdateKind :=
  [guildCreate, guildUpdate, guildDelete, guildBanAdd, guildBanRemove, guildEmojisUpdate,
   guildStickersUpdate, webhooksUpdate, integrationCreate, integrationUpdate, integrationDelete,
   guildMembersChunk, guildMemberAdd, guildMemberUpdate, guildMemberRemove, guildRoleCreate,
   guildRoleUpdate, guildRoleDelete, channelCreate, channelUpdate, channelDelete, threadCreate,
   threadUpdate, threadDelete, messageCreate, messageUpdate, messageDelete, autoModRuleCreate,
   autoModRuleUpdate, autoModRuleDelete, voiceStateUpdate]

/-- The name an update of this kind is dispatched under. -/
def name : UpdateKind → String
  | guildCreate => "GUILD_CREATE"
  | guildUpdate => "GUILD_UPDATE"
  | guildDelete => "GUILD_DELETE"
  | guildBanAdd => "GUILD_BAN_ADD"
  | guildBanRemove => "GUILD_BAN_REMOVE"
  | guildEmojisUpdate => "GUILD_EMOJIS_UPDATE"
  | guildStickersUpdate => "GUILD_STICKERS_UPDATE"
  | webhooksUpdate => "WEBHOOKS_UPDATE"
  | integrationCreate => "INTEGRATION_CREATE"
  | integrationUpdate => "INTEGRATION_UPDATE"
  | integrationDelete => "INTEGRATION_DELETE"
  | guildMembersChunk => "GUILD_MEMBERS_CHUNK"
  | guildMemberAdd => "GUILD_MEMBER_ADD"
  | guildMemberUpdate => "GUILD_MEMBER_UPDATE"
  | guildMemberRemove => "GUILD_MEMBER_REMOVE"
  | guildRoleCreate => "GUILD_ROLE_CREATE"
  | guildRoleUpdate => "GUILD_ROLE_UPDATE"
  | guildRoleDelete => "GUILD_ROLE_DELETE"
  | channelCreate => "CHANNEL_CREATE"
  | channelUpdate => "CHANNEL_UPDATE"
  | channelDelete => "CHANNEL_DELETE"
  | threadCreate => "THREAD_CREATE"
  | threadUpdate => "THREAD_UPDATE"
  | threadDelete => "THREAD_DELETE"
  | messageCreate => "MESSAGE_CREATE"
  | messageUpdate => "MESSAGE_UPDATE"
  | messageDelete => "MESSAGE_DELETE"
  | autoModRuleCreate => "AUTO_MODERATION_RULE_CREATE"
  | autoModRuleUpdate => "AUTO_MODERATION_RULE_UPDATE"
  | autoModRuleDelete => "AUTO_MODERATION_RULE_DELETE"
  | voiceStateUpdate => "VOICE_STATE_UPDATE"

instance : ToString UpdateKind := ⟨name⟩

def ofName? (text : String) : Option UpdateKind := all.find? (fun kind => kind.name == text)

end UpdateKind

end GatewayCache
