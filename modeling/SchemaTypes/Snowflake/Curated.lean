import SchemaTypes.Snowflake.Table

/-!
# Curated snowflake kinds

The kinds of a chat service and the fields whose names do not tell their kind.
-/

namespace SchemaTypes.Snowflake

/-- Kinds in matching order; an alias resolves to the kind in front of it. -/
def curatedKinds : String :=
  "Application
Attachment
AuditLogEntry
AutoModerationRule
Channel parent thread
Command
Emoji
Entitlement
Guild
Integration
Interaction
Message
Role
ScheduledEvent
SKU
StageInstance
Sticker
Team
Webhook
User author owner creator recipient inviter member
"

/-- Kinds by dotted path. -/
def curatedFields : String :=
  "Application.primary_sku_id SKU
Guild.afk_channel_id Channel
Guild.public_updates_channel_id Channel
Guild.rules_channel_id Channel
Guild.safety_alerts_channel_id Channel
Guild.system_channel_id Channel
Guild.widget_channel_id Channel
Message.application_id Application
Message.webhook_id Webhook
Webhook.source_guild Guild
"

/-- The table that is used unless another one is given. -/
def curated : Table := ⟨readKinds curatedKinds, readFields curatedFields⟩

end SchemaTypes.Snowflake
