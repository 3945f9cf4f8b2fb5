import Mathlib.Tactic

/-!
# The registry of RPC consumers

`telegram_rpc_consumers.py`: the service classes, the sources that issue Telegram RPCs, and the
demand kinds with their contracts, as far as the admission scheduler reads them.
-/

namespace McpTelegram

/-- `RpcServiceClass`. -/
inductive RpcServiceClass
  | interactive
  | liveSync
  | background
  deriving DecidableEq

/-- The string value of a service class. -/
def RpcServiceClass.value : RpcServiceClass → String
  | .interactive => "interactive"
  | .liveSync => "live_sync"
  | .background => "background"

instance : Fintype RpcServiceClass where
  elems := {.interactive, .liveSync, .background}
  complete c := by cases c <;> decide

/-- `TelegramRpcSource`. -/
inductive TelegramRpcSource
  | mcpInteractive
  | chatExport
  | dialogResolution
  | topicResolution
  | entityInfoForeground
  | entityInfoRefresh
  | accountTrace
  | telethonUpdateDifference
  | telethonReconnectProbe
  | telethonConnectionBootstrap
  | reconnectDifference
  | realtimeEvent
  | deltaSync
  | activityHotSweep
  | factHydrationLive
  | fullSync
  | dialogSync
  | activityArchive
  | activityColdBackfill
  | factHydrationBackfill
  | folderReconciliation
  | topicReconciliation
  | messageFactRefresh
  | readReceiptProbe
  | scheduledMessages
  | messageImageAcquisition
  | scheduledMutation
  | folderCommand
  | noteCommand
  | contactCommand
  | contactCatalogue
  | draftSnapshot
  | draftMutation
  | maintenance
  | linkedChatRefresh
  | operatorAuth
  | operatorLogout
  deriving DecidableEq

namespace TelegramRpcSource

/-- `TelegramRpcSource` in its order of definition. -/
def all : List TelegramRpcSource :=
  [.mcpInteractive, .chatExport, .dialogResolution, .topicResolution, .entityInfoForeground,
   .entityInfoRefresh, .accountTrace, .telethonUpdateDifference, .telethonReconnectProbe,
   .telethonConnectionBootstrap, .reconnectDifference, .realtimeEvent, .deltaSync,
   .activityHotSweep, .factHydrationLive, .fullSync, .dialogSync, .activityArchive,
   .activityColdBackfill, .factHydrationBackfill, .folderReconciliation, .topicReconciliation,
   .messageFactRefresh, .readReceiptProbe, .scheduledMessages, .messageImageAcquisition,
   .scheduledMutation, .folderCommand, .noteCommand, .contactCommand, .contactCatalogue,
   .draftSnapshot, .draftMutation, .maintenance, .linkedChatRefresh, .operatorAuth,
   .operatorLogout]

theorem mem_all (source : TelegramRpcSource) : source ∈ all := by
  cases source <;> decide

theorem nodup_all : all.Nodup := by decide

/-- `RPC_SOURCE_SERVICE_CLASS`: the service class that the registry gives a source. -/
def serviceClass : TelegramRpcSource → RpcServiceClass
  | .mcpInteractive | .dialogResolution | .topicResolution | .entityInfoForeground
    | .accountTrace | .scheduledMutation | .folderCommand | .noteCommand | .contactCommand
    | .draftMutation => .interactive
  | .telethonUpdateDifference | .telethonReconnectProbe | .telethonConnectionBootstrap
    | .reconnectDifference | .realtimeEvent | .deltaSync | .activityHotSweep
    | .factHydrationLive | .draftSnapshot => .liveSync
  | _ => .background

/-- The string value of a source. -/
def value : TelegramRpcSource → String
  | .mcpInteractive => "mcp_interactive"
  | .chatExport => "chat_export"
  | .dialogResolution => "dialog_resolution"
  | .topicResolution => "topic_resolution"
  | .entityInfoForeground => "entity_info_foreground"
  | .entityInfoRefresh => "entity_info_refresh"
  | .accountTrace => "account_trace"
  | .telethonUpdateDifference => "telethon_update_difference"
  | .telethonReconnectProbe => "telethon_reconnect_probe"
  | .telethonConnectionBootstrap => "telethon_connection_bootstrap"
  | .reconnectDifference => "reconnect_difference"
  | .realtimeEvent => "realtime_event"
  | .deltaSync => "delta_sync"
  | .activityHotSweep => "activity_hot_sweep"
  | .factHydrationLive => "fact_hydration_live"
  | .fullSync => "full_sync"
  | .dialogSync => "dialog_sync"
  | .activityArchive => "activity_archive"
  | .activityColdBackfill => "activity_cold_backfill"
  | .factHydrationBackfill => "fact_hydration_backfill"
  | .folderReconciliation => "folder_reconciliation"
  | .topicReconciliation => "topic_reconciliation"
  | .messageFactRefresh => "message_fact_refresh"
  | .readReceiptProbe => "read_receipt_probe"
  | .scheduledMessages => "scheduled_messages"
  | .messageImageAcquisition => "message_image_acquisition"
  | .scheduledMutation => "scheduled_mutation"
  | .folderCommand => "folder_command"
  | .noteCommand => "note_command"
  | .contactCommand => "contact_command"
  | .contactCatalogue => "contact_catalogue"
  | .draftSnapshot => "draft_snapshot"
  | .draftMutation => "draft_mutation"
  | .maintenance => "maintenance"
  | .linkedChatRefresh => "linked_chat_refresh"
  | .operatorAuth => "operator_auth"
  | .operatorLogout => "operator_logout"

end TelegramRpcSource

/-- `DemandKind`. -/
inductive DemandKind
  | mcpRemoteAcquisition
  | chatExportOperation
  | entityLookup
  | topicLookup
  | foregroundEntityFacts
  | entityProfileRefresh
  | accountTracePage
  | telethonUpdateDifference
  | telethonReconnectProbe
  | telethonConnectionBootstrap
  | reconnectDifference
  | realtimeEventAcquisition
  | deltaGapFill
  | dmDeletionReconciliation
  | deltaAccessProbe
  | hotActivityPage
  | liveHydrationBatch
  | fullSyncDmEnrollment
  | fullSyncPage
  | dialogBootstrap
  | dialogLightReconciliation
  | archiveBackfill
  | archiveIncremental
  | coldPeerPage
  | backfillHydrationBatch
  | folderSnapshot
  | topicSnapshot
  | messageFactRefresh
  | readReceiptBatch
  | scheduledRepair
  | scheduledDiscovery
  | messageImageAcquisition
  | scheduledMutation
  | folderCommand
  | noteCommand
  | contactCommand
  | contactCatalogue
  | draftSnapshot
  | draftMutation
  | selfProfileMaintenance
  | linkedChatRefresh
  | operatorAuth
  | operatorLogout
  deriving DecidableEq

namespace DemandKind

/-- The source of a demand contract. -/
def source : DemandKind → TelegramRpcSource
  | .mcpRemoteAcquisition => .mcpInteractive
  | .chatExportOperation => .chatExport
  | .entityLookup => .dialogResolution
  | .topicLookup => .topicResolution
  | .foregroundEntityFacts => .entityInfoForeground
  | .entityProfileRefresh => .entityInfoRefresh
  | .accountTracePage => .accountTrace
  | .telethonUpdateDifference => .telethonUpdateDifference
  | .telethonReconnectProbe => .telethonReconnectProbe
  | .telethonConnectionBootstrap => .telethonConnectionBootstrap
  | .reconnectDifference => .reconnectDifference
  | .realtimeEventAcquisition => .realtimeEvent
  | .deltaGapFill | .dmDeletionReconciliation | .deltaAccessProbe => .deltaSync
  | .hotActivityPage => .activityHotSweep
  | .liveHydrationBatch => .factHydrationLive
  | .fullSyncDmEnrollment | .fullSyncPage => .fullSync
  | .dialogBootstrap | .dialogLightReconciliation => .dialogSync
  | .archiveBackfill | .archiveIncremental => .activityArchive
  | .coldPeerPage => .activityColdBackfill
  | .backfillHydrationBatch => .factHydrationBackfill
  | .folderSnapshot => .folderReconciliation
  | .topicSnapshot => .topicReconciliation
  | .messageFactRefresh => .messageFactRefresh
  | .readReceiptBatch => .readReceiptProbe
  | .scheduledRepair | .scheduledDiscovery => .scheduledMessages
  | .messageImageAcquisition => .messageImageAcquisition
  | .scheduledMutation => .scheduledMutation
  | .folderCommand => .folderCommand
  | .noteCommand => .noteCommand
  | .contactCommand => .contactCommand
  | .contactCatalogue => .contactCatalogue
  | .draftSnapshot => .draftSnapshot
  | .draftMutation => .draftMutation
  | .selfProfileMaintenance => .maintenance
  | .linkedChatRefresh => .linkedChatRefresh
  | .operatorAuth => .operatorAuth
  | .operatorLogout => .operatorLogout

/-- `_SOURCE_OUTSTANDING_LIMIT`. -/
def sourceOutstandingLimitOf : RpcServiceClass → ℕ
  | .interactive => 8
  | .liveSync => 16
  | .background => 8

/-- The service class of a demand contract: that of its source. -/
def serviceClass (kind : DemandKind) : RpcServiceClass := kind.source.serviceClass

/-- `source_outstanding_limit` of a demand contract. -/
def sourceOutstandingLimit (kind : DemandKind) : ℕ := sourceOutstandingLimitOf kind.serviceClass

end DemandKind

/-- `LEGACY_DEMAND_KIND_BY_SOURCE`. -/
def TelegramRpcSource.legacyDemandKind : TelegramRpcSource → DemandKind
  | .mcpInteractive => .mcpRemoteAcquisition
  | .chatExport => .chatExportOperation
  | .dialogResolution => .entityLookup
  | .topicResolution => .topicLookup
  | .entityInfoForeground => .foregroundEntityFacts
  | .entityInfoRefresh => .entityProfileRefresh
  | .accountTrace => .accountTracePage
  | .telethonUpdateDifference => .telethonUpdateDifference
  | .telethonReconnectProbe => .telethonReconnectProbe
  | .telethonConnectionBootstrap => .telethonConnectionBootstrap
  | .reconnectDifference => .reconnectDifference
  | .realtimeEvent => .realtimeEventAcquisition
  | .deltaSync => .deltaGapFill
  | .activityHotSweep => .hotActivityPage
  | .factHydrationLive => .liveHydrationBatch
  | .fullSync => .fullSyncPage
  | .dialogSync => .dialogBootstrap
  | .activityArchive => .archiveIncremental
  | .activityColdBackfill => .coldPeerPage
  | .factHydrationBackfill => .backfillHydrationBatch
  | .folderReconciliation => .folderSnapshot
  | .topicReconciliation => .topicSnapshot
  | .messageFactRefresh => .messageFactRefresh
  | .readReceiptProbe => .readReceiptBatch
  | .scheduledMessages => .scheduledRepair
  | .messageImageAcquisition => .messageImageAcquisition
  | .scheduledMutation => .scheduledMutation
  | .folderCommand => .folderCommand
  | .noteCommand => .noteCommand
  | .contactCommand => .contactCommand
  | .contactCatalogue => .contactCatalogue
  | .draftSnapshot => .draftSnapshot
  | .draftMutation => .draftMutation
  | .maintenance => .selfProfileMaintenance
  | .linkedChatRefresh => .linkedChatRefresh
  | .operatorAuth => .operatorAuth
  | .operatorLogout => .operatorLogout

/-- `_validate_legacy_demand_kinds`: the legacy kind of a source belongs to that source. -/
theorem TelegramRpcSource.source_legacyDemandKind (source : TelegramRpcSource) :
    source.legacyDemandKind.source = source := by
  cases source <;> rfl

end McpTelegram
