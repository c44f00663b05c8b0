import Mahoquot.Router.BookkeepingProperties
import Mahoquot.Router.AffinityProperties
import Mahoquot.Lcp.CapacityProperties
import Mahoquot.Lcp.SessionProperties
import Mahoquot.Gateway.BenchNames
import Mahoquot.Gateway.ListingProperties
import Mahoquot.Gateway.DenialProperties
import Mahoquot.Gateway.BindingProperties
import Mahoquot.Registry.ResolveProperties
import Mahoquot.Gateway.Exhaustion
import Mahoquot.Gateway.SuccessionProperties
import Mahoquot.Gateway.Refresh
import Mahoquot.Compat.TerminalProperties
import Mahoquot.Runtime.Coordinator
import Mahoquot.Runtime.HistoryProperties
import Mahoquot.Catalog.ManagerProperties
import Mahoquot.Compat.Chat
import Mahoquot.Compat.AnthropicRenderProperties
import Mahoquot.Compat.ResponsesProperties
import Mahoquot.Compat.Preamble
import Mahoquot.Compat.AnthropicReturnProperties
import Mahoquot.Compat.ToolSchemaProperties
import Mahoquot.Management.GateProperties
import Mahoquot.Registry.SpoolRuns
import Mahoquot.Registry.DeletionProperties
import Mahoquot.Registry.ConflictProperties
import Mahoquot.Management.KeyTracker
import Mahoquot.Gateway.UsageUpdates
import Mahoquot.Management.SettingsStoreProperties
import Mahoquot.Scheduler.Durability
import Mahoquot.Gateway.Ingest
import Mahoquot.Gateway.UsageQueue
import Mahoquot.Gateway.Budget
import Mahoquot.Gateway.AffinityStore
