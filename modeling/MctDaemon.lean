import MctDaemon.Shared.BufferGrow
import MctDaemon.Shared.GlobalReceiver
import MctDaemon.Daemon.ClientMessages
import MctDaemon.Logstorage.FilterLookup
import MctDaemon.Lib.Layout
import MctDaemon.Logstorage.Cache
import MctDaemon.Logstorage.CacheSync
import MctDaemon.Logstorage.CacheRun
import MctDaemon.Daemon.InjectionWhitelist
import MctDaemon.Daemon.FilterConnections
import MctDaemon.Daemon.FilterPartition
import MctDaemon.Daemon.FilterSockets
import MctDaemon.Daemon.Users
import MctDaemon.Daemon.UserTables
import MctDaemon.Daemon.UserHandles
import MctDaemon.Daemon.UserCounts
import MctDaemon.Daemon.UserSlices
import MctDaemon.Lib.TextFile
import MctDaemon.Daemon.RuntimeConfiguration
import MctDaemon.Logstorage.FileName
import MctDaemon.Lib.BubbleSort
import MctDaemon.Lib.FileStore
import MctDaemon.Logstorage.LogFiles
import MctDaemon.Logstorage.LogFileNames
import MctDaemon.Logstorage.DiscardNew
import MctDaemon.Logstorage.Rotation
import MctDaemon.Daemon.ClientAccounts
import MctDaemon.Daemon.LevelCap
import MctDaemon.Daemon.LevelAgreement
import MctDaemon.Shared.QuickParsing
import MctDaemon.Daemon.LogstorageDevices
import MctDaemon.Client.MainLoop
import MctDaemon.Daemon.ContextOrder
import MctDaemon.Daemon.LevelRequests
import MctDaemon.User.LogWrite
import MctDaemon.User.BufferBound
import MctDaemon.User.StoredMessages
import MctDaemon.User.ResendBuffer
import MctDaemon.User.CheckUserMessage
import MctDaemon.User.DaemonMessages
import MctDaemon.User.DispatchOnce
import MctDaemon.Lib.HexText
import MctDaemon.Shared.LogInfo
import MctDaemon.Shared.MessagePayload
import MctDaemon.Shared.HexBinary
import MctDaemon.Client.LogInfoText
import MctDaemon.Lib.PrefixDecoder
import MctDaemon.Daemon.GetLogInfo
import MctDaemon.Daemon.LogInfoExact
import MctDaemon.Shared.FilterList
import MctDaemon.Shared.FilterCover
import MctDaemon.Shared.FilterFile
import MctDaemon.Shared.MessageState
import MctDaemon.Daemon.SectionNames
import MctDaemon.Console.SortByTimestamp
import MctDaemon.Shared.OfflineTrace
import MctDaemon.Shared.OfflineTraceNames
import MctDaemon.Logstorage.SyncFiles
import MctDaemon.Logstorage.SyncWhole
import MctDaemon.Logstorage.SyncFailure
import MctDaemon.Lib.LinkedList
import MctDaemon.Logstorage.FileListOrder
import MctDaemon.Logstorage.ConfigValues
import MctDaemon.Lib.Passage
import MctDaemon.User.SendLog
import MctDaemon.User.EnvLogLevels
import MctDaemon.Lib.Priority
import MctDaemon.User.EnvLevelChoice
import MctDaemon.Lib.Utf8
import MctDaemon.User.Utf8Truncation
import MctDaemon.Lib.ByteOrder
import MctDaemon.Shared.ExtraParameters
import MctDaemon.Daemon.EcuOverwrite
import MctDaemon.Lib.TextBuffer
import MctDaemon.Shared.ArgumentPrint
import MctDaemon.Shared.IntegerArgument
import MctDaemon.Shared.CodedArgument
import MctDaemon.Lib.SectionFile
import MctDaemon.Shared.ConfigFile
import MctDaemon.Logstorage.StorageWrite
import MctDaemon.Logstorage.StoredFilters
import MctDaemon.User.ResendCopies
import MctDaemon.Daemon.RingbufferCopies
import MctDaemon.Daemon.ControlOwnBytes
import MctDaemon.Daemon.ControlMask
import MctDaemon.Daemon.BlockmodeUpdate
import MctDaemon.User.FileLimit
import MctDaemon.Logstorage.FilterSection
import MctDaemon.Daemon.UserFraming
import MctDaemon.Daemon.UserStream
import MctDaemon.Daemon.StorageLevels
import MctDaemon.Daemon.StorageOrder
import MctDaemon.Shared.ArgumentShown
import MctDaemon.Shared.VerbosePayload
import MctDaemon.User.LoggedArguments
import MctDaemon.User.LoggedShown
import MctDaemon.User.LoggedFile
import MctDaemon.Client.ControlRequests
import MctDaemon.Daemon.ServedClients
import MctDaemon.Daemon.TrackedContexts
import MctDaemon.Lib.Replica
import MctDaemon.User.SharedContexts
