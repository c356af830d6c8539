import IbSrp.PagedBytes
import IbSrp.MemoryRegistration
import IbSrp.MappingCoverage
import IbSrp.MappingResults
import IbSrp.TargetLimits
import IbSrp.MappingBounds
import IbSrp.MappingOverrun
import IbSrp.Channel
import IbSrp.LabelledRuns
import IbSrp.ChannelSystem
import IbSrp.SlotOwnership
import IbSrp.ChannelFrames
import IbSrp.RequestSlots
import IbSrp.ResponseMatching
import IbSrp.CallInterleaving
import IbSrp.CreditAccounting
import IbSrp.DescriptorFlow
import IbSrp.DescriptorPool
import IbSrp.SendQueue
import IbSrp.TaskManagement
import IbSrp.TaskVerdicts
import IbSrp.RportStates
import IbSrp.RportTimers
import IbSrp.ReconnectWork
import IbSrp.CreditProtocol
import IbSrp.ByteBuffer
import IbSrp.SrpCommand
import IbSrp.DescriptorFormat
import IbSrp.TransmitRing
import IbSrp.ChannelConnection
import IbSrp.QueuePairDrain
import IbSrp.CommandUnwind
import IbSrp.DeviceReset
import IbSrp.CommandGather
import IbSrp.ResponseParsing
import IbSrp.TargetReconnect
import IbSrp.ChannelSetup
import IbSrp.ChannelCoverage
import IbSrp.CpuMap
import IbSrp.CompletionVectors
import IbSrp.TargetOptions
import IbSrp.OptionOrder
import IbSrp.RequestTags
import IbSrp.ChannelObjects
import IbSrp.ChannelResources
import IbSrp.CheckedArithmetic
import IbSrp.HostReferences
import IbSrp.IdentifierTexts
import IbSrp.LoginText
import IbSrp.RdmaCoverage
import IbSrp.RetryDelays
import IbSrp.SetupAgreement
import IbSrp.FmrCommands
import IbSrp.FmrEviction
import IbSrp.FmrFlush
import IbSrp.ChannelProgress
import IbSrp.CommandExchange
import IbSrp.DataPath
import IbSrp.AclNames
import IbSrp.LoginHandshake
import IbSrp.LoginInfo
import IbSrp.TargetContexts
import IbSrp.RequestProgress
