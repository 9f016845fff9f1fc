import KnockoutKraken.Library.BitSet
import KnockoutKraken.Antmicro.CSR
import KnockoutKraken.Library.Machine
import KnockoutKraken.Antmicro.AXI4LiteCSR
import KnockoutKraken.Antmicro.Bus
import KnockoutKraken.Antmicro.Frontend
import KnockoutKraken.Library.BitPat
import KnockoutKraken.Arm.BitPatterns
import KnockoutKraken.Arm.DecodeLiterals
import KnockoutKraken.Arm.DecodeTable
import KnockoutKraken.Arm.Encoding
import KnockoutKraken.Library.OfBits
import KnockoutKraken.Arm.SharedFunctions
import KnockoutKraken.Arm.DataProcessing
import KnockoutKraken.Arm.Branches
import KnockoutKraken.Library.Indices
import KnockoutKraken.Arm.LoadStore
import KnockoutKraken.Arm.RegisterFields
import KnockoutKraken.Armflex.Decode
import KnockoutKraken.Armflex.PState
import KnockoutKraken.Armflex.Branch
import KnockoutKraken.Library.Tokens
import KnockoutKraken.Util.FlushQueue
import KnockoutKraken.Util.RamQueue
import KnockoutKraken.Armflex.Commit
import KnockoutKraken.Library.Packing
import KnockoutKraken.Util.Bram
import KnockoutKraken.Armflex.Transplant
import KnockoutKraken.Armflex.PipelineWithTransplant
import KnockoutKraken.Armflex.CommitFrame
import KnockoutKraken.Armflex.CommitSequence
import KnockoutKraken.Armflex.Execute
import KnockoutKraken.Armflex.ExecuteUnit
import KnockoutKraken.Armflex.SoftwareBundle
import KnockoutKraken.Util.Queues
import KnockoutKraken.Armflex.MemoryInterface
import KnockoutKraken.Armflex.LoadStore
import KnockoutKraken.Armflex.LDSTUnit
import KnockoutKraken.Util.BaseModules
import KnockoutKraken.Armflex.Fetch
import KnockoutKraken.Armflex.Pipeline
import KnockoutKraken.Armflex.ExecuteStage
import KnockoutKraken.Armflex.Acceptance
import KnockoutKraken.Armflex.AddSub
import KnockoutKraken.Armflex.Logical
import KnockoutKraken.Armflex.BitMasks
import KnockoutKraken.Armflex.Bitfield
import KnockoutKraken.Armflex.BranchConformance
import KnockoutKraken.Armflex.TokenFlow
import KnockoutKraken.Armflex.Credits
import KnockoutKraken.Armflex.DataAddresses
import KnockoutKraken.Cache.CacheEntry
import KnockoutKraken.Cache.LRUCore
import KnockoutKraken.Library.OneHot
import KnockoutKraken.Cache.Databank
import KnockoutKraken.Library.Arbiter
import KnockoutKraken.Cache.BaseCache
import KnockoutKraken.Library.Bytes
import KnockoutKraken.Armflex.DataPath
import KnockoutKraken.Armflex.ResponseMatching
import KnockoutKraken.Armflex.FetchAddresses
import KnockoutKraken.Armflex.FlushPermission
import KnockoutKraken.Armflex.RoundTrip
import KnockoutKraken.Armflex.ThreadTokens
import KnockoutKraken.Armflex.TransplantRequests
import KnockoutKraken.Armflex.PipelineAxi
import KnockoutKraken.Armflex.StopCPU
import KnockoutKraken.Armflex.HostRegisters
import KnockoutKraken.Armflex.InFlight
import KnockoutKraken.Armflex.InstructionSet
import KnockoutKraken.Armflex.MemoryPacking
import KnockoutKraken.Armflex.LoadStoreConformance
import KnockoutKraken.Armflex.OneSource
import KnockoutKraken.Library.KeyedRow
import KnockoutKraken.Cache.SecondStage
import KnockoutKraken.Cache.BankHazard
import KnockoutKraken.Cache.TLB
import KnockoutKraken.Cache.TLBAnswer
import KnockoutKraken.Armflex.Permission
import KnockoutKraken.Armflex.PreciseExceptions
import KnockoutKraken.Armflex.SequentialExecution
import KnockoutKraken.Armflex.ProgramExecution
import KnockoutKraken.Armflex.Register31
import KnockoutKraken.Armflex.StackPointer
import KnockoutKraken.Library.Calls
import KnockoutKraken.Regression.FpgaInterface
import KnockoutKraken.Armflex.StateTransfer
import KnockoutKraken.Armflex.VectorSerializable
import KnockoutKraken.Cache.AXIDramController
import KnockoutKraken.Library.Overtaking
import KnockoutKraken.Cache.BackEndOrder
import KnockoutKraken.Cache.UniqueEntry
import KnockoutKraken.Cache.Stall
import KnockoutKraken.Cache.CurrentEntry
import KnockoutKraken.Cache.FreshWay
import KnockoutKraken.Cache.Writeback
import KnockoutKraken.Cache.BlockAddress
import KnockoutKraken.Cache.Coherence
import KnockoutKraken.Cache.Conservation
import KnockoutKraken.Library.Recency
import KnockoutKraken.Cache.MatrixLRU
import KnockoutKraken.Cache.PageFlush
import KnockoutKraken.Library.PointerTree
import KnockoutKraken.Cache.PseudoTree
import KnockoutKraken.Cache.RefillPairing
import KnockoutKraken.Cache.TranslationTable
import KnockoutKraken.Cache.Untouched
import KnockoutKraken.Library.Ring
import KnockoutKraken.Instrumentation.TraceDump
import KnockoutKraken.Instrumentation.TraceBuffer
import KnockoutKraken.Instrumentation.TraceFidelity
import KnockoutKraken.Library.Bursts
import KnockoutKraken.Library.Fifo
import KnockoutKraken.Library.Turns
import KnockoutKraken.Mmu.PageTableSet
import KnockoutKraken.Mmu.Operation
import KnockoutKraken.Mmu.TLBWritebackHandler
import KnockoutKraken.Mmu.PageWalker
import KnockoutKraken.Mmu.QEMUMissReplyHandler
import KnockoutKraken.Mmu.QEMUPageEvictHandler
import KnockoutKraken.Mmu.Atomicity
import KnockoutKraken.Mmu.PageDeletor
import KnockoutKraken.Mmu.PageDeletion
import KnockoutKraken.Mmu.DeletionProtocol
import KnockoutKraken.Mmu.PageTablePlacement
import KnockoutKraken.Mmu.PageTable
import KnockoutKraken.Mmu.PageTableSetBuffer
import KnockoutKraken.Mmu.SetTransfer
import KnockoutKraken.Mmu.PageTableRefinement
import KnockoutKraken.Mmu.HandlerProgress
import KnockoutKraken.Mmu.QEMUMessageDecoder
import KnockoutKraken.Mmu.MessageFPGA
import KnockoutKraken.Mmu.MessageOrder
import KnockoutKraken.Mmu.WritebackFrame
import KnockoutKraken.Regression.IPCServer
import KnockoutKraken.Util.AXIControlledMessageQueue
import KnockoutKraken.Util.AXIDMAMultiplexer
import KnockoutKraken.Util.RingQueue
import KnockoutKraken.Util.AXIInterconnector
import KnockoutKraken.Util.Diverter
import KnockoutKraken.Util.FlushQueueRegisters
import KnockoutKraken.Util.RoundRobin
