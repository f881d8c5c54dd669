import FexEmu.Core.LookupCacheRefinement
import FexEmu.Core.CodeInvalidationProofs
import FexEmu.IR.DeadStoreEliminationProofs
import FexEmu.IR.RedundantStoreLoadProofs
import FexEmu.OpcodeDispatcher.GenerateIRProofs
import FexEmu.IR.StaticRegistersProofs
import FexEmu.Frontend.DecodeBuffer
import FexEmu.LinuxSyscalls.SMCTrackingProofs
import FexEmu.OpcodeDispatcher.X87Mirror
import FexEmu.Arm64.Dispatcher
import FexEmu.Utils.ThreadPoolRuns
import FexEmu.Arm64.InlineSyscalls
import FexEmu.Config.Reload
import FexEmu.Elf.ElfRight
import FexEmu.IR.WriteoutQueueProofs
import FexEmu.LinuxSyscalls.ProgramBreak
import FexEmu.LinuxSyscalls.SignalMasksProofs
import FexEmu.Utils.RefcountSharedMutexProofs
import FexEmu.IR.AOTIRProofs
import FexEmu.IR.AddressFoldingProofs
import FexEmu.IR.CompactionProofs
import FexEmu.IR.ConstantPropagationProofs
import FexEmu.IR.LongDivideEliminationProofs
import FexEmu.IR.ZextElimination
import FexEmu.IR.SelectMotionRuns
import FexEmu.Elf.InitialStackProofs
import FexEmu.X32.IpcProofs
import FexEmu.X32.WrappersProofs
import FexEmu.LinuxSyscalls.RemapFlags
import FexEmu.LinuxSyscalls.ShmDetach
import FexEmu.LinuxSyscalls.VMAChanges
import FexEmu.Frontend.PrefixSelection
import FexEmu.IR.ValueDominanceProofs
import FexEmu.OpcodeDispatcher.StringPointers
import FexEmu.Frontend.InstructionLengthProofs
import FexEmu.Frontend.CodePages
import FexEmu.OpcodeDispatcher.IntegerALUProofs
import FexEmu.Interpreter.ParallelBits
import FexEmu.Utils.Allocator64Search
import FexEmu.Utils.Allocator64HostCalls
import FexEmu.Arm64.PatchedAccessProofs
import FexEmu.Interpreter.PackedDecimal
import FexEmu.OpcodeDispatcher.X87ExtendedState
import FexEmu.OpcodeDispatcher.IntegerRuns
import FexEmu.Utils.StealMemory
import FexEmu.Core.SignalFrameLayout
import FexEmu.LinuxSyscalls.SignalAltStack
import FexEmu.Core.GdbServer
import FexEmu.X32.DrmCache
import FexEmu.X32.Select
import FexEmu.Arm64.ValidateCode
import FexEmu.LinuxSyscalls.GetDentsFaithful
import FexEmu.FEXServer.Packets
import FexEmu.OpcodeDispatcher.CountedBranches
