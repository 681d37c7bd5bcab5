import UaeCpu.Lib.Fault
import UaeCpu.Regs
import UaeCpu.StatusReg
import UaeCpu.Banking
import UaeCpu.Context
import UaeCpu.Machine
import UaeCpu.Lib.Run
import UaeCpu.Clock
import UaeCpu.Frame
import UaeCpu.Exception
import UaeCpu.Interrupt
import UaeCpu.InterruptService
import UaeCpu.Run
import UaeCpu.Rte
import UaeCpu.System
import UaeCpu.Simulation
import UaeCpu.Calls
import UaeCpu.Lib.ByteMem
import UaeCpu.Ram
import UaeCpu.MasterStack
import UaeCpu.Monotonic
import UaeCpu.Timeslice
import UaeCpu.Masked
import UaeCpu.Stop
import UaeCpu.SupervisorStack
import UaeCpu.Termination
import UaeCpu.RegisterApi
import UaeCpu.Lib.Loop
import UaeCpu.MemoryMap
import UaeCpu.Mapping
import UaeCpu.Regions
import UaeCpu.Leaks
import UaeCpu.Coverage
import UaeCpu.JitView
import UaeCpu.MemoryAccess
import UaeCpu.InBounds
import UaeCpu.DirectFetch
import UaeCpu.Layout
import UaeCpu.AddressSpace
import UaeCpu.Dispatch
import UaeCpu.ReservedOpcodes
import UaeCpu.Lib.Marks
import UaeCpu.Atc
import UaeCpu.TableWalk
import UaeCpu.AtcLine
import UaeCpu.Translation
import UaeCpu.Coherence
import UaeCpu.Lib.Fields
import UaeCpu.Mmu030
import UaeCpu.Mmu030Search
import UaeCpu.Mmu030Access
import UaeCpu.Mmu030Ops
import UaeCpu.Mmu030Frame
import UaeCpu.TranslationControl
import UaeCpu.Walk030
import UaeCpu.Search030
import UaeCpu.TableSearch030
import UaeCpu.AtcRefill
import UaeCpu.Restart030
import UaeCpu.Rte030
import UaeCpu.RestartFrame
import UaeCpu.Exception030
import UaeCpu.RestartLog
import UaeCpu.RteLog
import UaeCpu.RteBounds
import UaeCpu.Fpu
import UaeCpu.FpuFrame
import UaeCpu.FpuMode
import UaeCpu.FpuAgree
import UaeCpu.FpuFormat
import UaeCpu.FpsrAccrued
import UaeCpu.JitDispatch
import UaeCpu.Lib.Checksum
import UaeCpu.JitChecksum
import UaeCpu.Bitfield
import UaeCpu.LongArith
import UaeCpu.Movec
import UaeCpu.AtcSets
import UaeCpu.TcShifts
import UaeCpu.Ptest030
import UaeCpu.PtestAtc030
import UaeCpu.Lib.Joint
import UaeCpu.RteAgree
import UaeCpu.FpRegisterApi
import UaeCpu.FlagTable
import UaeCpu.Lib.Liveness
import UaeCpu.OutsideBusError
import UaeCpu.DeadFlags
import UaeCpu.DbfSpin
import UaeCpu.CustomAccess
import UaeCpu.Lib.LongDivision
import UaeCpu.DivTiming
import UaeCpu.DisasmBuffer
import UaeCpu.JitConstants
import UaeCpu.Lib.Resume
import UaeCpu.FmovemRoundTrip
import UaeCpu.SingleStep
import UaeCpu.StopCall
import UaeCpu.Misaligned030
import UaeCpu.EffectiveAddressJit
import UaeCpu.HostLog
import UaeCpu.Lib.Rounding
import UaeCpu.FpArithmetic
import UaeCpu.SoftFloatInt
import UaeCpu.SoftFloatCompare
