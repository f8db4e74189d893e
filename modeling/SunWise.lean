import SunWise.Ymodem.Transfer
import SunWise.Library.Runs
import SunWise.Ymodem.Robustness
import SunWise.Library.Memory
import SunWise.Qspi.Controller
import SunWise.Qspi.Fifo
import SunWise.Qspi.ChunkedRead
import SunWise.Flash.Driver
import SunWise.Library.NorFlash
import SunWise.Flash.Guard
import SunWise.Flash.RoundTrip
import SunWise.Flash.ProgramStream
import SunWise.Gmac.Descriptor
import SunWise.Gmac.TxRing
import SunWise.Gmac.Output
import SunWise.Gmac.OutputSafety
import SunWise.Gmac.OutputOrder
import SunWise.Gmac.Input
import SunWise.Gmac.RxConservation
import SunWise.Gmac.RxFrames
import SunWise.Gmac.RxLayout
import SunWise.Gmac.InputSteps
import SunWise.Gmac.RxDelivery
import SunWise.Gmac.Wakeup
import SunWise.Gmac.WakeupDrain
import SunWise.Ymodem.Acceptance
import SunWise.Ymodem.Handles
import SunWise.Pwm.CaptureFlags
import SunWise.Srio.Completion
import SunWise.Library.CString
import SunWise.Shell.Editor
import SunWise.Library.LineEditor
import SunWise.Shell.Keys
import SunWise.Shell.Refinement
import SunWise.Shell.StringSafety
import SunWise.Library.Terminal
import SunWise.Shell.Screen
import SunWise.Shell.Commands
import SunWise.Shell.Dispatch
import SunWise.Dd.Command
import SunWise.Dd.Range
import SunWise.Dd.Written
import SunWise.Iperf.Tasks
import SunWise.Library.Interaction
import SunWise.Iperf.Discipline
import SunWise.Gmac.CrcTable
import SunWise.Ymodem.Framing
import SunWise.Gmac.GenPacket
import SunWise.Gmac.SendPacket
import SunWise.Gmac.OutputBounds
import SunWise.Gmac.RxGather
import SunWise.Shell.RoundTrip
import SunWise.Library.ByteOrder
import SunWise.Library.BitField
import SunWise.Gmac.DescriptorWords
import SunWise.Gmac.Endianness
import SunWise.Gmac.DescriptorFields
import SunWise.Library.NandFlash
import SunWise.Smc.Driver
import SunWise.Smc.Addressing
import SunWise.Library.ParallelNor
import SunWise.Amc.Driver
import SunWise.Amc.Programming
import SunWise.Can.Driver
import SunWise.Can.Frames
import SunWise.Can.FilterHistory
import SunWise.Can.Acceptance
import SunWise.Can.BitTiming
import SunWise.Pwm.Isolation
import SunWise.Epwm.Driver
import SunWise.Epwm.Compare
import SunWise.Epwm.Capture
import SunWise.I2c.Driver
import SunWise.I2c.Framing
import SunWise.Srio.Descriptors
import SunWise.Coret.Delay
import SunWise.Iperf.SpeedArithmetic
import SunWise.Iperf.CriticalSection
import SunWise.Shell.Completion
import SunWise.Shell.Dump
import SunWise.Shell.ShownData
import SunWise.Heap.Blocks
import SunWise.Library.Spans
import SunWise.Heap.FreeList
import SunWise.Library.Allocation
import SunWise.Heap.Allocator
import SunWise.Heap.Clients
import SunWise.Heap.Accounting
import SunWise.Xprintf.Format
import SunWise.Library.Numeral
import SunWise.Xprintf.Fields
import SunWise.Xprintf.Pieces
import SunWise.Xprintf.ReadBack
import SunWise.Library.CrcErrors
import SunWise.Ymodem.Damage
import SunWise.Dd.Cells
import SunWise.Dd.Update
import SunWise.Library.RingMemory
import SunWise.Kernel.QueueStorage
import SunWise.Library.Service
import SunWise.Kernel.QueueCalls
