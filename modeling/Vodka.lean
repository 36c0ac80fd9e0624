import Vodka.Foundation.Trace
import Vodka.Foundation.Chain
import Vodka.Foundation.RingBuffer
import Vodka.Foundation.Alignment
import Vodka.Foundation.Qsort
import Vodka.Foundation.Endian
import Vodka.Foundation.ByteMemory
import Vodka.Foundation.RingMemory
import Vodka.Foundation.Ranges
import Vodka.Foundation.BitFields
import Vodka.Foundation.Loop
import Vodka.Foundation.FlatRegex
import Vodka.Foundation.Scanf
import Vodka.Foundation.Hexadecimal
import Vodka.Foundation.LineBuffer
import Vodka.Foundation.Slots
import Vodka.Foundation.BlockHeap
import Vodka.Syscall.Sbrk
import Vodka.Syscall.TracePort
import Vodka.Zephyr.Slist
import Vodka.Zephyr.Walk
import Vodka.Zephyr.SharedNodes
import Vodka.Bsp.ModuleList
import Vodka.Bsp.ModuleReports
import Vodka.Bsp.ModuleBringUp
import Vodka.Bsp.ModuleLifecycle
import Vodka.Bsp.ModuleRegistry
import Vodka.Bsp.Tty
import Vodka.Bsp.TtyTransfer
import Vodka.Bsp.TtyFifo
import Vodka.Bsp.TtyProgress
import Vodka.Bsp.TtyInit
import Vodka.Bsp.TtyBringUp
import Vodka.Bsp.TtyPointers
import Vodka.Bsp.TtyWrite
import Vodka.Bsp.DmaIrqCache
import Vodka.Bsp.Utils
import Vodka.Bsp.PeriphClk
import Vodka.Bsp.Lcd
import Vodka.Bsp.LcdCopy
import Vodka.Bsp.Ltdc
import Vodka.Bsp.LcdInit
import Vodka.Bsp.LcdPanel
import Vodka.Bsp.LcdEvents
import Vodka.Bsp.Debug
import Vodka.Bsp.Sdram
import Vodka.Bsp.Startup
import Vodka.Bsp.Led
import Vodka.Mkimage.DynOffsets
import Vodka.Mkimage.Config
import Vodka.Mkimage.DcdArray
import Vodka.Mkimage.Layout
import Vodka.Mkimage.Accepted
import Vodka.Mkimage.ConfigState
import Vodka.Mkimage.Header
import Vodka.Mkimage.DcdFormat
import Vodka.Mkimage.Image
import Vodka.Mkimage.Reserved
import Vodka.Mkimage.PrintReads
import Vodka.Mkimage.Mapping
import Vodka.Mkimage.Directives
import Vodka.Mkimage.TokenRoom
import Vodka.Mkimage.DcdGrammar
import Vodka.Mkimage.ConfigText
import Vodka.Mkimage.Listing
import Vodka.Mkimage.CommandLine
import Vodka.Mkimage.Tool
import Vodka.Genconfig.Replace
import Vodka.Genconfig.VariableDict
import Vodka.Genconfig.VariableMap
import Vodka.Genconfig.CommandLine
import Vodka.Genconfig.Scan
import Vodka.Genconfig.Rebuild
import Vodka.Genconfig.Template
import Vodka.Genconfig.Substitution
import Vodka.Genconfig.Exactness
import Vodka.Genconfig.Lines
import Vodka.Genconfig.Cmakedef
import Vodka.Genconfig.Gaps
import Vodka.Genconfig.Capacity
import Vodka.Genconfig.RebuildArray
import Vodka.Genconfig.Program
import Vodka.Genconfig.VariableOrder
import Vodka.Genconfig.DictMemory
import Vodka.Mkimage.PlacementRuns
