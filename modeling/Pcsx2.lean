import Pcsx2.Cdvd.Transparent
import Pcsx2.Cdvd.CsoFrames
import Pcsx2.Dev9.SimpleQueue
import Pcsx2.Foundation.Memory
import Pcsx2.Foundation.Lists
import Pcsx2.Foundation.Run
import Pcsx2.Gif.Buffer
import Pcsx2.Gif.Packets
import Pcsx2.Mtgs.Ring
import Pcsx2.Mtgs.Vsync
import Pcsx2.Mtgs.Packets
import Pcsx2.Mtgs.System
import Pcsx2.Mtvu.Packets
import Pcsx2.Mtvu.System
import Pcsx2.Spu2.Dma
import Pcsx2.Spu2.Cache
import Pcsx2.Vif.Ownership
import Pcsx2.Jit.BlockArray
import Pcsx2.Jit.Links
import Pcsx2.Tcp.Session
import Pcsx2.Tcp.Acks
import Pcsx2.Sio.Safety
import Pcsx2.Ipu.Savestate
import Pcsx2.Memcard.Loading
import Pcsx2.Pine.ClientLoop
import Pcsx2.Vtlb.Fastmem
import Pcsx2.Cop0.Loading
import Pcsx2.Threading.Safety
import Pcsx2.GsHeap.Heap
import Pcsx2.EeCache.Transparent
import Pcsx2.GsMemory.Nibbles
import Pcsx2.Dma.Starts
import Pcsx2.GsTransfer.Savestate
import Pcsx2.Counters.Runs
import Pcsx2.Foundation.Ring
import Pcsx2.Dma.Chain
import Pcsx2.Sif.Fifo
import Pcsx2.Sif.Channels
import Pcsx2.Vif.Equivalence
import Pcsx2.Vif.Partial
import Pcsx2.Audio.Subsequence
import Pcsx2.Patch.Current
import Pcsx2.Dev9.Intact
import Pcsx2.GsClut.Reloads
import Pcsx2.Mechacon.Requests
import Pcsx2.Mechacon.Safety
import Pcsx2.Common.Wildcard
import Pcsx2.PacketReader.Parse
import Pcsx2.PacketReader.RoundTrip
import Pcsx2.PacketReader.Checksums
import Pcsx2.PacketReader.DhcpPrefix
import Pcsx2.PacketReader.Clone
import Pcsx2.PacketReader.DnsNames
import Pcsx2.Common.FileName
import Pcsx2.Common.Url
import Pcsx2.Common.Canonical
import Pcsx2.Memcard.RawReads
import Pcsx2.Memcard.Crc
import Pcsx2.Memcard.HostNames
import Pcsx2.Pine.ParseCommand
import Pcsx2.Foundation.BitStream
import Pcsx2.Ipu.BitPosition
import Pcsx2.Spu2.Envelope
import Pcsx2.Spu2.AutoDma
import Pcsx2.Spu2.DecodeFifo
import Pcsx2.Foundation.Simd
import Pcsx2.Ipu.ColourConversion
import Pcsx2.GsMemory.Blocks
import Pcsx2.Foundation.Intervals
import Pcsx2.GsMemory.PageLooper
import Pcsx2.GsMemory.Pages
import Pcsx2.Foundation.Checked
import Pcsx2.Spu2.Mixer
import Pcsx2.Spu2.Reverb
import Pcsx2.Spu2.Registers
import Pcsx2.Spu2.VoiceBounds
import Pcsx2.Spu2.Mixing
import Pcsx2.Ipu.InverseDct
import Pcsx2.Ipu.IntraBlocks
import Pcsx2.Cop0.Tlb
import Pcsx2.Foundation.Calendar
import Pcsx2.Mechacon.Clock
import Pcsx2.Mechacon.Configuration
import Pcsx2.Cdvd.Blockdump
import Pcsx2.Dma.Scratchpad
import Pcsx2.Foundation.Loop
import Pcsx2.Sif.Progress
import Pcsx2.Patch.Parsing
import Pcsx2.Recording.InputRecordingFile
import Pcsx2.DebugTools.Programs
import Pcsx2.DebugTools.Values
