import FpgaPartialReconfig.Lib.Act
import FpgaPartialReconfig.Lib.Calls
import FpgaPartialReconfig.Lib.Runs
import FpgaPartialReconfig.Driver.File
import FpgaPartialReconfig.Driver.PrCore
import FpgaPartialReconfig.Driver.Stream
import FpgaPartialReconfig.Driver.Loader
import FpgaPartialReconfig.Driver.LoadResult
import FpgaPartialReconfig.Driver.WordsWritten
import FpgaPartialReconfig.Driver.LoadersAgree
import FpgaPartialReconfig.Driver.Readings
import FpgaPartialReconfig.Driver.Acceptance
import FpgaPartialReconfig.Driver.StartBit
import FpgaPartialReconfig.Driver.InitialState
import FpgaPartialReconfig.Driver.Polling
import FpgaPartialReconfig.Driver.Region
import FpgaPartialReconfig.Driver.RegionTool
import FpgaPartialReconfig.Driver.InStep
import FpgaPartialReconfig.Driver.Aer
import FpgaPartialReconfig.Driver.Ioctl
import FpgaPartialReconfig.Driver.Lifetime
import FpgaPartialReconfig.Driver.Cards
import FpgaPartialReconfig.Driver.SafeUnfreeze
import FpgaPartialReconfig.Driver.Clients
import FpgaPartialReconfig.Driver.Debugfs
import FpgaPartialReconfig.Driver.AerBalance
import FpgaPartialReconfig.Driver.Subdevices
import FpgaPartialReconfig.Lib.CString
import FpgaPartialReconfig.Driver.UioName
import FpgaPartialReconfig.Lib.Flatten
import FpgaPartialReconfig.Driver.Fdt
import FpgaPartialReconfig.Driver.FdtBlob
import FpgaPartialReconfig.Driver.FdtScan
import FpgaPartialReconfig.Driver.FdtProbe
import FpgaPartialReconfig.Driver.FdtWalk
import FpgaPartialReconfig.Driver.FdtEnds
import FpgaPartialReconfig.Driver.Manager
import FpgaPartialReconfig.Driver.Buffers
import FpgaPartialReconfig.Driver.Program
import FpgaPartialReconfig.Lib.Clock
import FpgaPartialReconfig.Ddr4.WrRd
import FpgaPartialReconfig.Ddr4.OneEach
import FpgaPartialReconfig.Ddr4.Persona
import FpgaPartialReconfig.Ddr4.Hold
import FpgaPartialReconfig.Ddr4.Sweep
import FpgaPartialReconfig.Ddr4.SweepRun
import FpgaPartialReconfig.Ddr4.SweepPhases
import FpgaPartialReconfig.Ddr4.SweepOnce
import FpgaPartialReconfig.Ddr4.Busy
import FpgaPartialReconfig.Ddr4.LfsrCycle
import FpgaPartialReconfig.Ddr4.Memory
import FpgaPartialReconfig.Ddr4.MemoryTest
import FpgaPartialReconfig.Lib.Automaton
import FpgaPartialReconfig.Gol.Life
import FpgaPartialReconfig.Gol.Block
import FpgaPartialReconfig.Gol.Verify
import FpgaPartialReconfig.Gol.Moderator
import FpgaPartialReconfig.Gol.Game
import FpgaPartialReconfig.Gol.Restart
import FpgaPartialReconfig.Lib.Hosted
import FpgaPartialReconfig.Gol.RegFile
import FpgaPartialReconfig.Gol.Host
import FpgaPartialReconfig.SoftNoc.Parts
import FpgaPartialReconfig.SoftNoc.Generator
import FpgaPartialReconfig.SoftNoc.Input
import FpgaPartialReconfig.SoftNoc.Top
import FpgaPartialReconfig.SoftNoc.OwnWords
import FpgaPartialReconfig.SoftNoc.Egress
import FpgaPartialReconfig.SoftNoc.ReadOut
import FpgaPartialReconfig.SoftNoc.ControlData
import FpgaPartialReconfig.Lib.ForLoop
import FpgaPartialReconfig.SoftNoc.PlaceRegion
import FpgaPartialReconfig.Lib.Processes
import FpgaPartialReconfig.Lib.BlockingFifo
import FpgaPartialReconfig.Lib.Sorter
import FpgaPartialReconfig.Scoreboard.Comparator
import FpgaPartialReconfig.Scoreboard.NeverLoses
