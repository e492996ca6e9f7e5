import CoupledCC.Lib.Word
import CoupledCC.Lib.Trace
import CoupledCC.Lib.Credit
import CoupledCC.Lib.Curve
import CoupledCC.Lib.CubeRoot
import CoupledCC.Lib.Floor
import CoupledCC.Lib.Registers
import CoupledCC.Lib.Bytes
import CoupledCC.Lib.Text
import CoupledCC.Lib.Argp
import CoupledCC.Lib.Files
import CoupledCC.Lib.Journal
import CoupledCC.Lib.LinkedList
import CoupledCC.Lib.Falls
import CoupledCC.Lib.Double
import CoupledCC.Lib.Rounds
import CoupledCC.Lib.Isolation
import CoupledCC.Tcp.Sock
import CoupledCC.Reno.CongAvoid
import CoupledCC.Reno.Split
import CoupledCC.Reno.Growth
import CoupledCC.Cubic.Root
import CoupledCC.Cubic.Bictcp
import CoupledCC.Cubic.Callbacks
import CoupledCC.Cubic.Growth
import CoupledCC.Cubic.Target
import CoupledCC.Cubic.Runs
import CoupledCC.Cubic.Hystart
import CoupledCC.Cubic.AckTrain
import CoupledCC.Cubic.Exit
import CoupledCC.Cubic.Epoch
import CoupledCC.Cubic.Friendliness
import CoupledCC.Cubic.Idle
import CoupledCC.Cubic.RootAccuracy
import CoupledCC.Cubic.RootSafety
import CoupledCC.Vegas.Callbacks
import CoupledCC.Vegas.Decision
import CoupledCC.Vegas.SlowStart
import CoupledCC.Vegas.Samples
import CoupledCC.Vegas.Filters
import CoupledCC.Vegas.Rounds
import CoupledCC.Bbr.Sock
import CoupledCC.Bbr.Pacing
import CoupledCC.Bbr.Rate
import CoupledCC.Bbr.Model
import CoupledCC.Bbr.Policer
import CoupledCC.Bbr.Callbacks
import CoupledCC.Bbr.Phase
import CoupledCC.Bbr.Mode
import CoupledCC.Bbr.ProbeRtt
import CoupledCC.Bbr.ProbeRttEnd
import CoupledCC.Bbr.Restore
import CoupledCC.Bbr.Window
import CoupledCC.Bbr.Fields
import CoupledCC.Bbr.Gauges
import CoupledCC.Bbr.FullPipe
import CoupledCC.Bbr.Counters
import CoupledCC.Bbr.Aggregation
import CoupledCC.Bbr.Frame
import CoupledCC.Bbr.Rounds
import CoupledCC.Bbr.MinRtt
import CoupledCC.Bbr.Startup
import CoupledCC.Bbr.Recovery
import CoupledCC.Bbr.LongTerm
import CoupledCC.Bbr.GainCycle
import CoupledCC.Transfer.Message
import CoupledCC.Transfer.Decoder
import CoupledCC.Transfer.Framing
import CoupledCC.Transfer.Server
import CoupledCC.Transfer.ServerLoop
import CoupledCC.Transfer.Copy
import CoupledCC.Transfer.CopyFile
import CoupledCC.Transfer.Independent
import CoupledCC.Transfer.FastTransfer
import CoupledCC.Transfer.Replace
import CoupledCC.Transfer.Children
import CoupledCC.Transfer.Clients
import CoupledCC.Libcc.Loader
import CoupledCC.Libcc.Select
import CoupledCC.Libcc.Tool
import CoupledCC.Transfer.RateList
import CoupledCC.Transfer.Analyzer
import CoupledCC.Transfer.LogData
import CoupledCC.Transfer.BothSides
import CoupledCC.Transfer.Meter
import CoupledCC.Transfer.Options
import CoupledCC.Transfer.Process
