import SafeTimer.EventRun
import SafeTimer.KernelText
import SafeTimer.UserText
import SafeTimer.ByteWords
import SafeTimer.CValues
import SafeTimer.EpochTime
import SafeTimer.HeartbeatTable
import SafeTimer.ValidTime
import SafeTimer.SenderTracker
import SafeTimer.SendCompletion
import SafeTimer.BarrierRing
import SafeTimer.BarrierRounds
import SafeTimer.BarrierFlows
import SafeTimer.PacketPath
import SafeTimer.RecordStream
import SafeTimer.PacketBounds
import SafeTimer.ReceiverHost
import SafeTimer.BarrierStream
import SafeTimer.RequestFormat
import SafeTimer.RequestLoop
import SafeTimer.SendDeadline
import SafeTimer.SenderApi
import SafeTimer.RequestServers
import SafeTimer.EpochLists
import SafeTimer.EpochRuns
import SafeTimer.EpochOrder
import SafeTimer.BarrierChannel
import SafeTimer.SampleClock
import SafeTimer.ClockedThread
import SafeTimer.ExpireChecker
import SafeTimer.HeartbeatLoop
import SafeTimer.DropReaders
import SafeTimer.BarrierServer
import SafeTimer.ServerDescriptors
import SafeTimer.FlowSetup
import SafeTimer.BarrierFlush
import SafeTimer.Kretprobe
import SafeTimer.RpsSteering
import SafeTimer.SenderDaemon
import SafeTimer.SampleDetector
import SafeTimer.Lease
import SafeTimer.SenderLease
import SafeTimer.TimeoutSafety
import SafeTimer.ChannelHost
