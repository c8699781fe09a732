import SentryCell.Hal.TxRuns
import SentryCell.Hal.RxRuns
import SentryCell.Protocol.ErrorDetection
import SentryCell.Firmware.Board
import SentryCell.Firmware.Profilers
import SentryCell.Firmware.Tasks
import SentryCell.Firmware.Reports
import SentryCell.Firmware.Communication
import SentryCell.Lib.History
import SentryCell.Lib.Mailbox
import SentryCell.Firmware.Requests
import SentryCell.Firmware.SafeState
import SentryCell.Firmware.PassLength
import SentryCell.Firmware.Enqueued
import SentryCell.Protocol.Recovery
import SentryCell.Firmware.Scheduler
import SentryCell.Firmware.Execution
import SentryCell.Firmware.ObstacleFault
import SentryCell.Firmware.Timer1
import SentryCell.Lib.Instrument
import SentryCell.Protocol.Gaps
import SentryCell.Firmware.ReceiveLog
import SentryCell.Host.Telemetry
import SentryCell.System.Telemetry
import SentryCell.Host.Dashboard
import SentryCell.Host.DashboardLog
import SentryCell.Host.Poller
import SentryCell.Host.SerialLink
import SentryCell.Host.Cycle
import SentryCell.Host.Resync
import SentryCell.Lib.Simulation
import SentryCell.Firmware.LocalTasks
import SentryCell.Firmware.Isolation
import SentryCell.Firmware.ProfilerFolds
import SentryCell.System.CpuLoad
import SentryCell.Firmware.ServoWaveform
import SentryCell.Firmware.ControlFrame
import SentryCell.Firmware.Button
import SentryCell.Host.Chunks
import SentryCell.Host.PollerRun
import SentryCell.Lib.Watermark
import SentryCell.Firmware.MemoryWatermark
import SentryCell.Host.Evidence
import SentryCell.Lib.Bounds
import SentryCell.Protocol.Buffers
import SentryCell.Firmware.BufferSafety
import SentryCell.System.HostRequest
import SentryCell.System.Conversation
import SentryCell.System.Passes
import SentryCell.System.Transactions
import SentryCell.Lib.Avr
import SentryCell.Firmware.Reset
import SentryCell.Firmware.Stepper
import SentryCell.Lib.Calls
import SentryCell.Host.Os
import SentryCell.Host.Commands
import SentryCell.Host.ValidationProfile
import SentryCell.Host.Release
import SentryCell.Host.Plans
import SentryCell.Host.Campaigns
