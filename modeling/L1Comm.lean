import L1Comm.Machine.Run
import L1Comm.Machine.Registers
import L1Comm.Machine.Recording
import L1Comm.Machine.Reach
import L1Comm.Machine.Progress
import L1Comm.Machine.Simulation
import L1Comm.Machine.Client
import L1Comm.Framing.Records
import L1Comm.Uv.Loop
import L1Comm.Uv.History
import L1Comm.Uv.Queue
import L1Comm.Uv.Renaming
import L1Comm.Wire.L1
import L1Comm.Wire.Accessors
import L1Comm.Wire.NumGenerator
import L1Comm.Worker
import L1Comm.Thread
import L1Comm.Sender.Model
import L1Comm.Sender.Steps
import L1Comm.Sender.Invariant
import L1Comm.Sender.Failures
import L1Comm.Sender.LateCompletions
import L1Comm.Sender.Timers
import L1Comm.Sender.HandleProtocol
import L1Comm.Sender.Heartbeats
import L1Comm.Sender.Actions
import L1Comm.Sender.System
import L1Comm.Sender.Independence
import L1Comm.Sender.Sequence
import L1Comm.Sender.Sockets
import L1Comm.Sender.Payloads
import L1Comm.Sender.Pointers
import L1Comm.Sender.Stop
import L1Comm.Sender.Restart
import L1Comm.Sender.Link
import L1Comm.Sender.Wire
import L1Comm.Receiver.Model
import L1Comm.Receiver.Invariant
import L1Comm.Receiver.Framing
import L1Comm.Receiver.Listening
import L1Comm.Receiver.Steps
import L1Comm.Receiver.Clients
import L1Comm.Receiver.Buffers
import L1Comm.Receiver.Stop
import L1Comm.Receiver.HandleProtocol
import L1Comm.Receiver.Service
import L1Comm.Receiver.Independence
import L1Comm.Receiver.Alone
import L1Comm.Workers
import L1Comm.Shutdown
import L1Comm.Receiver.Realised
import L1Comm.Sender.Recovery
import L1Comm.Receiver.Recovery
import L1Comm.Demo
import L1Comm.Python.Text
import L1Comm.Python.Iteration
import L1Comm.Python.Script
import L1Comm.Python.Shlex
import L1Comm.Python.Shell
import L1Comm.Watchman.Model
import L1Comm.Watchman.Decision
import L1Comm.Watchman.Restart
import L1Comm.Watchman.Rounds
import L1Comm.Watchman.LoadConfig
import L1Comm.Watchman.Configuration
import L1Comm.Watchman.Settings
import L1Comm.Watchman.Main
import L1Comm.Watchman.Processes
