import Milo.Engine.Validation.WellFormed
import Milo.Engine.Validation.Termination
import Milo.Transport.Bound
import Milo.Engine.Threaded.Sequential
import Milo.MainLoop.Authorization
import Milo.MainLoop.Ledger
import Milo.MainLoop.Delivery
import Milo.MainLoop.Order
import Milo.Host.Coherence
import Milo.Engine.Link.Stream
import Milo.Host.Transport.Position
import Milo.Transport.RoundTrip
import Milo.Transport.Clients
import Milo.Transport.Refusal
import Milo.Runtime.Transfer
import Milo.Hal.Audit
import Milo.MainLoop.Ownership
import Milo.MainLoop.Effect
import Milo.MainLoop.SingleCore
import Milo.Entry.Provisioning
import Milo.Pico.Equivalence
import Milo.MainLoop.Status
import Milo.Engine.Validation.Linker
import Milo.Host.Discovery
import Milo.Runtime.Logs
import Milo.Host.Compiler.Sharing
import Milo.Host.Flash.Release
import Milo.Host.Mcp.Serving
import Milo.Engine.DualCore
import Milo.Hal.Isolation
import Milo.Runtime.Ranges
import Milo.Runtime.Receive
import Milo.Runtime.Frame
import Milo.Runtime.Fuel
import Milo.Entry.StdinJson
import Milo.Engine.Manifest.Decoding
import Milo.Host.Mcp.Processes
import Milo.Host.Registry.FanOut
import Milo.Host.Flash.Init.Approved
import Milo.Entry.HexKey
import Milo.Engine.Validation.VarU32
import Milo.Targets.Sim.Bounds
import Milo.Host.Signing.Provisioned
import Milo.Host.ExtractRust.Replies
import Milo.Lib.Window
import Milo.Runtime.Wasmi.Fuel
import Milo.Runtime.Wasmi.MemoryType
import Milo.Runtime.Wasmi.Memory
import Milo.Runtime.Wasmi.Memory.Growth
import Milo.Lib.LittleEndian
import Milo.Runtime.Wasmi.Access
import Milo.Runtime.Wasmi.Instrs
import Milo.Runtime.Wasmi.Instrs.Run
import Milo.Runtime.Wasmi.Instrs.Reference
import Milo.Lib.Calls.World
import Milo.Runtime.Wasmi.InitExpr
import Milo.Runtime.Wasmi.InitExpr.Preserved
import Milo.Runtime.Wasmi.Instantiate
import Milo.Runtime.Wasmi.Instantiate.Globals
import Milo.Runtime.Wasmi.Instantiate.Data
import Milo.Demos.Drivers
import Milo.Demos.Lines
import Milo.Demos.Flight
import Milo.Demos.Flight.Law
import Milo.Demos.Board
import Milo.Demos.Conveyor
import Milo.Demos.Arm
import Milo.Demos.Oven
import Milo.Demos.Oven.Closed
