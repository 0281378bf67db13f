import TagGateway.Text.Octets
import TagGateway.Json.Parser
import TagGateway.Reader.CapabilitiesWire
import TagGateway.Reader.OperationWire
import TagGateway.Scan.BehaviorWire
import TagGateway.Scan.Mode
import TagGateway.Scan.Compile
import TagGateway.Json.Printer
import TagGateway.Device.CarryForward
import TagGateway.Inventory.Window
import TagGateway.Inventory.Mobility
import TagGateway.Inventory.Config
import TagGateway.Inventory.Clock
import TagGateway.Inventory.Tag
import TagGateway.Inventory.Snapshot
import TagGateway.Inventory.Basic
import TagGateway.Inventory.Wire
import TagGateway.Group.Basic
import TagGateway.Store.Snapshot
import TagGateway.Link.Queue
import TagGateway.Link.Lines
import TagGateway.Gateway.Settings
import TagGateway.Gateway.Station
import TagGateway.Gateway.Dispatch
import TagGateway.Main
import TagGateway.Proofs.Inventory.Run
import TagGateway.Proofs.Inventory.Sound
import TagGateway.Proofs.Inventory.History
import TagGateway.Proofs.Inventory.Replay
import TagGateway.Proofs.Device.Compile
import TagGateway.Proofs.Group.Run
import TagGateway.Proofs.Group.Suited
import TagGateway.Proofs.Group.Recorded
import TagGateway.Proofs.Group.Held
import TagGateway.Proofs.Device.Reported
import TagGateway.Proofs.Device.Within
import TagGateway.Proofs.Inventory.Reachable
import TagGateway.Proofs.Inventory.LockStep
import TagGateway.Proofs.Inventory.Restart
import TagGateway.Proofs.Link.Lines
import TagGateway.Proofs.Decimal.Double
import TagGateway.Proofs.Decimal.Shortest
import TagGateway.Proofs.Json.Numeral
import TagGateway.Proofs.Json.Scan
import TagGateway.Proofs.Json.Reread
import TagGateway.Proofs.Wire.Passes
import TagGateway.Proofs.Store.Snapshot
import TagGateway.Proofs.Gateway.Station
import TagGateway.Proofs.Inventory.Standing
import TagGateway.Proofs.Inventory.Independence
import TagGateway.Proofs.Inventory.Noninterference
import TagGateway.Proofs.Inventory.Differences
import TagGateway.Proofs.Group.Enrolled
import TagGateway.Proofs.Gateway.Dispatch
import TagGateway.Proofs.Wire.Lossless
import TagGateway.Proofs.Reading.Lossless
import TagGateway.Proofs.Reader.Lossless
import TagGateway.Proofs.Json.Plain
import TagGateway.Proofs.Link.Framing
import TagGateway.Proofs.Group.Change
import TagGateway.Proofs.Group.Join
import TagGateway.Proofs.Scan.Ceiling
import TagGateway.Proofs.Device.Power
import TagGateway.Proofs.Device.Satisfiable
import TagGateway.Proofs.Decimal.Order
import TagGateway.Proofs.Scan.Best
import TagGateway.Proofs.Device.Mode
import TagGateway.Proofs.Inventory.Diary
import TagGateway.Proofs.Inventory.Evidence
import TagGateway.Proofs.Device.Channel
import TagGateway.Proofs.Inventory.Skew
import TagGateway.Proofs.Device.CarryForward
import TagGateway.Proofs.Inventory.Digest
import TagGateway.Proofs.Inventory.Sweep
import TagGateway.Proofs.Device.Complete
import TagGateway.Proofs.Inventory.Windows
import TagGateway.Proofs.Inventory.Contest
import TagGateway.Proofs.Inventory.Identity
import TagGateway.Proofs.Device.ChipIdentity
import TagGateway.Proofs.Inventory.Locations
