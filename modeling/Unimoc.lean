import Unimoc.CurrentControl.Activation
import Unimoc.CurrentControl.AllowedTorque
import Unimoc.CurrentControl.BoundedWrapping
import Unimoc.CurrentControl.Controllers
import Unimoc.CurrentControl.DcLinkLimit
import Unimoc.CurrentControl.FluxObserver
import Unimoc.CurrentControl.HallAge
import Unimoc.CurrentControl.HallQueue
import Unimoc.CurrentControl.HallRestart
import Unimoc.CurrentControl.HallSectors
import Unimoc.CurrentControl.HandOver
import Unimoc.CurrentControl.HfiPairing
import Unimoc.CurrentControl.HfiSamples
import Unimoc.CurrentControl.Homing
import Unimoc.CurrentControl.Integrators
import Unimoc.CurrentControl.Mailbox
import Unimoc.CurrentControl.Modulator
import Unimoc.CurrentControl.ObserverCovariance
import Unimoc.CurrentControl.OuterStep
import Unimoc.CurrentControl.RotorCounts
import Unimoc.CurrentControl.SinCosFloat
import Unimoc.CurrentControl.SpeedDemand
import Unimoc.CurrentControl.SpeedLimits
import Unimoc.CurrentControl.TimeUpdate
import Unimoc.CurrentControl.WellDefined
import Unimoc.Cyphal.CanardTransport
import Unimoc.Cyphal.PlugAndPlay
import Unimoc.Cyphal.PortList
import Unimoc.Cyphal.RegisterValue
import Unimoc.Cyphal.Registers
import Unimoc.Cyphal.Wire
import Unimoc.Drive.Allocation
import Unimoc.Drive.Barrier
import Unimoc.Drive.Bumpless
import Unimoc.Drive.BusLoss
import Unimoc.Drive.CartModes
import Unimoc.Drive.CommandSettings
import Unimoc.Drive.CurrentBound
import Unimoc.Drive.LimpHome
import Unimoc.Drive.LiveSettings
import Unimoc.Drive.LocalRequest
import Unimoc.Drive.Outputs
import Unimoc.Drive.Ports
import Unimoc.Drive.Publications
import Unimoc.Drive.Readiness
import Unimoc.Drive.Refusals
import Unimoc.Drive.RegisterProvider
import Unimoc.Drive.RegisterWrite
import Unimoc.Drive.StartupRuns
import Unimoc.Drive.Supervision
import Unimoc.Ebike.AssistController
import Unimoc.Ebike.AssistRamp
import Unimoc.Ebike.BatteryBars
import Unimoc.Ebike.CadencePulses
import Unimoc.Ebike.DisplayCodec
import Unimoc.Ebike.DisplayEdges
import Unimoc.Ebike.DisplaySync
import Unimoc.Ebike.EbikeControl
import Unimoc.Ebike.InhibitLatch
import Unimoc.Ebike.LocalControl
import Unimoc.Ebike.PedalDivisions
import Unimoc.Ebike.PedalMean
import Unimoc.Firmware.SaveGate
import Unimoc.Hardware.DeadTime
import Unimoc.Hardware.DutyPlan
import Unimoc.Hardware.HotPathTiming
import Unimoc.Hardware.SampleCurrents
import Unimoc.Hardware.TripSafety
import Unimoc.Hardware.ZephyrCanMedia
import Unimoc.Hardware.ZephyrSettingsStorage
import Unimoc.Lib.Copies
import Unimoc.Lib.ExtendedReal
import Unimoc.Lib.FirstLeast
import Unimoc.Lib.KalmanCycle
import Unimoc.Lib.Recent
import Unimoc.Settings.Codec
import Unimoc.Settings.Descriptions
import Unimoc.Settings.ExactValidation
import Unimoc.Settings.Flash
import Unimoc.Settings.Retry
import Unimoc.Settings.RoundTrip
import Unimoc.Settings.UnsavedCount
import Unimoc.Sim.HallEdges
import Unimoc.Sim.SimHardware
import Unimoc.Sim.SlcanBridge
import Unimoc.Sim.SlcanOutput
import Unimoc.Startup.Alignment
import Unimoc.Startup.Calibration
import Unimoc.Startup.Committed
import Unimoc.Startup.Isolation
import Unimoc.Startup.PassingBench
import Unimoc.Startup.PassingRun
import Unimoc.Startup.PassingSteps
import Unimoc.Startup.Requests
import Unimoc.Startup.Samples
import Unimoc.Startup.StepOrder
import Unimoc.Startup.Sweep
import Unimoc.Startup.SweepEntry
import Unimoc.Startup.Verdicts
import Unimoc.Units.Extended
