import NcsExamples.Lib.Machine
import NcsExamples.PeripheralUart.Transmit
import NcsExamples.PeripheralUart.TransmitOrder
import NcsExamples.PeripheralUart.Chunking
import NcsExamples.PeripheralUart.Callbacks
import NcsExamples.PeripheralUart.BtReceive
import NcsExamples.PeripheralUart.TransmitResume
import NcsExamples.PeripheralUart.TransmitErrors
import NcsExamples.PeripheralUart.TransmitStream
import NcsExamples.PeripheralUart.Receive
import NcsExamples.PeripheralUart.ReceiveSteps
import NcsExamples.PeripheralUart.ReceiveInvariant
import NcsExamples.PeripheralUart.ReceiveFraming
import NcsExamples.PeripheralUart.ReceiveOwnership
import NcsExamples.PeripheralUart.Relay
import NcsExamples.PeripheralUart.Connection
import NcsExamples.PeripheralUart.ConnectionReferences
import NcsExamples.PeripheralUart.PairingAnswers
import NcsExamples.Lib.ReservationRing
import NcsExamples.Passthrough.Bridge
import NcsExamples.Passthrough.Fidelity
import NcsExamples.Passthrough.Draining
import NcsExamples.MatterLight.AppTask
import NcsExamples.MatterLight.FunctionButton
import NcsExamples.MatterLight.FactoryReset
import NcsExamples.MatterLight.Noninterference
import NcsExamples.MatterLight.FunctionWedge
import NcsExamples.MatterLight.ButtonRouting
import NcsExamples.MatterLight.Nus
import NcsExamples.MatterLight.NusAdvertising
import NcsExamples.MatterLight.Lighting
import NcsExamples.MatterLight.LightAgreement
import NcsExamples.TwtDemo.Twt
import NcsExamples.TwtDemo.TwtAgreement
import NcsExamples.TwtDemo.TwtRefusal
import NcsExamples.TwtDemo.TwtFlowId
import NcsExamples.TwtDemo.Ping
import NcsExamples.TwtDemo.PingLiveness
import NcsExamples.TwtDemo.PingTimeout
import NcsExamples.TwtDemo.PingContext
import NcsExamples.TwtDemo.PingSequence
import NcsExamples.Lib.EventFlag
import NcsExamples.Lib.DelayQueue
import NcsExamples.TwtDemo.Advertising
import NcsExamples.TwtDemo.AdvertisingFresh
import NcsExamples.Lib.MessageStream
import NcsExamples.SocketEcho.Client
import NcsExamples.SocketEcho.LinkUp
import NcsExamples.SocketEcho.StartTcp
import NcsExamples.Lib.Scheduler
import NcsExamples.Zigbee.Identify
import NcsExamples.Zigbee.LightBulb
import NcsExamples.Zigbee.LightBulbOn
import NcsExamples.Zigbee.Coordinator
import NcsExamples.Lib.DecimalText
import NcsExamples.GpioDevice.Commands
import NcsExamples.GpioDevice.NamedPin
import NcsExamples.LongPress.Button
import NcsExamples.LongPress.Classification
import NcsExamples.Lib.AlarmClock
import NcsExamples.LongPress.Duration
import NcsExamples.OpenThread.RoleLed
import NcsExamples.OpenThread.Joiner
import NcsExamples.OpenThread.Commissioner
import NcsExamples.MatterLight.Leds
import NcsExamples.Lib.Transaction
import NcsExamples.GpioDevice.Pins
import NcsExamples.GpioDevice.Boot
import NcsExamples.Lib.ChunkedText
import NcsExamples.SocketEcho.Peer
import NcsExamples.TwtDemo.ScanData
import NcsExamples.Lib.WrappedCounter
import NcsExamples.TwtDemo.PingReport
import NcsExamples.PeripheralUart.Availability
import NcsExamples.Lib.PendingAlarms
import NcsExamples.Zigbee.JoiningWindow
import NcsExamples.MatterLight.CancelWindow
import NcsExamples.MatterLight.LightSettling
import NcsExamples.Passthrough.Refusals
import NcsExamples.MatterLight.NusRestart
