import PicoFramework.Lib.Splice
import PicoFramework.Spec.Basic
import PicoFramework.Spec.ConfigStore
import PicoFramework.Proofs.ConfigStore
import PicoFramework.Lib.Run
import PicoFramework.Lib.Wire
import PicoFramework.Proofs.ConfigMap
import PicoFramework.Lib.Newest
import PicoFramework.Lib.Nor
import PicoFramework.Lib.Power
import PicoFramework.Spec.Crc
import PicoFramework.Spec.FlashLayout
import PicoFramework.Spec.FlashStorage
import PicoFramework.Spec.PersistentConfig
import PicoFramework.Proofs.FlashStorage
import PicoFramework.Proofs.ConfigSlots
import PicoFramework.Proofs.ConfigSave
import PicoFramework.Proofs.ConfigLoad
import PicoFramework.Proofs.ConfigDurability
import PicoFramework.Proofs.ConfigReload
import PicoFramework.Spec.FirmwareReceive
import PicoFramework.Spec.SerialUpdate
import PicoFramework.Lib.Wrapping
import PicoFramework.Lib.Writes
import PicoFramework.Proofs.FirmwareReceive
import PicoFramework.Proofs.TransferOrder
import PicoFramework.Proofs.SerialUpdate
import PicoFramework.Spec.FirmwareImage
import PicoFramework.Spec.FirmwareService
import PicoFramework.Proofs.FirmwareService
import PicoFramework.Lib.Json
import PicoFramework.Proofs.JsonScan
import PicoFramework.Proofs.JsonString
import PicoFramework.Proofs.JsonFind
import PicoFramework.Proofs.JsonValid
import PicoFramework.Proofs.JsonTree
import PicoFramework.Proofs.JsonText
import PicoFramework.Proofs.JsonRoundTrip
import PicoFramework.Lib.Interleave
import PicoFramework.Spec.RingBuffer
import PicoFramework.Lib.Circular
import PicoFramework.Proofs.RingBuffer
import PicoFramework.Lib.Queue
import PicoFramework.Proofs.RingFifo
import PicoFramework.Proofs.RingTraffic
import PicoFramework.Spec.CanFrame
import PicoFramework.Proofs.CanQueue
import PicoFramework.Lib.Outbox
import PicoFramework.Spec.Bluetooth
import PicoFramework.Spec.TcpStream
import PicoFramework.Proofs.Streams
import PicoFramework.Spec.TcpClient
import PicoFramework.Proofs.TcpClient
import PicoFramework.Proofs.TcpClose
import PicoFramework.Proofs.TcpOwnership
import PicoFramework.Lib.LineEditor
import PicoFramework.Lib.Terminal
import PicoFramework.Spec.Cli
import PicoFramework.Proofs.CliHistory
import PicoFramework.Proofs.CliDispatch
import PicoFramework.Proofs.CliEditor
import PicoFramework.Proofs.CliScreen
import PicoFramework.Proofs.CliWholeLines
import PicoFramework.Spec.Mqtt
import PicoFramework.Proofs.MqttSteps
import PicoFramework.Proofs.MqttSession
import PicoFramework.Proofs.RetryBudget
import PicoFramework.Spec.Udp
import PicoFramework.Proofs.UdpBroadcast
import PicoFramework.Spec.LedRange
import PicoFramework.Spec.Light
import PicoFramework.Spec.HomeAssistant
import PicoFramework.Proofs.LightState
import PicoFramework.Proofs.HaState
import PicoFramework.Spec.HomeLed
import PicoFramework.Proofs.HomeLedSteps
import PicoFramework.Proofs.HaIdentity
import PicoFramework.Proofs.HaRange
import PicoFramework.Proofs.HaTopics
import PicoFramework.Proofs.HomeLed
import PicoFramework.Proofs.HomeAnnounce
import PicoFramework.Spec.Mcp2515Filters
import PicoFramework.Spec.Mcp2515Frame
import PicoFramework.Spec.Mcp2515
import PicoFramework.Lib.Bits
import PicoFramework.Proofs.CanFilters
import PicoFramework.Lib.Device
import PicoFramework.Proofs.Mcp2515Instructions
import PicoFramework.Proofs.Mcp2515Driver
import PicoFramework.Proofs.CanLoss
import PicoFramework.Proofs.CanOrder
import PicoFramework.Spec.HalfDuplexUart
import PicoFramework.Spec.ServoProtocol
import PicoFramework.Proofs.HaDiscovery
import PicoFramework.Spec.ServoBus
import PicoFramework.Spec.Ax12
import PicoFramework.Spec.Feetech
import PicoFramework.Spec.FeetechServo
import PicoFramework.Lib.Hoare
import PicoFramework.Proofs.ServoProtocol
import PicoFramework.Proofs.ServoBus
import PicoFramework.Proofs.FeetechEeprom
import PicoFramework.Proofs.ServoRefusal
import PicoFramework.Proofs.ConfigErase
import PicoFramework.Proofs.ConfigImage
import PicoFramework.Proofs.ConfigString
import PicoFramework.Proofs.LedRange
import PicoFramework.Proofs.Settings
import PicoFramework.Proofs.ConfigHealthy
import PicoFramework.Lib.Numeral
import PicoFramework.Proofs.JsonNumber
import PicoFramework.Proofs.JsonWriter
import PicoFramework.Proofs.JsonArray
import PicoFramework.Proofs.CliNumbers
import PicoFramework.Proofs.CliRaw
import PicoFramework.Lib.Words
import PicoFramework.Proofs.CliTokens
import PicoFramework.Lib.Hex
import PicoFramework.Proofs.HexRecords
import PicoFramework.Proofs.FirmwareApply
import PicoFramework.Lib.Crc
import PicoFramework.Proofs.Crc
import PicoFramework.Lib.Reassembly
import PicoFramework.Proofs.MqttMessages
import PicoFramework.Lib.Fields
import PicoFramework.Proofs.MemoryLog
import PicoFramework.Proofs.MqttFilter
import PicoFramework.Proofs.Ipv4Text
import PicoFramework.Lib.Store
import PicoFramework.Proofs.ServoStream
import PicoFramework.Proofs.ServoSyncWrite
import PicoFramework.Proofs.WifiBackoff
import PicoFramework.Lib.Retry
import PicoFramework.Proofs.ServoRetries
import PicoFramework.Proofs.ServoErrorByte
import PicoFramework.Lib.Mirror
import PicoFramework.Proofs.ServoObserver
import PicoFramework.Proofs.ServoRates
import PicoFramework.Lib.Nearest
import PicoFramework.Proofs.Animation
import PicoFramework.Proofs.Ax12Rates
import PicoFramework.Proofs.Mcp2515Header
import PicoFramework.Proofs.CanDecode
import PicoFramework.Spec.Mcp2515Timing
import PicoFramework.Proofs.Mcp2515Timing
import PicoFramework.Lib.Rounding
import PicoFramework.Proofs.UartTiming
import PicoFramework.Spec.Pwm
import PicoFramework.Proofs.PwmTiming
import PicoFramework.Proofs.PwmLevels
import PicoFramework.Lib.Truncation
import PicoFramework.Proofs.Vl53l0xTimeout
import PicoFramework.Proofs.Vl53l0xBudget
import PicoFramework.Spec.Vl53l0x
import PicoFramework.Lib.Easing
import PicoFramework.Proofs.LightFade
import PicoFramework.Proofs.LightReport
import PicoFramework.Spec.Ws2812
import PicoFramework.Spec.Effects
import PicoFramework.Proofs.Effects
import PicoFramework.Proofs.LogLine
import PicoFramework.Proofs.SharedFlash
import PicoFramework.Lib.Amid
import PicoFramework.Proofs.Ws2812Frames
import PicoFramework.Proofs.BtConsole
import PicoFramework.Lib.Broadcast
import PicoFramework.Spec.CanBus
import PicoFramework.Proofs.CanBus
import PicoFramework.Lib.Ledger
import PicoFramework.Spec.PioClaims
import PicoFramework.Proofs.PioClaims
import PicoFramework.Proofs.PwmOutputs
import PicoFramework.Proofs.HomeLedSave
import PicoFramework.Spec.PioUart
import PicoFramework.Proofs.PioUart
import PicoFramework.Proofs.Vl53l0xSpads
