import CubieBle.AirSync.Bounds
import CubieBle.AirSync.Completion
import CubieBle.AirSync.Confirmation
import CubieBle.AirSync.Crc32
import CubieBle.AirSync.Epb
import CubieBle.AirSync.EpbPack
import CubieBle.AirSync.EpbRead
import CubieBle.AirSync.Frames
import CubieBle.AirSync.Handshake
import CubieBle.AirSync.MemPool
import CubieBle.AirSync.MmBp
import CubieBle.AirSync.MmBpLaws
import CubieBle.AirSync.Protocol
import CubieBle.AirSync.Reassembly
import CubieBle.AirSync.Requests
import CubieBle.AirSync.Responses
import CubieBle.AirSync.Scalars
import CubieBle.AirSync.WristBand
import CubieBle.Ancs.Discovery
import CubieBle.Ancs.DiscoveryReports
import CubieBle.Ancs.Requests
import CubieBle.Ancs.Responses
import CubieBle.At.Tokenizer
import CubieBle.At.Tokens
import CubieBle.Audio.Capture
import CubieBle.Audio.Conservation
import CubieBle.BleModule.AdParse
import CubieBle.BleModule.AtCommands
import CubieBle.BleModule.AutoConnect
import CubieBle.BleModule.DataBuffers
import CubieBle.BleModule.DataHandler
import CubieBle.BleModule.DataStream
import CubieBle.BleModule.InBand
import CubieBle.BleModule.InquiryLaws
import CubieBle.BleModule.LineBuffers
import CubieBle.BleModule.Lines
import CubieBle.BleModule.Rename
import CubieBle.BleModule.RenameLaws
import CubieBle.BleModule.RoleCommands
import CubieBle.BleModule.ScanList
import CubieBle.BleModule.Strongest
import CubieBle.BleModule.Transparent
import CubieBle.Build.Checksums
import CubieBle.Build.CrcBitwise
import CubieBle.Build.CrcSegments
import CubieBle.Build.Firmware
import CubieBle.Build.NvramImage
import CubieBle.Build.PartitionTable
import CubieBle.Build.Placement
import CubieBle.Build.PropFile
import CubieBle.Build.RawImage
import CubieBle.Central.Connections
import CubieBle.Central.Phases
import CubieBle.Central.Rmc
import CubieBle.Central.Services
import CubieBle.Framework.InputManager
import CubieBle.Gatt.Cgms
import CubieBle.Gatt.CgmsFormat
import CubieBle.Gatt.CgmsProgress
import CubieBle.Gatt.CgmsRacp
import CubieBle.Gatt.CgmsReads
import CubieBle.Gatt.CgmsReports
import CubieBle.Gatt.CgmsSession
import CubieBle.Gatt.CgmsSocp
import CubieBle.Gatt.ControlPoints
import CubieBle.Gatt.CrcReflected
import CubieBle.Gatt.CyclingSpeed
import CubieBle.Gatt.GlucoseFormat
import CubieBle.Gatt.HeartRate
import CubieBle.Gatt.HeartRateDecoding
import CubieBle.Gatt.HeartRateStream
import CubieBle.Gatt.Racp
import CubieBle.Gatt.RacpAnswers
import CubieBle.Gatt.RacpLaws
import CubieBle.Gatt.RacpRejected
import CubieBle.Gatt.RacpReports
import CubieBle.Gatt.RacpVerdicts
import CubieBle.Gatt.RecordDeleteLast
import CubieBle.Gatt.RecordFifo
import CubieBle.Gatt.RunningSpeed
import CubieBle.Gatt.StartTimeWrite
import CubieBle.Gatt.Thermometer
import CubieBle.Hal.BiPhase
import CubieBle.Hal.Irc7461
import CubieBle.Hal.IrcCapture
import CubieBle.Hal.IrcLearning
import CubieBle.Hal.IrcOrder
import CubieBle.Hal.IrcRecognition
import CubieBle.Hal.IrcTransmit
import CubieBle.Hal.LearnFilter
import CubieBle.Hal.Led
import CubieBle.Hal.Rc6
import CubieBle.Hci.Checksum
import CubieBle.Hci.Llcc
import CubieBle.Host.CccStore
import CubieBle.Host.ConnUpdate
import CubieBle.Loader.Checksum
import CubieBle.Machine.BiPhase
import CubieBle.Machine.Blocks
import CubieBle.Machine.BubbleSort
import CubieBle.Machine.CString
import CubieBle.Machine.Crc
import CubieBle.Machine.CrcReflected
import CubieBle.Machine.History
import CubieBle.Machine.Ltv
import CubieBle.Machine.NumberCommand
import CubieBle.Machine.Overflow
import CubieBle.Machine.Pieces
import CubieBle.Machine.Presses
import CubieBle.Machine.Ring
import CubieBle.Machine.Rounds
import CubieBle.Machine.Slots
import CubieBle.Machine.Varint
import CubieBle.Machine.WireFormat
import CubieBle.Machine.ZigZag
import CubieBle.ModulePer.AtLine
import CubieBle.ModulePer.DataFlow
import CubieBle.ModulePer.Exclusion
import CubieBle.ModulePer.NumberParams
import CubieBle.ModulePer.Reboot
import CubieBle.ModulePer.UserData
import CubieBle.Ota.ControlWrites
import CubieBle.Ota.Download
import CubieBle.Ota.FlowControl
import CubieBle.Ota.Responses
import CubieBle.Ota.Upload
import CubieBle.Ota.Verify
import CubieBle.Rcu.AdcKey
import CubieBle.Rcu.KeyEvents
import CubieBle.Rcu.KeyReports
import CubieBle.Rcu.Pairing
import CubieBle.Rcu.Recording
import CubieBle.Rcu.Voice
import CubieBle.Storage.KeyPool
import CubieBle.Storage.Keys
