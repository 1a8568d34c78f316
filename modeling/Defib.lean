import Defib.Wire.Cobs
import Defib.Framework.ReflectedCrc
import Defib.Wire.Crc32
import Defib.Host.Recv
import Defib.Properties.Framing
import Defib.Agent.FlashDriver
import Defib.Agent.MemoryRead
import Defib.Agent.ReadPaths
import Defib.Properties.Reading
import Defib.Agent.FlashCommands
import Defib.Properties.FlashSafety
import Defib.Host.WriteFlash
import Defib.Agent.FlashStream
import Defib.Properties.FlashSession
import Defib.Properties.FlashWriting
import Defib.Agent.MemoryWrite
import Defib.Framework.Ledger
import Defib.Host.WriteMemory
import Defib.Properties.MemoryWriting
import Defib.Host.EraseFlash
import Defib.Properties.Erasing
import Defib.Properties.RamRouting
import Defib.Agent.Scan
import Defib.Host.ScanFlash
import Defib.Properties.Scanning
import Defib.Boot.Frames
import Defib.Boot.SplImage
import Defib.Framework.Scripted
import Defib.Boot.SendFirmware
import Defib.Boot.Upload
import Defib.Boot.Observe
import Defib.Boot.Plan
import Defib.Boot.Segments
import Defib.Boot.Acked
import Defib.Properties.BootUpload
import Defib.Properties.BootImages
import Defib.Boot.Rack
import Defib.Framework.AckLink
import Defib.Properties.BootDelivery
import Defib.Boot.Senders
import Defib.Boot.Web
import Defib.Properties.BootWire
import Defib.Boot.Cv6xxImage
import Defib.Properties.WebUpload
import Defib.Properties.Cv6xxParsing
import Defib.Framework.Dict
import Defib.Ubi.Extract
import Defib.Properties.UbiExtraction
import Defib.Framework.PyText
import Defib.Net.Tftp
import Defib.Net.TftpSession
import Defib.Net.TftpClient
import Defib.Properties.TftpNetwork
import Defib.Properties.TftpServing
import Defib.Properties.TftpRecovery
import Defib.Framework.PyChars
import Defib.Framework.Pattern
import Defib.Restore.Mtdparts
import Defib.Properties.MtdpartsReading
import Defib.Framework.Utf8
import Defib.Restore.Backup
import Defib.Properties.BackupReading
import Defib.Restore.Console
import Defib.Restore.Run
import Defib.Properties.RestoreDialogue
import Defib.Properties.RestoreSuccess
import Defib.Restore.Device
import Defib.Properties.RestorePlacement
import Defib.Boot.Session
import Defib.Properties.AckCorrection
import Defib.Properties.SessionAttempts
import Defib.Framework.StreamReader
import Defib.Power.RouterOs
import Defib.Properties.RouterReplies
import Defib.Capture.Format
import Defib.Capture.Record
import Defib.Properties.RecordReplay
import Defib.Agent.SpiChips
import Defib.Agent.Fmc100
import Defib.Properties.FmcOperations
import Defib.Properties.FlashProgramming
import Defib.Properties.PageFailures
import Defib.Agent.Hisfc350
import Defib.Properties.BankSwitching
import Defib.Rockusb.Device
import Defib.Framework.StreamContract
import Defib.Host.Transports
import Defib.Properties.BlockIo
import Defib.Properties.TransportContract
import Defib.Dump.MdOutput
import Defib.Dump.DumpFlash
import Defib.Properties.DumpPlacement
import Defib.Framework.BitPolynomial
import Defib.Rockusb.Codec
import Defib.Rockusb.Maskrom
import Defib.Properties.CrcAgreement
import Defib.Properties.FrameErrors
import Defib.Properties.FfRuns
import Defib.Properties.SplDetection
import Defib.Properties.CaptureFiles
import Defib.Boot.Replies
import Defib.Properties.ReplyRecognition
import Defib.Properties.ImageRefusal
import Defib.Dump.MdReply
import Defib.Properties.MdParsers
import Defib.Agent.RamStores
import Defib.Properties.AgentFootprint
import Defib.Properties.ScanRecords
import Defib.Power.PoeControl
import Defib.Properties.Checksums
import Defib.Properties.PowerRestoring
import Defib.Properties.LoaderFiles
import Defib.Framework.RingBuffer
import Defib.Properties.ReceiveRing
import Defib.Framework.Chains
import Defib.Profiles.Loader
import Defib.Properties.ProfileLookups
import Defib.Agent.Baud
import Defib.Host.SetBaud
import Defib.Agent.EmmcDriver
import Defib.Properties.BaudSwitching
import Defib.Agent.MmcHost
import Defib.Properties.EmmcReading
import Defib.Properties.EmmcSafety
import Defib.Restore.Install
import Defib.Framework.Dialogue
import Defib.Properties.InstallVerification
import Defib.Properties.EthaddrRescue
import Defib.Properties.InstallSuccess
import Defib.Framework.ErrorDetection
import Defib.Properties.FlashCalls
