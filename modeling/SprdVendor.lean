import SprdVendor.Agps.Atc
import SprdVendor.Alarm.Latest
import SprdVendor.Audio.MuxRead
import SprdVendor.Audio.Smoothing
import SprdVendor.Download.CaliRead
import SprdVendor.Download.Checksums
import SprdVendor.Download.Clients
import SprdVendor.Download.Fdl
import SprdVendor.Download.ImagesInfo
import SprdVendor.Download.SendData
import SprdVendor.Download.Served
import SprdVendor.EngMode.FileOper
import SprdVendor.EngMode.LogFilter
import SprdVendor.EngMode.SubStr
import SprdVendor.EngMode.UserDiag
import SprdVendor.HwComposer.Geometry
import SprdVendor.Isp.RecData
import SprdVendor.Jpeg.Cuts
import SprdVendor.Jpeg.FixHuffTbl
import SprdVendor.LibCamera.AreaRects
import SprdVendor.LibCamera.FocusRect
import SprdVendor.LibCamera.Preview
import SprdVendor.LibCamera.Sync
import SprdVendor.LibDm.Decode
import SprdVendor.LibDm.Pool
import SprdVendor.LibDm.XmlBounds
import SprdVendor.LibEfuse.HashWrite
import SprdVendor.Modemd.NvRead
import SprdVendor.Modemd.Sipc
import SprdVendor.NvItem.Boots
import SprdVendor.NvItem.Payload
import SprdVendor.NvItem.Reassembly
import SprdVendor.NvItem.Response
import SprdVendor.NvItem.Rest
import SprdVendor.NvItem.Stored
import SprdVendor.NvItem.WakeUp
import SprdVendor.RefNotify.MainLoop
import SprdVendor.Slog.Strinst
import SprdVendor.SlogModem.Answers
import SprdVendor.SlogModem.ClientHdl
import SprdVendor.SlogModem.Contents
import SprdVendor.SlogModem.LeadingBlanks
import SprdVendor.SlogModem.Multiplexer
import SprdVendor.SlogModem.Numbers
import SprdVendor.SlogModem.OpenFiles
import SprdVendor.SlogModem.RequestWords
import SprdVendor.SlogModem.RingBuf
import SprdVendor.SlogModem.Timers
import SprdVendor.Wcnd.Answers
import SprdVendor.Wcnd.Recorded
import SprdVendor.Wcnd.Restart
