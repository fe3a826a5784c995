import Bk7251.Lib.Mem
import Bk7251.Lib.Ring
import Bk7251.Lib.Machine
import Bk7251.Lib.Fifo
import Bk7251.Lib.Bytes
import Bk7251.Audio.RingBuffer
import Bk7251.Audio.RingBufferFifo
import Bk7251.Audio.RingBufferDma
import Bk7251.Audio.RingBufferIsr
import Bk7251.JointUp.RoleLaunch
import Bk7251.JointUp.Serialisation
import Bk7251.JointUp.StatusSetters
import Bk7251.Dhcp.DhcpServer
import Bk7251.Dhcp.Leases
import Bk7251.Dhcp.OptionLoop
import Bk7251.Dhcp.AckSound
import Bk7251.Dhcp.LeaseUnique
import Bk7251.Dhcp.Datagram
import Bk7251.Lib.MaskedCounter
import Bk7251.Dhcp.Allocation
import Bk7251.Ota.StoreBlock
import Bk7251.Ota.ImageIntegrity
import Bk7251.Ota.TftpClient
import Bk7251.Ota.TftpInOrder
import Bk7251.Ota.Confinement
import Bk7251.Lib.Nor
import Bk7251.Flash.FlashDriver
import Bk7251.Lib.Tlv
import Bk7251.Flash.BkFlash
import Bk7251.Flash.FlashOps
import Bk7251.Flash.Partitions
import Bk7251.NetParam.NetParam
import Bk7251.NetParam.Table
import Bk7251.NetParam.SaveRuns
import Bk7251.RwMsg.RwMsg
import Bk7251.RwMsg.Matching
import Bk7251.RwMsg.Ownership
import Bk7251.RwMsg.Liveness
import Bk7251.App.CoreQueue
import Bk7251.App.RxEvents
import Bk7251.PowerSave.PowerSave
import Bk7251.PowerSave.LockSleep
import Bk7251.PowerSave.McuPs
import Bk7251.PowerSave.LostTicks
import Bk7251.PowerSave.Tickless
import Bk7251.Driver.DrvModel
import Bk7251.Driver.DeviceTable
import Bk7251.Lib.Heap
import Bk7251.Lib.ExchangeSort
import Bk7251.Scan.ScanResults
import Bk7251.Scan.Table
import Bk7251.Scan.Ownership
import Bk7251.Scan.ScanTable
import Bk7251.Hostapd.FakeSocket
import Bk7251.Hostapd.SocketFifo
import Bk7251.Hostapd.TxTrigger
import Bk7251.Lib.Elapsed
import Bk7251.Clock.FakeClock
import Bk7251.Hostapd.StaInactivity
import Bk7251.ApPs.RwMsdu
import Bk7251.ApPs.TimCoherence
import Bk7251.ApPs.TxOrder
import Bk7251.Lib.Ledger
import Bk7251.ApPs.PacketCount
import Bk7251.Http.HttpFlash
import Bk7251.Http.HttpClient
import Bk7251.Http.FullBlocks
import Bk7251.Http.Pieces
import Bk7251.Http.BodyExact
import Bk7251.Http.Reblocking
import Bk7251.Http.LastBlock
import Bk7251.Ota.BlockLength
import Bk7251.Common.Kfifo
import Bk7251.Spi.SpiSlave
import Bk7251.Airkiss.PingPong
import Bk7251.Airkiss.ExactlyOnce
import Bk7251.Video.VideoTransfer
import Bk7251.Video.PoolOrder
import Bk7251.Video.CameraIntf
import Bk7251.Video.FrameDelivery
import Bk7251.Sdio.Sdio
import Bk7251.Sdio.NodeConservation
import Bk7251.Sdio.InboundFrames
import Bk7251.I2c.I2c1
import Bk7251.I2c.Transfers
import Bk7251.I2c.Calls
import Bk7251.Spi.SpiMaster
import Bk7251.Spi.MasterTransfer
import Bk7251.RfCal.ManualCal
import Bk7251.Lib.Walk
import Bk7251.RfCal.SearchEnds
import Bk7251.NetParam.ReadBound
import Bk7251.RfCal.CalTable
import Bk7251.RfCal.CalRuns
import Bk7251.RfCal.CalMerge
import Bk7251.Security.HalAes
import Bk7251.Security.Isolation
import Bk7251.TempDetect.TempDetect
import Bk7251.TempDetect.Progress
import Bk7251.Saradc.Clients
import Bk7251.Saradc.Exclusive
import Bk7251.Spi.SpiFlash
import Bk7251.Spi.SpiFlashWrite
import Bk7251.Spi.SpiFlashErase
import Bk7251.RfCal.UpdateArea
import Bk7251.Sdio.Commands
import Bk7251.Sdio.Underway
import Bk7251.Sdio.Transfers
import Bk7251.Sdio.DmaRange
import Bk7251.I2c.I2c2
import Bk7251.I2c.I2c2Addressing
import Bk7251.I2c.I2c2Transfers
import Bk7251.I2c.I2c2Calls
import Bk7251.SdCard.SdCard
import Bk7251.SdCard.TransferExtent
import Bk7251.Airkiss.ChannelScan
import Bk7251.Airkiss.ChannelSelection
import Bk7251.Airkiss.MacTable
import Bk7251.Video.NodeBound
import Bk7251.PowerSave.DtimTime
import Bk7251.PowerSave.PeriBusy
import Bk7251.Hostapd.StaLookup
import Bk7251.RfCal.Txpwr
import Bk7251.RfCal.TxpwrIsolation
import Bk7251.RfCal.TxpwrFitting
import Bk7251.RfCal.TmpPwr
import Bk7251.UartDebug.Udebug
import Bk7251.UartDebug.LineEditor
import Bk7251.UartDebug.BkregCommand
import Bk7251.Sdio.ScanCommand
import Bk7251.Sdio.MessageConversion
import Bk7251.Cli.HandleInput
import Bk7251.Cli.Tokenizer
import Bk7251.Cli.GetInput
import Bk7251.Cli.InputConfined
import Bk7251.Lib.BitField
import Bk7251.Dma.GeneralDma
import Bk7251.Dma.CommandFields
import Bk7251.Dma.FieldWrites
import Bk7251.Dma.CommandEffects
import Bk7251.Dma.ControlLens
import Bk7251.Kernel.Heap4
import Bk7251.Lib.Extents
import Bk7251.Kernel.FreeList
import Bk7251.Kernel.HeapBlocks
import Bk7251.Kernel.HeapCalls
import Bk7251.Kernel.HeapRealloc
import Bk7251.Kernel.HeapRuns
import Bk7251.Kernel.ListCalls
import Bk7251.Kernel.ListRuns
import Bk7251.Kernel.TaskClock
