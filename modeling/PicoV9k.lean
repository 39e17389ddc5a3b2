import PicoV9k.SasiTransfer
import PicoV9k.SasiTransferRun
import PicoV9k.SasiReadSix
import PicoV9k.SasiWriteSix
import PicoV9k.SdScan
import PicoV9k.SdStorage
import PicoV9k.FujiStorage
import PicoV9k.StorageOwnership
import PicoV9k.BootAssignment
import PicoV9k.MountAtomicity
import PicoV9k.InterleavedScript
import PicoV9k.MgmtChannel
import PicoV9k.MgmtStream
import PicoV9k.RegisterIsr
import PicoV9k.HostHandshake
import PicoV9k.HandshakeStage
import PicoV9k.HandshakeScript
import PicoV9k.IsrEffects
import PicoV9k.HandshakeTrack
import PicoV9k.HandshakeLedger
import PicoV9k.HandshakeRefinement
import PicoV9k.StaleCompletion
import PicoV9k.DmaRegisters
import PicoV9k.HostAccesses
import PicoV9k.OrphanedReset
import PicoV9k.RingBuffer
import PicoV9k.SasiCommands
import PicoV9k.SasiController
import PicoV9k.SasiExecution
import PicoV9k.StorageRouting
import PicoV9k.TransitionRun
import PicoV9k.WrappingMemory
import PicoV9k.BusFree
import PicoV9k.ChannelIsolation
import PicoV9k.ByteStuffing
import PicoV9k.FujiFrame
import PicoV9k.FujiBlocks
import PicoV9k.ConsoleMailbox
import PicoV9k.DmaEngine
import PicoV9k.PioMachine
import PicoV9k.DmaAlignment
import PicoV9k.DmaTransfer
import PicoV9k.DmaCalls
import PicoV9k.DmaOwnership
import PicoV9k.DmaExactness
import PicoV9k.RegisterPort
import PicoV9k.PortWords
import PicoV9k.PortHandshake
import PicoV9k.PortPhases
import PicoV9k.ReplayPlaces
import PicoV9k.EndAroundCarry
import PicoV9k.FujiChecksum
import PicoV9k.FujiLink
import PicoV9k.FujiGrammar
import PicoV9k.FujiParser
import PicoV9k.SdRuns
import PicoV9k.SdFailures
import PicoV9k.SdImageAtomicity
import PicoV9k.SdImages
import PicoV9k.BlobDelivery
import PicoV9k.MgmtConsole
import PicoV9k.CommandRing
import PicoV9k.Retiming
import PicoV9k.StatusReadOnly
import PicoV9k.AddressAdvance
import PicoV9k.AddressCoherence
import PicoV9k.ReplayWorker
import PicoV9k.DataReadReplay
import PicoV9k.ReplaySystem
import PicoV9k.StatusCells
import PicoV9k.PhasePaths
import PicoV9k.PhaseWorker
import PicoV9k.TextScreen
import PicoV9k.VtParser
import PicoV9k.VtasmClient
import PicoV9k.TerminalAgreement
import PicoV9k.OverflowRecovery
import PicoV9k.FujiDirectory
import PicoV9k.ResetAgreement
import PicoV9k.WatchedScript
import PicoV9k.ChannelClient
import PicoV9k.SessionHandshake
import PicoV9k.SessionPasses
import PicoV9k.SessionSeparation
import PicoV9k.DiskDrive
import PicoV9k.TraceSimulation
import PicoV9k.DriveRefinement
import PicoV9k.ReadBack
import PicoV9k.CellHistory
import PicoV9k.DmaMemory
import PicoV9k.DeferRing
import PicoV9k.ImageShelf
import PicoV9k.PortService
import PicoV9k.SdRefinement
import PicoV9k.CommandLog
import PicoV9k.CounterRing
import PicoV9k.ConsoleStatus
import PicoV9k.BusCapture
import PicoV9k.ConsoleNumbers
import PicoV9k.ConsoleReplies
import PicoV9k.LineReplies
import PicoV9k.ScriptReadBack
import PicoV9k.CardImages
