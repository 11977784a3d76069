import IGhostVT.Daemon.HelperLifecycle
import IGhostVT.Link.DeferredClose
import IGhostVT.Link.Resume
import IGhostVT.Link.ThemeReports
import IGhostVT.Relay.DropArrival
import IGhostVT.Relay.HostBindings
import IGhostVT.Relay.HostID
import IGhostVT.Relay.KeyRecovery
import IGhostVT.Relay.KeyRotation
import IGhostVT.Relay.RateLimiter
import IGhostVT.Relay.SpliceClaims
import IGhostVT.Remote.LinkWindow
import IGhostVT.Remote.PairingAttempts
import IGhostVT.Remote.RelayRetries
import IGhostVT.Remote.SharedPairings
import IGhostVT.Screen.WideGlyphs
import IGhostVT.Session.Continuation
import IGhostVT.Session.CopyCompletion
import IGhostVT.Session.ExclusiveHolder
import IGhostVT.Session.KittyRebuild
import IGhostVT.Session.OutputLogSplit
import IGhostVT.Session.PTYFifo
import IGhostVT.Session.CheckedLog
import IGhostVT.Session.UploadIntegrity
import IGhostVT.System.ConfinedOpen
import IGhostVT.System.DaemonFileLog
import IGhostVT.Wire.IOCodecRoundTrip
import IGhostVT.Wire.InboundFrames
import IGhostVT.Zmodem.DownloadPrefix
import IGhostVT.Zmodem.LoopbackDelivers
import IGhostVT.Zmodem.NoisyLine
import IGhostVT.Zmodem.SenderPositions
import IGhostVT.Zmodem.TransferEnd
import IGhostVT.Zmodem.TriggerDetection
