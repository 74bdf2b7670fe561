import Homescope.Air
import Homescope.ApiTypes
import Homescope.BleScan
import Homescope.BoardLayout
import Homescope.BootReport
import Homescope.BurstErrors
import Homescope.CommandRuns
import Homescope.Commands
import Homescope.DelimitedText
import Homescope.DeployGenerated
import Homescope.DestructiveOrder
import Homescope.DeviceKeyCodec
import Homescope.FirmwareStore
import Homescope.FirstMismatch
import Homescope.Flash
import Homescope.FleetListing
import Homescope.FleetRuns
import Homescope.FrameRoundTrip
import Homescope.HexKeys
import Homescope.HttpFront
import Homescope.Ingest
import Homescope.IngestTask
import Homescope.KekErrors
import Homescope.KekImport
import Homescope.KeyRingRuns
import Homescope.LinearRegister
import Homescope.LruRuns
import Homescope.Migrations
import Homescope.MintRuns
import Homescope.PacketBuffer
import Homescope.Placements
import Homescope.ProfileStore
import Homescope.Provenance
import Homescope.ReadingPath
import Homescope.Reflash
import Homescope.Relay
import Homescope.RemoveDevicesId
import Homescope.SecretsReady
import Homescope.SeqCounter
import Homescope.SeqLimit
import Homescope.SeqRuns
import Homescope.SeqTears
import Homescope.SiteNames
import Homescope.StableSort
import Homescope.StorageErase
import Homescope.UicrRuns
import Homescope.UnknownDevices
import Homescope.UrlNormal
import Homescope.UsbWriter
import Homescope.UserPhase
import Homescope.UserPhaseRuns
import Homescope.WaitForReading
import Homescope.WriteAtomic
