import SendspinMc.Current
import SendspinMc.Lib.Rounding
import SendspinMc.Lib.Binary32
import SendspinMc.Volume
import SendspinMc.MediaPlayerControl
import SendspinMc.PlayerRole
import SendspinMc.AudioWrite
import SendspinMc.NativeMdns
import SendspinMc.BlobDurability
import SendspinMc.Boot
import SendspinMc.Wiring
import SendspinMc.Entities
import SendspinMc.Artwork
import SendspinMc.Orchestrator
import SendspinMc.PowerOn
import SendspinMc.Guards
import SendspinMc.Codecs
import SendspinMc.Identity
import SendspinMc.SlotTimeout
import SendspinMc.SlotProgress
import SendspinMc.SlotOrder
import SendspinMc.SlotHandlers
import SendspinMc.Views
import SendspinMc.Mdns
import SendspinMc.Persistence
import SendspinMc.RecordSlots
import SendspinMc.Decode
import SendspinMc.MetadataSensors
import SendspinMc.TrackProgress
import SendspinMc.MediaPlayer
import SendspinMc.Routing
import SendspinMc.StreamEnd
import SendspinMc.StopCommand
import SendspinMc.Shutdown
import SendspinMc.EnabledSwitch
import SendspinMc.UnpairedSwitch
import SendspinMc.RoleCode
import SendspinMc.Collisions
import SendspinMc.SwitchOwners
import SendspinMc.PairingCode
import SendspinMc.SoleSource
import SendspinMc.SlotNumbers
