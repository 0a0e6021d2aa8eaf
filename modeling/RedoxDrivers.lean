import RedoxDrivers.Virtio.Accounting
import RedoxDrivers.Virtio.Net
import RedoxDrivers.Xhci.Routing
import RedoxDrivers.Xhci.Polling
import RedoxDrivers.Xhci.Command
import RedoxDrivers.Xhci.Recovery
import RedoxDrivers.Nvme.Delivery
import RedoxDrivers.Nvme.Wakeup
import RedoxDrivers.Nvme.Completions
import RedoxDrivers.Disk.Paths
import RedoxDrivers.Disk.Confinement
import RedoxDrivers.Disk.Bytes
import RedoxDrivers.Usbscsi.Blocks
import RedoxDrivers.Usbscsi.Init
import RedoxDrivers.Usbscsi.Responses
import RedoxDrivers.Net.Receive
import RedoxDrivers.Graphics.Scheme
import RedoxDrivers.Graphics.Fbcon
import RedoxDrivers.Inputd.Wakeups
import RedoxDrivers.Inputd.VtEvents
import RedoxDrivers.Inputd.Robust
import RedoxDrivers.Inputd.Routing
import RedoxDrivers.Xhci.ClassDrivers
import RedoxDrivers.Audio.Ac97
import RedoxDrivers.Audio.HdaCommands
import RedoxDrivers.Audio.HdaStream
import RedoxDrivers.Xhci.Speeds
import RedoxDrivers.Pcid.Features
import RedoxDrivers.Pcid.Clients
import RedoxDrivers.Xhci.Paths
import RedoxDrivers.Xhci.HotPlug
import RedoxDrivers.Graphics.TextScreen
import RedoxDrivers.Pcid.Msix
import RedoxDrivers.Acpid.Symbols
import RedoxDrivers.Common.Sgl
import RedoxDrivers.Disk.Lived
import RedoxDrivers.Xhci.Portsc
import RedoxDrivers.Acpid.Memory
