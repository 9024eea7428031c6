import AdbBridge.FastDeploy.Bounds
import AdbBridge.FastDeploy.Locations
import AdbBridge.FastDeploy.Termination
import AdbBridge.Fdevent.Timeouts
import AdbBridge.FileSync.Links
import AdbBridge.Incremental.Chunks
import AdbBridge.Incremental.Console
import AdbBridge.Incremental.Priority
import AdbBridge.Incremental.Ranges
import AdbBridge.Incremental.Verity
import AdbBridge.Incremental.Waiting
import AdbBridge.Install.Session
import AdbBridge.Listeners.Names
import AdbBridge.Pairing.Session
import AdbBridge.Pairing.Start
import AdbBridge.Requests.Abort
import AdbBridge.Requests.HostService
import AdbBridge.Requests.Lengths
import AdbBridge.Security.Reverse
import AdbBridge.Shell.Bugreport
import AdbBridge.Shell.Stdin
import AdbBridge.Sideload.Serving
import AdbBridge.Streams.Backpressure
import AdbBridge.Streams.Lifetimes
import AdbBridge.Threads.Kicked
import AdbBridge.Threads.Waiting
import AdbBridge.Transport.Emulator
import AdbBridge.Transport.Exactly
import AdbBridge.Transport.Flushing
import AdbBridge.Transport.Framing
import AdbBridge.Transport.Listing
import AdbBridge.Transport.Negotiation
import AdbBridge.Transport.ReadLoops
import AdbBridge.Transport.Selection
import AdbBridge.Types.Coalesce
import AdbBridge.Types.WeakPtr
import AdbBridge.Usb.Handles
import AdbBridge.Usb.Interface
import AdbBridge.Usb.Ownership
