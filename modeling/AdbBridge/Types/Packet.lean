import AdbBridge.Types.IOVector

/-!
# Packets, connection states and the constants of the protocol

The vocabulary of `adb.h` and `types.h`: the commands a packet may carry, the states
of a connection, and the sizes the two ends agree on. The header fields that the
packet handlers never look at (checksum, magic) are left out; `data_length` is the
length of the payload, which `handle_packet` checks first thing.
-/

namespace AdbBridge

/-! ### Sizes -/

def maxPayloadV1 : ℕ := 4 * 1024

def maxPayload : ℕ := 1024 * 1024

/-- The number of unacknowledged bytes a receiver with delayed acks is willing to
take before the sender has to wait. -/
def initialDelayedAckBytes : ℕ := 32 * 1024 * 1024

def aVersionMin : ℕ := 0x01000000

def aVersion : ℕ := 0x01000001

def aStlsVersion : ℕ := 0x01000000

def adbAuthToken : ℕ := 1

def adbAuthSignature : ℕ := 2

def adbAuthRsapublickey : ℕ := 3

/-! ### Packets -/

/-- The commands `handle_packet` distinguishes. -/
inductive Command
  | aCnxn
  | aStls
  | aAuth
  | aOpen
  | aOkay
  | aClse
  | aWrte
  /-- Any other value of the command field. -/
  | other (raw : ℕ)
  deriving DecidableEq, Repr

/-- A packet, as the handlers see it. -/
structure Apacket where
  command : Command
  arg0 : ℕ := 0
  arg1 : ℕ := 0
  payload : Bytes := []
  deriving DecidableEq, Repr

/-! ### Connections -/

inductive ConnectionState
  | kCsAny
  | kCsConnecting
  | kCsAuthorizing
  | kCsUnauthorized
  | kCsNoPerm
  | kCsDetached
  | kCsOffline
  | kCsBootloader
  | kCsDevice
  | kCsHost
  | kCsRecovery
  | kCsSideload
  | kCsRescue
  deriving DecidableEq, Repr

/-- `ConnectionStateIsOnline`. -/
def connectionStateIsOnline : ConnectionState → Bool
  | .kCsBootloader | .kCsDevice | .kCsHost | .kCsRecovery | .kCsSideload | .kCsRescue => true
  | _ => false

inductive TransportType
  | kTransportUsb
  | kTransportLocal
  | kTransportAny
  | kTransportHost
  deriving DecidableEq, Repr

/-- The formats in which the list of devices is sent to a tracker. -/
inductive TrackerOutputType
  | shortText
  | longText
  | protobuf
  | textProtobuf
  deriving DecidableEq, Repr

end AdbBridge
