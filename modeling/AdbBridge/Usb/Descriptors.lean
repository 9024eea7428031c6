import AdbBridge.Types.Bytes

/-!
# Looking for the interface of a device

On a phone the server is given the file descriptor of a USB device by its user. `usb_init` reads
the descriptors of the device into a buffer and walks over them, one after the other, until it
comes to an interface that speaks the protocol. It hands what it has found to `register_device`,
which claims the interface and makes a `usb_handle` of it.

The walk is a cursor in the buffer. `turn` is one round of the loop, and `readsAt` says which bytes
a round looks at: not all of them have been tested to be in the buffer. What is behind the bytes
that were read may be anything (`Devdesc.junk`).
-/

namespace AdbBridge.UsbInit

/-! ### The buffer -/

/-- `devdesc`, with the result of `unix_read`. -/
structure Devdesc where
  /-- The bytes that were read, and `none` for `-1`. -/
  read : Option { bs : Bytes // bs.length ≤ 4096 }
  /-- What the memory holds that was not written by the read. -/
  junk : ℕ → UInt8

namespace Devdesc

variable (d : Devdesc)

/-- How many bytes have been read. -/
def valid : ℕ :=
  match d.read with
  | some bs => bs.val.length
  | none => 0

/-- `desclength`, a `size_t`. -/
def desclength : ℕ :=
  match d.read with
  | some bs => bs.val.length
  | none => 2 ^ 64 - 1

/-- `bufend`, as an offset into the buffer: a pointer minus one if the read has failed. -/
def bufend : ℤ :=
  match d.read with
  | some bs => bs.val.length
  | none => -1

/-- A byte of the buffer, or of what is behind it. -/
def byte (i : ℕ) : UInt8 :=
  match d.read with
  | some bs => bs.val.getD i (d.junk i)
  | none => d.junk i

/-- A little-endian word of two bytes. -/
def word (i : ℕ) : ℕ := (d.byte i).toNat + 2 ^ 8 * (d.byte (i + 1)).toNat

end Devdesc

/-! ### One round of the loop -/

def usbDtDevice : UInt8 := 1
def usbDtConfig : UInt8 := 2
def usbDtInterface : UInt8 := 4
def usbDtEndpoint : UInt8 := 5
def usbDtSsEndpointComp : UInt8 := 0x30
def usbEndpointXferBulk : UInt8 := 2
def usbEndpointDirMask : UInt8 := 0x80

/-- `is_adb_interface`. -/
def isAdbInterface (usbClass usbSubclass usbProtocol : UInt8) : Bool :=
  usbProtocol == 0x1 &&
    ((usbClass == 0xff && usbSubclass == 0x42) || (usbClass == 0xdc && usbSubclass == 0x2))

/-- What has been found. -/
structure Found where
  epIn : UInt8
  epOut : UInt8
  interfaceNumber : UInt8
  serialIndex : UInt8
  zeroMask : ℕ
  maxPacketSize : ℕ
  deriving DecidableEq, Repr

/-- How a round ends. -/
inductive Turn
  /-- `break`. -/
  | stop
  /-- The cursor is moved. -/
  | next (p : ℕ)
  /-- The interface has been found. -/
  | found (f : Found)
  deriving DecidableEq, Repr

section

variable (d : Devdesc)

/-- Skip a companion descriptor. -/
def skipCompanion (p : ℕ) : ℕ :=
  if (p + 2 : ℤ) ≤ d.bufend ∧ d.byte p = 6 ∧ d.byte (p + 1) = usbDtSsEndpointComp then p + 6
  else p

/-- Where the second endpoint is, if the first is at `ep1`. -/
def secondEndpoint (ep1 : ℕ) : ℕ := skipCompanion d (ep1 + 7)

/-- Where the endpoints end. -/
def endpointsEnd (ep1 : ℕ) : ℕ := skipCompanion d (secondEndpoint d ep1 + 7)

/-- The first two bytes of an endpoint descriptor. -/
def isEndpoint (ep : ℕ) : Prop := d.byte ep = 7 ∧ d.byte (ep + 1) = usbDtEndpoint

instance decidableIsEndpoint (ep : ℕ) : Decidable (isEndpoint d ep) :=
  inferInstanceAs (Decidable (d.byte ep = 7 ∧ d.byte (ep + 1) = usbDtEndpoint))

/-- What is taken from an interface at `p` whose endpoints are at `ep1` and `ep2`. -/
def foundAt (p ep1 ep2 : ℕ) : Found :=
  let addr1 := d.byte (ep1 + 2)
  let addr2 := d.byte (ep2 + 2)
  { epIn := if addr1 &&& usbEndpointDirMask ≠ 0 then addr1 else addr2
    epOut := if addr1 &&& usbEndpointDirMask ≠ 0 then addr2 else addr1
    interfaceNumber := d.byte (p + 2)
    serialIndex := d.byte 16
    zeroMask := (d.word (ep1 + 4) + (2 ^ 32 - 1)) % 2 ^ 32
    maxPacketSize := d.word (ep1 + 4) }

/-- An ADB interface at `p` with two endpoints, which are expected at `ep1` and behind it. -/
def endpointsTurn (p ep1 : ℕ) : Turn :=
  let ep2 := secondEndpoint d ep1
  if d.bufend < endpointsEnd d ep1 ∨ ¬isEndpoint d ep1 ∨ ¬isEndpoint d ep2 then .stop
  else if d.byte (ep1 + 3) ≠ usbEndpointXferBulk ∨ d.byte (ep2 + 3) ≠ usbEndpointXferBulk then
    .next (endpointsEnd d ep1)
  else .found (foundAt d p ep1 ep2)

/-- An interface at `p` that looks like ADB. -/
def looksLikeAdb (p : ℕ) : Prop :=
  d.byte (p + 4) = 2 ∧
    isAdbInterface (d.byte (p + 5)) (d.byte (p + 6)) (d.byte (p + 7)) = true

instance decidableLooksLikeAdb (p : ℕ) : Decidable (looksLikeAdb d p) :=
  inferInstanceAs (Decidable (_ ∧ _))

/-- **One round**, with the cursor at `p`. -/
def turn (p : ℕ) : Turn :=
  let length := (d.byte p).toNat
  if d.byte (p + 1) = usbDtInterface then
    if length ≠ 9 then .stop
    else if looksLikeAdb d p then endpointsTurn d p (p + length)
    else .next (p + length)
  else if length = 0 then .stop
  else .next (p + length)

/-! ### The bytes a round looks at -/

/-- Look at one byte after the other, as long as the tests hold. -/
def tested : List (ℕ × Bool) → List ℕ
  | [] => []
  | (i, ok) :: rest => i :: if ok then tested rest else []

def companionReads (p : ℕ) : List ℕ :=
  if (p + 2 : ℤ) ≤ d.bufend then tested [(p, d.byte p = 6), (p + 1, true)] else []

/-- The bytes of two endpoints, and of the interface at `p` they belong to. -/
def endpointReads (p ep1 : ℕ) : List ℕ :=
  let ep2 := secondEndpoint d ep1
  companionReads d (ep1 + 7) ++ companionReads d (ep2 + 7) ++
    if d.bufend < endpointsEnd d ep1 then []
    else
      tested [(ep1, d.byte ep1 = 7), (ep1 + 1, d.byte (ep1 + 1) = usbDtEndpoint),
        (ep2, d.byte ep2 = 7), (ep2 + 1, d.byte (ep2 + 1) = usbDtEndpoint),
        (ep1 + 3, d.byte (ep1 + 3) = usbEndpointXferBulk),
        (ep2 + 3, d.byte (ep2 + 3) = usbEndpointXferBulk),
        (ep1 + 4, true), (ep1 + 5, true), (ep1 + 2, true), (ep2 + 2, true), (p + 2, true),
        (16, true)]

/-- The bytes of a round. -/
def readsAt (p : ℕ) : List ℕ :=
  [p, p + 1] ++
    if d.byte (p + 1) = usbDtInterface ∧ d.byte p = 9 then
      tested [(p + 4, d.byte (p + 4) = 2), (p + 5, true), (p + 6, true), (p + 7, true)] ++
        if looksLikeAdb d p then endpointReads d p (p + 9) else []
    else []

/-! ### The walk -/

/-- What is known of a walk. -/
structure Walk where
  /-- Where the cursor was at the start of each round. -/
  heads : List ℕ := []
  /-- Whether the loop has ended. -/
  ended : Bool := false
  found : Option Found := none
  deriving DecidableEq, Repr

/-- The loop, for a number of rounds. -/
def walk : ℕ → ℕ → Walk
  | 0, _ => {}
  | fuel + 1, p =>
    if (p : ℤ) < d.bufend then
      match turn d p with
      | .stop => { heads := [p], ended := true }
      | .next q => let w := walk fuel q; { w with heads := p :: w.heads }
      | .found f => { heads := [p], ended := true, found := some f }
    else { ended := true }

/-- The tests before the loop. -/
def hasHeaders : Prop :=
  27 ≤ d.desclength ∧ (d.byte 0 = 18 ∧ d.byte 1 = usbDtDevice) ∧
    (d.byte 18 = 9 ∧ d.byte 19 = usbDtConfig)

instance decidableHasHeaders : Decidable (hasHeaders d) := inferInstanceAs (Decidable (_ ∧ _ ∧ _))

/-- The bytes they look at. -/
def headerReads : List ℕ :=
  if d.desclength < 27 then []
  else tested [(0, d.byte 0 = 18), (1, d.byte 1 = usbDtDevice), (18, d.byte 18 = 9), (19, true)]

/-- The walk of `usb_init`, behind the device and the configuration. A buffer of 4096 bytes does
not have more rounds. -/
def descriptorWalk : Walk := walk d 4096 27

/-- All bytes that `usb_init` looks at. -/
def reads : List ℕ :=
  headerReads d ++ if hasHeaders d then (descriptorWalk d).heads.flatMap (readsAt d) else []

end

/-! ### Registering the device -/

/-- What `fstat` says. -/
structure Stat where
  isChr : Bool
  major : ℕ
  minor : ℕ
  deriving DecidableEq, Repr

/-- The system around `usb_init`. -/
structure System where
  /-- The target of a symbolic link. -/
  link : Bytes → Option Bytes
  /-- The contents of a file. -/
  file : Bytes → Option Bytes := fun _ => none
  fstat : Option Stat := none
  descriptors : Devdesc
  /-- `transport_server_owns_device`. -/
  owns : Bytes → Bytes → Bool := fun _ _ => true
  /-- Whether `USBDEVFS_CLAIMINTERFACE` goes through. -/
  claims : Bool := true

/-- A `usb_handle`, with whether it has been passed to `register_usb_transport`. -/
structure UsbHandle where
  path : Bytes
  fd : ℕ
  epIn : UInt8
  epOut : UInt8
  zeroMask : ℕ
  maxPacketSize : ℕ
  registered : Bool
  deriving DecidableEq, Repr

/-- The arguments of `register_device`. A `devPath` of `none` is the null pointer. -/
structure Device where
  devName : Bytes
  devPath : Option Bytes
  found : Found
  fd : ℕ
  deriving DecidableEq, Repr

/-- The handle of a device. -/
def handleOf (dev : Device) : UsbHandle where
  path := dev.devName
  fd := dev.fd
  epIn := dev.found.epIn
  epOut := dev.found.epOut
  zeroMask := dev.found.zeroMask
  maxPacketSize := dev.found.maxPacketSize
  registered := true

/-- What `usb_init` leaves behind. -/
structure Outcome where
  /-- The calls of `register_device`. -/
  calls : List Device := []
  /-- How often the file descriptor has been closed. -/
  closes : ℕ := 0
  usbHandles : List UsbHandle
  /-- A null pointer has been followed: `usb_init` does not return. -/
  crashed : Bool := false
  /-- `adb_notify_device_scan_complete`. -/
  scanComplete : Bool := false
  deriving DecidableEq, Repr

/-- `Trim`. -/
def trim (s : Bytes) : Bytes :=
  let blank (c : UInt8) : Bool := c == 32 || (9 ≤ c && c ≤ 13)
  (s.dropWhile blank).rdropWhile blank

section

variable (sys : System)

/-- The path of a device: the last component of its link in `sysfs`, of which `readlink` gives at
most 255 bytes and `snprintf` keeps what fits into 127. -/
def devicePath : Option Bytes :=
  match sys.fstat with
  | some st =>
    if st.isChr then
      match sys.link (ascii "/sys/dev/char/" ++ decimal st.major ++ [58] ++ decimal st.minor) with
      | some target =>
        let link := target.take 255
        if 47 ∈ link then
          some ((ascii "usb:" ++ (link.reverse.takeWhile (· != 47)).reverse).take 127)
        else none
      | none => none
    else none
  | none => none

/-- The serial number of a device, which may be unknown. -/
def deviceSerial (path : Bytes) : Bytes :=
  trim ((sys.file (ascii "/sys/bus/usb/devices/" ++ path.drop 4 ++ ascii "/serial")).getD [])

/-- `register_device`. -/
def registerDevice (handles : List UsbHandle) (dev : Device) : Outcome :=
  match dev.devPath with
  | none => { calls := [dev], usbHandles := handles, crashed := true }
  | some path =>
    if !sys.owns path (deviceSerial sys path) then { calls := [dev], usbHandles := handles }
    else if handles.any (·.path == dev.devName) then { calls := [dev], usbHandles := handles }
    else if !sys.claims then
      -- the destructor of the handle closes the file descriptor
      { calls := [dev], closes := 1, usbHandles := handles }
    else
      { calls := [dev]
        usbHandles := handles ++ [handleOf dev] }

/-- The path `usb_init` reads the name of the device from. -/
def procLink (fd : ℕ) : Bytes := ascii "/proc/self/fd" ++ decimal fd

/-- `usb_init`. -/
def usbInit (fd : ℕ) (handles : List UsbHandle) : Outcome :=
  match sys.link (procLink fd) with
  | none => { closes := 1, usbHandles := handles }
  | some devName =>
    if hasHeaders sys.descriptors then
      match (descriptorWalk sys.descriptors).found with
      | none => { usbHandles := handles, scanComplete := true }
      | some found =>
        let out := registerDevice sys handles ⟨devName, devicePath sys, found, fd⟩
        { out with scanComplete := !out.crashed }
    else { closes := 1, usbHandles := handles }

end

end AdbBridge.UsbInit
