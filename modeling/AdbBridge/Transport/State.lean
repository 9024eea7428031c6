import AdbBridge.Transport.Listeners

/-!
# The life of a transport

`transport.cpp` as far as the main thread runs it, with the handlers of `adb.cpp` that
take a transport on- and offline: the connection state and its announcement to the
device trackers, the handshake, the list of allowed reverse forwards, the choice of a
transport for a client, and what becomes of a transport whose connection breaks.

The threads of a connection reach the main thread through its run queue only: they
queue a packet, an error, a registration or a removal. `Atransport.conn` and
`Atransport.removalQueued` keep as much of them as is needed to say what can be in
that queue.
-/

namespace AdbBridge

/-! ### Connection state -/

/-- `atransport::SetConnectionState`. -/
def setConnectionState (w : World) (t : TransportId) (s : ConnectionState) : World :=
  updateTransports (w.updTransport t ({ · with connectionState := s }))

/-- `handle_online`. -/
def handleOnline (w : World) (t : TransportId) : World :=
  w.updTransport t ({ · with online := true })

/-- `handle_offline`. -/
def handleOffline (w : World) (t : TransportId) : World :=
  if (w.transport t).connectionState = .kCsOffline then w
  else
    let w := setConnectionState w t .kCsOffline
    let w := w.updTransport t ({ · with online := false })
    let w := closeAllSockets w t
    w.onNet (·.runDisconnects t)

/-! ### The handshake -/

def kFeatureDelayedAck : Bytes := ascii "delayed_ack"

/-- `StringToFeatureSet`. -/
def stringToFeatureSet (s : Bytes) : List Bytes := if s.isEmpty then [] else splitAt 44 s

/-- `atransport::SetFeatures`. Of the features the server supports itself only the
delayed acks matter here. -/
def Atransport.setFeatures (cfg : Config) (x : Atransport) (s : Bytes) : Atransport :=
  let features := stringToFeatureSet s
  { x with
    features := features
    delayedAck := features.contains kFeatureDelayedAck && cfg.delayedAckEnabled }

/-- One property of a banner. -/
def Atransport.parseProp (cfg : Config) (x : Atransport) (prop : Bytes) : Atransport :=
  match splitAt 61 prop with
  | [key, value] =>
    if key == ascii "ro.product.name" then { x with product := value }
    else if key == ascii "ro.product.model" then { x with model := value }
    else if key == ascii "ro.product.device" then { x with device := value }
    else if key == ascii "features" then x.setFeatures cfg value
    else x
  | _ => x

/-- The state a banner puts the connection in. -/
def bannerState (type : Bytes) : ConnectionState :=
  if type == ascii "bootloader" then .kCsBootloader
  else if type == ascii "device" then .kCsDevice
  else if type == ascii "recovery" then .kCsRecovery
  else if type == ascii "sideload" then .kCsSideload
  else if type == ascii "rescue" then .kCsRescue
  else .kCsHost

/-- `parse_banner`. -/
def parseBanner (w : World) (banner : Bytes) (t : TransportId) : World :=
  let pieces := splitAt 58 banner
  let w := w.updTransport t (·.setFeatures w.cfg [])
  let w := match pieces[2]? with
    | none => w
    | some props =>
      w.updTransport t fun x => (splitAt 59 props).foldl (Atransport.parseProp w.cfg) x
  setConnectionState w t (bannerState (pieces.headD []))

/-- `atransport::update_version`. -/
def Atransport.updateVersion (x : Atransport) (version payload : ℕ) : Atransport :=
  { x with
    protocolVersion := min (int32OfUint32 version) aVersion
    maxPayload := min payload AdbBridge.maxPayload }

/-- `handle_new_connection`. -/
def handleNewConnection (w : World) (t : TransportId) (p : Apacket) : World :=
  let w := handleOffline w t
  let w := w.updTransport t (·.updateVersion p.arg0 p.arg1)
  let w := parseBanner w p.payload t
  handleOnline w t

/-- `send_tls_request`. -/
def sendTlsRequest (w : World) (t : TransportId) : World :=
  w.sendPacket t { command := .aStls, arg0 := aStlsVersion }

/-- `send_connect`. -/
def sendConnect (w : World) (t : TransportId) : World :=
  (w.check (w.cfg.connectionString.length ≤ maxPayloadV1) .bannerTooLong).sendPacket t
    { command := .aCnxn, arg0 := aVersion, arg1 := (w.transport t).maxPayload,
      payload := w.cfg.connectionString }

/-! ### Authentication -/

/-- The keys left after `atransport::NextKey`; the first of them is the one to use. -/
def Atransport.nextKey (cfg : Config) (x : Atransport) : Atransport :=
  match x.keys with
  | [] => { x with keys := List.replicate cfg.knownKeys true ++ [false] }
  | _ :: ks => { x with keys := ks }

/-- `send_auth_publickey`. -/
def sendAuthPublickey (w : World) (t : TransportId) : World :=
  let key := w.cfg.publicKey
  if key.isEmpty || maxPayloadV1 ≤ key.length then w
  else w.sendPacket t { command := .aAuth, arg0 := adbAuthRsapublickey, payload := key ++ [0] }

/-- `send_auth_response`. -/
def sendAuthResponse (w : World) (t : TransportId) : World :=
  let w := w.updTransport t (·.nextKey w.cfg)
  if (w.transport t).keys.head? = some true then
    let result := w.io.sys.sign w.io.tick
    let w := w.tick
    if result.isEmpty then w
    else w.sendPacket t { command := .aAuth, arg0 := adbAuthSignature, payload := result }
  else
    sendAuthPublickey (setConnectionState w t .kCsUnauthorized) t

/-- The `A_AUTH` case of `handle_packet`. -/
def handleAuth (w : World) (t : TransportId) (p : Apacket) : World :=
  if (w.transport t).useTls then w
  else if p.arg0 = adbAuthToken then
    let w := if (w.transport t).connectionState = .kCsAuthorizing then w
      else setConnectionState w t .kCsAuthorizing
    sendAuthResponse w t
  else
    handleOffline (setConnectionState w t .kCsOffline) t

/-! ### Reverse forwards -/

/-- What `atransport::UpdateReverseConfig` does to `reverse_forwards_`; `none` is the
`LOG(FATAL)`. -/
def reverseConfig (forwards : AList fun _ : Bytes => Bytes) (serviceAddr : Bytes) :
    Option (AList fun _ : Bytes => Bytes) :=
  match consumePrefix serviceAddr (ascii "reverse:") with
  | none => some forwards
  | some addr =>
    match consumePrefix addr (ascii "forward:") with
    | some rest =>
      let (norebind, rest) := consumeFlag rest (ascii "norebind:")
      if rest.contains 59 then
        let remote := rest.takeWhile (· != 59)
        if norebind && decide (remote ∈ forwards) then some forwards
        else
          let localName := rest.drop (remote.length + 1)
          some (forwards.insert remote localName)
      else some forwards
    | none =>
      match consumePrefix addr (ascii "killforward:") with
      | some rest => if rest.contains 59 then some forwards else some (forwards.erase rest)
      | none =>
        if addr == ascii "killforward-all" then some ∅
        else if addr == ascii "list-forward" then some forwards
        else none

/-- `atransport::UpdateReverseConfig`. -/
def Atransport.updateReverseConfig (x : Atransport) (serviceAddr : Bytes) : Option Atransport :=
  (reverseConfig x.reverseForwards serviceAddr).map fun r => { x with reverseForwards := r }

/-- `atransport::IsReverseConfigured`. -/
def Atransport.isReverseConfigured (x : Atransport) (localAddr : Bytes) : Bool :=
  x.reverseForwards.entries.any (·.2 == localAddr)

/-- The call of `UpdateReverseConfig` in `connect_to_remote`. -/
def updateReverseConfig (w : World) (t : TransportId) (serviceAddr : Bytes) : World :=
  match (w.transport t).updateReverseConfig serviceAddr with
  | none => w.raise .unhandledReverse
  | some x => w.updTransport t fun _ => x

end AdbBridge
