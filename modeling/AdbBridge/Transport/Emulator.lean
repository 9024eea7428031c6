import AdbBridge.Transport.Lifecycle

/-!
# Emulators, and the table of their ports

An emulator is a transport like any other, found by its serial number on the pending list or on
the list of transports. Besides, `local_transports` has the transport of each emulator under the
port of its `adbd`. An entry is made in `init_socket_transport`, before the serial number is
looked up, and it is taken out in `EmulatorConnection::Close`. The adapter calls that function
from its `Stop`, but only if it has been started.

A registration can be turned down at two places. At the first, because of the port, nothing has
been done yet. At the second, because of the serial number, the entry of the new transport is in
the table; the transport is deleted, its adapter has never been started, and the entry stays.
-/

namespace AdbBridge

open Function

/-! ### State -/

/-- A port that is tried again after its emulator has gone. -/
structure RetryPort where
  port : ℤ
  retryCount : ℕ
  deriving DecidableEq, Repr

def localPortRetryCount : ℕ := 60

/-- A transport that has not been made yet is not alive, and not on a list. -/
def Net.Fresh (n : Net) : Prop :=
  ∀ t, n.nextTransport ≤ t →
    (n.transports t).alive = false ∧ t ∉ n.pendingList ∧ t ∉ n.transportList

/-- The lists of transports and the table of ports. -/
structure Registry where
  net : Net := {}
  localTransports : AList fun _ : ℤ => TransportId := ∅
  /-- The port of the `EmulatorConnection` of a transport, if it has one. -/
  emulatorPort : TransportId → Option ℤ := fun _ => none
  retryPorts : List RetryPort := []
  /-- The transports that `register_transport` has queued for the looper. -/
  registrations : List TransportId := []
  fresh : net.Fresh

namespace Registry

/-- Write to the fields of a transport, other than to bring it to life. -/
def updTransport (r : Registry) (t : TransportId) (f : Atransport → Atransport)
    (hf : ∀ x, x.alive = false → (f x).alive = false) : Registry :=
  { r with
    net := r.net.updTransport t f
    fresh := fun u hu => by
      obtain ⟨halive, hlists⟩ := r.fresh u hu
      refine ⟨?_, hlists⟩
      rcases eq_or_ne u t with rfl | hne
      · simpa [Net.updTransport] using hf _ halive
      · simpa [Net.updTransport, hne] using halive }

/-- `new atransport(…, kCsOffline)`, with the fields `register_socket_transport` sets at once. -/
def newAtransport (r : Registry) (serial : Bytes) (useTls : Bool) : Registry :=
  { r with
    net :=
      { r.net.updTransport r.net.nextTransport fun _ =>
          { alive := true, connectionState := .kCsOffline, serial := serial, useTls := useTls } with
        nextTransport := r.net.nextTransport + 1 }
    fresh := fun u hu => by
      have hlt : r.net.nextTransport < u := hu
      obtain ⟨halive, hlists⟩ := r.fresh u hlt.le
      exact ⟨by simpa [Net.updTransport, hlt.ne'] using halive, hlists⟩ }

/-- `SetConnection`, with a `BlockingConnectionAdapter` that has not been started. -/
def setConnection (r : Registry) (t : TransportId) (port : Option ℤ) : Registry :=
  { r.updTransport t ({ · with conn := .idle }) fun _ h => h with
    emulatorPort := Function.update r.emulatorPort t port }

/-- `find_emulator_transport_by_adb_port_locked`. -/
def findEmulatorTransportByAdbPortLocked (r : Registry) (adbPort : ℤ) : Option TransportId :=
  r.localTransports.lookup adbPort

/-- `init_socket_transport`. -/
def initSocketTransport (r : Registry) (t : TransportId) (adbPort isLocal : ℤ) : Registry × ℤ :=
  let r := r.updTransport t ({ · with type := .kTransportLocal }) fun _ h => h
  if isLocal ≠ 0 then
    let r := r.setConnection t (some adbPort)
    match r.findEmulatorTransportByAdbPortLocked adbPort with
    | some _ => (r, -1)
    | none => ({ r with localTransports := r.localTransports.insert adbPort t }, 0)
  else (r.setConnection t none, 0)

/-- `BlockingConnectionAdapter::Stop`, which closes the connection of an adapter that has been
started and not stopped. The close of an `EmulatorConnection` takes its port out of the table. -/
def stopConnection (r : Registry) (t : TransportId) : Registry :=
  if (r.net.transports t).conn = .running then
    let r := r.updTransport t ({ · with conn := .stopped }) fun _ h => h
    match r.emulatorPort t with
    | some port => { r with localTransports := r.localTransports.erase port }
    | none => r
  else r

/-- `delete t`: the adapter is stopped, and the destructor of an `EmulatorConnection` has its port
tried again. -/
def deleteTransport (r : Registry) (t : TransportId) : Registry :=
  let r := r.stopConnection t
  let r := match r.emulatorPort t with
    | some port => { r with retryPorts := r.retryPorts ++ [RetryPort.mk port localPortRetryCount] }
    | none => r
  r.updTransport t ({ · with alive := false }) fun _ _ => rfl

end Registry

/-! ### Registering a socket transport -/

/-- What `register_socket_transport` leaves in `*error`. -/
inductive RegisterError
  /-- Whatever `errno` was. -/
  | errno
  | ealready
  | etimedout
  | eperm
  deriving DecidableEq, Repr

namespace Registry

/-- Whether a transport of the list has the serial number. -/
def HasSerial (r : Registry) (list : List TransportId) (serial : Bytes) : Prop :=
  ∃ u ∈ list, (r.net.transports u).serial = serial

instance decidableHasSerial (r : Registry) (list : List TransportId) (serial : Bytes) :
    Decidable (r.HasSerial list serial) :=
  inferInstanceAs (Decidable (∃ u ∈ list, (r.net.transports u).serial = serial))

/-- `validate_transport_list`, with what the caller returns if it fails. -/
def validateTransportList (r : Registry) (list : List TransportId) (serial : Bytes)
    (t : TransportId) : Option (Except RegisterError Unit × Registry) :=
  if r.HasSerial list serial then some (.error .ealready, r.deleteTransport t) else none

/-- `pending_list.push_front` and `register_transport`. -/
def pushPending (r : Registry) (t : TransportId) (ht : t < r.net.nextTransport) : Registry :=
  { r with
    net := { r.net with pendingList := t :: r.net.pendingList }
    registrations := r.registrations ++ [t]
    fresh := fun u hu => by
      obtain ⟨halive, hpending, htransport⟩ := r.fresh u hu
      refine ⟨halive, fun hmem => ?_, htransport⟩
      rcases List.mem_cons.mp hmem with rfl | hmem
      · exact absurd ht (not_lt.mpr hu)
      · exact hpending hmem }

/-- What comes after the transport has been queued. Nobody waits for an emulator. For the others
`waited` is the state of the connection once it is established, and `none` if it is not. -/
def waitForConnection (isLocal : ℤ) (waited : Option ConnectionState) : Except RegisterError Unit :=
  if isLocal = 1 then .ok ()
  else match waited with
    | none => .error .etimedout
    | some .kCsUnauthorized => .error .eperm
    | some _ => .ok ()

theorem initSocketTransport_nextTransport (r : Registry) (t : TransportId) (port isLocal : ℤ) :
    (r.initSocketTransport t port isLocal).1.net.nextTransport = r.net.nextTransport := by
  rw [initSocketTransport]
  dsimp only
  split_ifs
  · split
    · rfl
    · rfl
  · rfl

/-- `register_socket_transport`. -/
def registerSocketTransport (r : Registry) (serial : Bytes) (port isLocal : ℤ) (useTls : Bool)
    (waited : Option ConnectionState) : Except RegisterError Unit × Registry :=
  let t := r.net.nextTransport
  let init := (r.newAtransport serial useTls).initSocketTransport t port isLocal
  if init.2 < 0 then (.error .errno, init.1.deleteTransport t)
  else match init.1.validateTransportList init.1.net.pendingList serial t with
    | some failed => failed
    | none =>
      match init.1.validateTransportList init.1.net.transportList serial t with
      | some failed => failed
      | none =>
        (waitForConnection isLocal waited, init.1.pushPending t (by
          rw [initSocketTransport_nextTransport]
          exact Nat.lt_succ_self t))

/-! ### An emulator -/

/-- Every entry of the table is a transport that is alive. -/
def EntriesAlive (r : Registry) : Prop :=
  ∀ port t, r.localTransports.lookup port = some t → (r.net.transports t).alive = true

/-- The lists and the table are the same. -/
structure SameTables (r r' : Registry) : Prop where
  pendingList : r'.net.pendingList = r.net.pendingList
  transportList : r'.net.transportList = r.net.transportList
  localTransports : r'.localTransports = r.localTransports

/-- The new transport of an emulator, with its connection, before it is put into a table. -/
def newEmulator (r : Registry) (serial : Bytes) (port : ℤ) (useTls : Bool) : Registry :=
  ((r.newAtransport serial useTls).updTransport r.net.nextTransport
    ({ · with type := .kTransportLocal }) fun _ h =>
      h).setConnection r.net.nextTransport (some port)

/-- The same, with its entry in the table. -/
def enteredEmulator (r : Registry) (serial : Bytes) (port : ℤ) (useTls : Bool) : Registry :=
  { r.newEmulator serial port useTls with
    localTransports := r.localTransports.insert port r.net.nextTransport }

section

variable (r : Registry) (serial : Bytes) (port : ℤ) (useTls : Bool)

/-- The object that `register_socket_transport` makes for an emulator. -/
theorem newEmulator_transports :
    (r.newEmulator serial port useTls).net.transports =
      Function.update r.net.transports r.net.nextTransport
        { alive := true, connectionState := .kCsOffline, type := .kTransportLocal,
          serial := serial, useTls := useTls } := by
  ext u : 1
  rcases eq_or_ne u r.net.nextTransport with rfl | hne
  · simp [newEmulator, setConnection, updTransport, newAtransport, Net.updTransport]
  · simp [newEmulator, setConnection, updTransport, newAtransport, Net.updTransport, hne]

/-- The new transport does not count when a list is searched for its serial number. -/
theorem hasSerial_newEmulator {list : List TransportId} (hnew : r.net.nextTransport ∉ list) :
    (r.newEmulator serial port useTls).HasSerial list serial ↔ r.HasSerial list serial := by
  have hsame : ∀ u ∈ list, ((r.newEmulator serial port useTls).net.transports u).serial =
      (r.net.transports u).serial := by
    intro u hu
    have hne : u ≠ r.net.nextTransport := fun h => hnew (h ▸ hu)
    rw [newEmulator_transports, update_of_ne hne]
  constructor
  · rintro ⟨u, hu, hs⟩
    exact ⟨u, hu, (hsame u hu).symm.trans hs⟩
  · rintro ⟨u, hu, hs⟩
    exact ⟨u, hu, (hsame u hu).trans hs⟩

/-- A port that is in the table turns the transport down. -/
theorem initSocketTransport_of_mem (hport : port ∈ r.localTransports) :
    (r.newAtransport serial useTls).initSocketTransport r.net.nextTransport port 1 =
      (r.newEmulator serial port useTls, -1) := by
  obtain ⟨u, hu⟩ := Option.isSome_iff_exists.mp (AList.lookup_isSome.mpr hport)
  have hfind : (r.newEmulator serial port useTls).findEmulatorTransportByAdbPortLocked port =
      some u := hu
  rw [newEmulator] at hfind
  simp only [initSocketTransport, ne_eq, one_ne_zero, not_false_eq_true, if_true, hfind]
  rfl

/-- A port that is not in the table is put there. -/
theorem initSocketTransport_of_notMem (hport : port ∉ r.localTransports) :
    (r.newAtransport serial useTls).initSocketTransport r.net.nextTransport port 1 =
      (r.enteredEmulator serial port useTls, 0) := by
  have hfind : (r.newEmulator serial port useTls).findEmulatorTransportByAdbPortLocked port =
      none := AList.lookup_eq_none.mpr hport
  rw [newEmulator] at hfind
  simp only [initSocketTransport, ne_eq, one_ne_zero, not_false_eq_true, if_true, hfind]
  rfl

end

/-! ### Deleting a transport that has not been started -/

/-- The tables are not touched: the connection is not closed. -/
theorem deleteTransport_idle {r : Registry} {t : TransportId}
    (hidle : (r.net.transports t).conn = .idle) :
    r.SameTables (r.deleteTransport t) ∧
      (r.deleteTransport t).net.transports =
        Function.update r.net.transports t { r.net.transports t with alive := false } := by
  have hstop : r.stopConnection t = r := by
    rw [stopConnection, if_neg (by simp [hidle])]
  rw [deleteTransport, hstop]
  cases r.emulatorPort t with
  | none => exact ⟨⟨rfl, rfl, rfl⟩, rfl⟩
  | some port => exact ⟨⟨rfl, rfl, rfl⟩, rfl⟩

/-- Deleting the new transport leaves the others as they were. -/
theorem EntriesAlive.deleteTransport {r r' : Registry} (h : r.EntriesAlive)
    (hnet : ∀ u, u ≠ r.net.nextTransport → (r'.net.transports u).alive = (r.net.transports u).alive)
    (htable : r'.localTransports = r.localTransports) : r'.EntriesAlive := by
  intro port u hu
  rw [htable] at hu
  have halive := h port u hu
  have hne : u ≠ r.net.nextTransport := by
    rintro rfl
    rw [(r.fresh _ le_rfl).1] at halive
    cases halive
  rw [hnet u hne, halive]

/-! ### The two ways to fail -/

section

variable {r : Registry} {serial : Bytes} {port : ℤ} (useTls : Bool)
  (waited : Option ConnectionState)

/-- **A port that is taken.** The registration fails and leaves no trace. -/
theorem registerSocketTransport_of_mem (h : r.EntriesAlive) (hport : port ∈ r.localTransports) :
    r.SameTables (r.registerSocketTransport serial port 1 useTls waited).2 ∧
      (r.registerSocketTransport serial port 1 useTls waited).2.EntriesAlive := by
  have hidle : ((r.newEmulator serial port useTls).net.transports r.net.nextTransport).conn =
      .idle := by
    rw [newEmulator_transports, update_self]
  obtain ⟨hsame, hnet⟩ := deleteTransport_idle hidle
  have hreg : r.registerSocketTransport serial port 1 useTls waited =
      (.error .errno, (r.newEmulator serial port useTls).deleteTransport r.net.nextTransport) := by
    simp only [registerSocketTransport, initSocketTransport_of_mem r serial port useTls hport]
    rfl
  rw [hreg]
  refine ⟨⟨hsame.pendingList, hsame.transportList, hsame.localTransports⟩,
    h.deleteTransport (fun u hu => ?_) hsame.localTransports⟩
  rw [hnet, update_of_ne hu, newEmulator_transports, update_of_ne hu]

/-- What becomes of a free port depends on the serial number. -/
theorem registerSocketTransport_of_notMem (hport : port ∉ r.localTransports) :
    r.registerSocketTransport serial port 1 useTls waited =
      if r.HasSerial (r.net.pendingList ++ r.net.transportList) serial then
        (.error .ealready,
          (r.enteredEmulator serial port useTls).deleteTransport r.net.nextTransport)
      else
        (.ok (), (r.enteredEmulator serial port useTls).pushPending r.net.nextTransport
          (Nat.lt_succ_self _)) := by
  obtain ⟨-, hpending, htransport⟩ := r.fresh r.net.nextTransport le_rfl
  have happend : r.HasSerial (r.net.pendingList ++ r.net.transportList) serial ↔
      r.HasSerial r.net.pendingList serial ∨ r.HasSerial r.net.transportList serial := by
    simp only [HasSerial, List.mem_append, or_and_right, exists_or]
  have hp : (r.enteredEmulator serial port useTls).HasSerial
      (r.enteredEmulator serial port useTls).net.pendingList serial ↔
        r.HasSerial r.net.pendingList serial :=
    r.hasSerial_newEmulator serial port useTls hpending
  have ht : (r.enteredEmulator serial port useTls).HasSerial
      (r.enteredEmulator serial port useTls).net.transportList serial ↔
        r.HasSerial r.net.transportList serial :=
    r.hasSerial_newEmulator serial port useTls htransport
  simp only [registerSocketTransport, initSocketTransport_of_notMem r serial port useTls hport,
    lt_irrefl, if_false, validateTransportList, hp, ht, happend]
  by_cases hdup : r.HasSerial r.net.pendingList serial
  · simp only [hdup, if_true, true_or]
  · by_cases hdup' : r.HasSerial r.net.transportList serial
    · simp only [hdup, hdup', if_true, if_false, or_true]
    · simp only [hdup, hdup', if_false, or_self, waitForConnection, if_true]

/-- **A serial number that is taken.** The entry of the transport that was turned down stays. -/
theorem deleteTransport_enteredEmulator (r : Registry) (serial : Bytes) (port : ℤ) (useTls : Bool) :
    ((r.enteredEmulator serial port useTls).deleteTransport
        r.net.nextTransport).localTransports.lookup port = some r.net.nextTransport ∧
      (((r.enteredEmulator serial port useTls).deleteTransport
        r.net.nextTransport).net.transports r.net.nextTransport).alive = false := by
  have hidle : ((r.enteredEmulator serial port useTls).net.transports r.net.nextTransport).conn =
      .idle := by
    rw [show (r.enteredEmulator serial port useTls).net = (r.newEmulator serial port useTls).net
      from rfl, newEmulator_transports, update_self]
  obtain ⟨hsame, hnet⟩ := deleteTransport_idle hidle
  constructor
  · rw [hsame.localTransports]
    exact AList.lookup_insert _
  · rw [hnet, update_self]

end

end Registry

open Registry in
/-- **When a rejected emulator leaves no trace.** Whatever the lists and the table hold, a
registration that is turned down leaves them as they were, with every entry of the table alive,
exactly if the port was taken or the serial number was not. -/
theorem registerSocketTransport_emulator_iff {r : Registry} (h : r.EntriesAlive) (serial : Bytes)
    (port : ℤ) (useTls : Bool) (waited : Option ConnectionState) :
    let result := r.registerSocketTransport serial port 1 useTls waited
    ((∀ e, result.1 = .error e → r.SameTables result.2 ∧ result.2.EntriesAlive) ↔
      (port ∈ r.localTransports ∨
        ¬r.HasSerial (r.net.pendingList ++ r.net.transportList) serial)) := by
  intro result
  constructor
  · intro hall
    by_contra hcon
    rw [not_or, not_not] at hcon
    have hresult : result = (.error .ealready,
        (r.enteredEmulator serial port useTls).deleteTransport r.net.nextTransport) :=
      (registerSocketTransport_of_notMem useTls waited hcon.1).trans (if_pos hcon.2)
    obtain ⟨-, halive⟩ := hall .ealready (by rw [hresult])
    rw [hresult] at halive
    obtain ⟨hentry, hdead⟩ := deleteTransport_enteredEmulator r serial port useTls
    exact absurd ((halive port _ hentry).symm.trans hdead) (by decide)
  · rintro (hport | hserial) e he
    · exact registerSocketTransport_of_mem useTls waited h hport
    · by_cases hport : port ∈ r.localTransports
      · exact registerSocketTransport_of_mem useTls waited h hport
      · -- the transport is accepted
        have hresult : result.1 = .ok () :=
          congrArg Prod.fst ((registerSocketTransport_of_notMem useTls waited hport).trans
            (if_neg hserial))
        rw [hresult] at he
        cases he

/-- One emulator, on the pending list and in the table. -/
def oneEmulator : Registry where
  net :=
    { transports := fun t =>
        if t = 1 then { alive := true, type := .kTransportLocal, serial := ascii "emulator-5554" }
        else {}
      pendingList := [1]
      nextTransport := 2 }
  localTransports := AList.insert 5555 1 ∅
  fresh := fun t ht => by
    have hne : t ≠ 1 := by
      rintro rfl
      exact absurd ht (by decide)
    exact ⟨by simp [hne], by simpa using hne, by simp⟩

theorem oneEmulator_entriesAlive : oneEmulator.EntriesAlive := by
  intro port t ht
  rcases eq_or_ne port 5555 with rfl | hne
  · rw [oneEmulator, AList.lookup_insert] at ht
    obtain rfl : 1 = t := Option.some.inj ht
    rfl
  · rw [oneEmulator, AList.lookup_insert_ne hne, AList.lookup_empty] at ht
    cases ht

/-- The same emulator once more. -/
theorem registerSocketTransport_emulator_iff_again :
    let result := oneEmulator.registerSocketTransport (ascii "emulator-5554") 5555 1 false none
    result.1 = .error .errno ∧ oneEmulator.SameTables result.2 ∧ result.2.EntriesAlive :=
  ⟨rfl, (registerSocketTransport_emulator_iff oneEmulator_entriesAlive (ascii "emulator-5554") 5555
    false none).mpr (.inl (AList.mem_insert _ |>.mpr (.inl rfl))) _ rfl⟩

/-- The same serial number with another port, as `local_connect_arbitrary_ports` may be asked
for. The registration fails, and the table has a transport that is deleted. -/
theorem rejected_emulator_in_table :
    oneEmulator.EntriesAlive ∧
      let result := oneEmulator.registerSocketTransport (ascii "emulator-5554") 5557 1 false none
      result.1 = .error .ealready ∧ result.2.localTransports ≠ oneEmulator.localTransports ∧
        result.2.localTransports.lookup 5557 = some 2 ∧
        (result.2.net.transports 2).alive = false := by
  have hentry : (oneEmulator.registerSocketTransport (ascii "emulator-5554") 5557 1 false
      none).2.localTransports.lookup 5557 = some 2 := by decide +kernel
  refine ⟨oneEmulator_entriesAlive, by rfl, fun hsame => ?_, hentry, by decide +kernel⟩
  rw [hsame] at hentry
  exact absurd hentry (by decide)

end AdbBridge
