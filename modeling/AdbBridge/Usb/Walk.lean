import AdbBridge.Usb.Descriptors
import Mathlib

/-!
# What a descriptor can do to the server

The bytes of the descriptors come from the device. The walk over them ends whatever they are, since
every round moves the cursor on or leaves the loop. But a round looks at the second byte of a
descriptor, and at the fields of an interface, without a test that they have been read; the path of
the device may be a null pointer; and the size of a packet is taken as it is, though
`UsbReadMessage` aborts if it does not like it. `safe_iff` says for which devices all is well.
-/

namespace AdbBridge.UsbInit

open List Option

variable {d : Devdesc} {p q ep : ℕ} {i : ℕ}

/-! ### The walk ends -/

theorem le_skipCompanion (d : Devdesc) (p : ℕ) : p ≤ skipCompanion d p := by
  rw [skipCompanion]
  split_ifs
  · omega
  · exact le_rfl

/-- The endpoints take at least fourteen bytes. -/
theorem le_endpointsEnd (d : Devdesc) (ep : ℕ) :
    ep + 7 ≤ secondEndpoint d ep ∧ secondEndpoint d ep + 7 ≤ endpointsEnd d ep :=
  ⟨le_skipCompanion d _, le_skipCompanion d _⟩

/-- A round that does not leave the loop moves the cursor on. -/
theorem lt_of_turn (h : turn d p = .next q) : p < q := by
  rw [turn] at h
  split_ifs at h with htype hlen hadb hzero
  · rw [endpointsTurn] at h
    split_ifs at h
    obtain rfl := Turn.next.inj h
    have hend := le_endpointsEnd d (p + (d.byte p).toNat)
    omega
  · obtain rfl := Turn.next.inj h
    omega
  · obtain rfl := Turn.next.inj h
    omega

/-- Every round takes the cursor one byte further at least. -/
theorem walk_ended (d : Devdesc) (fuel p : ℕ) (hfuel : 0 < fuel) (h : d.bufend < p + fuel) :
    (walk d fuel p).ended = true := by
  induction fuel generalizing p with
  | zero => omega
  | succ fuel ih =>
    rw [walk]
    split_ifs with hp
    · cases hturn : turn d p with
      | stop => rfl
      | found f => rfl
      | next q =>
        have hlt := lt_of_turn hturn
        exact ih q (by omega) (by push_cast at h ⊢; omega)
    · rfl

theorem bufend_le (d : Devdesc) : d.bufend ≤ 4096 := by
  rw [Devdesc.bufend]
  split
  · rename_i bs _
    exact_mod_cast bs.property
  · omega

/-- **The walk terminates.** -/
theorem descriptorWalk_ended (d : Devdesc) : (descriptorWalk d).ended = true := by
  have hle := bufend_le d
  exact walk_ended d 4096 27 (by omega) (by push_cast; omega)

/-- The cursor is in the buffer at the start of each round. -/
theorem lt_bufend_of_mem_heads {fuel : ℕ} (h : q ∈ (walk d fuel p).heads) : (q : ℤ) < d.bufend := by
  induction fuel generalizing p with
  | zero => cases h
  | succ fuel ih =>
    rw [walk] at h
    split_ifs at h with hp
    · cases hturn : turn d p with
      | stop =>
        rw [hturn] at h
        rw [mem_singleton.mp h]
        exact hp
      | found f =>
        rw [hturn] at h
        rw [mem_singleton.mp h]
        exact hp
      | next r =>
        rw [hturn] at h
        rcases mem_cons.mp h with rfl | h
        · exact hp
        · exact ih h
    · cases h

/-! ### The bytes it looks at -/

/-- A descriptor at `p` of which as much has been read as a round looks at: its length and type,
and of an interface the number of endpoints and, if there are two, the class. -/
def Fits (d : Devdesc) (p : ℕ) : Prop :=
  p + 1 < d.valid ∧
    (d.byte (p + 1) = usbDtInterface ∧ d.byte p = 9 →
      p + 4 < d.valid ∧ (d.byte (p + 4) = 2 → p + 7 < d.valid))

theorem mem_of_mem_tested {l : List (ℕ × Bool)} (h : i ∈ tested l) : i ∈ l.map Prod.fst := by
  induction l with
  | nil => cases h
  | cons t rest ih =>
    obtain ⟨j, ok⟩ := t
    rw [tested] at h
    rcases mem_cons.mp h with rfl | h
    · exact mem_cons_self
    · split_ifs at h
      · exact mem_cons_of_mem _ (ih h)
      · cases h

theorem lt_of_mem_companionReads (h : i ∈ companionReads d p) : (i : ℤ) < d.bufend := by
  rw [companionReads] at h
  split_ifs at h with hp
  · have hmem := mem_of_mem_tested h
    simp only [map_cons, map_nil, mem_cons, not_mem_nil, or_false] at hmem
    rcases hmem with rfl | rfl <;> push_cast <;> omega
  · cases h

/-- The endpoints are looked at only if they are in the buffer. -/
theorem lt_of_mem_endpointReads (h : i ∈ endpointReads d p (p + 9)) : (i : ℤ) < d.bufend := by
  rw [endpointReads] at h
  rcases mem_append.mp h with h | h
  · rcases mem_append.mp h with h | h
    · exact lt_of_mem_companionReads h
    · exact lt_of_mem_companionReads h
  · split_ifs at h with hend
    · cases h
    · have hle := le_endpointsEnd d (p + 9)
      have hmem := mem_of_mem_tested h
      simp only [map_cons, map_nil, mem_cons, not_mem_nil, or_false] at hmem
      omega

theorem valid_of_pos (h : 0 ≤ d.bufend) : (d.valid : ℤ) = d.bufend ∧ d.desclength = d.valid := by
  rw [Devdesc.valid, Devdesc.bufend, Devdesc.desclength] at *
  split at h
  · exact ⟨rfl, rfl⟩
  · omega

/-- **A round stays in the buffer** exactly if its descriptor fits. -/
theorem readsAt_lt_iff (hp : (p : ℤ) < d.bufend) : (∀ i ∈ readsAt d p, i < d.valid) ↔ Fits d p := by
  have hvalid := (valid_of_pos (d := d) (by omega)).1
  constructor
  · intro h
    refine ⟨h (p + 1) (by simp [readsAt]), fun hif => ?_⟩
    have hreads : ∀ i ∈ tested [(p + 4, decide (d.byte (p + 4) = 2)), (p + 5, true), (p + 6, true),
        (p + 7, true)], i < d.valid := by
      intro i hi
      refine h i ?_
      rw [readsAt, if_pos hif]
      exact mem_append_right _ (mem_append_left _ hi)
    refine ⟨hreads (p + 4) (by simp [tested]), fun htwo => hreads (p + 7) (by simp [tested, htwo])⟩
  · rintro ⟨htype, hfields⟩ i hi
    rw [readsAt] at hi
    rcases mem_append.mp hi with hi | hi
    · simp only [mem_cons, not_mem_nil, or_false] at hi
      omega
    · split_ifs at hi with hif hadb
      · obtain ⟨-, hclass⟩ := hfields hif
        rcases mem_append.mp hi with hi | hi
        · have hmem := mem_of_mem_tested hi
          have hseven := hclass hadb.1
          simp only [map_cons, map_nil, mem_cons, not_mem_nil,
            or_false] at hmem
          omega
        · have hlt := lt_of_mem_endpointReads hi
          omega
      · obtain ⟨hfour, hclass⟩ := hfields hif
        rw [append_nil] at hi
        by_cases htwo : d.byte (p + 4) = 2
        · have hmem := mem_of_mem_tested hi
          have hseven := hclass htwo
          simp only [map_cons, map_nil, mem_cons, not_mem_nil,
            or_false] at hmem
          omega
        · simp only [tested, htwo, decide_false, Bool.false_eq_true, if_false,
            mem_singleton] at hi
          omega
      · cases hi

/-- **What is looked at has been read** exactly if the read has not failed and every descriptor the
walk comes to fits. -/
theorem reads_lt_iff (d : Devdesc) :
    (∀ i ∈ reads d, i < d.valid) ↔
      d.read ≠ none ∧ (hasHeaders d → ∀ p ∈ (descriptorWalk d).heads, Fits d p) := by
  constructor
  · intro h
    refine ⟨fun hnone => ?_, fun hheaders p hp => ?_⟩
    · -- the failed read passes for a very long one, and the first byte is looked at
      have hlen : d.desclength = 2 ^ 64 - 1 := by rw [Devdesc.desclength, hnone]
      have hzero : 0 < d.valid := h 0 (by simp [reads, headerReads, hlen, tested])
      have hvalid : d.valid = 0 := by rw [Devdesc.valid, hnone]
      omega
    · have hlt := lt_bufend_of_mem_heads hp
      refine (readsAt_lt_iff hlt).mp fun i hi => h i ?_
      rw [reads, if_pos hheaders]
      exact mem_append_right _ (mem_flatMap.mpr ⟨p, hp, hi⟩)
  · rintro ⟨hsome, hfits⟩ i hi
    obtain ⟨bs, hbs⟩ := ne_none_iff_exists'.mp hsome
    have hlen : d.desclength = d.valid := by rw [Devdesc.desclength, Devdesc.valid, hbs]
    rw [reads] at hi
    rcases mem_append.mp hi with hi | hi
    · rw [headerReads] at hi
      split_ifs at hi with hshort
      · cases hi
      · have hmem := mem_of_mem_tested hi
        simp only [map_cons, map_nil, mem_cons, not_mem_nil,
          or_false] at hmem
        omega
    · split_ifs at hi with hheaders
      · obtain ⟨p, hp, hi⟩ := mem_flatMap.mp hi
        exact (readsAt_lt_iff (lt_bufend_of_mem_heads hp)).mpr (hfits hheaders p hp) i hi
      · cases hi

/-! ### Registering what was found -/

/-- The two `CHECK`s of `UsbReadMessage`. -/
def packetSizeChecked (maxPacketSize : ℕ) : Prop := 24 ≤ maxPacketSize ∧ maxPacketSize < 4096

section

variable {sys : System} {fd : ℕ}

/-- The device that `register_device` is called for. -/
theorem calls_registerDevice (sys : System) (handles : List UsbHandle) (dev : Device) :
    (registerDevice sys handles dev).calls = [dev] := by
  rw [registerDevice]
  split
  · rfl
  · split_ifs <;> rfl

/-- **The calls of `register_device`**: one for the interface that was found, and none without. -/
theorem calls_usbInit {devName : Bytes} (hlink : sys.link (procLink fd) = some devName)
    (handles : List UsbHandle) :
    (usbInit sys fd handles).calls =
      if hasHeaders sys.descriptors then
        ((descriptorWalk sys.descriptors).found.map fun f =>
          (⟨devName, devicePath sys, f, fd⟩ : Device)).toList
      else [] := by
  simp only [usbInit, hlink]
  split_ifs with hheaders
  · cases hfound : (descriptorWalk sys.descriptors).found with
    | none => rfl
    | some f => exact calls_registerDevice sys handles _
  · rfl

/-- The path of the device is known: `fstat` says that it is a character device, and the link to
it in `sysfs` can be read and has a slash in what is read of it. -/
def PathKnown (sys : System) : Prop :=
  ∃ st, sys.fstat = some st ∧ st.isChr = true ∧ ∃ target,
    sys.link (ascii "/sys/dev/char/" ++ decimal st.major ++ [58] ++ decimal st.minor) =
      some target ∧ 47 ∈ target.take 255

theorem devicePath_ne_none_iff : devicePath sys ≠ none ↔ PathKnown sys := by
  unfold devicePath PathKnown
  cases sys.fstat with
  | none => simp
  | some st =>
    cases hchr : st.isChr with
    | false => simp [hchr]
    | true =>
      simp only [if_true, some.injEq, exists_eq_left', hchr, true_and]
      cases sys.link (ascii "/sys/dev/char/" ++ decimal st.major ++ [58] ++ decimal st.minor) with
      | none => simp
      | some target =>
        dsimp only
        split_ifs with hslash
        · simp [hslash]
        · simp [hslash]

end

/-- **A descriptor does no harm**: the walk ends, looks at bytes only that have been read, and
hands on a path and a size that are not taken amiss. -/
structure Safe (sys : System) (fd : ℕ) (handles : List UsbHandle) : Prop where
  ended : (descriptorWalk sys.descriptors).ended = true
  inBounds : ∀ i ∈ reads sys.descriptors, i < sys.descriptors.valid
  devPath : ∀ dev ∈ (usbInit sys fd handles).calls, dev.devPath ≠ none
  packetSize : ∀ dev ∈ (usbInit sys fd handles).calls, packetSizeChecked dev.found.maxPacketSize

/-- **Which devices do no harm.** With the name of the device known, all is well exactly if the
read has not failed and, once the walk starts, every descriptor it comes to fits into what was
read, and for an interface it finds the path of the device is known and the packet size passes
the checks. -/
theorem safe_iff {sys : System} {fd : ℕ} {devName : Bytes}
    (hlink : sys.link (procLink fd) = some devName) (handles : List UsbHandle) :
    Safe sys fd handles ↔
      sys.descriptors.read ≠ none ∧
        (hasHeaders sys.descriptors →
          (∀ p ∈ (descriptorWalk sys.descriptors).heads, Fits sys.descriptors p) ∧
          ∀ f ∈ (descriptorWalk sys.descriptors).found,
            PathKnown sys ∧ packetSizeChecked f.maxPacketSize) := by
  rw [← devicePath_ne_none_iff]
  have hreads := reads_lt_iff sys.descriptors
  have hcalls := calls_usbInit hlink handles
  constructor
  · intro h
    obtain ⟨hread, hfits⟩ := hreads.mp h.inBounds
    refine ⟨hread, fun hheaders => ⟨hfits hheaders, fun f hf => ?_⟩⟩
    have hmem : (⟨devName, devicePath sys, f, fd⟩ : Device) ∈ (usbInit sys fd handles).calls := by
      rw [hcalls, if_pos hheaders, show _ = some f from hf]
      exact mem_singleton_self _
    exact ⟨h.devPath _ hmem, h.packetSize _ hmem⟩
  · rintro ⟨hread, hall⟩
    have hdev : ∀ dev ∈ (usbInit sys fd handles).calls,
        dev.devPath ≠ none ∧ packetSizeChecked dev.found.maxPacketSize := by
      intro dev hmem
      rw [hcalls] at hmem
      split_ifs at hmem with hheaders
      · obtain ⟨f, hf, rfl⟩ := map_eq_some_iff.mp (mem_toList.mp hmem)
        exact (hall hheaders).2 f hf
      · cases hmem
    exact ⟨descriptorWalk_ended _, hreads.mpr ⟨hread, fun hheaders => (hall hheaders).1⟩,
      fun dev hmem => (hdev dev hmem).1, fun dev hmem => (hdev dev hmem).2⟩

/-! ### Devices -/

/-- A device and a configuration descriptor. -/
def headers : Bytes := [18, 1] ++ List.replicate 16 0 ++ [9, 2] ++ List.replicate 7 0

/-- The descriptors of an ADB interface with a bulk endpoint in each direction. -/
def adbDescriptors (maxPacketSize : UInt8) : Bytes :=
  [9, 4, 1, 0, 2, 0xff, 0x42, 1, 0] ++ [7, 5, 0x81, 2, maxPacketSize, 0, 0] ++
    [7, 5, 0x02, 2, maxPacketSize, 0, 0]

/-- A device with these descriptors behind its headers. -/
def deviceWith (descriptors : Bytes) (h : (headers ++ descriptors).length ≤ 4096) : System where
  link path :=
    if path = procLink 5 then some (ascii "/dev/bus/usb/001/002")
    else if path = ascii "/sys/dev/char/189:1" then some (ascii "../../devices/usb1/1-1")
    else none
  fstat := some ⟨true, 189, 1⟩
  descriptors := ⟨some ⟨headers ++ descriptors, h⟩, fun _ => 0⟩

/-- A device with an ADB interface and packets of 64 bytes. -/
def adbDevice : System := deviceWith (adbDescriptors 64) (by decide)

/-- A device that does no harm. -/
theorem safe_iff_adb : Safe adbDevice 5 [] := by
  have hlink : adbDevice.link (procLink 5) = some (ascii "/dev/bus/usb/001/002") := by decide
  have hpath : PathKnown adbDevice :=
    ⟨_, rfl, rfl, ascii "../../devices/usb1/1-1", by decide, by decide⟩
  have hfits : ∀ p ∈ (descriptorWalk adbDevice.descriptors).heads,
      Fits adbDevice.descriptors p := by
    unfold Fits
    decide +kernel
  have hsize : ∀ f ∈ (descriptorWalk adbDevice.descriptors).found,
      packetSizeChecked f.maxPacketSize := by
    unfold packetSizeChecked
    decide +kernel
  exact (safe_iff hlink []).mpr ⟨nofun, fun _ => ⟨hfits, fun f hf => ⟨hpath, hsize f hf⟩⟩⟩

/-- Four devices that do harm. Of the first the descriptors cannot be read, and the buffer is
looked at all the same; of the second one byte has been read of the last descriptor, and the next
one is looked at; of the third the path is a null pointer; and the fourth has packets that are
too small for a message. -/
theorem harmful_devices :
    let unread : Devdesc := ⟨none, fun _ => 0⟩
    let cut := (deviceWith [7] (by decide)).descriptors
    (0 ∈ reads unread ∧ unread.valid = 0) ∧ (28 ∈ reads cut ∧ cut.valid = 28) ∧
    (usbInit { adbDevice with fstat := none } 5 []).calls.map Device.devPath = [none] ∧
    (usbInit (deviceWith (adbDescriptors 8) (by decide)) 5 []).calls.map
      (·.found.maxPacketSize) = [8] := by
  exact ⟨by decide, ⟨by decide +kernel, rfl⟩, by decide +kernel, by decide +kernel⟩

end AdbBridge.UsbInit
