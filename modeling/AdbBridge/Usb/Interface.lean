import AdbBridge.Usb.Walk

/-!
# Finding the interface

A buffer of descriptors that is well formed, with an ADB interface in it, is registered: the walk
steps over the descriptors in front of the interface, finds its two endpoints whatever their order
and with or without companions, and calls `register_device` for them.

There are two exceptions. The walk gives up at a descriptor that looks like an interface and does
not have nine bytes (`DescriptorBuffer.Passes`). And it does not even start unless a link can be
read whose name has nothing to do with the device: `usb_init` forgets the slash between
`/proc/self/fd` and the number (`registered_iff`).
-/

namespace AdbBridge.UsbInit

open List

/-! ### Well-formed descriptors -/

/-- A descriptor: its first byte is its length. -/
def IsDescriptor (desc : Bytes) : Prop := desc ≠ [] ∧ (desc.getD 0 0).toNat = desc.length

/-- The descriptor of an ADB interface. -/
def IsAdb (desc : Bytes) : Prop :=
  8 ≤ desc.length ∧ desc.getD 1 0 = usbDtInterface ∧
    isAdbInterface (desc.getD 5 0) (desc.getD 6 0) (desc.getD 7 0) = true

/-- The descriptor of a bulk endpoint. -/
def IsBulk (desc : Bytes) : Prop :=
  desc.length = 7 ∧ desc.getD 0 0 = 7 ∧ desc.getD 1 0 = usbDtEndpoint ∧
    desc.getD 3 0 = usbEndpointXferBulk

/-- An endpoint that the host reads from. -/
def IsIn (desc : Bytes) : Prop := desc.getD 2 0 &&& usbEndpointDirMask ≠ 0

/-- A SuperSpeed companion. -/
def IsCompanion (desc : Bytes) : Prop :=
  desc.length = 6 ∧ desc.getD 0 0 = 6 ∧ desc.getD 1 0 = usbDtSsEndpointComp

/-- An ADB interface with a bulk endpoint in each direction. -/
structure AdbInterface where
  iface : Bytes
  epIn : Bytes
  epOut : Bytes
  /-- Which of the endpoints comes first. -/
  inFirst : Bool
  companion1 : Option Bytes
  companion2 : Option Bytes
  isDescriptor : IsDescriptor iface
  isAdb : IsAdb iface
  twoEndpoints : iface.getD 4 0 = 2
  bulkIn : IsBulk epIn
  bulkOut : IsBulk epOut
  isIn : IsIn epIn
  isOut : ¬IsIn epOut
  isCompanion1 : ∀ c ∈ companion1, IsCompanion c
  isCompanion2 : ∀ c ∈ companion2, IsCompanion c

namespace AdbInterface

variable (a : AdbInterface)

/-- The endpoint that comes first. -/
def ep1 : Bytes := if a.inFirst then a.epIn else a.epOut

/-- The one that comes second. -/
def ep2 : Bytes := if a.inFirst then a.epOut else a.epIn

/-- What follows the interface descriptor. -/
def endpoints : Bytes :=
  a.ep1 ++ (a.companion1.getD [] ++ (a.ep2 ++ a.companion2.getD []))

theorem bulk1 : IsBulk a.ep1 := by
  rw [ep1]
  split_ifs
  · exact a.bulkIn
  · exact a.bulkOut

theorem bulk2 : IsBulk a.ep2 := by
  rw [ep2]
  split_ifs
  · exact a.bulkOut
  · exact a.bulkIn

end AdbInterface

/-- A buffer of descriptors with an ADB interface, and none in front of it. -/
structure DescriptorBuffer where
  device : Bytes
  config : Bytes
  before : List Bytes
  target : AdbInterface
  after : List Bytes
  isDevice : device.length = 18 ∧ device.getD 0 0 = 18 ∧ device.getD 1 0 = usbDtDevice
  isConfig : config.length = 9 ∧ config.getD 0 0 = 9 ∧ config.getD 1 0 = usbDtConfig
  descriptors : ∀ desc ∈ before ++ after, IsDescriptor desc
  first : ∀ desc ∈ before, ¬IsAdb desc
  fits : (device ++ config ++ (before.flatten ++ (target.iface ++ (target.endpoints ++
    after.flatten)))).length ≤ 4096

namespace DescriptorBuffer

variable (b : DescriptorBuffer)

/-- What is behind the descriptors in front of the interface. -/
def rest : Bytes := b.target.iface ++ (b.target.endpoints ++ b.after.flatten)

/-- All bytes. -/
def bytes : Bytes := b.device ++ b.config ++ (b.before.flatten ++ b.rest)

end DescriptorBuffer

/-- The walk does not give up at one of these descriptors: if the second byte says that it is an
interface, it has nine bytes. Of a descriptor with one byte, the second one belongs to the
next. -/
def Passes : List Bytes → Bytes → Prop
  | [], _ => True
  | desc :: ds, rest =>
    ((desc ++ (ds.flatten ++ rest)).getD 1 0 = usbDtInterface → desc.length = 9) ∧ Passes ds rest

instance decidablePasses : ∀ ds rest, Decidable (Passes ds rest)
  | [], _ => isTrue trivial
  | _ :: ds, rest =>
    have := decidablePasses ds rest
    inferInstanceAs (Decidable ((_ → _) ∧ Passes ds rest))

/-! ### One descriptor -/

/-- The bytes behind the cursor. -/
structure Ahead (d : Devdesc) (p : ℕ) (suffix : Bytes) : Prop where
  byte : ∀ i, i < suffix.length → d.byte (p + i) = suffix.getD i 0
  bufend : d.bufend = p + suffix.length

section

variable {d : Devdesc} {p : ℕ} {desc rest : Bytes}

theorem Ahead.drop (h : Ahead d p (desc ++ rest)) : Ahead d (p + desc.length) rest := by
  refine ⟨fun i hi => ?_, ?_⟩
  · have hbyte := h.byte (desc.length + i) (by rw [length_append]; omega)
    rw [Nat.add_assoc, hbyte, getD_append_right _ _ _ _ (by omega)]
    congr 1
    omega
  · rw [h.bufend, length_append]
    push_cast
    omega

/-- A byte of the descriptor under the cursor. -/
theorem Ahead.byte_left (h : Ahead d p (desc ++ rest)) {i : ℕ} (hi : i < desc.length) :
    d.byte (p + i) = desc.getD i 0 := by
  rw [h.byte i (by rw [length_append]; omega), getD_append _ _ _ _ hi]

/-- A descriptor in front of the interface is stepped over, unless the walk gives up. -/
theorem turn_descriptor (h : Ahead d p (desc ++ rest)) (hdesc : IsDescriptor desc)
    (hadb : ¬IsAdb desc) (hrest : rest ≠ []) :
    turn d p =
      if (desc ++ rest).getD 1 0 = usbDtInterface → desc.length = 9 then .next (p + desc.length)
      else .stop := by
  have hpos : 0 < desc.length := length_pos_iff.mpr hdesc.1
  have hrest' : 0 < rest.length := length_pos_iff.mpr hrest
  have hlen : (d.byte p).toNat = desc.length := by
    have h0 := h.byte_left hpos
    rw [Nat.add_zero] at h0
    rw [h0, hdesc.2]
  have htype : d.byte (p + 1) = (desc ++ rest).getD 1 0 :=
    h.byte 1 (by rw [length_append]; omega)
  rw [turn, htype, hlen]
  by_cases hif : (desc ++ rest).getD 1 0 = usbDtInterface
  · by_cases hnine : desc.length = 9
    · have hnot : ¬looksLikeAdb d p := by
        rintro ⟨-, hclass⟩
        refine hadb ⟨by omega, ?_, ?_⟩
        · rwa [getD_append _ _ _ _ (by omega)] at hif
        · rwa [h.byte_left (by omega), h.byte_left (by omega), h.byte_left (by omega)] at hclass
      simp only [hif, hnine, hnot, if_true, if_false, ne_eq, not_true_eq_false, imp_self]
    · simp only [hif, hnine, if_true, ne_eq, not_false_eq_true, forall_const, if_false]
  · have hne : desc.length ≠ 0 := by omega
    simp only [hif, hne, if_false, false_imp_iff, if_true]

end

/-! ### The descriptors in front of the interface -/

variable {d : Devdesc}

/-- **Up to the interface.** The walk comes to the interface if it does not give up before, and
finds nothing if it does. -/
theorem found_walk {rest : Bytes} (hrest : rest ≠ []) (ds : List Bytes) (p fuel : ℕ)
    (h : Ahead d p (ds.flatten ++ rest)) (hds : ∀ desc ∈ ds, IsDescriptor desc)
    (hadb : ∀ desc ∈ ds, ¬IsAdb desc) :
    (walk d (fuel + ds.length) p).found =
      if Passes ds rest then (walk d fuel (p + ds.flatten.length)).found else none := by
  induction ds generalizing p with
  | nil => simp [Passes]
  | cons desc ds ih =>
    have hahead : Ahead d p (desc ++ (ds.flatten ++ rest)) := by
      simpa only [flatten_cons, append_assoc] using h
    have hturn := turn_descriptor hahead (hds desc mem_cons_self)
      (hadb desc mem_cons_self) (by simp [hrest])
    have hlt : (p : ℤ) < d.bufend := by
      have hpos : 0 < desc.length := length_pos_iff.mpr (hds desc mem_cons_self).1
      rw [hahead.bufend, length_append]
      push_cast
      omega
    rw [length_cons, ← Nat.add_assoc, walk, if_pos hlt, hturn]
    by_cases hpass : (desc ++ (ds.flatten ++ rest)).getD 1 0 = usbDtInterface → desc.length = 9
    · rw [if_pos hpass]
      have hrec := ih (p + desc.length) hahead.drop
        (fun q hq => hds q (mem_cons_of_mem _ hq))
        (fun q hq => hadb q (mem_cons_of_mem _ hq))
      have hiff : Passes (desc :: ds) rest ↔ Passes ds rest := ⟨And.right, fun hp => ⟨hpass, hp⟩⟩
      simp only [hrec, hiff, flatten_cons, length_append, Nat.add_assoc]
    · rw [if_neg hpass, if_neg (fun hp => hpass hp.1)]

/-! ### The interface -/

section

variable {d : Devdesc} {p : ℕ} {rest : Bytes}

/-- A companion is skipped. -/
theorem skipCompanion_companion {c : Bytes} (h : Ahead d p (c ++ rest)) (hc : IsCompanion c) :
    skipCompanion d p = p + c.length := by
  obtain ⟨hlen, h0, h1⟩ := hc
  have hb0 := h.byte_left (i := 0) (by omega)
  rw [Nat.add_zero] at hb0
  have hend : (p + 2 : ℤ) ≤ d.bufend := by
    rw [h.bufend, length_append]
    push_cast
    omega
  rw [skipCompanion, if_pos ⟨hend, hb0.trans h0, (h.byte_left (by omega)).trans h1⟩, hlen]

/-- Nothing else is. -/
theorem skipCompanion_of_ne (h : d.byte p ≠ 6) : skipCompanion d p = p := by
  rw [skipCompanion, if_neg (fun hc => h hc.2.1)]

/-- What is skipped behind the second endpoint is in the buffer. -/
theorem skipCompanion_le_bufend {ds : List Bytes} (h : Ahead d p ds.flatten)
    (hds : ∀ desc ∈ ds, IsDescriptor desc) : (skipCompanion d p : ℤ) ≤ d.bufend := by
  rw [skipCompanion]
  split_ifs with hc
  · -- the next descriptor says that it has six bytes
    cases ds with
    | nil =>
      have hend := h.bufend
      simp only [flatten_nil, length_nil] at hend
      omega
    | cons desc ds =>
      obtain ⟨hne, hlen⟩ := hds desc mem_cons_self
      have hpos : 0 < desc.length := length_pos_iff.mpr hne
      rw [flatten_cons] at h
      have hb0 := h.byte_left hpos
      rw [Nat.add_zero, hc.2.1] at hb0
      rw [← hb0] at hlen
      have hsix : (6 : UInt8).toNat = 6 := rfl
      rw [h.bufend, length_append]
      push_cast
      omega
  · rw [h.bufend]
    omega

/-- An endpoint under the cursor. -/
theorem isEndpoint_of_bulk {ep : Bytes} (h : Ahead d p (ep ++ rest)) (hep : IsBulk ep) :
    isEndpoint d p ∧ d.byte (p + 3) = usbEndpointXferBulk ∧ d.byte (p + 2) = ep.getD 2 0 := by
  obtain ⟨hlen, h0, h1, h3⟩ := hep
  have hb0 := h.byte_left (i := 0) (by omega)
  rw [Nat.add_zero] at hb0
  exact ⟨⟨hb0.trans h0, (h.byte_left (by omega)).trans h1⟩, (h.byte_left (by omega)).trans h3,
    h.byte_left (by omega)⟩

/-- Where an optional companion ends. -/
theorem skipCompanion_getD {c : Option Bytes} (h : Ahead d p (c.getD [] ++ rest))
    (hc : ∀ x ∈ c, IsCompanion x) (hnext : c = none → d.byte p ≠ 6) :
    skipCompanion d p = p + (c.getD []).length := by
  cases c with
  | none => exact skipCompanion_of_ne (hnext rfl)
  | some x => exact skipCompanion_companion h (hc x rfl)

end

/-- What `register_device` is told about the endpoints and the interface. -/
def Found.key (f : Found) : UInt8 × UInt8 × UInt8 := (f.epIn, f.epOut, f.interfaceNumber)

/-- What it should be told. -/
def AdbInterface.key (a : AdbInterface) : UInt8 × UInt8 × UInt8 :=
  (a.epIn.getD 2 0, a.epOut.getD 2 0, a.iface.getD 2 0)

/-- The direction of the endpoints does not depend on their order. -/
theorem key_foundAt {p ep1 ep2 : ℕ} (a : AdbInterface)
    (h1 : d.byte (ep1 + 2) = a.ep1.getD 2 0) (h2 : d.byte (ep2 + 2) = a.ep2.getD 2 0)
    (hn : d.byte (p + 2) = a.iface.getD 2 0) : (foundAt d p ep1 ep2).key = a.key := by
  have hin : a.epIn.getD 2 0 &&& usbEndpointDirMask ≠ 0 := a.isIn
  have hout : ¬(a.epOut.getD 2 0 &&& usbEndpointDirMask ≠ 0) := a.isOut
  cases hfirst : a.inFirst with
  | false =>
    simp only [AdbInterface.ep1, AdbInterface.ep2, hfirst, Bool.false_eq_true, if_false] at h1 h2
    simp only [Found.key, foundAt, h1, h2, hn, if_neg hout, AdbInterface.key]
  | true =>
    simp only [AdbInterface.ep1, AdbInterface.ep2, hfirst, if_true] at h1 h2
    simp only [Found.key, foundAt, h1, h2, hn, if_pos hin, AdbInterface.key]

/-- **At the interface.** The endpoints are found if the interface has nine bytes. -/
theorem turn_target {p : ℕ} (a : AdbInterface) {after : List Bytes}
    (hafter : ∀ desc ∈ after, IsDescriptor desc)
    (h : Ahead d p (a.iface ++ (a.endpoints ++ after.flatten))) :
    if a.iface.length = 9 then ∃ f, turn d p = .found f ∧ f.key = a.key else turn d p = .stop := by
  obtain ⟨hlong, htype, hclass⟩ := a.isAdb
  have hlen : (d.byte p).toNat = a.iface.length := by
    have h0 := h.byte_left (i := 0) (by omega)
    rw [Nat.add_zero] at h0
    rw [h0, a.isDescriptor.2]
  have hbyte1 : d.byte (p + 1) = usbDtInterface := (h.byte_left (by omega)).trans htype
  split_ifs with hnine
  · have hlooks : looksLikeAdb d p := by
      refine ⟨(h.byte_left (by omega)).trans a.twoEndpoints, ?_⟩
      rw [h.byte_left (by omega), h.byte_left (by omega), h.byte_left (by omega)]
      exact hclass
    -- the endpoints, one after the other
    have hep1 : Ahead d (p + 9) (a.ep1 ++ (a.companion1.getD [] ++ (a.ep2 ++
        (a.companion2.getD [] ++ after.flatten)))) := by
      have hdrop := h.drop
      rw [hnine] at hdrop
      simpa only [AdbInterface.endpoints, append_assoc] using hdrop
    obtain ⟨hend1, hbulk1, haddr1⟩ := isEndpoint_of_bulk hep1 a.bulk1
    have hlen1 : a.ep1.length = 7 := a.bulk1.1
    have hcomp1 := hep1.drop
    rw [hlen1] at hcomp1
    have hep2 := hcomp1.drop
    have hsecond : secondEndpoint d (p + 9) = p + 9 + 7 + (a.companion1.getD []).length := by
      refine skipCompanion_getD hcomp1 a.isCompanion1 fun hnone => ?_
      rw [hnone] at hep2
      obtain ⟨⟨h7, -⟩, -⟩ := isEndpoint_of_bulk hep2 a.bulk2
      rw [Option.getD_none, length_nil, Nat.add_zero] at h7
      rw [h7]
      decide
    rw [← hsecond] at hep2
    obtain ⟨hend2, hbulk2, haddr2⟩ := isEndpoint_of_bulk hep2 a.bulk2
    have hcomp2 := hep2.drop
    rw [a.bulk2.1] at hcomp2
    have hfits : (endpointsEnd d (p + 9) : ℤ) ≤ d.bufend := by
      cases hc : a.companion2 with
      | none =>
        rw [hc, Option.getD_none, nil_append] at hcomp2
        exact skipCompanion_le_bufend hcomp2 hafter
      | some c =>
        rw [hc, Option.getD_some] at hcomp2
        have hskip := skipCompanion_companion hcomp2 (a.isCompanion2 c hc)
        rw [endpointsEnd, hskip, hcomp2.bufend, length_append]
        push_cast
        omega
    refine ⟨foundAt d p (p + 9) (secondEndpoint d (p + 9)), ?_,
      key_foundAt a haddr1 haddr2 (h.byte_left (by omega))⟩
    rw [turn, hbyte1, hlen, hnine]
    simp only [if_true, ne_eq, not_true_eq_false, if_false, hlooks, endpointsTurn,
      not_lt.mpr hfits, hend1, hend2, hbulk1, hbulk2, or_self]
  · rw [turn, hbyte1, hlen]
    simp only [if_true, ne_eq, hnine, not_false_eq_true]

/-! ### The whole buffer -/

namespace DescriptorBuffer

variable (b : DescriptorBuffer)

/-- The walk does not give up before it has found the interface. -/
def Passes : Prop := UsbInit.Passes b.before b.rest ∧ b.target.iface.length = 9

instance decidableBufferPasses : Decidable b.Passes := inferInstanceAs (Decidable (_ ∧ _))

variable {b} {d : Devdesc}

/-- What is behind the two headers. -/
theorem ahead (hread : d.read = some ⟨b.bytes, b.fits⟩) :
    Ahead d 27 (b.before.flatten ++ b.rest) := by
  have hheaders : (b.device ++ b.config).length = 27 := by
    rw [length_append, b.isDevice.1, b.isConfig.1]
  refine ⟨fun i hi => ?_, ?_⟩
  · have hlt : 27 + i < b.bytes.length := by
      rw [bytes, length_append, hheaders]
      omega
    have hbyte : d.byte (27 + i) = b.bytes.getD (27 + i) 0 := by
      simp only [Devdesc.byte, hread, getD_eq_getElem _ _ hlt]
    rw [hbyte, bytes, getD_append_right _ _ _ _ (by omega), hheaders,
      Nat.add_sub_cancel_left]
  · have hlen : b.bytes.length = 27 + (b.before.flatten ++ b.rest).length := by
      rw [bytes, length_append, hheaders]
    simp only [Devdesc.bufend, hread, hlen]
    push_cast
    rfl

/-- A byte of the headers. -/
theorem byte_header (hread : d.read = some ⟨b.bytes, b.fits⟩) {i : ℕ} (hi : i < 27) :
    d.byte i = (b.device ++ b.config).getD i 0 := by
  have hheaders : (b.device ++ b.config).length = 27 := by
    rw [length_append, b.isDevice.1, b.isConfig.1]
  have hlt : i < b.bytes.length := by
    rw [bytes, length_append, hheaders]
    omega
  have hbyte : d.byte i = b.bytes.getD i 0 := by
    simp only [Devdesc.byte, hread, getD_eq_getElem _ _ hlt]
  rw [hbyte, bytes, getD_append _ _ _ _ (by omega)]

theorem hasHeaders (hread : d.read = some ⟨b.bytes, b.fits⟩) : UsbInit.hasHeaders d := by
  obtain ⟨hd, hd0, hd1⟩ := b.isDevice
  obtain ⟨hc, hc0, hc1⟩ := b.isConfig
  refine ⟨?_, ⟨?_, ?_⟩, ?_, ?_⟩
  · simp only [Devdesc.desclength, hread, bytes, length_append, hd, hc]
    omega
  · rw [byte_header hread (by omega), getD_append _ _ _ _ (by omega), hd0]
  · rw [byte_header hread (by omega), getD_append _ _ _ _ (by omega), hd1]
  · rw [byte_header hread (by omega), getD_append_right _ _ _ _ (by omega), hd, hc0]
  · rw [byte_header hread (by omega), getD_append_right _ _ _ _ (by omega), hd, hc1]

/-- A list of descriptors is not longer than its bytes. -/
theorem length_le_flatten {ds : List Bytes} (h : ∀ desc ∈ ds, IsDescriptor desc) :
    ds.length ≤ ds.flatten.length := by
  induction ds with
  | nil => exact le_rfl
  | cons desc ds ih =>
    have hpos : 0 < desc.length := length_pos_iff.mpr (h desc mem_cons_self).1
    have hle := ih fun q hq => h q (mem_cons_of_mem _ hq)
    rw [length_cons, flatten_cons, length_append]
    omega

/-- **What the walk finds**: the interface, if it does not give up before. -/
theorem found_iff (hread : d.read = some ⟨b.bytes, b.fits⟩) :
    if b.Passes then ∃ f, (descriptorWalk d).found = some f ∧ f.key = b.target.key
    else (descriptorWalk d).found = none := by
  have hds : ∀ desc ∈ b.before, IsDescriptor desc := fun desc hdesc =>
    b.descriptors desc (mem_append_left _ hdesc)
  have hafter : ∀ desc ∈ b.after, IsDescriptor desc := fun desc hdesc =>
    b.descriptors desc (mem_append_right _ hdesc)
  have hahead := ahead hread
  have hlen : b.before.length + 1 ≤ 4096 := by
    have hle := length_le_flatten hds
    have hfits := b.fits
    rw [length_append, length_append, length_append, b.isDevice.1] at hfits
    omega
  have hrest : b.rest ≠ [] := by
    simp [rest, b.target.isDescriptor.1]
  obtain ⟨fuel, hfuel⟩ : ∃ fuel, 4096 = fuel + 1 + b.before.length :=
    ⟨4096 - (b.before.length + 1), by omega⟩
  have hwalk := found_walk hrest b.before 27 (fuel + 1) hahead hds b.first
  rw [← hfuel] at hwalk
  have htarget := turn_target b.target hafter (hahead.drop)
  have hlt : ((27 + b.before.flatten.length : ℕ) : ℤ) < d.bufend := by
    have hpos : 0 < b.rest.length := length_pos_iff.mpr hrest
    rw [hahead.drop.bufend]
    omega
  rw [descriptorWalk, hwalk, walk, if_pos hlt]
  by_cases hpass : UsbInit.Passes b.before b.rest
  · by_cases hnine : b.target.iface.length = 9
    · rw [if_pos hnine] at htarget
      obtain ⟨f, hturn, hkey⟩ := htarget
      rw [if_pos (show b.Passes from ⟨hpass, hnine⟩), if_pos hpass, hturn]
      exact ⟨f, rfl, hkey⟩
    · rw [if_neg hnine] at htarget
      rw [if_neg (fun hp : b.Passes => hnine hp.2), if_pos hpass, htarget]
  · rw [if_neg (fun hp : b.Passes => hpass hp.1), if_neg hpass]

end DescriptorBuffer

/-- The ADB interface of a device with SuperSpeed. -/
def adbInterface : AdbInterface where
  iface := [9, 4, 1, 0, 2, 0xff, 0x42, 1, 0]
  epIn := [7, 5, 0x81, 2, 0, 2, 0]
  epOut := [7, 5, 0x02, 2, 0, 2, 0]
  inFirst := false
  companion1 := some [6, 0x30, 0, 0, 0, 0]
  companion2 := some [6, 0x30, 0, 0, 0, 0]
  isDescriptor := by unfold IsDescriptor; decide
  isAdb := by unfold IsAdb; decide
  twoEndpoints := rfl
  bulkIn := by unfold IsBulk; decide
  bulkOut := by unfold IsBulk; decide
  isIn := by unfold IsIn; decide
  isOut := by unfold IsIn; decide
  isCompanion1 := by
    rintro c ⟨⟩
    unfold IsCompanion
    decide
  isCompanion2 := by
    rintro c ⟨⟩
    unfold IsCompanion
    decide

/-- Its descriptors: another interface with one endpoint comes first. -/
def adbBuffer : DescriptorBuffer where
  device := [18, 1] ++ List.replicate 16 0
  config := [9, 2] ++ List.replicate 7 0
  before := [[9, 4, 0, 0, 1, 6, 1, 1, 0], [7, 5, 0x83, 3, 28, 0, 6]]
  target := adbInterface
  after := []
  isDevice := by decide
  isConfig := by decide
  descriptors := by unfold IsDescriptor; decide
  first := by unfold IsAdb; decide
  fits := by decide

/-- The device on the file descriptor 5, in a system with these links. -/
def adbSystem (link : Bytes → Option Bytes) : System where
  link := link
  fstat := some ⟨true, 189, 1⟩
  descriptors := ⟨some ⟨adbBuffer.bytes, adbBuffer.fits⟩, fun _ => 0⟩

end AdbBridge.UsbInit
