import AdbBridge.Usb.Walk

/-!
# Who owns the file descriptor

`usb_init` is given a file descriptor and should see to it that somebody closes it: itself, if the
device cannot be used, or the `usb_handle` it makes. It closes the descriptor when the headers are
wrong, and the destructor of the handle closes it when the interface cannot be claimed. But it
leaves it open if there is no interface to be found, if another server owns the device, and if the
device is known already (`Leaves`). `ownedOnce_iff` is about all of these exits.
-/

namespace AdbBridge.UsbInit

open List

variable {sys : System} {fd : ℕ} {handles : List UsbHandle}

/-- The file descriptor has been closed once and belongs to no handle, or it is open and belongs to
one handle, which has been registered. -/
def OwnedOnce (out : Outcome) (fd : ℕ) : Prop :=
  (out.closes = 1 ∧ ∀ h ∈ out.usbHandles, h.fd ≠ fd) ∨
    (out.closes = 0 ∧ ∃ h, out.usbHandles.filter (·.fd = fd) = [h] ∧ h.registered = true)

/-- The exits that neither close the file descriptor nor make a handle of it: the walk has found
nothing, or `register_device` does not want the device. -/
def Leaves (sys : System) (fd : ℕ) (handles : List UsbHandle) : Prop :=
  ∃ devName, sys.link (procLink fd) = some devName ∧ hasHeaders sys.descriptors ∧
    ((descriptorWalk sys.descriptors).found = none ∨
      ∃ path, devicePath sys = some path ∧
        (sys.owns path (deviceSerial sys path) = false ∨
          handles.any (·.path == devName) = true))

/-- **How `usb_init` returns.** -/
inductive Returned (sys : System) (fd : ℕ) (handles : List UsbHandle) (out : Outcome) : Prop
  | closed (hleaves : ¬Leaves sys fd handles) (hcloses : out.closes = 1)
      (hhandles : out.usbHandles = handles)
  | left (hleaves : Leaves sys fd handles) (hcloses : out.closes = 0)
      (hhandles : out.usbHandles = handles)
  | registered (hleaves : ¬Leaves sys fd handles) (h : UsbHandle) (hfd : h.fd = fd)
      (hregistered : h.registered = true) (hcloses : out.closes = 0)
      (hhandles : out.usbHandles = handles ++ [h])

/-- With the name of the device and the headers known, `Leaves` is about the walk and the
device. -/
theorem leaves_iff {devName : Bytes} (hlink : sys.link (procLink fd) = some devName)
    (hheaders : hasHeaders sys.descriptors) :
    Leaves sys fd handles ↔
      ((descriptorWalk sys.descriptors).found = none ∨
        ∃ path, devicePath sys = some path ∧
          (sys.owns path (deviceSerial sys path) = false ∨
            handles.any (·.path == devName) = true)) := by
  constructor
  · rintro ⟨name, hname, -, h⟩
    rw [hlink] at hname
    obtain rfl := Option.some.inj hname
    exact h
  · exact fun h => ⟨devName, hlink, hheaders, h⟩

/-- The exits of `register_device`. -/
theorem returned_registerDevice (handles : List UsbHandle) {devName path : Bytes} {f : Found}
    (hlink : sys.link (procLink fd) = some devName) (hheaders : hasHeaders sys.descriptors)
    (hfound : (descriptorWalk sys.descriptors).found = some f) (hpath : devicePath sys =
      some path) :
    Returned sys fd handles (registerDevice sys handles ⟨devName, some path, f, fd⟩) := by
  have hleaves : Leaves sys fd handles ↔
      (sys.owns path (deviceSerial sys path) = false ∨ handles.any (·.path == devName) = true) := by
    rw [leaves_iff hlink hheaders]
    simp [hfound, hpath]
  rw [registerDevice]
  dsimp only
  split_ifs with howns hknown hclaims
  · exact .left (hleaves.mpr (.inl (by simpa using howns))) rfl rfl
  · exact .left (hleaves.mpr (.inr hknown)) rfl rfl
  · refine .closed (fun hl => ?_) rfl rfl
    rcases hleaves.mp hl with h | h
    · exact howns (by simp [h])
    · exact hknown h
  · refine .registered (fun hl => ?_) (handleOf ⟨devName, some path, f, fd⟩) rfl rfl rfl rfl
    rcases hleaves.mp hl with h | h
    · exact howns (by simp [h])
    · exact hknown h

/-- What `usb_init` has done when it returns. -/
theorem returned_usbInit (hret : (usbInit sys fd handles).crashed = false) :
    Returned sys fd handles (usbInit sys fd handles) := by
  rw [usbInit] at hret ⊢
  cases hlink : sys.link (procLink fd) with
  | none =>
    refine .closed ?_ rfl rfl
    rintro ⟨name, hname, -⟩
    rw [hlink] at hname
    cases hname
  | some devName =>
    simp only [hlink] at hret ⊢
    split_ifs at hret ⊢ with hheaders
    · cases hfound : (descriptorWalk sys.descriptors).found with
      | none => exact .left ((leaves_iff hlink hheaders).mpr (.inl hfound)) rfl rfl
      | some f =>
        simp only [hfound] at hret ⊢
        cases hpath : devicePath sys with
        | none =>
          rw [hpath] at hret
          cases hret
        | some path =>
          -- the flag that is set afterwards does not matter here
          cases returned_registerDevice handles hlink hheaders hfound hpath with
          | closed hl hc hh => exact .closed hl hc hh
          | left hl hc hh => exact .left hl hc hh
          | registered hl h hfd hreg hc hh => exact .registered hl h hfd hreg hc hh
    · refine .closed ?_ rfl rfl
      rintro ⟨-, -, h, -⟩
      exact hheaders h

/-- No handle has the file descriptor. -/
theorem filter_eq_nil_iff_forall : handles.filter (·.fd = fd) = [] ↔ ∀ h ∈ handles, h.fd ≠ fd := by
  simp [filter_eq_nil_iff]

/-- **When the file descriptor has one owner.** If `usb_init` leaves it as it is, this is so only if
it had one before: a single handle, which is registered. If it closes it or makes a handle of it,
the condition is that no handle had it before. -/
theorem ownedOnce_iff (hret : (usbInit sys fd handles).crashed = false) :
    OwnedOnce (usbInit sys fd handles) fd ↔
      (Leaves sys fd handles ∧ ∃ h, handles.filter (·.fd = fd) = [h] ∧ h.registered = true) ∨
        (¬Leaves sys fd handles ∧ ∀ h ∈ handles, h.fd ≠ fd) := by
  cases returned_usbInit hret with
  | closed hl hc hh => simp [OwnedOnce, hl, hc, hh]
  | left hl hc hh => simp [OwnedOnce, hl, hc, hh]
  | registered hl h hfd hreg hc hh =>
    rw [← filter_eq_nil_iff_forall, OwnedOnce, hc, hh, filter_append,
      filter_cons_of_pos (by simpa using hfd), filter_nil]
    constructor
    · rintro (⟨h0, -⟩ | ⟨-, h', heq, -⟩)
      · cases h0
      · -- the new handle is the only one
        have hlen := congrArg List.length heq
        simp only [length_append, length_singleton] at hlen
        exact .inr ⟨hl, eq_nil_of_length_eq_zero (by omega)⟩
    · rintro (⟨hl', -⟩ | ⟨-, hnil⟩)
      · exact absurd hl' hl
      · exact .inr ⟨rfl, h, by rw [hnil, nil_append], hreg⟩

/-- A device that is registered. -/
theorem ownedOnce_iff_adb : OwnedOnce (usbInit adbDevice 5 []) 5 := by
  refine (ownedOnce_iff (by decide +kernel)).mpr (.inr ⟨?_, nofun⟩)
  rintro ⟨devName, -, -, hfound | ⟨path, -, howns | hany⟩⟩
  · revert hfound
    decide +kernel
  · exact nomatch howns
  · exact nomatch hany

/-- A device without an ADB interface: the file descriptor is not closed, and no handle has it. -/
theorem descriptor_leaked :
    let out := usbInit (deviceWith [] (by decide)) 5 []
    out.crashed = false ∧ out.closes = 0 ∧ out.usbHandles = [] := by
  decide +kernel

end AdbBridge.UsbInit
