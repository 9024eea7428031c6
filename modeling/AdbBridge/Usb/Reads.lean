import AdbBridge.Usb.Connection

/-!
# The two read blocks

A connection reads a header, and then a payload into the block that the header made room for.
In a `Sound` state the transfer that `libusb` has got is the one its block remembers, and what
the other fields must be follows from which of the two it is (`Flying`).

Every step keeps a state sound but for two. A connection that is started with anything left of
an earlier life (a transfer, a header, or the buffer of a payload that was cut short) may run
into a check, and so does one whose transfer is given up in `CancelReadTransfer`, because
`libusb` could not cancel it any more, when the callback comes. `Careful` leaves out these two,
and `sound_of_careful` is about every run of the others.
-/

namespace AdbBridge.Usb

open List Option

/-- The sections of `CloseDevice`. -/
def Phase.closing : Phase → Bool
  | .cancelWrites _ | .awaitWrites _ | .cancelReads _ | .awaitReads _ | .release _ => true
  | .idle | .starting _ | .gone => false

namespace LibusbConnection

/-! ### Sound states -/

/-- Nothing is left of an earlier life of the connection that could get in the way. -/
structure Fresh (c : LibusbConnection) : Prop where
  inflight : c.inflight = []
  payload : c.payloadRead.active = false
  incoming : c.incomingHeader = none
  buffer : c.payloadRead.block.buf = []

instance decidableFresh (c : LibusbConnection) : Decidable c.Fresh :=
  decidable_of_iff (c.inflight = [] ∧ c.payloadRead.active = false ∧
      c.incomingHeader = none ∧ c.payloadRead.block.buf = [])
    ⟨fun h => ⟨h.1, h.2.1, h.2.2.1, h.2.2.2⟩, fun h => ⟨h.1, h.2, h.3, h.4⟩⟩

/-- What holds **while a transfer is with `libusb`**. The other block has its transfer as well,
unless `CloseDevice` has taken it. -/
structure Flying (c : LibusbConnection) (t : Transfer) : Prop where
  transfer : (c.readBlock t.payload).transfer = some t.id
  active : (c.readBlock t.payload).active = true
  header : t.payload = false → c.incomingHeader = none ∧ c.payloadRead.block.buf = []
  payload : t.payload = true → c.incomingHeader ≠ none
  other : c.terminated = false → (c.readBlock !t.payload).transfer ≠ none

/-- What holds of the read blocks between the steps. -/
structure Sound (c : LibusbConnection) : Prop where
  ok : c.failed = none
  transfer : ∀ p, (c.readBlock p).active = true → (c.readBlock p).transfer ≠ none
  apart : ¬ (c.headerRead.active = true ∧ c.payloadRead.active = true)
  room : c.headerRead.block.buf = [] ∨ headerSize ≤ c.headerRead.block.capacity
  single : c.inflight.length ≤ 1
  flying : ∀ t ∈ c.inflight, c.Flying t
  closing : c.phase.closing = true → c.terminated = true
  fresh : ∀ caller, c.phase = .starting caller → c.Fresh

variable {c c' : LibusbConnection} {t : Transfer} {b : Block} {caller : Caller}

/-- The two states have the same read blocks. -/
structure SameReads (c c' : LibusbConnection) : Prop where
  header : c'.headerRead = c.headerRead
  payload : c'.payloadRead = c.payloadRead
  incoming : c'.incomingHeader = c.incomingHeader
  inflight : c'.inflight = c.inflight
  failed : c'.failed = c.failed

theorem SameReads.readBlock (h : SameReads c c') (p : Bool) : c'.readBlock p = c.readBlock p := by
  rw [LibusbConnection.readBlock, LibusbConnection.readBlock, h.header, h.payload]

theorem SameReads.fresh (h : SameReads c c') (hf : c.Fresh) : c'.Fresh where
  inflight := h.inflight ▸ hf.inflight
  payload := h.payload ▸ hf.payload
  incoming := h.incoming ▸ hf.incoming
  buffer := h.payload ▸ hf.buffer

/-- A step that leaves the read blocks alone keeps a state sound, if the flag and the phase stay
in order. -/
theorem Sound.of_same (hs : c.Sound) (h : SameReads c c')
    (hterm : c.inflight ≠ [] → c'.terminated = false → c.terminated = false)
    (hclosing : c'.phase.closing = true → c'.terminated = true)
    (hfresh : ∀ caller, c'.phase = .starting caller → c.Fresh) : c'.Sound where
  ok := h.failed.trans hs.ok
  transfer p := by rw [h.readBlock]; exact hs.transfer p
  apart := by rw [h.header, h.payload]; exact hs.apart
  room := by rw [h.header]; exact hs.room
  single := by rw [h.inflight]; exact hs.single
  flying t ht := by
    rw [h.inflight] at ht
    have hfly := hs.flying t ht
    refine ⟨?_, ?_, ?_, ?_, fun hc => ?_⟩
    · rw [h.readBlock]; exact hfly.transfer
    · rw [h.readBlock]; exact hfly.active
    · rw [h.incoming, h.payload]; exact hfly.header
    · rw [h.incoming]; exact hfly.payload
    · rw [h.readBlock]
      exact hfly.other (hterm (ne_nil_of_mem ht) hc)
  closing := hclosing
  fresh caller hc := h.fresh (hfresh caller hc)

/-- A state with nothing with `libusb`. -/
theorem Sound.of_nil (hok : c.failed = none)
    (htransfer : ∀ p, (c.readBlock p).active = true → (c.readBlock p).transfer ≠ none)
    (hapart : ¬ (c.headerRead.active = true ∧ c.payloadRead.active = true))
    (hroom : c.headerRead.block.buf = [] ∨ headerSize ≤ c.headerRead.block.capacity)
    (hnil : c.inflight = []) (hclosing : c.phase.closing = true → c.terminated = true)
    (hfresh : ∀ caller, c.phase = .starting caller → c.Fresh) : c.Sound where
  ok := hok
  transfer := htransfer
  apart := hapart
  room := hroom
  single := by simp [hnil]
  flying := by simp [hnil]
  closing := hclosing
  fresh := hfresh

theorem Sound.inflight_eq (hs : c.Sound) (ht : t ∈ c.inflight) : c.inflight = [t] := by
  obtain ⟨t', ht'⟩ := length_eq_one_iff.mp
    (le_antisymm hs.single (length_pos_of_mem ht))
  rw [ht'] at ht ⊢
  rw [mem_singleton.mp ht]

/-! ### Steps that leave the read blocks alone -/

theorem closed_same (c : LibusbConnection) (caller : Caller) :
    SameReads c (c.closed caller) ∧ (c.closed caller).terminated = c.terminated ∧
      (c.closed caller).phase.closing = false ∧
      ∀ caller', (c.closed caller).phase ≠ .starting caller' := by
  cases caller <;> rw [closed] <;> try rw [onError_eq]
  all_goals exact ⟨⟨rfl, rfl, rfl, rfl, rfl⟩, rfl, rfl, by simp⟩

theorem Sound.closed (hs : c.Sound) (caller : Caller) : (c.closed caller).Sound := by
  obtain ⟨hsame, hterm, hclosing, hstart⟩ := closed_same c caller
  refine hs.of_same hsame (fun _ h => hterm.symm.trans h) (fun h => ?_)
    (fun caller' h => absurd h (hstart caller'))
  rw [hclosing] at h
  cases h

theorem Sound.closeDevice (hs : c.Sound) (caller : Caller) : (c.closeDevice caller).Sound := by
  rw [LibusbConnection.closeDevice]
  split_ifs with hterm
  · exact hs.closed caller
  · refine hs.of_same ⟨rfl, rfl, rfl, rfl, rfl⟩ (fun _ h => ?_) (fun _ => rfl) ?_
    · cases h
    · intro caller' h
      cases h

/-- A connection that is fresh may be attached. -/
theorem Sound.attach (hs : c.Sound) (hf : c.Fresh) (hidle : c.phase = .idle) (caller : Caller)
    (o : Opening) : (c.attach caller o).Sound := by
  have hnil := hf.inflight
  obtain ⟨handle, interface, nextHandle, calls, heq⟩ := openDevice_eq
    { c with terminated := false, detached := false } o
  rw [LibusbConnection.attach]
  split
  · next c₁ hc₁ =>
    rw [hc₁] at heq
    obtain rfl : c₁ = _ := heq
    refine hs.of_same ⟨rfl, rfl, rfl, rfl, rfl⟩ (fun h => absurd hnil h) ?_
      (fun _ _ => hf)
    intro h
    cases h
  · next c₁ hc₁ =>
    rw [hc₁] at heq
    obtain rfl : c₁ = _ := heq
    rw [onError_eq]
    split_ifs
    all_goals
      refine hs.of_same ⟨rfl, rfl, rfl, rfl, rfl⟩ (fun h => absurd hnil h) (fun h => ?_)
        (fun caller' h => ?_)
      · rw [hidle] at h
        cases h
      · rw [hidle] at h
        cases h

/-! ### Giving a transfer up -/

/-- A transfer that is not with `libusb` is given up, when the connection is closing or nothing
is with `libusb` at all. -/
theorem Sound.cleanup (hs : c.Sound) {p : Bool} (hnone : ∀ t ∈ c.inflight, t.payload ≠ p)
    (hterm : c.inflight ≠ [] → c.terminated = true)
    (hstart : ∀ caller, c.phase ≠ .starting caller) : (c.cleanup p).Sound := by
  have hclosing : ∀ t ∈ c.inflight, c.terminated ≠ false := by
    intro t ht
    simp [hterm (ne_nil_of_mem ht)]
  have hstart' : ∀ caller, (c.cleanup p).phase = .starting caller → (c.cleanup p).Fresh := by
    intro caller h
    cases p <;> exact absurd h (hstart caller)
  cases p with
  | false =>
    refine ⟨hs.ok, ?_, ?_, hs.room, hs.single, ?_, hs.closing, hstart'⟩
    · rintro (_ | _) h
      · cases h
      · exact hs.transfer true h
    · rintro ⟨h, -⟩
      cases h
    · rintro ⟨id, payload, length⟩ ht
      obtain rfl : payload = true := Bool.eq_true_of_not_eq_false (hnone _ ht)
      have hfly := hs.flying _ ht
      exact ⟨hfly.transfer, hfly.active, hfly.header, hfly.payload,
        fun h => absurd h (hclosing _ ht)⟩
  | true =>
    refine ⟨hs.ok, ?_, ?_, hs.room, hs.single, ?_, hs.closing, hstart'⟩
    · rintro (_ | _) h
      · exact hs.transfer false h
      · cases h
    · rintro ⟨-, h⟩
      cases h
    · rintro ⟨id, payload, length⟩ ht
      obtain rfl : payload = false := Bool.eq_false_of_not_eq_true (hnone _ ht)
      have hfly := hs.flying _ ht
      exact ⟨hfly.transfer, hfly.active, hfly.header, hfly.payload,
        fun h => absurd h (hclosing _ ht)⟩

/-- `CancelReadTransfer`, where `libusb` can cancel a transfer that it has got. -/
theorem Sound.cancelReadTransfer (hs : c.Sound) {p cancelled : Bool}
    (hterm : c.terminated = true) (hstart : ∀ caller, c.phase ≠ .starting caller)
    (hcan : (∃ t ∈ c.inflight, t.payload = p) → cancelled = true) :
    (c.cancelReadTransfer p cancelled).Sound := by
  rw [LibusbConnection.cancelReadTransfer]
  split
  · exact hs
  · next id hid =>
    -- a transfer of this block that is with `libusb` is its active one
    split_ifs with hactive hcancel
    · refine hs.cleanup (fun t ht hp => ?_) (fun _ => hterm) hstart
      have hfly := (hs.flying t ht).active
      rw [hp, hactive] at hfly
      cases hfly
    · exact hs
    · refine hs.cleanup (fun t ht hp => hcancel ?_) (fun _ => hterm) hstart
      have hfly := (hs.flying t ht).transfer
      rw [hp, hid, some.injEq] at hfly
      rw [hcan ⟨t, ht, hp⟩, Bool.and_true, isInflight, List.any_eq_true]
      exact ⟨t, ht, by simp [hfly]⟩

/-! ### Submitting a read -/

theorem resize_of_nil (h : b.buf = []) (n : ℕ) : b.resize n = some (Block.allocate n) := by
  rw [Block.resize, if_pos h]

theorem resize_header (h : b.buf = [] ∨ headerSize ≤ b.capacity) :
    ∃ b', b.resize headerSize = some b' ∧ headerSize ≤ b'.capacity := by
  by_cases hnil : b.buf = []
  · refine ⟨_, resize_of_nil hnil headerSize, ?_⟩
    simp [Block.allocate, Block.ofBytes, Block.capacity]
  · have hcap := h.resolve_left hnil
    rw [Block.resize, if_neg hnil, dif_pos hcap]
    exact ⟨_, rfl, hcap⟩

/-- A state from which **the next read** can be submitted: `libusb` has got nothing, and both
blocks have their transfer. -/
structure Ready (c : LibusbConnection) : Prop where
  ok : c.failed = none
  nil : c.inflight = []
  header : c.headerRead.transfer ≠ none
  payload : c.payloadRead.transfer ≠ none
  room : c.headerRead.block.buf = [] ∨ headerSize ≤ c.headerRead.block.capacity
  buffer : c.payloadRead.block.buf = []
  closing : c.phase.closing = false
  starting : ∀ caller, c.phase ≠ .starting caller

/-- The next header. -/
theorem Ready.submitHeader (h : c.Ready) (hincoming : c.incomingHeader = none)
    (hidle : c.payloadRead.active = false) (taken : Bool) :
    (c.submitRead false headerSize taken).Sound := by
  obtain ⟨b, hb, hcap⟩ := resize_header h.room
  obtain ⟨id, hid⟩ := ne_none_iff_exists'.mp h.header
  rw [submitRead_eq c (p := false) hb hid taken, h.nil, nil_append]
  refine ⟨h.ok, ?_, ?_, .inr hcap, ?_, ?_, fun hc => ?_, fun caller hc => ?_⟩
  · rintro (_ | _) hactive
    · exact some_ne_none id
    · exact absurd (hidle.symm.trans hactive) (by decide)
  · rintro ⟨-, hactive⟩
    exact absurd (hidle.symm.trans hactive) (by decide)
  · dsimp only
    split_ifs <;> simp
  · intro t ht
    dsimp only at ht
    split_ifs at ht
    · rw [mem_singleton] at ht
      subst ht
      exact ⟨rfl, rfl, fun _ => ⟨hincoming, h.buffer⟩, (by simp), fun _ => h.payload⟩
    · cases ht
  · exact absurd (h.closing.symm.trans hc) (by decide)
  · exact absurd hc (h.starting caller)

/-- The payload that a header announces. -/
theorem Ready.submitPayload (h : c.Ready) (hincoming : c.incomingHeader ≠ none)
    (hidle : c.headerRead.active = false) (length : ℕ) (taken : Bool) :
    (c.submitRead true length taken).Sound := by
  obtain ⟨id, hid⟩ := ne_none_iff_exists'.mp h.payload
  rw [submitRead_eq c (p := true) (resize_of_nil h.buffer length) hid taken, h.nil, nil_append]
  refine ⟨h.ok, ?_, ?_, h.room, ?_, ?_, fun hc => ?_, fun caller hc => ?_⟩
  · rintro (_ | _) hactive
    · exact absurd (hidle.symm.trans hactive) (by decide)
    · exact some_ne_none id
  · rintro ⟨hactive, -⟩
    exact absurd (hidle.symm.trans hactive) (by decide)
  · dsimp only
    split_ifs <;> simp
  · intro t ht
    dsimp only at ht
    split_ifs at ht
    · rw [mem_singleton] at ht
      subst ht
      exact ⟨rfl, rfl, (by simp), fun _ => hincoming, fun _ => h.header⟩
    · cases ht
  · exact absurd (h.closing.symm.trans hc) (by decide)
  · exact absurd hc (h.starting caller)

/-! ### Starting, and the callbacks -/

theorem Sound.startImpl (hs : c.Sound) (hphase : c.phase = .starting caller)
    (taken : Bool) : (c.startImpl caller taken).Sound := by
  have hf := hs.fresh caller hphase
  rw [LibusbConnection.startImpl]
  split_ifs
  · exact hs.closeDevice caller
  · refine Ready.submitHeader ?_ ?_ ?_ taken
    · exact ⟨hs.ok, hf.inflight, some_ne_none _, some_ne_none _, hs.room, hf.buffer,
        rfl, fun _ h => by cases h⟩
    · exact hf.incoming
    · exact hf.payload

/-- The transfer that calls back is not with `libusb` any more. -/
theorem Sound.landed (hs : c.Sound) (hstart : ∀ caller, c.phase ≠ .starting caller)
    (incoming : Option Bytes) :
    ({ c with inflight := [], incomingHeader := incoming } : LibusbConnection).Sound :=
  .of_nil hs.ok hs.transfer hs.apart hs.room rfl hs.closing fun caller h => absurd h (hstart caller)

theorem Sound.onError (hs : c.Sound) (e : UsbError) : (c.onError e).Sound := by
  rw [onError_eq]
  exact hs.of_same ⟨rfl, rfl, rfl, rfl, rfl⟩ (fun _ h => h) hs.closing hs.fresh

/-- A transfer that has called back is given up, with an error or without. -/
theorem Sound.drop (hs : c.Sound) (hnil : c.inflight = [])
    (hstart : ∀ caller, c.phase ≠ .starting caller) (p : Bool) : (c.cleanup p).Sound :=
  hs.cleanup (by simp [hnil]) (fun h => absurd hnil h) hstart

theorem Sound.dropError (hs : c.Sound) (hnil : c.inflight = [])
    (hstart : ∀ caller, c.phase ≠ .starting caller) (p : Bool) (e : UsbError) :
    ((c.onError e).cleanup p).Sound := by
  have hs' := hs.onError e
  rw [onError_eq] at hs' ⊢
  exact hs'.drop hnil hstart p

theorem Sound.readFailed (hs : c.Sound) (hnil : c.inflight = [])
    (hstart : ∀ caller, c.phase ≠ .starting caller) (p : Bool) (status : Status) :
    (c.readFailed p status).Sound := by
  rw [LibusbConnection.readFailed]
  split_ifs
  · exact hs.drop hnil hstart p
  · exact hs.dropError hnil hstart p _

/-- Nothing is with `libusb` when a connection is about to start. -/
theorem Sound.not_starting (hs : c.Sound) (ht : t ∈ c.inflight) (caller : Caller) :
    c.phase ≠ .starting caller := fun h =>
  ne_nil_of_mem ht (hs.fresh caller h).inflight

/-- The callbacks get here only while the connection is not closing. -/
theorem Sound.not_closing (hs : c.Sound) (h : ¬c.terminated = true) : c.phase.closing = false :=
  Bool.eq_false_of_not_eq_true fun hc => h (hs.closing hc)

/-- The callback of a header: it is given up, or followed by a payload or the next header. -/
theorem Sound.headerReadCb (hs : c.Sound) (ht : t ∈ c.inflight)
    (hp : t.payload = false) (status : Status) (data : Bytes) (taken : Bool) :
    (({ c with inflight := [] } : LibusbConnection).headerReadCb status data taken).Sound := by
  have hfly := hs.flying t ht
  have hstart := hs.not_starting ht
  have hother := hfly.other
  obtain ⟨hincoming, hbuffer⟩ := hfly.header hp
  have htransfer := hfly.transfer
  have hactive := hfly.active
  rw [hp] at htransfer hactive hother
  have hidle : c.payloadRead.active = false :=
    Bool.eq_false_of_not_eq_true fun h => hs.apart ⟨hactive, h⟩
  have hsome : c.headerRead.transfer ≠ none := by
    intro h
    exact absurd (htransfer.symm.trans h) (by simp)
  have hs' := hs.landed hstart c.incomingHeader
  rw [LibusbConnection.headerReadCb, if_neg hsome]
  split_ifs with hterm hstatus hlength hnone hlong hzero
  · exact hs'.drop rfl hstart false
  · exact hs'.readFailed rfl hstart false status
  · exact hs'.dropError rfl hstart false _
  · exact absurd hincoming hnone
  · exact (hs.landed hstart (some data)).dropError rfl hstart false _
  · -- The next header, for a packet without payload.
    refine Ready.submitHeader ?_ ?_ ?_ taken
    · exact ⟨hs.ok, rfl, hsome, hother (by simpa using hterm), hs.room, hbuffer,
        hs.not_closing hterm, hstart⟩
    · exact hincoming
    · exact hidle
  · refine Ready.submitPayload ?_ ?_ ?_ _ taken
    · exact ⟨hs.ok, rfl, hsome, hother (by simpa using hterm), hs.room, hbuffer,
        hs.not_closing hterm, hstart⟩
    · exact some_ne_none data
    · rfl

/-- The callback of a payload: it is given up, or followed by the next header. -/
theorem Sound.payloadReadCb (hs : c.Sound) (ht : t ∈ c.inflight)
    (hp : t.payload = true) (status : Status) (data : Bytes) (taken : Bool) :
    (({ c with inflight := [] } : LibusbConnection).payloadReadCb t.length status data
      taken).Sound := by
  have hfly := hs.flying t ht
  have hstart := hs.not_starting ht
  have hother := hfly.other
  have htransfer := hfly.transfer
  rw [hp] at htransfer hother
  obtain ⟨header, hheader⟩ := ne_none_iff_exists'.mp (hfly.payload hp)
  have hsome : c.payloadRead.transfer ≠ none := by
    intro h
    exact absurd (htransfer.symm.trans h) (by simp)
  have hs' := hs.landed hstart c.incomingHeader
  rw [LibusbConnection.payloadReadCb, if_neg hsome]
  split_ifs with hterm hstatus hlength
  · exact hs'.drop rfl hstart true
  · exact hs'.readFailed rfl hstart true status
  · exact hs'.dropError rfl hstart true _
  · simp only [hheader]
    refine Ready.submitHeader ?_ ?_ ?_ taken
    · exact ⟨hs.ok, rfl, hother (by simpa using hterm), hsome, hs.room, rfl,
        hs.not_closing hterm, hstart⟩
    · rfl
    · rfl

theorem Sound.readCb (hs : c.Sound) (ht : t ∈ c.inflight) (status : Status)
    (data : Bytes) (taken : Bool) : (c.readCb t status data taken).Sound := by
  have hnil : c.inflight.erase t = [] := by rw [hs.inflight_eq ht, erase_cons_head]
  rw [LibusbConnection.readCb, hnil]
  cases hp : t.payload with
  | false => exact hs.headerReadCb ht hp status data taken
  | true => exact hs.payloadReadCb ht hp status data taken

/-! ### Every careful run is sound -/

/-- The steps at which nothing goes wrong. A connection is started only with nothing left of an
earlier life, and `libusb` can cancel a transfer that it has got. -/
def Careful (c : LibusbConnection) : Op → Prop
  | .start _ => c.Fresh
  | .attach _ => c.Fresh
  | .cancelReads _ header payload =>
    ∀ t ∈ c.inflight, (if t.payload then payload else header) = true
  | _ => True

instance decidableCareful (c : LibusbConnection) (op : Op) : Decidable (c.Careful op) := by
  induction op using Op.casesOn <;> dsimp only [Careful] <;> infer_instance

theorem cancelReadTransfer_same (c : LibusbConnection) (p cancelled : Bool) :
    (c.cancelReadTransfer p cancelled).inflight = c.inflight ∧
      (c.cancelReadTransfer p cancelled).terminated = c.terminated ∧
      (c.cancelReadTransfer p cancelled).phase = c.phase := by
  rcases cancelReadTransfer_eq c p cancelled with heq | heq <;> rw [heq]
  · exact ⟨rfl, rfl, rfl⟩
  · cases p <;> exact ⟨rfl, rfl, rfl⟩

/-- Both transfers are given up, the header first. -/
theorem Sound.cancelReads (hs : c.Sound) {header payload : Bool}
    (hphase : c.phase = .cancelReads caller)
    (hcan : ∀ t ∈ c.inflight, (if t.payload then payload else header) = true) :
    ((c.cancelReadTransfer false header).cancelReadTransfer true payload).Sound := by
  have hterm : c.terminated = true := hs.closing (by rw [hphase]; rfl)
  have hstart : ∀ caller, c.phase ≠ .starting caller := by simp [hphase]
  obtain ⟨hinflight, hterm', hphase'⟩ := cancelReadTransfer_same c false header
  refine Sound.cancelReadTransfer (hs.cancelReadTransfer hterm hstart ?_) (hterm'.trans hterm)
    (hphase' ▸ hstart) ?_
  · rintro ⟨t, ht, hp⟩
    simpa [hp] using hcan t ht
  · rintro ⟨t, ht, hp⟩
    rw [hinflight] at ht
    simpa [hp] using hcan t ht

/-- **One step.** -/
theorem Sound.step (hs : c.Sound) {op : Op} (hen : c.Enabled op) (hcare : c.Careful op) :
    (c.step op).Sound := by
  have hclosing (caller : Caller) {phase : Phase} (hphase : c.phase = phase)
      (h : phase.closing = true) : c.terminated = true := hs.closing (hphase ▸ h)
  cases op with
  | start o => exact hs.attach hcare hen .start o
  | attach o => exact hs.attach hcare hen .attach o
  | detach =>
    have hset : ({ c with detached := true } : LibusbConnection).Sound :=
      hs.of_same ⟨rfl, rfl, rfl, rfl, rfl⟩ (fun _ h => h) hs.closing hs.fresh
    exact hset.closeDevice .detach
  | stop => exact hs.closeDevice .stop
  | destroy => exact hs.closeDevice .destroy
  | reset ok =>
    have hcall : (c.call (.resetDevice c.deviceHandle)).Sound :=
      hs.of_same ⟨rfl, rfl, rfl, rfl, rfl⟩ (fun _ h => h) hs.closing hs.fresh
    rw [LibusbConnection.step, reset]
    split_ifs
    · exact hcall.closeDevice .stop
    · exact hcall
  | startImpl caller taken => exact hs.startImpl hen taken
  | cancelWrites caller cancelled =>
    have hterm := hclosing caller hen rfl
    exact hs.of_same ⟨rfl, rfl, rfl, rfl, rfl⟩ (fun _ h => h) (fun _ => hterm)
      (fun _ h => by cases h)
  | awaitWrites caller =>
    have hterm := hclosing caller hen.1 rfl
    exact hs.of_same ⟨rfl, rfl, rfl, rfl, rfl⟩ (fun _ h => h) (fun _ => hterm)
      (fun _ h => by cases h)
  | cancelReads caller header payload =>
    have hterm := hclosing caller hen rfl
    refine (hs.cancelReads hen hcare).of_same ⟨rfl, rfl, rfl, rfl, rfl⟩ (fun _ h => h) (fun _ => ?_)
      (fun _ h => by cases h)
    rw [LibusbConnection.step]
    simp only
    rw [(cancelReadTransfer_same _ true payload).2.1, (cancelReadTransfer_same c false header).2.1,
      hterm]
  | awaitReads caller =>
    obtain ⟨hphase, hheader, hpayload⟩ := hen
    have hterm := hclosing caller hphase rfl
    -- A transfer with `libusb` would be an active one.
    have hnil : c.inflight = [] := by
      refine eq_nil_iff_forall_not_mem.mpr fun t ht => ?_
      have hactive := (hs.flying t ht).active
      rw [readBlock] at hactive
      split_ifs at hactive
      · exact absurd (hpayload.symm.trans hactive) (by decide)
      · exact absurd (hheader.symm.trans hactive) (by decide)
    exact .of_nil hs.ok hs.transfer hs.apart hs.room hnil (fun _ => hterm)
      (fun _ h => by cases h)
  | release caller =>
    rw [LibusbConnection.step, releaseHandle]
    refine Sound.closed ?_ caller
    split_ifs
    · exact hs.of_same ⟨rfl, rfl, rfl, rfl, rfl⟩ (fun _ h => h) hs.closing hs.fresh
    · exact hs
  | readCb t status data taken => exact hs.readCb hen status data taken
  | write payloadLength header payload zero =>
    obtain ⟨_, _, _, _, _, heq⟩ := write_eq c payloadLength header payload zero
    rw [LibusbConnection.step, heq]
    exact hs.of_same ⟨rfl, rfl, rfl, rfl, rfl⟩ (fun _ h => h) hs.closing hs.fresh
  | writeCb id status =>
    have hlanded : ({ c with
        inflightWrites := c.inflightWrites.erase id,
        writes := c.writes.erase id } : LibusbConnection).Sound :=
      hs.of_same ⟨rfl, rfl, rfl, rfl, rfl⟩ (fun _ h => h) hs.closing hs.fresh
    rw [LibusbConnection.step, writeCb]
    split_ifs
    · exact hlanded.onError _
    · exact hlanded

theorem sound_create (handle : Option ℕ) (k : Creation) : (create handle k).Sound := by
  have hs (interface : Interface) (calls : List Call) :
      ({ deviceHandle := handle, interface := interface, calls := calls } :
        LibusbConnection).Sound :=
    .of_nil rfl (by simp [readBlock]) (by simp) (.inl rfl) rfl (by simp [Phase.closing]) (by simp)
  rw [create]
  rcases k with ⟨_ | _, _ | interface, _ | _⟩ <;> first
    | exact (hs _ _).closeDevice .destroy
    | exact hs _ _

end LibusbConnection

/-- Every state of a careful run is sound. -/
theorem sound_of_careful {c : LibusbConnection}
    (h : (connection.restrict LibusbConnection.Careful).Reach c) : c.Sound := by
  refine h.inv ?_ ?_
  · rintro _ ⟨handle, k, rfl⟩
    exact LibusbConnection.sound_create handle k
  · rintro c op - hs ⟨⟨-, hen⟩, hcare⟩
    exact hs.step hen hcare

/-- **In a careful run no check fails, and one read block at most is active.** -/
theorem careful_reads_checked {c : LibusbConnection}
    (h : (connection.restrict LibusbConnection.Careful).Reach c) :
    c.failed = none ∧ ¬(c.headerRead.active = true ∧ c.payloadRead.active = true) :=
  ⟨(sound_of_careful h).ok, (sound_of_careful h).apart⟩

/-! ### Three runs that are not careful -/

instance decidableConnectionEnabled (c : LibusbConnection) (op : Op) :
    Decidable (connection.enabled c op) :=
  inferInstanceAs (Decidable (c.failed = none ∧ c.Enabled op))

/-- A device that can be opened, with all that belongs to it. -/
def goodOpening : LibusbConnection.Opening := ⟨true, true, some {}, true, (true, true)⟩

/-- A connection with the handle of a device. -/
def opened : LibusbConnection := LibusbConnection.create (some 0) ⟨true, some {}, true⟩

/-- The header of a packet with a short payload. -/
def announcing (length : UInt8) : Bytes :=
  List.replicate 12 0 ++ [length] ++ List.replicate 11 0

/-- `Start`, and the header of a payload of eight bytes. -/
def readingPayload : List Op :=
  [.start goodOpening, .startImpl .start true, .readCb ⟨0, false,
    24⟩ .completed (announcing 8) true]

/-- `Detach` while the payload is on its way, up to the wait for the callbacks. -/
def detaching (payload : Bool) : List Op :=
  [.detach, .cancelWrites .detach [], .awaitWrites .detach, .cancelReads .detach true payload]

/-- The payload is cancelled, its block keeps the buffer, and after `Attach` there is no room for
a longer payload. -/
def longerPayload : List Op :=
  readingPayload ++ detaching true ++
    [.readCb ⟨1, true, 8⟩ .cancelled [] true, .awaitReads .detach, .release .detach,
      .attach goodOpening, .startImpl .attach true,
      .readCb ⟨2, false, 24⟩ .completed (announcing 16) true]

/-- The payload has come when it is to be cancelled, and its callback is still to run. -/
def lateCallback : List Op :=
  readingPayload ++ detaching false ++ [.readCb ⟨1, true, 8⟩ .completed (List.replicate 8 0) true]

/-- `Attach` without `Detach`: the header of the second start comes while the payload is on its
way. -/
def attachedTwice : List Op :=
  readingPayload ++ [.attach goodOpening, .startImpl .attach true,
    .readCb ⟨2, false, 24⟩ .completed (announcing 8) true]

/-- Three checks fail; and before the third one, both read blocks are active. -/
theorem reads_unchecked :
    connection.init opened ∧
      connection.Legal opened longerPayload ∧
      (connection.run opened longerPayload).failed = some .capacity ∧
      connection.Legal opened lateCallback ∧
      (connection.run opened lateCallback).failed = some .transfer ∧
      connection.Legal opened attachedTwice ∧
      (connection.run opened attachedTwice.dropLast).headerRead.active = true ∧
      (connection.run opened attachedTwice.dropLast).payloadRead.active = true ∧
      (connection.run opened attachedTwice).failed = some .noIncomingHeader := by
  refine ⟨⟨some 0, ⟨true, some {}, true⟩, rfl⟩, ?_⟩
  decide +kernel

/-- A packet with a payload, `Detach` and `Attach`. -/
def carefulOps : List Op :=
  readingPayload ++ [.readCb ⟨1, true, 8⟩ .completed (List.replicate 8 0) true, .detach,
    .cancelWrites .detach [], .awaitWrites .detach, .cancelReads .detach true true,
    .readCb ⟨0, false, 24⟩ .cancelled [] true, .awaitReads .detach, .release .detach,
    .attach goodOpening, .startImpl .attach true,
    .readCb ⟨2, false, 24⟩ .completed (announcing 16) true]

/-- A payload, and the header of another one after `Detach` and `Attach`. -/
theorem careful_reads_checked_carefulOps :
    connection.Legal opened carefulOps ∧
      connection.Meets LibusbConnection.Careful opened carefulOps ∧
      (connection.run opened carefulOps).failed = none ∧
      ¬((connection.run opened carefulOps).headerRead.active = true ∧
        (connection.run opened carefulOps).payloadRead.active = true) := by
  have hrun : connection.Legal opened carefulOps ∧
      connection.Meets LibusbConnection.Careful opened carefulOps := by decide +kernel
  have hreach : (connection.restrict LibusbConnection.Careful).Reach opened :=
    .init ⟨some 0, ⟨true, some {}, true⟩, rfl⟩
  exact ⟨hrun.1, hrun.2, careful_reads_checked (hreach.run (hrun.1.restrict hrun.2))⟩

end AdbBridge.Usb
