import AdbBridge.Graph.Server

/-!
# The check on `A_OPEN`

Before a host lets a device open a connection it looks the destination up among the
reverse forwards of the transport. The payload is not terminated; the lookup makes a C
string of it, while the connection is made to the whole payload, but for the NULs at its
end. This file says when the two agree.
-/

namespace AdbBridge

open List

variable {w : World} {t : TransportId} {p : Apacket}

/-! ### C strings in a payload -/

/-- The scan stays within the view exactly if there is a NUL in it. -/
theorem cStringExtent_le_iff (view beyond : Bytes) :
    cStringExtent view beyond ≤ view.length ↔ 0 ∈ view := by
  unfold cStringExtent cString
  rw [append_assoc, takeWhile_append]
  by_cases h : (view.takeWhile (· != 0)).length = view.length
  · rw [if_pos h, length_append]
    have hall : ∀ b ∈ view, b ≠ 0 := by
      have heq : view.takeWhile (· != 0) = view :=
        (List.takeWhile_prefix _).eq_of_length h
      intro b hb
      simpa using takeWhile_eq_self_iff.mp heq b hb
    constructor
    · intro hle
      omega
    · exact fun hmem => absurd rfl (hall 0 hmem)
  · rw [if_neg h]
    have hlt : (view.takeWhile (· != 0)).length < view.length :=
      lt_of_le_of_ne (List.takeWhile_prefix _).length_le h
    refine ⟨fun _ => ?_, fun _ => hlt⟩
    by_contra hmem
    refine h (congrArg List.length (takeWhile_eq_self_iff.mpr fun b hb => ?_))
    simpa using fun hz : b = 0 => hmem (hz ▸ hb)

/-- A C string that ends within the view. -/
theorem cString_of_mem {view : Bytes} (h : 0 ∈ view) (beyond : Bytes) :
    cString view beyond = view.takeWhile (· != 0) := by
  have hlt := (cStringExtent_le_iff view beyond).mpr h
  unfold cStringExtent cString at *
  rw [append_assoc, takeWhile_append] at *
  split
  · rename_i hlen
    rw [if_pos hlen, length_append] at hlt
    omega
  · rfl

/-! ### What `A_OPEN` does -/

/-- The values of `reverse_forwards_`. -/
def Atransport.reverseValues (x : Atransport) : List Bytes := x.reverseForwards.entries.map (·.2)

theorem Atransport.isReverseConfigured_iff {x : Atransport} {addr : Bytes} :
    x.isReverseConfigured addr = true ↔ addr ∈ x.reverseValues := by
  simp only [isReverseConfigured, reverseValues, any_eq_true, mem_map, beq_iff_eq]

/-- Whether an `A_OPEN` gets as far as the check. -/
def openConsidered (w : World) (t : TransportId) (p : Apacket) : Bool :=
  (w.transport t).online && p.arg0 != 0 &&
    (w.transport t).supportsDelayedAck == decide (p.arg1 ≠ 0)

/-- What a host does about an `A_OPEN`, in order. -/
def openEvents (w : World) (t : TransportId) (p : Apacket) : List Ev :=
  let beyond := w.io.sys.beyond w.io.tick
  let address := stripTrailingNulls p.payload
  if openConsidered w t p then
    .scan (cStringExtent p.payload beyond) p.payload.length ::
      if (w.transport t).isReverseConfigured (cString p.payload beyond) then
        [.service t address,
          if (w.tick).serves address then
            .send t (readyPacket w w.sk.localSocketNextId p.arg0 t initialDelayedAckBytes)
          else .send t { command := .aClse, arg0 := 0, arg1 := p.arg0 }]
      else []
  else if (w.transport t).online && p.arg0 != 0 then
    [.send t { command := .aClse, arg0 := 0, arg1 := p.arg0 }]
  else []

/-- Accepting a stream is written down as the service, and the packet that answers. -/
theorem acceptOpen_trace (hid : p.arg0 ≠ 0) (address : Bytes) :
    (acceptOpen w t p address).io.trace = w.io.trace ++ [.service t address,
      if w.serves address then
        .send t (readyPacket w w.sk.localSocketNextId p.arg0 t initialDelayedAckBytes)
      else .send t { command := .aClse, arg0 := 0, arg1 := p.arg0 }] := by
  have htrace : (accepted w t p.arg0 address).io.trace = w.io.trace ++ [.service t address] := by
    unfold accepted
    simp only [Action.run, joinRemote, createRemoteSocket_eq hid, createLocalSocket_eq, World.check]
    split <;> rfl
  cases hserves : w.serves address with
  | true =>
    rw [acceptOpen_eq hid hserves, World.upd_io, World.log_trace, htrace, append_assoc]
    rfl
  | false =>
    rw [acceptOpen_refused hserves, sendClose, World.sendPacket_eq, World.log_trace]
    exact append_assoc _ _ _

/-- An `A_OPEN` that gets as far as the check. -/
theorem handleOpen_considered (hhost : w.cfg.adbHost = true) (h : openConsidered w t p = true) :
    p.arg0 ≠ 0 ∧ handleOpen w t p =
      if (checkReverse w t p).2 then
        acceptOpen (checkReverse w t p).1 t p (stripTrailingNulls p.payload)
      else (checkReverse w t p).1.raise .disallowedConnect := by
  simp only [openConsidered, Bool.and_eq_true, bne_iff_ne, beq_iff_eq] at h
  obtain ⟨⟨honline, hid⟩, hdelayed⟩ := h
  refine ⟨hid, ?_⟩
  unfold handleOpen
  rw [if_neg (by simp [honline, hid]), if_neg (by simp [hdelayed])]
  simp only [hhost, if_true]
  rcases hcheck : checkReverse w t p with ⟨w', b⟩
  cases b <;> rfl

/-- An `A_OPEN` that does not. -/
theorem handleOpen_unconsidered (h : openConsidered w t p = false) : handleOpen w t p =
    if (w.transport t).online && p.arg0 != 0 then sendClose w 0 p.arg0 t else w := by
  unfold handleOpen openConsidered at *
  by_cases honline : (w.transport t).online && p.arg0 != 0
  · have hguard : (!(w.transport t).online || decide (p.arg0 = 0)) = false := by simpa using honline
    rw [honline, Bool.true_and, beq_eq_false_iff_ne] at h
    rw [if_pos honline, if_neg (by simp [hguard]), if_pos (by simpa using h)]
  · rw [if_neg honline, if_pos]
    cases hb : (w.transport t).online <;> simp_all

/-- **What a host does about an `A_OPEN`.** -/
theorem handleOpen_trace (hhost : w.cfg.adbHost = true) :
    (handleOpen w t p).io.trace = w.io.trace ++ openEvents w t p := by
  unfold openEvents
  cases h : openConsidered w t p with
  | false =>
    rw [handleOpen_unconsidered h]
    simp only [Bool.false_eq_true, if_false]
    split
    · rfl
    · simp
  | true =>
    obtain ⟨hid, heq⟩ := handleOpen_considered hhost h
    have htrace : (checkReverse w t p).1.io.trace = w.io.trace ++
      [.scan (cStringExtent p.payload (w.io.sys.beyond w.io.tick)) p.payload.length] := rfl
    have hcheck : (checkReverse w t p).2 = (w.transport t).isReverseConfigured
      (cString p.payload (w.io.sys.beyond w.io.tick)) := rfl
    rw [heq, hcheck]
    simp only [if_true]
    split
    · rw [acceptOpen_trace hid, htrace, append_assoc]
      rfl
    · rw [World.raise_io, htrace]

/-! ### When the check and the use agree -/

/-- The events that a packet adds to those of a world. -/
def packetEvents (w : World) (t : TransportId) (p : Apacket) : List Ev :=
  (handlePacket w t p).io.trace.drop w.io.trace.length

/-- The promise of the check: a service is started only under a name that is a value of
`reverse_forwards_`, byte for byte, and the check looks at no byte outside the payload. -/
structure OpenChecked (w : World) (t : TransportId) (p : Apacket) : Prop where
  use : ∀ u address, Ev.service u address ∈ packetEvents w t p →
    u = t ∧ address ∈ (w.transport t).reverseValues
  extent : ∀ n size, Ev.scan n size ∈ packetEvents w t p → n ≤ size

theorem packetEvents_open (hhost : w.cfg.adbHost = true) (hp : p.command = .aOpen) :
    packetEvents w t p = .recv t p :: openEvents w t p := by
  have htrace : (handlePacket w t p).io.trace =
      w.io.trace ++ ([.recv t p] ++ openEvents w t p) := by
    unfold handlePacket
    simp only [hp]
    rw [handleOpen_trace (w := w.emit (.recv t p)) hhost, World.emit_eq, World.log_trace,
      append_assoc]
    rfl
  rw [packetEvents, htrace, drop_left]
  rfl

/-- A service is started for an `OPEN` that is considered, at an address that was asked for. -/
theorem service_mem_openEvents {u : TransportId} {address : Bytes} :
    Ev.service u address ∈ openEvents w t p ↔ openConsidered w t p = true ∧
      (w.transport t).isReverseConfigured (cString p.payload (w.io.sys.beyond w.io.tick)) = true ∧
        u = t ∧ address = stripTrailingNulls p.payload := by
  unfold openEvents
  cases openConsidered w t p with
  | false =>
    simp only [Bool.false_eq_true, if_false, false_and, iff_false]
    split <;> simp
  | true =>
    simp only [if_true, true_and]
    split
    · rename_i hconf
      simp only [hconf, mem_cons, true_and]
      split <;> simp
    · rename_i hconf
      simp [hconf]

theorem scan_mem_openEvents {n size : ℕ} : Ev.scan n size ∈ openEvents w t p ↔
    openConsidered w t p = true ∧
      n = cStringExtent p.payload (w.io.sys.beyond w.io.tick) ∧ size = p.payload.length := by
  unfold openEvents
  cases openConsidered w t p with
  | false =>
    simp only [Bool.false_eq_true, if_false, false_and, iff_false]
    split <;> simp
  | true =>
    simp only [if_true, true_and, mem_cons, Ev.scan.injEq]
    split
    · split <;> simp
    · simp

/-- **When the check on `A_OPEN` keeps its promise**: if the packet is turned away before,
or if there is a NUL in the payload and either what precedes it is no value or the whole
address is one. -/
theorem openChecked_iff {w : World} {t : TransportId} {p : Apacket} (hhost : w.cfg.adbHost = true)
    (hp : p.command = .aOpen) : OpenChecked w t p ↔
      openConsidered w t p = false ∨ 0 ∈ p.payload ∧
        (p.payload.takeWhile (· != 0) ∉ (w.transport t).reverseValues ∨
          stripTrailingNulls p.payload ∈ (w.transport t).reverseValues) := by
  have hservice : ∀ u address, Ev.service u address ∈ packetEvents w t p ↔
      Ev.service u address ∈ openEvents w t p := by simp [packetEvents_open hhost hp]
  have hscan : ∀ n size, Ev.scan n size ∈ packetEvents w t p ↔
      Ev.scan n size ∈ openEvents w t p := by simp [packetEvents_open hhost hp]
  constructor
  · rintro ⟨huse, hextent⟩
    cases hc : openConsidered w t p with
    | false => exact Or.inl rfl
    | true =>
      have hmem : 0 ∈ p.payload := (cStringExtent_le_iff _ _).mp
        (hextent _ _ ((hscan _ _).mpr (scan_mem_openEvents.mpr ⟨hc, rfl, rfl⟩)))
      refine Or.inr ⟨hmem, or_iff_not_imp_left.mpr fun hvalue => ?_⟩
      have hconf := Atransport.isReverseConfigured_iff.mpr (not_not.mp hvalue)
      rw [← cString_of_mem hmem (w.io.sys.beyond w.io.tick)] at hconf
      exact (huse t _ ((hservice _ _).mpr (service_mem_openEvents.mpr ⟨hc, hconf, rfl, rfl⟩))).2
  · intro hcond
    refine ⟨fun u address he => ?_, fun n size he => ?_⟩
    · obtain ⟨hc, hconf, rfl, rfl⟩ := service_mem_openEvents.mp ((hservice _ _).mp he)
      obtain ⟨hmem, hvalues⟩ := hcond.resolve_left (by simp [hc])
      rw [cString_of_mem hmem] at hconf
      exact ⟨rfl, hvalues.resolve_left
        (not_not_intro (Atransport.isReverseConfigured_iff.mp hconf))⟩
    · obtain ⟨hc, rfl, rfl⟩ := scan_mem_openEvents.mp ((hscan _ _).mp he)
      exact (cStringExtent_le_iff _ _).mpr (hcond.resolve_left (by simp [hc])).1

/-! ### A device that smuggles an address past the check -/

/-- A client that asks for `reverse:forward:tcp:1;tcp:5` on the one device there is. -/
def reverseClient : Sys where
  read := fun tick =>
    match tick with
    | 1 => .data (ascii "0012host:transport-any")
    | 3 => .data (ascii "001breverse:forward:tcp:1;tcp:5")
    | _ => .eagain

/-- The server once it has sent this request to the device. -/
def reverseForwarded : World :=
  server.run (initialWorld {} reverseClient) (deviceConnects 1 (ascii "device::") ++
    [.poll [(.listener 0, { epollin := true })], .poll [(.socket 0, { epollin := true })],
      .poll [(.socket 0, { epollin := true })]])

theorem reach_reverseForwarded : server.Reach reverseForwarded := reach_of_legal (by decide +kernel)

/-- The device answers by opening `tcp:5`, as it may. -/
theorem openChecked_terminated : OpenChecked reverseForwarded 1
    { command := .aOpen, arg0 := 7, payload := ascii "tcp:5" ++ [0] } :=
  (openChecked_iff rfl rfl).mpr (Or.inr ⟨by decide +kernel, Or.inr (by decide +kernel)⟩)

/-- **The check is of no use**: the device opens another address, since a NUL hides the
rest of it from the check. And a payload without a NUL makes the check read on behind its
end. -/
theorem not_openChecked : server.Reach reverseForwarded ∧
    ¬OpenChecked reverseForwarded 1
      { command := .aOpen, arg0 := 7, payload := ascii "tcp:5" ++ [0] ++ ascii "6" } ∧
    ¬OpenChecked reverseForwarded 1
      { command := .aOpen, arg0 := 7, payload := ascii "tcp:5" } := by
  refine ⟨reach_reverseForwarded, fun h => ?_, fun h => ?_⟩
  · have hused := h.use 1 (ascii "tcp:5" ++ [0] ++ ascii "6") (by decide +kernel)
    exact absurd hused.2 (by decide +kernel)
  · exact absurd (h.extent 6 5 (by decide +kernel)) (by decide)

end AdbBridge
