import AdbBridge.Requests.Lengths
import AdbBridge.Transport.Wire

/-!
# Packets over a blocking descriptor

`FdConnection` writes a packet with one exact transfer for the header and one for the payload, and
reads it back in the same way; with TLS, the transfers go through the session. A transfer may come
in any pieces. Packets that are written are read back one by one, and nothing else is consumed
(`AdbBridge.FdConnection.read_write`); a header that announces too much is refused before any room
is made for the payload.
-/

namespace AdbBridge.FdConnection

open List

/-! ### Transfers -/

/-- `TlsConnectionImpl::WriteFully`, with what each `SSL_write` comes to. Unlike `WriteFdExactly`,
it gives up if nothing was written. -/
def writeFully : Bytes → List WriteOutcome → Bytes × Option Bool
  | [], _ => ([], some true)
  | _ :: _, [] => ([], none)
  | b :: rest, .wrote (n + 1) :: outcomes =>
    let (written, result) := writeFully (rest.drop n) outcomes
    (b :: rest.take n ++ written, result)
  | _ :: _, .wrote 0 :: _ | _ :: _, .again :: _ | _ :: _, .failed :: _ => ([], some false)

/-- `TlsConnectionImpl::ReadFully`: the loop is that of `ReadFdExactly`, over what comes out of
the session. -/
def readFully (len : ℕ) (pieces : List Bytes) : Option (Bytes × List Bytes) :=
  readFdExactly len pieces

/-- `FdConnection::DispatchWrite`, with TLS or without. -/
def dispatchWrite (tls : Bool) (data : Bytes) (outcomes : List WriteOutcome) :
    Bytes × Option Bool :=
  if tls then if data = [] then ([], some true) else writeFully data outcomes
  else writeFdExactly data outcomes

/-- `FdConnection::DispatchRead`, with TLS or without. -/
def dispatchRead (tls : Bool) (len : ℕ) (pieces : List Bytes) : Option (Bytes × List Bytes) :=
  if tls then if len = 0 then some ([], pieces) else readFully len pieces
  else readFdExactly len pieces

/-! ### Packets -/

/-- `FdConnection::Write`, with what the writes of the header and of the payload come to: the
bytes that have been written, and what is returned, if it has come to that. -/
def write (tls : Bool) (p : WirePacket) (header payload : List WriteOutcome) :
    Bytes × Option Bool :=
  match dispatchWrite tls p.msg.bytes header with
  | (sent, some true) =>
    if p.msg.dataLength = 0 then (sent, some true)
    else
      let (sent', result) := dispatchWrite tls (p.payload.take p.msg.dataLength.toNat) payload
      (sent ++ sent', result)
  | (sent, result) => (sent, result)

/-- What `FdConnection::Read` comes to. -/
structure ReadPacket where
  returned : Bool
  /-- The header, if it has been read. -/
  msg : Option Amessage
  payload : Block
  /-- What is left of the stream. -/
  left : List Bytes
  deriving DecidableEq, Repr

/-- `FdConnection::Read` into a packet with this payload. A `CHECK` of the payload that fails is a
`none`. -/
def read (tls : Bool) (payload : Block) (pieces : List Bytes) : Option ReadPacket :=
  match dispatchRead tls sizeofAmessage pieces with
  | none => some ⟨false, none, payload, []⟩
  | some (header, pieces) =>
    let msg := amessageOfBytes header
    if maxPayload < msg.dataLength.toNat then some ⟨false, some msg, payload, pieces⟩
    else
      (payload.resize msg.dataLength.toNat).bind fun payload =>
        match dispatchRead tls payload.size pieces with
        | none => some ⟨false, some msg, payload, []⟩
        | some (data, pieces) =>
          (payload.memcpy 0 data).map fun payload => ⟨true, some msg, payload, pieces⟩

/-- A packet to be written, with what its writes come to. -/
structure WriteCall where
  packet : WirePacket
  header : List WriteOutcome
  payload : List WriteOutcome

/-- Packets are written one after the other, as long as all goes well. -/
def writePackets (tls : Bool) : List WriteCall → Bytes × Option Bool
  | [] => ([], some true)
  | c :: calls =>
    match write tls c.packet c.header c.payload with
    | (sent, some true) =>
      let (sent', result) := writePackets tls calls
      (sent ++ sent', result)
    | (sent, result) => (sent, result)

/-- Packets are read one after the other, each into a new `apacket`. -/
def readPackets (tls : Bool) : ℕ → List Bytes → Option (List WirePacket × List Bytes)
  | 0, pieces => some ([], pieces)
  | n + 1, pieces =>
    match read tls {} pieces with
    | some ⟨true, some msg, payload, left⟩ =>
      (readPackets tls n left).map fun (ps, left) => (⟨msg, payload.data⟩ :: ps, left)
    | _ => none

/-! ### A transfer writes everything -/

/-- How many bytes a call has taken. -/
def taken : WriteOutcome → ℕ
  | .wrote n => n
  | .again | .failed => 0

/-- A call that does not end the transfer. `WriteFully` needs some progress each time. -/
def Continues (tls : Bool) : WriteOutcome → Prop
  | .wrote n => tls = true → n ≠ 0
  | .again => tls = false
  | .failed => False

/-- **The calls take all of the data**, in pieces of any size. -/
def Completes (tls : Bool) (data : Bytes) (outcomes : List WriteOutcome) : Prop :=
  (∀ o ∈ outcomes, Continues tls o) ∧ data.length ≤ (outcomes.map taken).sum

instance decidableContinues (tls : Bool) : ∀ o, Decidable (Continues tls o)
  | .wrote n => inferInstanceAs (Decidable (tls = true → n ≠ 0))
  | .again => inferInstanceAs (Decidable (tls = false))
  | .failed => inferInstanceAs (Decidable False)

instance decidableCompletes (tls : Bool) (data : Bytes) (outcomes : List WriteOutcome) :
    Decidable (Completes tls data outcomes) :=
  inferInstanceAs (Decidable (_ ∧ _))

variable {data : Bytes} {outcomes : List WriteOutcome} {p : WirePacket}

theorem Completes.tail {tls : Bool} {o : WriteOutcome} (h : Completes tls data (o :: outcomes)) :
    Completes tls (data.drop (taken o)) outcomes := by
  refine ⟨fun o' ho' => h.1 o' (mem_cons_of_mem _ ho'), ?_⟩
  have hsum := h.2
  rw [map_cons, sum_cons] at hsum
  rw [length_drop]
  omega

/-- If the calls take all of the data, `WriteFdExactly` writes it. -/
theorem writeFdExactly_of_completes
    (h : Completes false data outcomes) : writeFdExactly data outcomes = (data, some true) := by
  have hreturned : (writeFdExactly data outcomes).2 = some true := by
    induction outcomes generalizing data with
    | nil =>
      obtain rfl : data = [] := eq_nil_of_length_eq_zero (Nat.le_zero.mp h.2)
      rw [writeFdExactly]
    | cons o outcomes ih =>
      cases data with
      | nil => rw [writeFdExactly]
      | cons b rest =>
        cases o with
        | wrote n =>
          rw [writeFdExactly]
          exact ih h.tail
        | again =>
          rw [writeFdExactly]
          exact ih h.tail
        | failed => exact absurd (h.1 _ mem_cons_self) id
  exact Prod.ext (written_of_writeFdExactly data outcomes hreturned) hreturned

/-- So does `WriteFully`, over TLS. -/
theorem writeFully_of_completes
    (h : Completes true data outcomes) : writeFully data outcomes = (data, some true) := by
  induction outcomes generalizing data with
  | nil =>
    obtain rfl : data = [] := eq_nil_of_length_eq_zero (Nat.le_zero.mp h.2)
    rw [writeFully]
  | cons o outcomes ih =>
    cases data with
    | nil => rw [writeFully]
    | cons b rest =>
      have hcontinues := h.1 _ mem_cons_self
      match o, hcontinues, h with
      | .wrote 0, hcontinues, _ => exact absurd rfl (hcontinues rfl)
      | .wrote (n + 1), _, h =>
        have hrest := ih h.tail
        rw [taken, drop_succ_cons] at hrest
        rw [writeFully, hrest]
        simp
      | .again, hcontinues, _ => cases hcontinues
      | .failed, hcontinues, _ => exact absurd hcontinues id

theorem dispatchWrite_of_completes {tls : Bool}
    (h : Completes tls data outcomes) : dispatchWrite tls data outcomes = (data, some true) := by
  rw [dispatchWrite]
  cases tls with
  | false => exact writeFdExactly_of_completes h
  | true =>
    rw [if_pos rfl]
    split_ifs with hnil
    · rw [hnil]
    · exact writeFully_of_completes h

/-- **A packet is written as its bytes.** -/
theorem write_eq {tls : Bool} {header payload : List WriteOutcome} (hp : p.Framed)
    (hheader : Completes tls p.msg.bytes header) (hpayload : Completes tls p.payload payload) :
    write tls p header payload = (p.bytes, some true) := by
  rw [write, dispatchWrite_of_completes hheader]
  simp only
  split_ifs with hzero
  · have hnil : p.payload = [] := by
      refine eq_nil_of_length_eq_zero ?_
      rw [hp.1, hzero]
      rfl
    rw [WirePacket.bytes, hnil, append_nil]
  · rw [← hp.1, take_length, dispatchWrite_of_completes hpayload]
    rfl

/-- Packets whose calls complete are written one behind the other. -/
theorem writePackets_eq {tls : Bool} {calls : List WriteCall}
    (hframed : ∀ c ∈ calls, c.packet.Framed)
    (hcompletes : ∀ c ∈ calls,
      Completes tls c.packet.msg.bytes c.header ∧ Completes tls c.packet.payload c.payload) :
    writePackets tls calls = (wireBytes (calls.map WriteCall.packet), some true) := by
  induction calls with
  | nil => rfl
  | cons c calls ih =>
    obtain ⟨hheader, hpayload⟩ := hcompletes c mem_cons_self
    rw [writePackets, write_eq (hframed c mem_cons_self) hheader hpayload,
      ih (fun c hc => hframed c (mem_cons_of_mem _ hc))
        (fun c hc => hcompletes c (mem_cons_of_mem _ hc)),
      map_cons, wireBytes_cons]

/-! ### A packet is read back -/

variable {tls : Bool} {pieces : List Bytes} {later : Bytes}

/-- However the stream is cut, with TLS or without. -/
theorem dispatchRead_flows (hflow : Flows pieces) (hpieces : pieces.flatten = data ++ later) :
    ∃ left, dispatchRead tls data.length pieces = some (data, left) ∧ left.flatten = later ∧
      Flows left := by
  have hlen : data.length ≤ pieces.flatten.length := by
    rw [hpieces, length_append]
    omega
  obtain ⟨left, hread, hleft, hflow'⟩ := readFdExactly_flows hflow hlen
  rw [hpieces, take_left] at hread
  rw [hpieces, drop_left] at hleft
  rw [dispatchRead]
  split_ifs with htls hzero
  · obtain rfl : data = [] := eq_nil_of_length_eq_zero hzero
    exact ⟨pieces, rfl, hpieces, hflow⟩
  · exact ⟨left, hread, hleft, hflow'⟩
  · exact ⟨left, hread, hleft, hflow'⟩

/-- A new payload takes in what is read. -/
theorem memcpy_resize {n : ℕ} (h : data.length = n) :
    ∃ fresh filled, Block.resize {} n = some fresh ∧ fresh.size = n ∧
      fresh.memcpy 0 data = some filled ∧ filled.data = data := by
  subst h
  have hsize : (Block.allocate data.length).size = data.length := length_replicate
  have hfits : 0 + data.length ≤ (Block.allocate data.length).capacity :=
    (Nat.zero_add _).trans_le length_replicate.ge
  obtain ⟨filled, hmemcpy, hsize', -, htake⟩ := Block.memcpy_of_le 0 data hfits
  refine ⟨_, filled, rfl, hsize, hmemcpy, ?_⟩
  rw [Nat.zero_add, take_zero, nil_append] at htake
  rw [Block.data, hsize', hsize, htake]

/-- **A packet is read back, and what comes behind it is left.** -/
theorem read_eq (hflow : Flows pieces) (hp : p.Framed)
    (hpieces : pieces.flatten = p.bytes ++ later) :
    ∃ payload left, read tls {} pieces = some ⟨true, some p.msg, payload, left⟩ ∧
      payload.data = p.payload ∧ left.flatten = later ∧ Flows left := by
  rw [WirePacket.bytes, append_assoc] at hpieces
  obtain ⟨left, hheader, hleft, hflow'⟩ := dispatchRead_flows hflow hpieces
  obtain ⟨left', hpayload, hleft', hflow''⟩ := dispatchRead_flows hflow' hleft
  obtain ⟨fresh, filled, hresize, hsize, hmemcpy, hdata⟩ := memcpy_resize hp.1
  rw [p.msg.length_bytes] at hheader
  rw [hp.1] at hpayload
  refine ⟨filled, left', ?_, hdata, hleft', hflow''⟩
  rw [read, hheader]
  simp only
  rw [amessageOfBytes_bytes, if_neg (not_lt.mpr hp.2), hresize, Option.bind_some, hsize, hpayload]
  simp only
  rw [hmemcpy, Option.map_some]

/-- **A header that announces too much is refused.** The payload is as it was. -/
theorem read_of_overflow (hflow : Flows pieces) {msg : Amessage} (payload : Block)
    (hlength : maxPayload < msg.dataLength.toNat) (hpieces : pieces.flatten = msg.bytes ++ later) :
    ∃ left, read tls payload pieces = some ⟨false, some msg, payload, left⟩ ∧
      left.flatten = later := by
  obtain ⟨left, hheader, hleft, -⟩ := dispatchRead_flows hflow hpieces
  rw [msg.length_bytes] at hheader
  refine ⟨left, ?_, hleft⟩
  rw [read, hheader]
  simp only
  rw [amessageOfBytes_bytes, if_pos hlength]

/-- They are read back, however the stream is cut up, and nothing behind them is touched. -/
theorem readPackets_eq {ps : List WirePacket} (hps : ∀ p ∈ ps, p.Framed) (hflow : Flows pieces)
    (hpieces : pieces.flatten = wireBytes ps ++ later) :
    ∃ left, readPackets tls ps.length pieces = some (ps, left) ∧ left.flatten = later := by
  induction ps generalizing pieces with
  | nil => exact ⟨pieces, rfl, hpieces⟩
  | cons p ps ih =>
    rw [wireBytes_cons, append_assoc] at hpieces
    obtain ⟨payload, left, hread, hpayload, hleft, hflow'⟩ :=
      read_eq hflow (hps p mem_cons_self) hpieces
    obtain ⟨left', hreads, hleft'⟩ := ih (fun p hp => hps p (mem_cons_of_mem _ hp)) hflow' hleft
    refine ⟨left', ?_, hleft'⟩
    rw [length_cons, readPackets, hread]
    simp only
    rw [hreads, hpayload, Option.map_some]

/-! ### The round trip -/

/-- **What is written is read back, packet by packet, and exactly the bytes written are consumed**,
however the writes and the reads are cut; and a packet with too long a payload is refused. -/
theorem read_write (tls : Bool) (calls : List WriteCall) (hframed : ∀ c ∈ calls, c.packet.Framed)
    (hcompletes : ∀ c ∈ calls,
      Completes tls c.packet.msg.bytes c.header ∧ Completes tls c.packet.payload c.payload) :
    (∃ sent, writePackets tls calls = (sent, some true) ∧
      ∀ pieces later, Flows pieces → pieces.flatten = sent ++ later →
        ∃ left, readPackets tls calls.length pieces = some (calls.map WriteCall.packet, left) ∧
          left.flatten = later) ∧
      ∀ (msg : Amessage) payload pieces later, maxPayload < msg.dataLength.toNat → Flows pieces →
        pieces.flatten = msg.bytes ++ later →
          ∃ left, read tls payload pieces = some ⟨false, some msg, payload, left⟩ := by
  refine ⟨⟨_, writePackets_eq hframed hcompletes, fun pieces later hflow hpieces => ?_⟩, ?_⟩
  · have hps : ∀ p ∈ calls.map WriteCall.packet, p.Framed := by
      intro p hp
      obtain ⟨c, hc, rfl⟩ := mem_map.mp hp
      exact hframed c hc
    obtain ⟨left, hread, hleft⟩ := readPackets_eq hps hflow hpieces
    rw [length_map] at hread
    exact ⟨left, hread, hleft⟩
  · intro msg payload pieces later hlength hflow hpieces
    obtain ⟨left, hread, -⟩ := read_of_overflow hflow payload hlength hpieces
    exact ⟨left, hread⟩

/-- Two packets: one with its payload in two writes, and one without. -/
def twoCalls : List WriteCall :=
  [⟨⟨⟨1, 2, 3, 2, 5, 6⟩, [7, 8]⟩, [.wrote 10, .again, .wrote 14], [.wrote 1, .wrote 1]⟩,
    ⟨⟨⟨1, 2, 3, 0, 5, 6⟩, []⟩, [.wrote 24], []⟩]

theorem read_write_twoCalls :
    ∃ sent, writePackets false twoCalls = (sent, some true) ∧
      ∃ left, readPackets false 2 [sent.take 5, sent.drop 5] =
        some (twoCalls.map WriteCall.packet, left) ∧ left.flatten = [] := by
  obtain ⟨⟨sent, hsent, hread⟩, -⟩ := read_write false twoCalls (by decide) (by decide)
  obtain rfl : sent = (writePackets false twoCalls).1 := by rw [hsent]
  refine ⟨_, hsent, hread _ [] ?_ ?_⟩
  · intro piece hpiece
    revert piece
    decide
  · decide

end AdbBridge.FdConnection
