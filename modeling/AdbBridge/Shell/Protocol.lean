import AdbBridge.Lib.Slices
import AdbBridge.Transport.Exactly

/-!
# The shell protocol

A packet of the shell protocol is an id, a length of four bytes and the data. `ShellProtocol` has
one buffer, for the header and for the data, and the two ends of a stream may have buffers of
different sizes: a packet that does not fit is handed out in pieces, one for each `Read`, and the
object remembers how much of the packet is still in the stream.

What the writer puts into the stream is taken out again packet by packet
(`AdbBridge.ShellProtocol.reads_writes`): the data of each packet in consecutive pieces, as large as
the buffer allows, and a `Read` fails only where the stream ends. The object is described by the
packet it is in the middle of, `AdbBridge.ShellProtocol.Midway`, and a `Read` takes one such
description to the next.
-/

namespace AdbBridge

open List Option

/-- The size of the header: the id and a `length_t`. -/
def kHeaderSize : ℕ := 5

/-- The size of `buffer_`. -/
def kShellBufferSize : ℕ := maxPayload

/-- A `ShellProtocol`. -/
structure ShellProtocol where
  /-- `buffer_`: the header, and the data behind it. -/
  buffer : Bytes
  /-- Where `buffer_end_` is in the buffer. -/
  bufferEnd : ℕ
  dataLength : ℕ := 0
  bytesLeft : ℕ := 0
  deriving DecidableEq, Repr

/-- A packet of the shell protocol. -/
structure ShellPacket where
  id : UInt8
  data : Bytes
  deriving DecidableEq, Repr

/-- The header of a packet: `length_t` has 32 bits. -/
def shellHeader (id : UInt8) (length : ℕ) : Bytes := id :: leBytes 4 length

/-- A packet in the stream. -/
def ShellPacket.bytes (p : ShellPacket) : Bytes := shellHeader p.id p.data.length ++ p.data

/-- Packets in the stream, one behind the other. -/
def shellBytes (ps : List ShellPacket) : Bytes := ps.flatMap ShellPacket.bytes

namespace ShellProtocol

/-- The constructor, over whatever was in memory: `buffer_` is not cleared. -/
def make (memory : Bytes) (bufferEnd : ℕ) : ShellProtocol :=
  { buffer := overwrite memory 0 [255], bufferEnd }

/-- The buffer has its size, and `buffer_end_` is in it, behind the header. -/
structure Sound (p : ShellProtocol) : Prop where
  size : p.buffer.length = kShellBufferSize
  lower : kHeaderSize ≤ p.bufferEnd
  upper : p.bufferEnd ≤ kShellBufferSize

/-- `data()`, up to the end of the buffer. -/
def data (p : ShellProtocol) : Bytes := p.buffer.drop kHeaderSize

/-- `data_capacity()`. -/
def dataCapacity (p : ShellProtocol) : ℕ := p.bufferEnd - kHeaderSize

/-- A `char` as an `int`. -/
def intOfChar (c : UInt8) : ℤ := if c < 128 then c.toNat else c.toNat - 256

/-- `id()`: the first `char` of the buffer. -/
def id (p : ShellProtocol) : ℤ := intOfChar (p.buffer.headD 0)

/-- The first half of `Read`: a new header, if the last packet is finished. -/
def readHeader (p : ShellProtocol) (pieces : List Bytes) : Option (ShellProtocol × List Bytes) :=
  if p.bytesLeft = 0 then
    (readFdExactly kHeaderSize pieces).map fun (header, pieces) =>
      let buffer := overwrite p.buffer 0 header
      ({ p with buffer, bytesLeft := leNat (sliceOf buffer 1 4), dataLength := 0 }, pieces)
  else some (p, pieces)

/-- The second half of `Read`: as much of the packet as fits. -/
def readData (p : ShellProtocol) (pieces : List Bytes) : Option (ShellProtocol × List Bytes) :=
  let readLength := min p.bytesLeft p.dataCapacity
  if readLength = 0 then some ({ p with dataLength := 0 }, pieces)
  else
    (readFdExactly readLength pieces).map fun (data, pieces) =>
      ({ p with
          buffer := overwrite p.buffer kHeaderSize data
          bytesLeft := p.bytesLeft - readLength
          dataLength := readLength }, pieces)

/-- `ShellProtocol::Read` from a stream that comes in pieces, with `none` for `false`. -/
def read (p : ShellProtocol) (pieces : List Bytes) : Option (ShellProtocol × List Bytes) :=
  (p.readHeader pieces).bind fun (p, pieces) => p.readData pieces

/-- The caller puts the data of a packet where `data()` points to. -/
def fill (p : ShellProtocol) (data : Bytes) : ShellProtocol :=
  { p with buffer := overwrite p.buffer kHeaderSize data }

/-- `ShellProtocol::Write`, with what each `adb_write` comes to. -/
def write (p : ShellProtocol) (id : UInt8) (length : ℕ) (outcomes : List WriteOutcome) :
    ShellProtocol × Bytes × Option Bool :=
  let p := { p with buffer := overwrite p.buffer 0 (shellHeader id length) }
  (p, writeFdExactly (p.buffer.take (kHeaderSize + length)) outcomes)

/-- A packet to be written, with what the writes come to. -/
structure WriteCall where
  packet : ShellPacket
  outcomes : List WriteOutcome

/-- Packets are written one after the other, as long as all goes well. -/
def writes (p : ShellProtocol) : List WriteCall → Bytes × Option Bool
  | [] => ([], some true)
  | c :: calls =>
    match (p.fill c.packet.data).write c.packet.id c.packet.data.length c.outcomes with
    | (p, sent, some true) =>
      let (sent', result) := p.writes calls
      (sent ++ sent', result)
    | (_, sent, result) => (sent, result)

/-- What a `Read` has returned. -/
structure Piece where
  id : ℤ
  data : Bytes
  /-- What is left of the stream. -/
  left : Bytes
  deriving DecidableEq, Repr

/-- What `n` calls of `Read` return; there is nothing more after a `false`. -/
def reads : ℕ → ShellProtocol → List Bytes → List Piece
  | 0, _, _ => []
  | n + 1, p, pieces =>
    match p.read pieces with
    | none => []
    | some (p, pieces) =>
      ⟨p.id, p.data.take p.dataLength, pieces.flatten⟩ :: reads n p pieces

/-! ### What is expected -/

section Pieces

variable (capacity : ℕ)

/-- **The pieces of a packet**: as many bytes as fit, then what is left; an empty packet is one
empty piece. -/
def packetPieces (id : ℤ) (later data : Bytes) : List Piece :=
  if _h : 0 < capacity ∧ capacity < data.length then
    ⟨id, data.take capacity, data.drop capacity ++ later⟩ ::
      packetPieces id later (data.drop capacity)
  else [⟨id, data, later⟩]
termination_by data.length
decreasing_by
  rw [length_drop]
  omega

/-- The pieces of a stream of packets, given what their ids are to be. -/
def streamPieces (name : UInt8 → ℤ) : List ShellPacket → List Piece
  | [] => []
  | p :: ps =>
    packetPieces capacity (name p.id) (shellBytes ps) p.data ++ streamPieces name ps

/-- What is expected after the first piece of a packet, or of what is left of one. -/
def furtherPieces (id : ℤ) (later rest : Bytes) : List Piece :=
  if rest = [] then [] else packetPieces capacity id later rest

end Pieces

variable {capacity : ℕ} {id : ℤ} {rest later : Bytes} {p : ShellProtocol} {pieces : List Bytes}
  {packet : ShellPacket} {packets : List ShellPacket}

theorem packetPieces_eq (hcapacity : 0 < capacity) :
    packetPieces capacity id later rest =
      ⟨id, rest.take capacity, rest.drop capacity ++ later⟩ ::
        furtherPieces capacity id later (rest.drop capacity) := by
  rw [packetPieces, furtherPieces]
  by_cases hlong : capacity < rest.length
  · have hmore : rest.drop capacity ≠ [] := fun h => absurd (drop_eq_nil_iff.mp h) (by omega)
    rw [dif_pos ⟨hcapacity, hlong⟩, if_neg hmore]
  · have hshort := not_lt.mp hlong
    rw [dif_neg (fun h => hlong h.2), drop_eq_nil_of_le hshort, if_pos rfl,
      take_of_length_le hshort, nil_append]

/-! ### Reading -/

/-- **The object is in the middle of a packet**, of which `rest` is still in the stream; `later`
is what comes behind the packet. -/
structure Midway (capacity : ℕ) (id : ℤ) (rest later : Bytes) (p : ShellProtocol)
    (pieces : List Bytes) : Prop where
  size : p.buffer.length = kShellBufferSize
  capacity_eq : p.dataCapacity = capacity
  capacity_pos : 0 < capacity
  inside : kHeaderSize + capacity ≤ kShellBufferSize
  id_eq : p.id = id
  bytesLeft_eq : p.bytesLeft = rest.length
  flows : Flows pieces
  stream : pieces.flatten = rest ++ later

theorem Midway.finished (h : Midway capacity id [] later p pieces) : p.bytesLeft = 0 :=
  h.bytesLeft_eq

/-- What a `Read` has put into the object: a piece, over what was there before. -/
structure Handed (piece before : Bytes) (p : ShellProtocol) : Prop where
  length_eq : p.dataLength = piece.length
  data_eq : p.data = piece ++ before.drop piece.length

theorem Handed.take_data {piece before : Bytes} (h : Handed piece before p) :
    p.data.take p.dataLength = piece := by
  rw [h.data_eq, h.length_eq, take_left]

theorem id_overwrite_data (h : p.buffer.length = kShellBufferSize) (data : Bytes) :
    (overwrite p.buffer kHeaderSize data).headD 0 = p.buffer.headD 0 := by
  have hhead : ∀ l : Bytes, l.headD 0 = (l.take kHeaderSize).headD 0 := by
    intro l
    cases l <;> rfl
  have hle : kHeaderSize ≤ p.buffer.length := by
    rw [h]
    decide
  rw [hhead, take_overwrite hle, ← hhead]

/-- **A header is read.** What is behind it in the buffer is left alone. -/
theorem readHeader_eq (h : Midway capacity id [] later p pieces)
    (hlength : packet.data.length < 2 ^ 32) (hlater : later = packet.bytes ++ rest) :
    ∃ p' left, p.readHeader pieces = some (p', left) ∧
      Midway capacity (intOfChar packet.id) packet.data rest p' left ∧ p'.data = p.data := by
  have hstream := h.stream
  rw [nil_append, hlater, ShellPacket.bytes, append_assoc] at hstream
  obtain ⟨left, hread, hleft, hflow⟩ := readFdExactly_append h.flows hstream
  have hheader : (shellHeader packet.id packet.data.length).length = kHeaderSize := rfl
  have hfits : 0 + kHeaderSize ≤ p.buffer.length := by
    rw [h.size]
    decide
  have hbuffer : overwrite p.buffer 0 (shellHeader packet.id packet.data.length) =
      shellHeader packet.id packet.data.length ++ p.data := by
    rw [overwrite, take_zero, nil_append, hheader, Nat.zero_add, data]
  rw [readHeader, if_pos h.finished, ← hheader, hread, map_some]
  refine ⟨_, left, rfl, ⟨?_, h.capacity_eq, h.capacity_pos, h.inside, ?_, ?_, hflow, hleft⟩, ?_⟩
  · rw [← h.size]
    exact length_overwrite hfits
  · show intOfChar ((overwrite p.buffer 0 _).headD 0) = intOfChar packet.id
    rw [hbuffer, shellHeader, cons_append, headD_cons]
  · show leNat (sliceOf (overwrite p.buffer 0 _) 1 4) = packet.data.length
    rw [hbuffer, shellHeader, cons_append, sliceOf, drop_succ_cons, drop_zero,
      take_left' (length_leBytes 4 _), leNat_leBytes]
    exact Nat.mod_eq_of_lt hlength
  · show (overwrite p.buffer 0 _).drop kHeaderSize = p.data
    rw [hbuffer]
    exact drop_left' hheader

/-- **As much of the packet as fits is read.** -/
theorem readData_eq (h : Midway capacity id rest later p pieces) :
    ∃ p' left, p.readData pieces = some (p', left) ∧
      Midway capacity id (rest.drop capacity) later p' left ∧
        Handed (rest.take capacity) p.data p' := by
  have hlength : min p.bytesLeft p.dataCapacity = (rest.take capacity).length := by
    rw [h.bytesLeft_eq, h.capacity_eq, length_take, min_comm]
  rw [readData]
  simp only [hlength]
  split_ifs with hzero
  · -- there is nothing left of the packet
    have hnil : rest = [] := by
      have htake := eq_nil_of_length_eq_zero hzero
      rcases take_eq_nil_iff.mp htake with hcapacity | hnil
      · exact absurd hcapacity h.capacity_pos.ne'
      · exact hnil
    subst hnil
    refine ⟨_, pieces, rfl, ⟨h.size, h.capacity_eq, h.capacity_pos, h.inside, h.id_eq, ?_, h.flows,
      ?_⟩, ⟨?_, ?_⟩⟩
    · rw [drop_nil]
      exact h.bytesLeft_eq
    · rw [drop_nil]
      exact h.stream
    · rw [take_nil]
      rfl
    · rw [take_nil, nil_append, length_nil, drop_zero]
      rfl
  · have hstream : pieces.flatten = rest.take capacity ++ (rest.drop capacity ++ later) := by
      rw [h.stream, ← append_assoc, take_append_drop]
    obtain ⟨left, hread, hleft, hflow⟩ := readFdExactly_append h.flows hstream
    have hsize := h.size
    have hinside := h.inside
    have htake : (rest.take capacity).length ≤ capacity := length_take_le _ _
    have hfits : kHeaderSize + (rest.take capacity).length ≤ p.buffer.length := by omega
    rw [hread, map_some]
    refine ⟨_, left, rfl, ⟨?_, h.capacity_eq, h.capacity_pos, h.inside, ?_, ?_, hflow, hleft⟩,
      ⟨rfl, ?_⟩⟩
    · rw [← h.size]
      exact length_overwrite hfits
    · rw [← h.id_eq]
      exact congrArg intOfChar (id_overwrite_data h.size _)
    · show p.bytesLeft - _ = (rest.drop capacity).length
      rw [h.bytesLeft_eq, length_take, length_drop]
      omega
    · show (overwrite p.buffer kHeaderSize _).drop kHeaderSize = _
      rw [drop_overwrite (by omega), data, drop_drop]

/-- **A packet that has been begun is continued.** -/
theorem read_further (h : Midway capacity id rest later p pieces) (hrest : rest ≠ []) :
    ∃ p' left, p.read pieces = some (p', left) ∧
      Midway capacity id (rest.drop capacity) later p' left ∧
        Handed (rest.take capacity) p.data p' := by
  have hleft : p.bytesLeft ≠ 0 := by
    rw [h.bytesLeft_eq]
    exact fun hzero => hrest (eq_nil_of_length_eq_zero hzero)
  rw [read, readHeader, if_neg hleft, bind_some]
  exact readData_eq h

/-- **The first piece of a packet is read.** -/
theorem read_packet (h : Midway capacity id [] (packet.bytes ++ later) p pieces)
    (hlength : packet.data.length < 2 ^ 32) :
    ∃ p' left, p.read pieces = some (p', left) ∧
      Midway capacity (intOfChar packet.id) (packet.data.drop capacity) later p' left ∧
        Handed (packet.data.take capacity) p.data p' := by
  obtain ⟨p', left, hheader, hmidway, hdata⟩ := readHeader_eq h hlength rfl
  rw [read, hheader, bind_some, ← hdata]
  exact readData_eq hmidway

/-- **`Read` fails at the end of the stream.** -/
theorem read_end (h : Midway capacity id [] [] p pieces) : p.read pieces = none := by
  rw [read, readHeader, if_pos h.finished,
    readFdExactly_nil (by decide) h.flows h.stream, map_none, bind_none]

/-- **The calls of `Read` hand out the pieces of the packets**, and then there is nothing more. -/
theorem reads_eq (hlength : ∀ q ∈ packets, q.data.length < 2 ^ 32)
    (n : ℕ) (h : Midway capacity id rest (shellBytes packets) p pieces) :
    reads n p pieces = (furtherPieces capacity id (shellBytes packets) rest ++
      streamPieces capacity intOfChar packets).take n := by
  induction n generalizing packets id rest p pieces with
  | zero => rw [reads, take_zero]
  | succ n ih =>
    rw [reads]
    by_cases hrest : rest = []
    · subst hrest
      rw [furtherPieces, if_pos rfl, nil_append]
      cases packets with
      | nil =>
        rw [read_end h]
        rfl
      | cons q packets =>
        rw [shellBytes, flatMap_cons] at h
        obtain ⟨p', left, hread, hmidway, hhanded⟩ := read_packet h (hlength q mem_cons_self)
        have hrec := ih (fun q hq => hlength q (mem_cons_of_mem _ hq)) hmidway
        rw [hread, streamPieces, packetPieces_eq h.capacity_pos]
        simp only
        rw [hrec, hhanded.take_data, hmidway.id_eq, hmidway.stream]
        rfl
    · obtain ⟨p', left, hread, hmidway, hhanded⟩ := read_further h hrest
      rw [hread, furtherPieces, if_neg hrest, packetPieces_eq h.capacity_pos]
      simp only
      rw [ih hlength hmidway, hhanded.take_data, hmidway.id_eq, hmidway.stream]
      rfl

/-! ### Writing -/

/-- **A packet is written as its bytes.** -/
theorem write_fill {outcomes : List WriteOutcome} (hsize : p.buffer.length = kShellBufferSize)
    (hfits : kHeaderSize + packet.data.length ≤ kShellBufferSize)
    (hcompletes : FdConnection.Completes false packet.bytes outcomes) :
    ∃ p', (p.fill packet.data).write packet.id packet.data.length outcomes =
        (p', packet.bytes, some true) ∧
      p'.buffer.length = kShellBufferSize ∧ p'.bufferEnd = p.bufferEnd := by
  have hheader : (shellHeader packet.id packet.data.length).length = kHeaderSize := rfl
  have hle : kHeaderSize ≤ p.buffer.length := by omega
  have hbuffer : overwrite (overwrite p.buffer kHeaderSize packet.data) 0
      (shellHeader packet.id packet.data.length) =
        packet.bytes ++ p.buffer.drop (kHeaderSize + packet.data.length) := by
    rw [overwrite, take_zero, nil_append, hheader, Nat.zero_add, drop_overwrite hle,
      ShellPacket.bytes, append_assoc]
  have hlength : packet.bytes.length = kHeaderSize + packet.data.length := by
    rw [ShellPacket.bytes, length_append, hheader]
  refine ⟨{ p with buffer := packet.bytes ++ p.buffer.drop (kHeaderSize + packet.data.length) },
    ?_, ?_, rfl⟩
  · rw [write, fill]
    simp only
    rw [hbuffer, take_left' hlength, FdConnection.writeFdExactly_of_completes hcompletes]
  · rw [length_append, hlength, length_drop]
    omega

/-- Calls that all complete write their packets, one behind the other. -/
theorem writes_eq {calls : List WriteCall} (hsize : p.buffer.length = kShellBufferSize)
    (hfits : ∀ c ∈ calls, kHeaderSize + c.packet.data.length ≤ kShellBufferSize)
    (hcompletes : ∀ c ∈ calls, FdConnection.Completes false c.packet.bytes c.outcomes) :
    p.writes calls = (shellBytes (calls.map WriteCall.packet), some true) := by
  induction calls generalizing p with
  | nil => rfl
  | cons c calls ih =>
    obtain ⟨p', hwrite, hsize', -⟩ := write_fill hsize (hfits c mem_cons_self)
      (hcompletes c mem_cons_self)
    rw [writes, hwrite]
    simp only
    rw [ih hsize' (fun c hc => hfits c (mem_cons_of_mem _ hc))
      (fun c hc => hcompletes c (mem_cons_of_mem _ hc))]
    rfl

/-! ### The stream -/

/-- A new object is between two packets. -/
theorem midway_make {memory : Bytes} {bufferEnd : ℕ} (hmemory : memory.length = kShellBufferSize)
    (hend : bufferEnd ≤ kShellBufferSize) (hcapacity : 1 ≤ (make memory bufferEnd).dataCapacity)
    (hflow : Flows pieces) :
    Midway (make memory bufferEnd).dataCapacity (make memory bufferEnd).id [] pieces.flatten
      (make memory bufferEnd) pieces where
  size := by
    refine (length_overwrite ?_).trans hmemory
    rw [hmemory]
    decide
  capacity_eq := rfl
  capacity_pos := hcapacity
  inside := by
    have hdef : (make memory bufferEnd).dataCapacity = bufferEnd - kHeaderSize := rfl
    omega
  id_eq := rfl
  bytesLeft_eq := rfl
  flows := hflow
  stream := rfl

/-- An id below 128 is not changed by the sign of a `char`. -/
theorem intOfChar_of_lt {c : UInt8} (h : c < 128) : intOfChar c = c.toNat := if_pos h

theorem streamPieces_congr (name name' : UInt8 → ℤ) (h : ∀ q ∈ packets, name q.id = name' q.id) :
    streamPieces capacity name packets = streamPieces capacity name' packets := by
  induction packets with
  | nil => rfl
  | cons q packets ih =>
    rw [streamPieces, streamPieces, h q mem_cons_self,
      ih fun q hq => h q (mem_cons_of_mem _ hq)]

/-- **What is written is read back, packet by packet**, whatever the sizes of the two buffers and
however the stream is cut: the `n`-th `Read` returns the `n`-th piece with its packet's id and
leaves in the stream exactly what comes behind the piece, and there is no `false` before the end. -/
theorem reads_writes (writer : ShellProtocol) (memory : Bytes) (bufferEnd : ℕ)
    (calls : List WriteCall) (hwriter : writer.Sound) (hmemory : memory.length = kShellBufferSize)
    (hend : bufferEnd ≤ kShellBufferSize) (hcapacity : 1 ≤ (make memory bufferEnd).dataCapacity)
    (hid : ∀ c ∈ calls, c.packet.id < 128)
    (hfits : ∀ c ∈ calls, c.packet.data.length ≤ writer.dataCapacity)
    (hcompletes : ∀ c ∈ calls, FdConnection.Completes false c.packet.bytes c.outcomes) :
    ∃ sent, writer.writes calls = (sent, some true) ∧
      ∀ pieces, Flows pieces → pieces.flatten = sent → ∀ n,
        reads n (make memory bufferEnd) pieces =
          (streamPieces (make memory bufferEnd).dataCapacity (fun id => id.toNat)
            (calls.map WriteCall.packet)).take n := by
  have hsizes : ∀ c ∈ calls, kHeaderSize + c.packet.data.length ≤ kShellBufferSize := by
    intro c hc
    have hdef : writer.dataCapacity = writer.bufferEnd - kHeaderSize := rfl
    have hlower := hwriter.lower
    have hupper := hwriter.upper
    have hlength := hfits c hc
    omega
  refine ⟨_, writes_eq hwriter.size hsizes hcompletes, fun pieces hflow hpieces n => ?_⟩
  have hmidway := midway_make hmemory hend hcapacity hflow
  have hlength : ∀ q ∈ calls.map WriteCall.packet, q.data.length < 2 ^ 32 := by
    intro q hq
    obtain ⟨c, hc, rfl⟩ := List.mem_map.mp hq
    have hsize : kShellBufferSize = 1048576 := rfl
    have hle := hsizes c hc
    omega
  have hnames : ∀ q ∈ calls.map WriteCall.packet, intOfChar q.id = q.id.toNat := by
    intro q hq
    obtain ⟨c, hc, rfl⟩ := List.mem_map.mp hq
    exact intOfChar_of_lt (hid c hc)
  rw [hpieces] at hmidway
  rw [reads_eq hlength n hmidway, furtherPieces, if_pos rfl, nil_append,
    streamPieces_congr _ (fun id => id.toNat) hnames]

/-- A writer and packets of three lengths, read with a buffer for two bytes. -/
def threeCalls : List WriteCall :=
  [⟨⟨1, ascii "hello"⟩, [.wrote 3, .again, .wrote 7]⟩, ⟨⟨4, []⟩, [.wrote 5]⟩,
    ⟨⟨3, [0]⟩, [.wrote 6]⟩]

/-- Three packets, read back in pieces of two bytes. -/
theorem reads_writes_threeCalls :
    ∃ sent, (make (List.replicate kShellBufferSize 0) kShellBufferSize).writes threeCalls =
        (sent, some true) ∧
      ∀ pieces, Flows pieces → pieces.flatten = sent → ∀ n,
        reads n (make (List.replicate kShellBufferSize 0) 7) pieces =
          (streamPieces 2 (fun id => id.toNat) (threeCalls.map WriteCall.packet)).take n := by
  have hlength : (List.replicate kShellBufferSize (0 : UInt8)).length = kShellBufferSize :=
    length_replicate
  refine reads_writes _ _ 7 threeCalls ⟨?_, ?_, le_rfl⟩ hlength ?_ ?_ ?_ ?_ ?_
  · refine (length_overwrite ?_).trans hlength
    rw [hlength]
    decide
  · show kHeaderSize ≤ kShellBufferSize
    decide
  · decide
  · show 1 ≤ 7 - kHeaderSize
    decide
  · decide
  · intro c hc
    have hlast : c.packet.data.length ≤ 5 := by
      revert c
      decide
    exact hlast.trans (show 5 ≤ kShellBufferSize - kHeaderSize by decide)
  · decide

end ShellProtocol

end AdbBridge
