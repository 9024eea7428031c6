import AdbBridge.Incremental.Sending
import AdbBridge.Lib.Slices

/-!
# The chunks on the wire

The incremental server collects what it sends in a buffer and writes it out in chunks, each behind
its length. Here the buffer is the array it is in the source, with room for the length in front and
a write position, and copying past its end is a failure. `AdbBridge.Incremental.ChunkBuffer.Holds`
connects it to the server, where the pending blocks are a list: the array is a view of that list
(`AdbBridge.Incremental.ChunkBuffer.holds_send`), and there is always room for one more block, since
the buffer is flushed as soon as it is fuller than `kChunkFlushSize` and no block is longer than
`kBlockSize` and its header.
-/

namespace AdbBridge.Incremental

open List

/-! ### Blocks as bytes -/

def BlockType.byte : BlockType → UInt8
  | .data => 0
  | .hash => 1

def CompressionType.byte : CompressionType → UInt8
  | .none => 0
  | .lz4 => 1

/-- `toBigEndian` of an integer with `n` bytes. -/
def toBigEndian (n : ℕ) (v : ℤ) : Bytes := beBytes n (v % 256 ^ n).toNat

@[simp]
theorem length_toBigEndian (n : ℕ) (v : ℤ) : (toBigEndian n v).length = n := length_beBytes n _

/-- A `ResponseHeader` and what comes behind it. -/
def Response.bytes (r : Response) : Bytes :=
  toBigEndian 2 r.fileId ++ ([r.blockType.byte, r.compressionType.byte] ++
    (toBigEndian 4 r.blockIdx ++ (toBigEndian 2 r.data.length ++ r.data)))

theorem Response.length_bytes (r : Response) : r.bytes.length = r.size := by
  simp only [bytes, size, length_append, length_toBigEndian, length_cons,
    length_nil]
  omega

/-- What can be read of a block. -/
def BlockBytes : Type := { bytes : Bytes // bytes.length ≤ kBlockSize }

/-- What is passed to `Send`: a data block, a block of a tree, or the header that ends it all. -/
inductive Item
  | data (fileId blockIdx : ℤ) (raw : BlockBytes)
  | tree (fileId blockIdx : ℤ) (bytes : BlockBytes)
  | done

/-- The header and the bytes that `SendDataBlock`, `SendTreeBlock` and `SendDone` send. -/
def Item.response (host : Host) : Item → Response
  | .data fileId blockIdx raw => IncrementalServer.dataResponse host fileId blockIdx raw.1
  | .tree fileId blockIdx bytes => ⟨fileId, .hash, .none, blockIdx, bytes.1⟩
  | .done => .done

/-- **No block is longer than `kBlockSize` and its header**, compressed or not. -/
theorem Item.size_response_le (host : Host) (item : Item) :
    (item.response host).size ≤ kBlockSize + 10 := by
  cases item with
  | data fileId blockIdx raw =>
    rw [response, IncrementalServer.dataResponse]
    have hraw := raw.2
    have hmax : kCompressedSizeMax ≤ kBlockSize := by decide
    split_ifs with hsmall
    · exact Nat.add_le_add_right (hsmall.2.le.trans hmax) 10
    · exact Nat.add_le_add_right hraw 10
  | tree fileId blockIdx bytes => exact Nat.add_le_add_right bytes.2 10
  | done => exact Nat.le_add_left 10 kBlockSize

/-! ### The buffer -/

/-- The size of a `ChunkHeader`. -/
def sizeofChunkHeader : ℕ := 4

/-- The size of `pendingBlocksBuffer_`. -/
def pendingBlocksBufferSize : ℕ := kChunkFlushSize + 2 * kBlockSize

/-- `pendingBlocksBuffer_`, where `pendingBlocks_` is in it, and what has been written to the
device. -/
structure ChunkBuffer where
  pendingBlocksBuffer : Bytes := List.replicate pendingBlocksBufferSize 0
  pendingBlocks : ℕ := sizeofChunkHeader
  written : Bytes := []
  deriving DecidableEq, Repr

/-- A chunk: its length, and its bytes. -/
def chunkBytes (body : Bytes) : Bytes := toBigEndian 4 body.length ++ body

namespace ChunkBuffer

/-- `IncrementalServer::Flush`, with a write that succeeds. -/
def flush (b : ChunkBuffer) : ChunkBuffer :=
  let dataBytes := b.pendingBlocks - sizeofChunkHeader
  if dataBytes = 0 then b
  else
    let buffer := overwrite b.pendingBlocksBuffer 0 (toBigEndian 4 dataBytes)
    { pendingBlocksBuffer := buffer
      pendingBlocks := sizeofChunkHeader
      written := b.written ++ buffer.take (sizeofChunkHeader + dataBytes) }

/-- `IncrementalServer::Send`. It fails if it would write over the end of the buffer. -/
def send (b : ChunkBuffer) (data : Bytes) (flushNow : Bool) : Option ChunkBuffer :=
  if b.pendingBlocks + data.length ≤ b.pendingBlocksBuffer.length then
    let b := { b with
      pendingBlocksBuffer := overwrite b.pendingBlocksBuffer b.pendingBlocks data
      pendingBlocks := b.pendingBlocks + data.length }
    some (if flushNow || kChunkFlushSize < b.pendingBlocks then b.flush else b)
  else none

/-- Items are sent one after the other, each with its flush flag. -/
def sends (host : Host) (b : ChunkBuffer) : List (Item × Bool) → Option ChunkBuffer
  | [] => some b
  | (item, flushNow) :: items =>
    (b.send (item.response host).bytes flushNow).bind fun b => b.sends host items

/-- The pending bytes. -/
def pending (b : ChunkBuffer) : Bytes :=
  sliceOf b.pendingBlocksBuffer sizeofChunkHeader (b.pendingBlocks - sizeofChunkHeader)

/-! ### The buffer and the server -/

variable {bound : ℕ} {s : IncrementalServer} {b : ChunkBuffer} {r : Response}

/-- **The buffer holds what is pending in the server**, and does not reach beyond `bound`; what has
been written is the server's chunks, none of them empty or longer than the buffer. -/
structure Holds (bound : ℕ) (s : IncrementalServer) (b : ChunkBuffer) : Prop where
  size : b.pendingBlocksBuffer.length = pendingBlocksBufferSize
  position : b.pendingBlocks = sizeofChunkHeader + (s.pending.map Response.size).sum
  below : b.pendingBlocks ≤ bound
  pending_eq : b.pending = s.pending.flatMap Response.bytes
  written_eq : b.written = s.written.flatMap fun rs => chunkBytes (rs.flatMap Response.bytes)
  chunks : ∀ rs ∈ s.written, rs ≠ [] ∧ (rs.map Response.size).sum ≤ pendingBlocksBufferSize

theorem holds_empty (files : List File) : Holds kChunkFlushSize { files } {} where
  size := length_replicate
  position := rfl
  below := by decide
  pending_eq := sliceOf_zero
  written_eq := rfl
  chunks := fun rs hrs => absurd hrs not_mem_nil

theorem length_flatMap_bytes (rs : List Response) :
    (rs.flatMap Response.bytes).length = (rs.map Response.size).sum := by
  rw [length_flatMap]
  exact congrArg List.sum (map_congr_left fun r _ => r.length_bytes)

/-- Blocks have headers, so there are some exactly if there are bytes. -/
theorem sum_size_eq_zero {rs : List Response} : (rs.map Response.size).sum = 0 ↔ rs = [] := by
  cases rs with
  | nil => simp
  | cons r rs =>
    have hpos : 10 ≤ r.size := Nat.le_add_left 10 _
    rw [map_cons, sum_cons]
    simp only [reduceCtorEq, iff_false]
    omega

theorem take_flush (b : ChunkBuffer) (n : ℕ) :
    (overwrite b.pendingBlocksBuffer 0 (toBigEndian 4 n)).take
      (sizeofChunkHeader + (b.pendingBlocks - sizeofChunkHeader)) =
        toBigEndian 4 n ++ b.pending := by
  have hlength : (toBigEndian 4 n).length = sizeofChunkHeader := length_toBigEndian 4 n
  rw [overwrite, take_zero, nil_append, hlength, take_add, take_left' hlength,
    drop_left' hlength, Nat.zero_add]
  rfl

/-- **A flush writes one chunk**, or nothing if nothing is pending. -/
theorem holds_flush (h : Holds pendingBlocksBufferSize s b) (hbound : sizeofChunkHeader ≤ bound) :
    Holds bound s.flush b.flush := by
  have hcount : b.pendingBlocks - sizeofChunkHeader = (s.pending.map Response.size).sum := by
    rw [h.position, Nat.add_sub_cancel_left]
  rw [flush, IncrementalServer.flush]
  simp only [List.isEmpty_iff]
  by_cases hnil : s.pending = []
  · have hzero : b.pendingBlocks - sizeofChunkHeader = 0 := by
      rw [hcount, sum_size_eq_zero.mpr hnil]
    have hstart : b.pendingBlocks ≤ bound := by omega
    simp only [hzero, if_true, if_pos hnil]
    exact ⟨h.size, h.position, hstart, h.pending_eq, h.written_eq, h.chunks⟩
  · have hsome : b.pendingBlocks - sizeofChunkHeader ≠ 0 := by
      rw [hcount]
      exact fun hzero => hnil (sum_size_eq_zero.mp hzero)
    simp only [if_neg hsome, if_neg hnil]
    refine ⟨?_, rfl, hbound, sliceOf_zero, ?_, fun rs hrs => ?_⟩
    · refine (length_overwrite ?_).trans h.size
      rw [h.size, length_toBigEndian]
      decide
    · rw [take_flush b, h.written_eq, h.pending_eq, flatMap_append, flatMap_singleton,
        chunkBytes, hcount, length_flatMap_bytes]
    · rcases mem_append.mp hrs with hrs | hrs
      · exact h.chunks rs hrs
      · obtain rfl := mem_singleton.mp hrs
        have hbelow := h.below
        exact ⟨hnil, by omega⟩

/-- **There is room for a block, and the buffer holds it with the others.** -/
theorem holds_send (h : Holds kChunkFlushSize s b) (hsize : r.size ≤ kBlockSize + 10)
    (flushNow : Bool) :
    ∃ b', b.send r.bytes flushNow = some b' ∧ Holds kChunkFlushSize (s.send r flushNow) b' := by
  have hlength := r.length_bytes
  have hdef : pendingBlocksBufferSize = kChunkFlushSize + 2 * kBlockSize := rfl
  have hblock : kBlockSize = 4096 := rfl
  have hpos := h.position
  have hbelow := h.below
  have hroom : b.pendingBlocks + r.bytes.length ≤ b.pendingBlocksBuffer.length := by
    rw [h.size]
    omega
  have hsum : ((s.pending ++ [r]).map Response.size).sum =
      (s.pending.map Response.size).sum + r.size := by simp
  -- before a flush, the buffer may be fuller than at other times
  have hfull : Holds pendingBlocksBufferSize { s with pending := s.pending ++ [r] }
      { b with
        pendingBlocksBuffer := overwrite b.pendingBlocksBuffer b.pendingBlocks r.bytes
        pendingBlocks := b.pendingBlocks + r.bytes.length } := by
    refine ⟨?_, ?_, ?_, ?_, h.written_eq, h.chunks⟩
    · rw [← h.size]
      exact length_overwrite hroom
    · show _ = _ + ((s.pending ++ [r]).map Response.size).sum
      rw [hsum, hpos, hlength, Nat.add_assoc]
    · rw [← h.size]
      exact hroom
    · have hplace : b.pendingBlocks + r.bytes.length - sizeofChunkHeader =
          b.pendingBlocks - sizeofChunkHeader + r.bytes.length := by omega
      have hend : sizeofChunkHeader + (b.pendingBlocks - sizeofChunkHeader) = b.pendingBlocks := by
        omega
      have hpending := h.pending_eq
      rw [pending] at hpending
      rw [pending, flatMap_append, flatMap_singleton, ← hpending, hplace, sliceOf_add,
        hend]
      congr 1
      · rw [← sliceOf_take hend.le, take_overwrite (by omega), sliceOf_take hend.le]
      · rw [sliceOf, drop_overwrite (by omega), take_left]
  have hthreshold : b.pendingBlocks + r.bytes.length =
      4 + ((s.pending ++ [r]).map Response.size).sum := by
    rw [hsum, hpos, hlength, sizeofChunkHeader, Nat.add_assoc]
  rw [send, if_pos hroom, IncrementalServer.send]
  simp only [hthreshold]
  rw [hthreshold] at hfull
  refine ⟨_, rfl, ?_⟩
  split_ifs with hflush
  · exact holds_flush hfull (by decide)
  · refine ⟨hfull.size, hfull.position, ?_, hfull.pending_eq, hfull.written_eq, hfull.chunks⟩
    simp only [Bool.or_eq_true, decide_eq_true_eq, not_or, not_lt] at hflush
    exact hflush.2

/-- The items go through the buffer as they go through the server. -/
theorem holds_sends (host : Host) (items : List (Item × Bool)) (h : Holds kChunkFlushSize s b) :
    ∃ b' s', b.sends host items = some b' ∧ Holds kChunkFlushSize s' b' ∧
      s'.stream = s.stream ++ items.map fun item => item.1.response host := by
  induction items generalizing s b with
  | nil => exact ⟨b, s, rfl, h, (append_nil _).symm⟩
  | cons item items ih =>
    obtain ⟨item, flushNow⟩ := item
    obtain ⟨b₁, hsend, hholds⟩ := holds_send h (item.size_response_le host) flushNow
    obtain ⟨b', s', hsends, hholds', hstream⟩ := ih hholds
    refine ⟨b', s', ?_, hholds', ?_⟩
    · rw [sends, hsend, Option.bind_some, hsends]
    · rw [hstream, IncrementalServer.stream_send, append_assoc]
      rfl

/-- **The chunk stream.** Whatever blocks are sent and whenever the buffer is flushed, nothing is
written over the end of the buffer; what has been written is chunks, each a length and so many
bytes, at least one; and the chunks and the pending bytes are all that has been sent, in order. -/
theorem sends_chunks (host : Host) (items : List (Item × Bool)) :
    ∃ b, sends host {} items = some b ∧ b.pendingBlocks ≤ b.pendingBlocksBuffer.length ∧
      ∃ bodies : List Bytes, b.written = bodies.flatMap chunkBytes ∧
        (∀ body ∈ bodies, 1 ≤ body.length ∧ body.length < 2 ^ 31) ∧
        bodies.flatten ++ b.pending = items.flatMap fun item => (item.1.response host).bytes := by
  obtain ⟨b, s, hsends, h, hstream⟩ := holds_sends host items (holds_empty [])
  refine ⟨b, hsends, ?_, s.written.map fun rs => rs.flatMap Response.bytes, ?_, ?_, ?_⟩
  · rw [h.size]
    exact h.below.trans (by decide)
  · rw [h.written_eq, flatMap_map]
  · intro body hbody
    obtain ⟨rs, hrs, rfl⟩ := mem_map.mp hbody
    obtain ⟨hnil, hsum⟩ := h.chunks rs hrs
    have hpos : (rs.map Response.size).sum ≠ 0 := fun hzero => hnil (sum_size_eq_zero.mp hzero)
    have hsize : pendingBlocksBufferSize = 135168 := rfl
    rw [length_flatMap_bytes]
    omega
  · have hall : s.stream.flatMap Response.bytes =
        items.flatMap fun item => (item.1.response host).bytes := by
      rw [hstream, IncrementalServer.stream, flatten_nil, nil_append, nil_append,
        flatMap_map]
    rw [h.pending_eq, ← hall, IncrementalServer.stream, flatMap_append]
    simp only [flatMap_def, map_flatten, map_map, flatten_flatten]
    rfl

end ChunkBuffer

end AdbBridge.Incremental
