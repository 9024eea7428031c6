import AdbBridge.Incremental.Blocks

/-!
# The incremental server

`adb inc-server` sends the blocks of some files to a device that asks for them while it is
already using the files. A missing block is sent at once, and with it the seven that follow;
a file that is to be prefetched is queued as a whole, its priority blocks first. Between two
requests `RunPrefetching` sends up to 128 blocks from the front of the queue, and leaves
there how far it came.

The functions below are those of `IncrementalServer` in the order of the source. What `pread`
and LZ4 return is up to the `Host`. The source indexes its vectors without asking whether
they have the element: where one has not, the model stops with `fault`, since nothing can be
said about what follows.

A state of the machine `serve` is a server that waits in `ReadRequest`, and an input is what
`ReadRequest` returns. So a step first serves the request, then prefetches, and at last does
what the loop of `Serve` does before it reads the next one.
-/

namespace AdbBridge.Incremental

/-! ### What is sent -/

inductive BlockType
  | data
  | hash
  deriving DecidableEq, Repr

inductive CompressionType
  | none
  | lz4
  deriving DecidableEq, Repr

/-- A `ResponseHeader` and the bytes after it. The size of the block is how many there are. -/
structure Response where
  fileId : ℤ
  blockType : BlockType
  compressionType : CompressionType
  blockIdx : ℤ
  data : Bytes
  deriving DecidableEq, Repr

/-- `responseSizeFor`: the header has ten bytes. -/
def Response.size (r : Response) : ℕ := r.data.length + 10

/-- The header `SendDone` sends. -/
def Response.done : Response := ⟨-1, .data, .none, 0, []⟩

def kCompressedSizeMax : ℕ := 3891

def kChunkFlushSize : ℕ := 31 * kBlockSize

/-- What the operating system and LZ4 return: the bytes of the `n`-th `pread`, if it does not
fail, and the compressed form of a block. -/
structure Host where
  pread : ℕ → Option Bytes
  lz4 : Bytes → Bytes

/-- A `pread` of a block that was made, and whether it gave a block. -/
structure Pread where
  fileId : ℤ
  blockType : BlockType
  blockIdx : ℤ
  ok : Bool
  deriving DecidableEq, Repr

/-! ### The state -/

/-- How far the prefetching of a file has come. The source has a pointer to the file. -/
structure PrefetchState where
  file : ℕ
  overallIndex : ℤ
  overallEnd : ℤ
  priorityIndex : ℤ := 0
  deriving DecidableEq, Repr

namespace PrefetchState

def ofRange (k : ℕ) (f : File) (start : ℤ) (count : ℤ) : PrefetchState :=
  { file := k, overallIndex := start
    overallEnd := min (toInt32 (start + count)) (toInt32 f.sentBlocks.length) }

def ofFile (k : ℕ) (f : File) : PrefetchState := ofRange k f 0 (toInt32 f.sentBlocks.length)

def done (p : PrefetchState) (f : File) : Bool :=
  let overallSent := p.overallEnd ≤ p.overallIndex
  if f.priorityBlocks.isEmpty then overallSent
  else overallSent && f.priorityBlocks.length ≤ p.priorityIndex

end PrefetchState

/-- A request without its magic, as it is read from eight bytes. -/
structure RequestCommand where
  requestType : Int16
  fileId : Int16
  blockIdx : Int32
  deriving DecidableEq, Repr

inductive RequestType
  | servingComplete
  | blockMissing
  | prefetch
  | destroy
  deriving DecidableEq, Repr

/-- The cases of the `switch` in `Serve`. -/
def RequestCommand.type (r : RequestCommand) : Option RequestType :=
  if r.requestType = 0 then some .servingComplete
  else if r.requestType = 1 then some .blockMissing
  else if r.requestType = 2 then some .prefetch
  else if r.requestType = 3 then some .destroy
  else none

/-- The server and the variables of `Serve`. -/
structure IncrementalServer where
  files : List File
  prefetches : List PrefetchState := []
  /-- What `Flush` has written, chunk by chunk. -/
  written : List (List Response) := []
  /-- What is in the buffer of pending blocks. -/
  pending : List Response := []
  prefetchedFiles : List ℤ := []
  doneSent : Bool := false
  servingComplete : Bool := false
  /-- `Serve` has returned. -/
  ended : Bool := false
  /-- An index was out of range. -/
  fault : Bool := false
  /-- The blocks that were read from the files, the last one at the end. -/
  log : List Pread := []

inductive SendResult
  | sent
  | skipped
  | error
  deriving DecidableEq, Repr

namespace IncrementalServer

/-- Everything the server has sent, in order. -/
def stream (s : IncrementalServer) : List Response := s.written.flatten ++ s.pending

def flush (s : IncrementalServer) : IncrementalServer :=
  if s.pending.isEmpty then s else { s with written := s.written ++ [s.pending], pending := [] }

/-- The buffer of pending blocks begins with a chunk header of four bytes. -/
def send (s : IncrementalServer) (r : Response) (flushNow : Bool) : IncrementalServer :=
  let s := { s with pending := s.pending ++ [r] }
  if flushNow || kChunkFlushSize < 4 + (s.pending.map Response.size).sum then s.flush else s

def outOfRange (s : IncrementalServer) : IncrementalServer := { s with fault := true }

/-- `files_[id]`. -/
def file (s : IncrementalServer) (id : ℤ) : Option File := entry s.files id

def updFile (s : IncrementalServer) (id : ℤ) (g : File → File) : IncrementalServer :=
  { s with files := s.files.modify id.toNat g }

/-- `ReadDataBlock` and `ReadTreeBlock`. A block of the tree that has no byte is a failure, a
data block is not. -/
def read (s : IncrementalServer) (host : Host) (id : ℤ) (type : BlockType) (idx : ℤ) :
    IncrementalServer × Option Bytes :=
  let res := ((host.pread s.log.length).map (·.take kBlockSize)).filter fun bytes =>
    type = .data || !bytes.isEmpty
  ({ s with log := s.log ++ [⟨id, type, idx, res.isSome⟩] }, res)

/-! ### Sending blocks -/

variable (host : Host)

def sendTreeBlock (s : IncrementalServer) (fileId blockIdx : ℤ) : IncrementalServer × Bool :=
  match s.read host fileId .hash blockIdx with
  | (s, none) => (s, false)
  | (s, some bytes) => (s.send ⟨fileId, .hash, .none, blockIdx, bytes⟩ false, true)

/-- One block of the tree is sent and marked. -/
def sendTreeBlockAndMark (s : IncrementalServer) (fileId blockIdx : ℤ) : IncrementalServer × Bool :=
  match s.sendTreeBlock host fileId blockIdx with
  | (s, false) => (s, false)
  | (s, true) => (s.updFile fileId (·.markTreeBlock blockIdx), true)

/-- The loop over the blocks above the leaves, from block `i` on. -/
def sendUpperBlocks (fileId : ℤ) : ℕ → ℤ → IncrementalServer → IncrementalServer × Bool
  | 0, _, s => (s, true)
  | n + 1, i, s =>
    match s.sendTreeBlockAndMark host fileId i with
    | (s, false) => (s, false)
    | (s, true) => sendUpperBlocks fileId n (i + 1) s

def sendTreeBlocksForDataBlock (s : IncrementalServer) (fileId blockIdx : ℤ) :
    IncrementalServer × Bool :=
  match s.file fileId with
  | none => (s.outOfRange, false)
  | some f =>
    if !f.hasTree then (s, true)
    else
      match entry f.sentTreeBlocks (f.leafIdx blockIdx) with
      | none => (s.outOfRange, false)
      | some true => (s, true)
      | some false =>
        match s.sendTreeBlockAndMark host fileId (f.leafIdx blockIdx) with
        | (s, false) => (s, false)
        | (s, true) =>
          -- Everything above the leaves is sent, and only once.
          if f.leafNodesOffset = 0 then (s, true)
          else
            match (s.file fileId).bind fun f => entry f.sentTreeBlocks 0 with
            | none => (s.outOfRange, false)
            | some true => (s, true)
            | some false => sendUpperBlocks host fileId f.leafNodesOffset.toNat 0 s

/-- The header and the bytes of a data block, compressed where that makes it smaller. -/
def dataResponse (fileId blockIdx : ℤ) (raw : Bytes) : Response :=
  let compressed := host.lz4 raw
  if 0 < compressed.length ∧ compressed.length < kCompressedSizeMax then
    ⟨fileId, .data, .lz4, blockIdx, compressed⟩
  else ⟨fileId, .data, .none, blockIdx, raw⟩

def sendDataBlock (s : IncrementalServer) (fileId blockIdx : ℤ) (flushNow : Bool) :
    IncrementalServer × SendResult :=
  match s.file fileId with
  | none => (s.outOfRange, .error)
  | some f =>
    if f.sentBlocks.length ≤ blockIdx then (s, .skipped)
    else
      match entry f.sentBlocks blockIdx with
      | none => (s.outOfRange, .error)
      | some true => (s, .skipped)
      | some false =>
        match s.sendTreeBlocksForDataBlock host fileId blockIdx with
        | (s, false) => (s, .error)
        | (s, true) =>
          match s.read host fileId .data blockIdx with
          | (s, none) => (s, .error)
          | (s, some raw) =>
            ((s.updFile fileId (·.markBlock blockIdx)).send
              (dataResponse host fileId blockIdx raw) flushNow, .sent)

def sendDone (s : IncrementalServer) : IncrementalServer := s.send .done true

/-! ### Prefetching -/

/-- The loops of `RunPrefetching` over some blocks of a file: the server, the number of
blocks that may still be sent, and by how much the index has grown. -/
def sendBlocks (fileId : ℤ) :
    List ℤ → ℕ → IncrementalServer → IncrementalServer × ℕ × ℕ
  | [], blocksToSend, s => (s, blocksToSend, 0)
  | i :: is, blocksToSend, s =>
    if blocksToSend = 0 then (s, blocksToSend, 0)
    else
      match s.sendDataBlock host fileId i false with
      | (s, res) =>
        if s.fault then (s, blocksToSend, 0)
        else
          match sendBlocks fileId is (if res = .sent then blocksToSend - 1 else blocksToSend) s with
          | (s, blocksToSend, n) => (s, blocksToSend, n + 1)

/-- The indices from `i` up to `n`. -/
def indices (i n : ℤ) : List ℤ := (List.range (n - i).toNat).map fun k : ℕ => i + k

/-- The two loops for the first entry of the queue: what is left of the entry as well. -/
def prefetch (f : File) (p : PrefetchState) (blocksToSend : ℕ) (s : IncrementalServer) :
    IncrementalServer × ℕ × PrefetchState :=
  match sendBlocks host f.id (f.priorityBlocks.drop p.priorityIndex.toNat) blocksToSend s with
  | (s, blocksToSend, n) =>
    let p := { p with priorityIndex := p.priorityIndex + n }
    if s.fault then (s, blocksToSend, p)
    else
      match sendBlocks host f.id (indices p.overallIndex p.overallEnd) blocksToSend s with
      | (s, blocksToSend, n) => (s, blocksToSend, { p with overallIndex := p.overallIndex + n })

/-- The loop of `RunPrefetching`. -/
def runPrefetchingLoop : ℕ → ℕ → IncrementalServer → IncrementalServer
  | 0, _, s => s
  | fuel + 1, blocksToSend, s =>
    match s.prefetches with
    | [] => s
    | p :: rest =>
      if blocksToSend = 0 then s
      else
        match s.files[p.file]? with
        | none => s.outOfRange
        | some f =>
          match prefetch host f p blocksToSend s with
          | (s, blocksToSend, p) =>
            let s := { s with prefetches := if p.done f then rest else p :: rest }
            if s.fault then s else runPrefetchingLoop fuel blocksToSend s

def kPrefetchBlocksPerIteration : ℕ := 128

/-- An entry that is not done has used up what may be sent, so the loop is entered at most
once more than there are entries. -/
def runPrefetching (s : IncrementalServer) : IncrementalServer :=
  runPrefetchingLoop host (s.prefetches.length + 1) kPrefetchBlocksPerIteration s

/-! ### Serving -/

/-- `BLOCK_MISSING`. -/
def serveMissing (s : IncrementalServer) (fileId blockIdx : ℤ) : IncrementalServer :=
  if fileId < 0 ∨ toInt16 s.files.length ≤ fileId ∨ blockIdx < 0 then s
  else
    match s.file fileId with
    | none => s.outOfRange
    | some f =>
      if toInt32 f.sentBlocks.length ≤ blockIdx then s
      else
        match s.sendDataBlock host fileId blockIdx true with
        | (s, .sent) =>
          -- The device may be reading more than one block.
          { s with
            prefetches := .ofRange fileId.toNat f (blockIdx + 1) 7 :: s.prefetches }
        | (s, _) => s

/-- `PREFETCH`. -/
def servePrefetch (s : IncrementalServer) (fileId : ℤ) : IncrementalServer :=
  if fileId < 0 then s
  else if fileId ∈ s.prefetchedFiles then s
  else
    match s.file fileId with
    | none => s.outOfRange
    | some f =>
      { s with
        prefetchedFiles := fileId :: s.prefetchedFiles
        prefetches := s.prefetches ++ [.ofFile fileId.toNat f] }

/-- What the loop does before it reads a request. -/
def announce (s : IncrementalServer) : IncrementalServer :=
  let s :=
    if !s.doneSent && s.prefetches.isEmpty && s.files.all File.complete then
      { s.sendDone with doneSent := true }
    else s
  if s.prefetches.isEmpty then s.flush else s

/-- The `switch` on a request. -/
def dispatch (s : IncrementalServer) (r : RequestCommand) : IncrementalServer :=
  match r.type with
  | some .destroy => { s with ended := true }
  | some .servingComplete => { s with servingComplete := true }
  | some .blockMissing => s.serveMissing host r.fileId.toInt r.blockIdx.toInt
  | some .prefetch => s.servePrefetch r.fileId.toInt
  | none => s

/-- From one `ReadRequest` to the next. -/
def step (s : IncrementalServer) (req : Option RequestCommand) : IncrementalServer :=
  let s := req.elim s (s.dispatch host)
  if s.ended || s.fault then s
  else
    let s := s.runPrefetching host
    if s.fault then s else s.announce

end IncrementalServer

/-- The loop of `serve` that opens the files, from the `i`-th on. -/
def openFiles : ℕ → List Source → Option (List File)
  | _, [] => some []
  | i, src :: srcs => (src.open i).bind fun f => (openFiles (i + 1) srcs).map (f :: ·)

/-- `Serve`. A server that has returned or has left the range of a vector takes no request. -/
def serve (host : Host) (srcs : List Source) :
    Machine IncrementalServer (Option RequestCommand) where
  init s := ∃ files, openFiles 0 srcs = some files ∧ s = ({ files } : IncrementalServer).announce
  enabled s _ := s.ended = false ∧ s.fault = false
  step s req := s.step host req

instance decidableServe (host : Host) (srcs : List Source) (s : IncrementalServer)
    (req : Option RequestCommand) : Decidable ((serve host srcs).enabled s req) :=
  inferInstanceAs (Decidable (s.ended = false ∧ s.fault = false))

end AdbBridge.Incremental
