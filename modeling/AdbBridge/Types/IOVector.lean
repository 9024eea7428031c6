import AdbBridge.Types.Block

/-!
# The byte chain of a socket

`IOVector` is the queue of blocks a local socket keeps between the packets that
arrive for it and its file descriptor. Only a suffix of the chain is live: the
blocks before `startIndex` have been used up, and so have the first `beginOffset`
bytes of the block at `startIndex`. `IOVector.bytes` is the string this stands for.

The operations are on the representation as the source has it; a `CHECK` or an index
out of range is `none`. `IOVector.WF` is the invariant of the representation, and
`PacketQueue` the type of the chains that have it: to the sockets, `append` and
`drop_front` are plain list operations on the bytes (`PacketQueue.bytes_append`,
`PacketQueue.bytes_dropFront`). The other operations are dealt with in
`AdbBridge.Types.Refinement`.
-/

namespace AdbBridge

open List

/-- A chain of blocks, with the position of its first live byte. -/
structure IOVector where
  chain : List Block := []
  /-- The total length of the blocks from `startIndex` on. -/
  chainLength : ℕ := 0
  beginOffset : ℕ := 0
  startIndex : ℕ := 0
  deriving DecidableEq, Repr

/-- The bytes of some blocks. -/
def bytesOf (blocks : List Block) : Bytes := blocks.flatMap Block.data

namespace IOVector

/-- The blocks from `startIndex` on. -/
def live (v : IOVector) : List Block := v.chain.drop v.startIndex

/-- The string a chain stands for. -/
def bytes (v : IOVector) : Bytes := (bytesOf v.live).drop v.beginOffset

def size (v : IOVector) : ℕ := v.chainLength - v.beginOffset

def empty (v : IOVector) : Bool := v.size == 0

/-- `clear`, without the block it hands back for reuse. -/
def clear (_ : IOVector) : IOVector := {}

/-- `append` ignores an empty block. -/
def append (v : IOVector) (block : Block) : IOVector :=
  if block.size = 0 then v
  else { v with chainLength := v.chainLength + block.size, chain := v.chain ++ [block] }

def trimChainFront (v : IOVector) : IOVector :=
  if v.startIndex ≠ 0 then { v with chain := v.chain.drop v.startIndex, startIndex := 0 } else v

def popFrontBlock (v : IOVector) : Option IOVector :=
  match v.chain[v.startIndex]? with
  | none => none
  | some block =>
    let v' : IOVector :=
      { chain := v.chain.set v.startIndex {}
        chainLength := v.chainLength - block.size
        beginOffset := 0
        startIndex := v.startIndex + 1 }
    some (if max 4 (v'.chain.length / 2) < v'.startIndex then v'.trimChainFront else v')

/-- The loop of `drop_front`. A block is used up in every round but the last, so the
number of blocks bounds the rounds. The count is an `unsigned`. -/
def dropLoop : ℕ → IOVector → ℕ → ℕ → Option IOVector
  | 0, v, dropped, len => if dropped < len then none else some v
  | fuel + 1, v, dropped, len =>
    if dropped < len then
      match v.chain[v.startIndex]? with
      | none => none
      | some block =>
        let next := block.size - v.beginOffset
        if dropped + next ≤ len then
          v.popFrontBlock.bind fun v' => dropLoop fuel v' ((dropped + next) % 2 ^ 32) len
        else some { v with beginOffset := v.beginOffset + (len - dropped) }
    else some v

def dropFront (v : IOVector) (len : ℕ) : Option IOVector :=
  if len = 0 then some v
  else if len = v.size then some v.clear
  else if len < v.size then dropLoop v.chain.length v 0 len
  else none

/-- The loop of `take_front`: the blocks that go into the other chain as a whole. What
comes out are both chains and how much is still to be taken. -/
def takeLoop : ℕ → IOVector → IOVector → ℕ → Option (IOVector × IOVector × ℕ)
  | 0, _, _, _ => none
  | fuel + 1, v, res, len =>
    match v.chain[v.startIndex]? with
    | none => none
    | some block =>
      if block.size - v.beginOffset ≤ len then
        let moved : Bool := v.beginOffset < block.size
        let res' :=
          if moved then
            let r := res.append block
            if v.beginOffset ≠ 0 then { r with beginOffset := v.beginOffset } else r
          else res
        takeLoop fuel
          { chain := if moved then v.chain.set v.startIndex {} else v.chain
            chainLength := v.chainLength - block.size
            beginOffset := 0
            startIndex := v.startIndex + 1 } res' (len - (block.size - v.beginOffset))
      else some (v, res, len)

/-- The end of `take_front`: a block that is split between the two chains. A short piece
is copied out; otherwise the buffer goes, and its tail is copied back. -/
def splitFront (v res : IOVector) (len : ℕ) : Option (IOVector × IOVector) :=
  match v.chain[v.startIndex]? with
  | none => none
  | some block =>
    if v.beginOffset ≠ 0 ∨ len < block.size / 2 then
      some ({ v with beginOffset := v.beginOffset + len },
        res.append (.ofBytes ((block.data.drop v.beginOffset).take len)))
    else
      (block.resize len).map fun front =>
        let tail := Block.ofBytes (block.data.drop len)
        ({ v with
            chainLength := v.chainLength - block.size + tail.size
            chain := v.chain.set v.startIndex tail },
          res.append front)

/-- `take_front`: what is left, and what was taken. -/
def takeFront (v : IOVector) (len : ℕ) : Option (IOVector × IOVector) :=
  if len = 0 then some (v, {})
  else if len = v.size then some (v.clear, v)
  else if len ≤ v.size then
    (takeLoop (v.chain.length + 1) v {} len).bind fun (v', res, rest) =>
      if 0 < rest then splitFront v' res rest else some (v', res)
  else none

def trimFront (v : IOVector) : Option IOVector :=
  if (v.beginOffset = 0 ∧ v.startIndex = 0) ∨ v.chain = [] then some v
  else
    match v.chain[v.startIndex]? with
    | none => none
    | some first =>
      let moved : Option IOVector :=
        if v.beginOffset = first.size then some { v with startIndex := v.startIndex + 1 }
        else
          (first.memcpy 0 (first.data.drop v.beginOffset)).bind fun b =>
            (b.resize (first.size - v.beginOffset)).map fun b' =>
              { v with chain := v.chain.set v.startIndex b' }
      moved.map fun v' => trimChainFront
        { v' with chainLength := v'.chainLength - v.beginOffset, beginOffset := 0 }

/-! ### Reading a chain -/

/-- What `iterate_blocks` hands to its callback. -/
def iterateBlocks (v : IOVector) : Option (List Bytes) :=
  if v.size = 0 then some []
  else match v.live with
    | [] => some []
    | block :: blocks =>
      if v.beginOffset ≤ block.size then
        some (block.data.drop v.beginOffset :: blocks.map Block.data)
      else none

/-- The ranges handed to `writev`. -/
def iovecs (v : IOVector) : Option (List Bytes) := v.iterateBlocks

/-- `coalesce` of a chain that is to be kept. -/
def coalesce (v : IOVector) : Option Block :=
  if v.size = 0 then some {}
  else
    v.iterateBlocks.bind fun pieces =>
      (Block.resize {} v.size).bind fun result =>
        (Block.copyAll pieces result 0).map Prod.fst

/-- `coalesce` of a chain that is not needed any more: what is left of the chain, and the
block. It may be one of the blocks of the chain. -/
def coalesceMoved (v : IOVector) : Option (IOVector × Block) :=
  if v.size = 0 then some (v, {})
  else
    match v.chain[v.startIndex]?, v.chain.getLast? with
    | some first, some last =>
      let popped : IOVector :=
        { v with chainLength := v.chainLength - last.size, chain := v.chain.dropLast }
      if v.beginOffset = first.size ∧ v.chain.length = v.startIndex + 2 then some (popped, last)
      else if v.chain.length = v.startIndex + 1 then
        if v.beginOffset ≠ 0 then
          (last.memcpy 0 (last.data.drop v.beginOffset)).bind fun b =>
            (b.resize (last.size - v.beginOffset)).map fun b' =>
              ({ popped with beginOffset := 0 }, b')
        else some (popped, last)
      else if v.size ≤ first.capacity then
        let rest : IOVector :=
          { chain := v.chain.set v.startIndex {}
            chainLength := v.chainLength - first.size
            beginOffset := 0
            startIndex := v.startIndex + 1 }
        let front := if v.beginOffset ≠ 0 then first.memcpy 0 (first.data.drop v.beginOffset)
          else some first
        front.bind fun b =>
          (Block.copyAll ((v.chain.drop (v.startIndex + 1)).map Block.data) b
              (first.size - v.beginOffset)).bind fun (b', size) =>
            (b'.resize size).map (rest, ·)
      else v.coalesce.map (v, ·)
    | _, _ => none

/-- `coalesced`: a function of the bytes, which are copied only if they are in several
blocks. -/
def coalesced {β : Type*} (v : IOVector) (f : Bytes → β) : Option β :=
  if v.chain.length = v.startIndex + 1 then
    v.chain[v.startIndex]?.map fun block => f ((block.buf.drop v.beginOffset).take v.size)
  else v.coalesce.map fun block => f block.data

/-- The invariant of the representation: the recorded length is that of the live
blocks, none of them is empty, the first live byte is inside the first of them, and a
chain that is used up has no blocks at all. -/
structure WF (v : IOVector) : Prop where
  start_le : v.startIndex ≤ v.chain.length
  drained : v.live = [] → v.chain = []
  length_eq : v.chainLength = (v.live.map Block.size).sum
  nonempty : ∀ b ∈ v.live, 0 < b.size
  offset : v.beginOffset = 0 ∨ ∃ b bs, v.live = b :: bs ∧ v.beginOffset < b.size

end IOVector

/-! ### The representation -/

@[simp]
theorem bytesOf_nil : bytesOf [] = [] := rfl

@[simp]
theorem bytesOf_cons (b : Block) (bs : List Block) : bytesOf (b :: bs) = b.data ++ bytesOf bs :=
  flatMap_cons

@[simp]
theorem bytesOf_append (bs bs' : List Block) : bytesOf (bs ++ bs') = bytesOf bs ++ bytesOf bs' :=
  flatMap_append

@[simp]
theorem length_bytesOf (bs : List Block) : (bytesOf bs).length = (bs.map Block.size).sum := by
  induction bs with
  | nil => rfl
  | cons b bs ih => simp [ih]

theorem flatten_map_data (bs : List Block) : (bs.map Block.data).flatten = bytesOf bs :=
  (flatMap_def).symm

namespace IOVector

variable {v res : IOVector} {b : Block} {bs : List Block} {n len : ℕ}

theorem getElem?_startIndex (h : v.live = b :: bs) : v.chain[v.startIndex]? = some b := by
  have h0 : v.live[0]? = some b := by rw [h]; rfl
  rw [live, List.getElem?_drop] at h0
  exact h0

theorem startIndex_lt (h : v.live = b :: bs) : v.startIndex < v.chain.length :=
  (List.getElem?_eq_some_iff.mp (getElem?_startIndex h)).1

/-- The blocks after the first live one. -/
theorem drop_startIndex_succ (h : v.live = b :: bs) : v.chain.drop (v.startIndex + 1) = bs := by
  rw [← tail_drop, ← live, h, tail_cons]

/-- Another block in the place of the first live one. -/
theorem drop_set_startIndex (h : v.live = b :: bs) (b' : Block) :
    (v.chain.set v.startIndex b').drop v.startIndex = b' :: bs := by
  have hlt : v.startIndex < (v.chain.set v.startIndex b').length := by
    simpa using startIndex_lt h
  rw [drop_eq_getElem_cons hlt, getElem_set_self,
    drop_set_of_lt (Nat.lt_succ_self _), drop_startIndex_succ h]

/-- The first live block is taken out of its place. -/
theorem drop_set_startIndex_succ (h : v.live = b :: bs) (b' : Block) :
    (v.chain.set v.startIndex b').drop (v.startIndex + 1) = bs := by
  rw [drop_set_of_lt (Nat.lt_succ_self _), drop_startIndex_succ h]

/-- What there is to show about a chain that is not used up. -/
theorem WF.of_live (hlive : v.live = b :: bs)
    (hlen : v.chainLength = b.size + (bs.map Block.size).sum) (hoff : v.beginOffset < b.size)
    (hbs : ∀ c ∈ bs, 0 < c.size) : v.WF where
  start_le := (startIndex_lt hlive).le
  drained := by simp [hlive]
  length_eq := by simp [hlive, hlen]
  nonempty := by
    rw [hlive]
    rintro c (_ | hc)
    · exact pos_of_gt hoff
    · exact hbs c ‹_›
  offset := Or.inr ⟨b, bs, hlive, hoff⟩

theorem WF.beginOffset_lt (hv : v.WF) (h : v.live = b :: bs) : v.beginOffset < b.size := by
  rcases hv.offset with h0 | ⟨b', bs', h', hlt⟩
  · rw [h0]
    exact hv.nonempty b (by rw [h]; exact mem_cons_self)
  · rw [h] at h'
    obtain ⟨rfl, -⟩ := List.cons.inj h'
    exact hlt

theorem WF.tail_nonempty (hv : v.WF) (h : v.live = b :: bs) : ∀ c ∈ bs, 0 < c.size := fun c hc =>
  hv.nonempty c (by rw [h]; exact mem_cons_of_mem b hc)

theorem WF.chainLength_eq (hv : v.WF) (h : v.live = b :: bs) :
    v.chainLength = b.size + (bs.map Block.size).sum := by simp [hv.length_eq, h]

theorem WF.size_eq (hv : v.WF) : v.size = v.bytes.length := by
  rw [size, bytes, length_drop, length_bytesOf, hv.length_eq]

theorem bytes_of_live (h : v.live = b :: bs) (hoff : v.beginOffset ≤ b.size) :
    v.bytes = b.data.drop v.beginOffset ++ bytesOf bs := by
  rw [bytes, h, bytesOf_cons, drop_append_of_le_length (by simpa using hoff)]

theorem WF.bytes_eq (hv : v.WF) (h : v.live = b :: bs) :
    v.bytes = b.data.drop v.beginOffset ++ bytesOf bs :=
  bytes_of_live h (hv.beginOffset_lt h).le

/-- What is left once more than the first block has been dropped. -/
theorem WF.drop_bytes (hv : v.WF) (h : v.live = b :: bs) (hn : b.size - v.beginOffset ≤ n) :
    v.bytes.drop n = (bytesOf bs).drop (n - (b.size - v.beginOffset)) := by
  have hfirst : (b.data.drop v.beginOffset).drop n = [] :=
    drop_eq_nil_of_le (by simpa using hn)
  rw [hv.bytes_eq h, drop_append, hfirst, nil_append, length_drop,
    Block.length_data]

/-- What is taken if it is more than the first block. -/
theorem WF.take_bytes (hv : v.WF) (h : v.live = b :: bs) (hn : b.size - v.beginOffset ≤ n) :
    v.bytes.take n =
      b.data.drop v.beginOffset ++ (bytesOf bs).take (n - (b.size - v.beginOffset)) := by
  have hfirst : (b.data.drop v.beginOffset).take n = b.data.drop v.beginOffset :=
    take_of_length_le (by simpa using hn)
  rw [hv.bytes_eq h, take_append, hfirst, length_drop, Block.length_data]

/-- A chain with bytes in it has a first block, with a byte in it. -/
theorem exists_live (h : v.bytes ≠ []) : ∃ b bs, v.live = b :: bs := by
  rcases hl : v.live with _ | ⟨b, bs⟩
  · exact absurd (by simp [bytes, hl]) h
  · exact ⟨b, bs, rfl⟩

theorem WF.live_eq_nil (hv : v.WF) (h : v.bytes = []) : v.live = [] := by
  rcases hl : v.live with _ | ⟨b, bs⟩
  · rfl
  · have hlen := congrArg List.length (hv.bytes_eq hl)
    have hoff := hv.beginOffset_lt hl
    simp only [h, length_nil, length_append, length_drop, Block.length_data] at hlen
    omega

theorem WF.clear (v : IOVector) : v.clear.WF where
  start_le := Nat.zero_le _
  drained := fun _ => rfl
  length_eq := rfl
  nonempty := by simp [IOVector.clear, live]
  offset := Or.inl rfl

/-! ### Appending -/

theorem append_of_pos (h : 0 < b.size) : v.append b =
    { v with chainLength := v.chainLength + b.size, chain := v.chain ++ [b] } :=
  if_neg h.ne'

theorem WF.live_append (hv : v.WF) (h : 0 < b.size) : (v.append b).live = v.live ++ [b] := by
  rw [append_of_pos h, live, live, drop_append_of_le_length hv.start_le]

/-- Appending a block keeps the vector well formed. -/
theorem WF.append (hv : v.WF) (block : Block) : (v.append block).WF := by
  rcases Nat.eq_zero_or_pos block.size with h | h
  · rw [IOVector.append, if_pos h]
    exact hv
  · have hlive := hv.live_append h
    refine ⟨?_, ?_, ?_, ?_, ?_⟩
    · rw [append_of_pos h]
      exact hv.start_le.trans (by simp)
    · simp [hlive]
    · rw [hlive, append_of_pos h]
      simp [hv.length_eq]
    · rw [hlive]
      intro b hb
      rcases mem_append.mp hb with hb | hb
      · exact hv.nonempty b hb
      · rwa [mem_singleton.mp hb]
    · rw [hlive, append_of_pos h]
      rcases hv.offset with h0 | ⟨b, bs, hb, hlt⟩
      · exact Or.inl h0
      · exact Or.inr ⟨b, bs ++ [block], by rw [hb, cons_append], hlt⟩

/-- The bytes of the block come behind the others. -/
theorem WF.bytes_append (hv : v.WF) (block : Block) :
    (v.append block).bytes = v.bytes ++ block.data := by
  rcases Nat.eq_zero_or_pos block.size with h | h
  · rw [IOVector.append, if_pos h, Block.data_eq_nil_iff.mpr h, append_nil]
  · have hoff : v.beginOffset ≤ (bytesOf v.live).length := by
      rcases hv.offset with h0 | ⟨b, bs, hb, hlt⟩
      · omega
      · rw [hb, length_bytesOf, map_cons, sum_cons]
        omega
    have hoff' : (v.append block).beginOffset = v.beginOffset := by rw [append_of_pos h]
    rw [bytes, bytes, hv.live_append h, hoff', bytesOf_append, bytesOf_cons, bytesOf_nil,
      append_nil, drop_append_of_le_length hoff]

/-! ### Dropping bytes from the front -/

/-- Taking off the first block leaves the other live blocks. Clearing the slot and
trimming the chain do not show. -/
theorem WF.popFrontBlock (hv : v.WF) {c : Block} (h : v.live = b :: c :: bs) :
    ∃ v', v.popFrontBlock = some v' ∧ v'.WF ∧ v'.live = c :: bs ∧ v'.beginOffset = 0 := by
  have hdrop := drop_set_startIndex_succ h {}
  have hlen : v.chainLength - b.size = c.size + (bs.map Block.size).sum := by
    rw [hv.chainLength_eq h, Nat.add_sub_cancel_left, map_cons, sum_cons]
  have hc : 0 < c.size := hv.tail_nonempty h c mem_cons_self
  have hbs : ∀ d ∈ bs, 0 < d.size := fun d hd => hv.tail_nonempty h d (mem_cons_of_mem c hd)
  rw [IOVector.popFrontBlock, getElem?_startIndex h]
  refine ⟨_, rfl, ?_⟩
  dsimp only
  split_ifs with hmax
  · -- The live blocks become the whole chain.
    rw [trimChainFront, if_pos (Nat.succ_ne_zero _)]
    exact ⟨.of_live hdrop hlen hc hbs, hdrop, rfl⟩
  · exact ⟨.of_live hdrop hlen hc hbs, hdrop, rfl⟩

/-- The invariant of the loop of `drop_front`: what is still to be dropped is less
than what is left, and the count has not wrapped. -/
theorem WF.dropLoop (hv : v.WF) {fuel dropped : ℕ} (hfuel : v.live.length ≤ fuel)
    (hle : dropped ≤ len) (hint : len < 2 ^ 32) (hlt : len - dropped < v.bytes.length) :
    ∃ v', IOVector.dropLoop fuel v dropped len = some v' ∧ v'.WF ∧
      v'.bytes = v.bytes.drop (len - dropped) := by
  obtain ⟨b, bs, hl⟩ := exists_live (length_pos_iff.mp (pos_of_gt hlt))
  induction fuel generalizing v dropped b bs with
  | zero => simp [hl] at hfuel
  | succ fuel ih =>
    rw [IOVector.dropLoop]
    by_cases hd : dropped < len
    · rw [if_pos hd]
      have hoff := hv.beginOffset_lt hl
      have hbytes := hv.bytes_eq hl
      rw [getElem?_startIndex hl]
      dsimp only
      split_ifs with hnext
      · -- The whole block goes, and it is not the last one.
        have hrest : len - (dropped + (b.size - v.beginOffset)) < (bytesOf bs).length := by
          rw [hbytes, length_append, length_drop, Block.length_data] at hlt
          omega
        obtain ⟨c, cs, rfl⟩ : ∃ c cs, bs = c :: cs := exists_cons_of_ne_nil (by
          rintro rfl
          simp at hrest)
        obtain ⟨v', hpop, hv', hlive', hoff'⟩ := hv.popFrontBlock hl
        have hbytes' : v'.bytes = bytesOf (c :: cs) := by rw [bytes, hlive', hoff', drop_zero]
        rw [Nat.mod_eq_of_lt (hnext.trans_lt hint), hpop]
        obtain ⟨v'', hloop, hv'', hb''⟩ := ih hv' (by
          rw [hl, length_cons] at hfuel
          rw [hlive']
          omega) hnext (hbytes' ▸ hrest) c cs hlive'
        refine ⟨v'', hloop, hv'', ?_⟩
        rw [hb'', hbytes', hv.drop_bytes hl (by omega)]
        congr 1
        omega
      · -- Only a part of it goes.
        refine ⟨_, rfl, .of_live hl (hv.chainLength_eq hl) (by dsimp only; omega)
          (hv.tail_nonempty hl), ?_⟩
        rw [bytes, bytes, drop_drop]
        rfl
    · rw [if_neg hd]
      have hz : len - dropped = 0 := by omega
      exact ⟨v, rfl, hv, by rw [hz, drop_zero]⟩

/-- **`drop_front` drops.** On a well-formed chain no `CHECK` fails, whatever part of
the bytes is dropped. -/
theorem WF.dropFront (hv : v.WF) (h : len ≤ v.bytes.length) (hint : len < 2 ^ 32) :
    ∃ v', v.dropFront len = some v' ∧ v'.WF ∧ v'.bytes = v.bytes.drop len := by
  rw [IOVector.dropFront, hv.size_eq]
  split_ifs with h0 hall hlt
  · exact ⟨v, rfl, hv, by rw [h0, drop_zero]⟩
  · refine ⟨_, rfl, WF.clear v, ?_⟩
    rw [hall, drop_length]
    rfl
  · have hlen : v.live.length ≤ v.chain.length := by
      rw [live, length_drop]
      omega
    obtain ⟨v', hloop, hv', hb⟩ := hv.dropLoop hlen (Nat.zero_le len) hint (by omega)
    exact ⟨v', hloop, hv', by rw [hb, Nat.sub_zero]⟩
  · omega

end IOVector

/-! ### Well-formed chains -/

/-- The type of a socket's `packet_queue`: a chain together with the invariant of its
representation. -/
structure PacketQueue where
  vec : IOVector
  wf : vec.WF

namespace PacketQueue

/-- The queue of a new socket. -/
protected def nil : PacketQueue := ⟨{}, IOVector.WF.clear {}⟩

instance : Inhabited PacketQueue := ⟨PacketQueue.nil⟩

/-- The bytes waiting in the queue. -/
def bytes (q : PacketQueue) : Bytes := q.vec.bytes

def size (q : PacketQueue) : ℕ := q.vec.size

def empty (q : PacketQueue) : Bool := q.vec.empty

def clear (q : PacketQueue) : PacketQueue := ⟨q.vec.clear, IOVector.WF.clear q.vec⟩

/-- The payload of a packet comes in a block of its own. How large its buffer is makes no
difference to a socket. -/
def append (q : PacketQueue) (block : Bytes) : PacketQueue :=
  ⟨q.vec.append (.ofBytes block), q.wf.append _⟩

/-- `drop_front` for a length the caller has bounded by the size. -/
def dropFront (q : PacketQueue) (len : ℕ) (h : len ≤ q.bytes.length) (hint : len < 2 ^ 32) :
    PacketQueue :=
  ⟨(q.vec.dropFront len).get (by
      obtain ⟨v', hv', -⟩ := q.wf.dropFront h hint
      rw [hv']
      rfl),
    by
      obtain ⟨v', hv', hwf, -⟩ := q.wf.dropFront h hint
      simp only [hv', Option.get_some]
      exact hwf⟩

variable (q : PacketQueue)

@[simp]
theorem bytes_clear : q.clear.bytes = [] := rfl

@[simp]
theorem bytes_append (block : Bytes) : (q.append block).bytes = q.bytes ++ block := by
  have hbytes := q.wf.bytes_append (.ofBytes block)
  rwa [Block.data_ofBytes] at hbytes

@[simp]
theorem bytes_dropFront {len : ℕ} (h : len ≤ q.bytes.length) (hint : len < 2 ^ 32) :
    (q.dropFront len h hint).bytes = q.bytes.drop len := by
  obtain ⟨v', hv', -, hb⟩ := q.wf.dropFront h hint
  simp only [dropFront, bytes, hv', Option.get_some]
  exact hb

theorem size_eq : q.size = q.bytes.length := q.wf.size_eq

theorem empty_iff : q.empty = true ↔ q.bytes = [] := by
  rw [empty, IOVector.empty, beq_iff_eq, q.wf.size_eq]
  exact length_eq_zero_iff

end PacketQueue

end AdbBridge
