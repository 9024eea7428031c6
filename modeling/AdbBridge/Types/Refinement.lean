import AdbBridge.Lib.Machine
import AdbBridge.Types.IOVector

/-!
# Chains of blocks as lists of bytes

Any number of `IOVector`s, and any sequence of operations on them. Each of the vectors
stands for a list of bytes, and every operation is what its name says on these lists:
`take_front` splits, whichever of the two ways it takes to split a block, `trim_front` is
no operation at all, and a move leaves nothing behind. No `CHECK` fails on the way, and
whatever is read from a vector is its list (`represents_run`).

What carries the argument is `IOVector.WF`, and in it that a chain which is used up has no
blocks left: `trim_front` looks at the first live block as soon as there is any block.
-/

namespace AdbBridge

open List

namespace IOVector

variable {v res : IOVector} {b : Block} {bs : List Block} {len : ℕ}

/-! ### Taking bytes from the front -/

/-- A block that goes into the other chain as a whole. Only the first one can have been
used in part. -/
theorem WF.takeBlock (hres : res.WF) {offset : ℕ} (hoff : offset < b.size)
    (hfirst : offset = 0 ∨ res = {}) :
    let r := res.append b
    let res' := if offset ≠ 0 then { r with beginOffset := offset } else r
    res'.WF ∧ res'.bytes = res.bytes ++ b.data.drop offset := by
  dsimp only
  rcases Nat.eq_zero_or_pos offset with rfl | hpos
  · rw [if_neg (by simp), drop_zero]
    exact ⟨hres.append b, hres.bytes_append b⟩
  · obtain rfl : res = {} := hfirst.resolve_left hpos.ne'
    rw [if_pos hpos.ne', append_of_pos (pos_of_gt hoff)]
    have hlive : IOVector.live { chain := [b], chainLength := b.size, beginOffset := offset } =
      [b] :=
      rfl
    simp only [nil_append, zero_add]
    exact ⟨.of_live hlive (by simp) hoff (by simp), by simp [bytes, live]⟩

/-- The invariant of the loop of `take_front`: less is to be taken than is left, and what
has been taken and what is to be taken make up the same bytes throughout. -/
theorem WF.takeLoop (hv : v.WF) (hres : res.WF) {fuel : ℕ} (hfuel : v.live.length ≤ fuel)
    (hfirst : v.beginOffset = 0 ∨ res = {}) (hlt : len < v.bytes.length) :
    ∃ v' res' rest b bs, IOVector.takeLoop fuel v res len = some (v', res', rest) ∧ v'.WF ∧
      res'.WF ∧
      v'.live = b :: bs ∧ rest < b.size - v'.beginOffset ∧
        res'.bytes ++ v'.bytes.take rest = res.bytes ++ v.bytes.take len ∧
          v'.bytes.drop rest = v.bytes.drop len := by
  obtain ⟨b, bs, hl⟩ := exists_live (length_pos_iff.mp (pos_of_gt hlt))
  induction fuel generalizing v res len b bs with
  | zero => simp [hl] at hfuel
  | succ fuel ih =>
    have hoff := hv.beginOffset_lt hl
    have hmoved : decide (v.beginOffset < b.size) = true := decide_eq_true hoff
    rw [IOVector.takeLoop, getElem?_startIndex hl]
    simp only [hmoved, if_true]
    by_cases hnext : b.size - v.beginOffset ≤ len
    · -- The whole block goes, and it is not the last one.
      rw [if_pos hnext]
      have hrest : len - (b.size - v.beginOffset) < (bytesOf bs).length := by
        rw [hv.bytes_eq hl, length_append, length_drop, Block.length_data] at hlt
        omega
      obtain ⟨c, cs, rfl⟩ : ∃ c cs, bs = c :: cs := exists_cons_of_ne_nil (by
        rintro rfl
        simp at hrest)
      obtain ⟨hres', hbytes'⟩ := hres.takeBlock hoff hfirst
      set res' := if v.beginOffset ≠ 0 then { res.append b with beginOffset := v.beginOffset }
        else res.append b with hres'def
      set v' : IOVector :=
        { chain := v.chain.set v.startIndex {}
          chainLength := v.chainLength - b.size
          beginOffset := 0
          startIndex := v.startIndex + 1 } with hdef
      have hlive' : v'.live = c :: cs := drop_set_startIndex_succ hl {}
      have hv' : v'.WF := .of_live hlive'
        (by simp [hdef, hv.chainLength_eq hl])
        (hv.tail_nonempty hl c mem_cons_self)
        fun d hd => hv.tail_nonempty hl d (mem_cons_of_mem c hd)
      have hbytes : v'.bytes = bytesOf (c :: cs) := by rw [bytes, hlive', hdef, drop_zero]
      obtain ⟨v'', res'', rest, d, ds, hloop, hv'', hres'', hlive'', hstop, htake, hdrop⟩ :=
        ih hv' hres' (by
          rw [hl, length_cons] at hfuel
          rw [hlive']
          omega) (Or.inl rfl) (hbytes ▸ hrest) c cs hlive'
      refine ⟨v'', res'', rest, d, ds, hloop, hv'', hres'', hlive'', hstop, ?_, ?_⟩
      · rw [htake, hbytes', hbytes, hv.take_bytes hl hnext, append_assoc]
      · rw [hdrop, hbytes, hv.drop_bytes hl hnext]
    · rw [if_neg hnext]
      exact ⟨v, res, len, b, bs, rfl, hv, hres, hl, not_le.mp hnext, rfl, rfl⟩

/-- The first block is split: its beginning goes to the result, and the rest stays. -/
theorem WF.splitFront (hv : v.WF) (hres : res.WF) (hl : v.live = b :: bs)
    (hpos : 0 < len) (hlt : len < b.size - v.beginOffset) :
    ∃ v' res', IOVector.splitFront v res len = some (v', res') ∧ v'.WF ∧ res'.WF ∧
      res'.bytes = res.bytes ++ v.bytes.take len ∧ v'.bytes = v.bytes.drop len := by
  have hlen : len ≤ (b.data.drop v.beginOffset).length := by simpa using hlt.le
  have htake : v.bytes.take len = (b.data.drop v.beginOffset).take len := by
    rw [hv.bytes_eq hl, take_append_of_le_length hlen]
  have hdrop : v.bytes.drop len = (b.data.drop v.beginOffset).drop len ++ bytesOf bs := by
    rw [hv.bytes_eq hl, drop_append_of_le_length hlen]
  rw [IOVector.splitFront, getElem?_startIndex hl]
  dsimp only
  split_ifs with hcopy
  · refine ⟨_, _, rfl, .of_live hl (hv.chainLength_eq hl) (by dsimp only; omega)
      (hv.tail_nonempty hl), hres.append _, ?_, ?_⟩
    · rw [hres.bytes_append, Block.data_ofBytes, htake]
    · rw [bytes, bytes, drop_drop]
      rfl
  · -- The buffer goes as it is, so nothing of it has been used.
    have hoff : v.beginOffset = 0 := by
      by_contra hne
      exact hcopy (Or.inl hne)
    rw [hoff, drop_zero] at htake hdrop
    rw [hoff, Nat.sub_zero] at hlt
    obtain ⟨front, hfront, -, hdata⟩ := Block.resize_of_le (b := b) (n := len) (by omega)
      (hlt.le.trans b.size_le_capacity)
    rw [hfront]
    have htail : (Block.ofBytes (b.data.drop len)).size = b.size - len := by simp
    set v' : IOVector := { v with
      chainLength := v.chainLength - b.size + (Block.ofBytes (b.data.drop len)).size
      chain := v.chain.set v.startIndex (Block.ofBytes (b.data.drop len)) } with hdef
    have hlive' : v'.live = Block.ofBytes (b.data.drop len) :: bs := drop_set_startIndex hl _
    have hv' : v'.WF := .of_live hlive' (by simp [hdef, hv.chainLength_eq hl]; omega)
      (by rw [hdef, htail]; dsimp only; omega) (hv.tail_nonempty hl)
    refine ⟨v', _, rfl, hv', hres.append _, ?_, ?_⟩
    · rw [hres.bytes_append, hdata, htake, Block.data, take_take, min_eq_left hlt.le]
    · rw [hv'.bytes_eq hlive', hdrop, hdef, hoff, Block.data_ofBytes, drop_zero]

/-- **`take_front` splits.** -/
theorem WF.takeFront (hv : v.WF) (h : len ≤ v.bytes.length) :
    ∃ v' res, v.takeFront len = some (v', res) ∧ v'.WF ∧ res.WF ∧
      res.bytes = v.bytes.take len ∧ v'.bytes = v.bytes.drop len := by
  rw [IOVector.takeFront, hv.size_eq]
  split_ifs with h0 hall
  · exact ⟨v, {}, rfl, hv, WF.clear v, by rw [h0]; rfl, by rw [h0, drop_zero]⟩
  · refine ⟨_, v, rfl, WF.clear v, hv, by rw [hall, take_length], ?_⟩
    rw [hall, drop_length]
    rfl
  · have hfuel : v.live.length ≤ v.chain.length + 1 := by
      rw [live, length_drop]
      omega
    have hlen : len < v.bytes.length := by omega
    obtain ⟨v', res, rest, b, bs, hloop, hv', hres, hl, hstop, htake, hdrop⟩ :=
      hv.takeLoop (WF.clear v) hfuel (Or.inr rfl) hlen
    have hnil : v.clear.bytes = [] := rfl
    rw [hnil, nil_append] at htake
    rw [show ({} : IOVector) = v.clear from rfl, hloop, Option.bind_some]
    dsimp only
    split_ifs with hpos
    · obtain ⟨v'', res', hsplit, hv'', hres', htake', hdrop'⟩ := hv'.splitFront hres hl hpos hstop
      exact ⟨v'', res', hsplit, hv'', hres', htake'.trans htake, hdrop'.trans hdrop⟩
    · have hz : rest = 0 := by omega
      rw [hz, take_zero, append_nil] at htake
      rw [hz, drop_zero] at hdrop
      exact ⟨v', res, rfl, hv', hres, htake, hdrop⟩

/-! ### Trimming -/

theorem live_trimChainFront (v : IOVector) : v.trimChainFront.live = v.live := by
  rw [trimChainFront]
  split
  · rfl
  · rfl

/-- **`trim_front`** does not show. -/
theorem WF.trimFront (hv : v.WF) : ∃ v', v.trimFront = some v' ∧ v'.WF ∧ v'.bytes = v.bytes := by
  rw [IOVector.trimFront]
  split_ifs with hdone
  · exact ⟨v, rfl, hv, rfl⟩
  · -- There are blocks, so one of them is live.
    obtain ⟨b, bs, hl⟩ : ∃ b bs, v.live = b :: bs := exists_cons_of_ne_nil fun hnil =>
      hdone (Or.inr (hv.drained hnil))
    have hoff := hv.beginOffset_lt hl
    obtain ⟨b', b'', hb', hb'', hsize, hdata⟩ := b.memmove_resize hoff
    rw [getElem?_startIndex hl]
    dsimp only
    rw [if_neg hoff.ne, hb', Option.bind_some, hb'', Option.map_some, Option.map_some]
    set v' : IOVector := { v with
      chain := v.chain.set v.startIndex b''
      chainLength := v.chainLength - v.beginOffset
      beginOffset := 0 } with hdef
    have hlive : v'.trimChainFront.live = b'' :: bs := by
      rw [live_trimChainFront]
      exact drop_set_startIndex hl b''
    have hoff' : v'.trimChainFront.beginOffset = 0 := by
      rw [trimChainFront]
      split <;> rfl
    have hlen : v'.trimChainFront.chainLength = v.chainLength - v.beginOffset := by
      rw [trimChainFront]
      split <;> rfl
    have hv' : v'.trimChainFront.WF := .of_live hlive
      (by rw [hlen, hv.chainLength_eq hl, hsize]; omega) (by omega) (hv.tail_nonempty hl)
    refine ⟨_, rfl, hv', ?_⟩
    rw [hv'.bytes_eq hlive, hoff', drop_zero, hdata, hv.bytes_eq hl]

/-! ### What is read -/

/-- The pieces handed out hold the bytes of the chain, in order. -/
theorem WF.iterateBlocks (hv : v.WF) :
    ∃ pieces, v.iterateBlocks = some pieces ∧ pieces.flatten = v.bytes := by
  rw [IOVector.iterateBlocks]
  split_ifs with h
  · rw [hv.size_eq] at h
    exact ⟨[], rfl, (eq_nil_of_length_eq_zero h).symm⟩
  · rw [hv.size_eq, ← Ne, ← Nat.pos_iff_ne_zero] at h
    obtain ⟨b, bs, hl⟩ := exists_live (length_pos_iff.mp h)
    simp only [hl]
    rw [if_pos (hv.beginOffset_lt hl).le]
    exact ⟨_, rfl, by rw [flatten_cons, flatten_map_data, hv.bytes_eq hl]⟩

/-- Coalescing gives one block with all the bytes. -/
theorem WF.coalesce (hv : v.WF) : ∃ b, v.coalesce = some b ∧ b.data = v.bytes := by
  rw [IOVector.coalesce]
  split_ifs with h
  · rw [hv.size_eq] at h
    exact ⟨{}, rfl, (eq_nil_of_length_eq_zero h).symm⟩
  · obtain ⟨pieces, hpieces, hflatten⟩ := hv.iterateBlocks
    have hresize : Block.resize {} v.size = some (.allocate v.size) := rfl
    have hcap : 0 + pieces.flatten.length ≤ (Block.allocate v.size).capacity := by
      rw [hflatten, zero_add, ← hv.size_eq]
      simp [Block.capacity, Block.allocate, Block.ofBytes]
    have hsize : (Block.allocate v.size).size = v.size := by simp [Block.allocate]
    obtain ⟨b, hcopy, hb, -, htake⟩ := Block.copyAll_of_le hcap
    rw [hpieces, Option.bind_some, hresize, Option.bind_some, hcopy]
    refine ⟨b, rfl, ?_⟩
    rw [zero_add, take_zero, nil_append, hflatten, ← hv.size_eq] at htake
    rw [Block.data, hb, hsize, htake]

/-- A chain of which only the last block is left. -/
theorem live_of_last (h : v.live = b :: bs) (hlast : v.chain.length = v.startIndex + 1) :
    bs = [] ∧ v.chain.getLast? = some b := by
  constructor
  · have hlen := congrArg List.length h
    rw [live, length_drop, hlast, length_cons] at hlen
    exact eq_nil_of_length_eq_zero (by omega)
  · rw [List.getLast?_eq_getElem?, hlast, Nat.add_sub_cancel]
    exact getElem?_startIndex h

/-- What is in use of a block, moved to the front of its buffer. -/
theorem exists_moved_front (b : Block) (offset : ℕ) :
    ∃ front, (if offset ≠ 0 then b.memcpy 0 (b.data.drop offset) else some b) = some front ∧
      front.size = b.size ∧ front.capacity = b.capacity ∧
        front.buf.take (b.size - offset) = b.data.drop offset := by
  split_ifs with hzero
  · have hcap := b.size_le_capacity
    obtain ⟨front, hfront, hsize, hcap', htake⟩ := Block.memcpy_of_le (b := b) 0
      (b.data.drop offset) (by simp; omega)
    exact ⟨front, hfront, hsize, hcap', by simpa using htake⟩
  · rw [not_not] at hzero
    exact ⟨b, rfl, rfl, rfl, by rw [hzero, Nat.sub_zero, drop_zero, Block.data]⟩

/-- **`coalesce` of a chain that is not needed any more** is the bytes of the chain,
whichever way it takes. -/
theorem WF.coalesceMoved (hv : v.WF) :
    ∃ v' b, v.coalesceMoved = some (v', b) ∧ b.data = v.bytes := by
  rw [IOVector.coalesceMoved]
  by_cases h : v.size = 0
  · rw [if_pos h]
    rw [hv.size_eq] at h
    exact ⟨v, {}, rfl, (eq_nil_of_length_eq_zero h).symm⟩
  rw [if_neg h]
  rw [hv.size_eq, ← Ne, ← Nat.pos_iff_ne_zero] at h
  obtain ⟨b, bs, hl⟩ := exists_live (length_pos_iff.mp h)
  have hoff := hv.beginOffset_lt hl
  have hne : v.chain ≠ [] := ne_nil_of_length_pos (pos_of_gt (startIndex_lt hl))
  rw [getElem?_startIndex hl, List.getLast?_eq_some_getLast hne]
  dsimp only
  -- The first byte is inside of its block, so the first branch is not taken.
  rw [if_neg fun hused => hoff.ne hused.1]
  by_cases hlast : v.chain.length = v.startIndex + 1
  · rw [if_pos hlast]
    obtain ⟨rfl, hback⟩ := live_of_last hl hlast
    obtain rfl : v.chain.getLast hne = b :=
      Option.some.inj ((List.getLast?_eq_some_getLast hne).symm.trans hback)
    rw [hv.bytes_eq hl, bytesOf_nil, append_nil]
    split_ifs with hzero
    · obtain ⟨b', b'', hb', hb'', -, hdata⟩ := Block.memmove_resize hoff
      rw [hb', Option.bind_some, hb'', Option.map_some]
      exact ⟨_, b'', rfl, hdata⟩
    · rw [not_not] at hzero
      exact ⟨_, _, rfl, by rw [hzero, drop_zero]⟩
  rw [if_neg hlast]
  by_cases hcap : v.size ≤ b.capacity
  · -- The other blocks are copied behind the first one, into its own buffer.
    rw [if_pos hcap]
    obtain ⟨front, hfront, hsize, hcapacity, htake⟩ := exists_moved_front b v.beginOffset
    have htotal : b.size - v.beginOffset + (bytesOf bs).length = v.size := by
      rw [size, hv.chainLength_eq hl, length_bytesOf]
      omega
    have hroom : b.size - v.beginOffset + (bs.map Block.data).flatten.length ≤ front.capacity := by
      rw [flatten_map_data, htotal, hcapacity]
      exact hcap
    obtain ⟨b', hcopy, hsize', hcapacity', htake'⟩ := Block.copyAll_of_le hroom
    rw [flatten_map_data, htotal] at hcopy htake'
    obtain ⟨b'', hresize, -, hdata⟩ := Block.resize_of_le (b := b') (n := v.size) (by omega)
      (by omega)
    rw [hfront, Option.bind_some, drop_startIndex_succ hl, hcopy, Option.bind_some]
    dsimp only
    rw [hresize, Option.map_some]
    exact ⟨_, b'', rfl, by rw [hdata, htake', htake, hv.bytes_eq hl]⟩
  · rw [if_neg hcap]
    obtain ⟨b', hb', hdata⟩ := hv.coalesce
    exact ⟨v, b', by rw [hb', Option.map_some], hdata⟩

/-- A function of the coalesced bytes is one of the bytes. -/
theorem WF.coalesced (hv : v.WF) {β : Type*} (f : Bytes → β) :
    v.coalesced f = some (f v.bytes) := by
  rw [IOVector.coalesced]
  split_ifs with hlast
  · obtain ⟨b, bs, hl⟩ : ∃ b bs, v.live = b :: bs := exists_cons_of_ne_nil fun hnil => by
      have hlen := congrArg List.length hnil
      rw [live, length_drop, hlast, length_nil] at hlen
      omega
    obtain ⟨rfl, -⟩ := live_of_last hl hlast
    have hsize : v.size = b.size - v.beginOffset := by
      rw [size, hv.chainLength_eq hl, map_nil, sum_nil, add_zero]
    rw [getElem?_startIndex hl, Option.map_some, hv.bytes_eq hl, bytesOf_nil, append_nil, hsize,
      Block.data, drop_take]
  · obtain ⟨b, hb, hdata⟩ := hv.coalesce
    rw [hb, Option.map_some, hdata]

end IOVector

/-! ### Any number of vectors -/

/-- The operations on the vectors that `ι` names. -/
inductive VectorOp (ι : Type*)
  | append (i : ι) (block : Block)
  | dropFront (i : ι) (len : ℕ)
  /-- What is taken from the front of `i` is moved to `j`. -/
  | takeFront (i j : ι) (len : ℕ)
  | trimFront (i : ι)
  | clear (i : ι)
  /-- Move construction and move assignment of `j` from `i`. -/
  | move (i j : ι)

section Vectors

variable {ι : Type*} [DecidableEq ι] {v : IOVector} {vs : ι → IOVector} {ls : ι → Bytes}

/-- The operations, as the source has them. -/
def VectorOp.apply (vs : ι → IOVector) : VectorOp ι → Option (ι → IOVector)
  | .append i block => some (Function.update vs i ((vs i).append block))
  | .dropFront i len => ((vs i).dropFront len).map (Function.update vs i)
  | .takeFront i j len => ((vs i).takeFront len).map fun (v, res) =>
      Function.update (Function.update vs i v) j res
  | .trimFront i => ((vs i).trimFront).map (Function.update vs i)
  | .clear i => some (Function.update vs i (vs i).clear)
  | .move i j => some (Function.update (Function.update vs j (vs i)) i (vs i).clear)

/-- What the operations mean for the bytes. -/
def VectorOp.spec (ls : ι → Bytes) : VectorOp ι → ι → Bytes
  | .append i block => Function.update ls i (ls i ++ block.data)
  | .dropFront i len => Function.update ls i ((ls i).drop len)
  | .takeFront i j len =>
    Function.update (Function.update ls i ((ls i).drop len)) j ((ls i).take len)
  | .trimFront _ => ls
  | .clear i => Function.update ls i []
  | .move i j => Function.update (Function.update ls j (ls i)) i []

/-- What the callers keep to: no more is dropped or taken than there is, what is dropped is
the result of a `writev`, and nothing is moved to itself. -/
def VectorOp.Pre (ls : ι → Bytes) : VectorOp ι → Prop
  | .dropFront i len => len ≤ (ls i).length ∧ len < 2 ^ 31
  | .takeFront i _ len => len ≤ (ls i).length
  | .move i j => i ≠ j
  | _ => True

/-- Lists of bytes under the operations. -/
def byteLists : Machine (ι → Bytes) (VectorOp ι) where
  init := fun ls => ls = fun _ => []
  enabled := VectorOp.Pre
  step := VectorOp.spec

/-- What there is to know about a vector that stands for a list of bytes: the list itself,
everything that reads it, and what the representation promises. -/
structure Represents (v : IOVector) (l : Bytes) : Prop where
  bytes : v.bytes = l
  size : v.size = l.length
  coalesce : ∃ b, v.coalesce = some b ∧ b.data = l
  coalesceMoved : ∃ v' b, v.coalesceMoved = some (v', b) ∧ b.data = l
  coalesced : ∀ {β : Type} (f : Bytes → β), v.coalesced f = some (f l)
  iovecs : ∃ ranges, v.iovecs = some ranges ∧ ranges.flatten = l
  offset : l ≠ [] → ∃ b, v.chain[v.startIndex]? = some b ∧ v.beginOffset < b.size
  chainLength : v.chainLength = ((v.chain.drop v.startIndex).map Block.size).sum

theorem IOVector.WF.represents (hv : v.WF) : Represents v v.bytes where
  bytes := rfl
  size := hv.size_eq
  coalesce := hv.coalesce
  coalesceMoved := hv.coalesceMoved
  coalesced := hv.coalesced
  iovecs := hv.iterateBlocks
  offset := fun h => by
    obtain ⟨b, bs, hl⟩ := IOVector.exists_live h
    exact ⟨b, IOVector.getElem?_startIndex hl, hv.beginOffset_lt hl⟩
  chainLength := hv.length_eq

/-- All the vectors are well formed and stand for these lists. -/
def Stand (vs : ι → IOVector) (ls : ι → Bytes) : Prop := ∀ i, (vs i).WF ∧ (vs i).bytes = ls i

theorem Stand.update (h : Stand vs ls) (i : ι) {l : Bytes} (hv : v.WF) (hl : v.bytes = l) :
    Stand (Function.update vs i v) (Function.update ls i l) := by
  intro k
  by_cases hk : k = i
  · subst hk
    simpa using ⟨hv, hl⟩
  · simpa [hk] using h k

/-- **One operation.** -/
theorem Stand.apply (h : Stand vs ls) {op : VectorOp ι}
    (hpre : op.Pre ls) : ∃ vs', op.apply vs = some vs' ∧ Stand vs' (op.spec ls) := by
  cases op with
  | append i block =>
    obtain ⟨hv, hl⟩ := h i
    exact ⟨_, rfl, h.update i (hv.append block) (by rw [hv.bytes_append, hl])⟩
  | dropFront i len =>
    obtain ⟨hv, hl⟩ := h i
    obtain ⟨hle, hint⟩ := hpre
    obtain ⟨v', hdrop, hv', hl'⟩ := hv.dropFront (hl ▸ hle) (hint.trans (by decide))
    exact ⟨_, by rw [VectorOp.apply, hdrop, Option.map_some], h.update i hv' (by rw [hl', hl])⟩
  | takeFront i j len =>
    obtain ⟨hv, hl⟩ := h i
    have hle : len ≤ (ls i).length := hpre
    obtain ⟨v', res, htake, hv', hres, hbytes, hrest⟩ := hv.takeFront (hl ▸ hle)
    exact ⟨_, by rw [VectorOp.apply, htake, Option.map_some],
      (h.update i hv' (by rw [hrest, hl])).update j hres (by rw [hbytes, hl])⟩
  | trimFront i =>
    obtain ⟨hv, hl⟩ := h i
    obtain ⟨v', htrim, hv', hl'⟩ := hv.trimFront
    have hstand := h.update i hv' (hl'.trans hl)
    rw [Function.update_eq_self] at hstand
    exact ⟨_, by rw [VectorOp.apply, htrim, Option.map_some], hstand⟩
  | clear i => exact ⟨_, rfl, h.update i (.clear _) rfl⟩
  | move i j =>
    obtain ⟨hv, hl⟩ := h i
    exact ⟨_, rfl, (h.update j hv hl).update i (.clear _) rfl⟩

/-- Any sequence of operations. -/
theorem Stand.run (h : Stand vs ls) {ops : List (VectorOp ι)} (hlegal : byteLists.Legal ls ops) :
    ∃ vs', ops.foldlM VectorOp.apply vs = some vs' ∧ Stand vs' (byteLists.run ls ops) := by
  induction ops generalizing vs ls with
  | nil => exact ⟨vs, rfl, h⟩
  | cons op ops ih =>
    obtain ⟨vs', happly, hstand⟩ := h.apply hlegal.1
    obtain ⟨vs'', hrun, hstand'⟩ := ih hstand hlegal.2
    exact ⟨vs'', by rw [foldlM_cons, happly]; exact hrun, hstand'⟩

/-- **`IOVector` refines a list of bytes**: after any sequence of operations on any number
of vectors no `CHECK` has failed, and every vector stands for the list that the plain list
operations give. -/
theorem represents_run {ops : List (VectorOp ι)} (h : byteLists.Legal (fun _ => []) ops) :
    ∃ vs, ops.foldlM VectorOp.apply (fun _ => {}) = some vs ∧
      ∀ i, Represents (vs i) (byteLists.run (fun _ => []) ops i) := by
  have hinit : Stand (fun _ : ι => ({} : IOVector)) fun _ => [] := fun _ => ⟨.clear {}, rfl⟩
  obtain ⟨vs, hrun, hstand⟩ := hinit.run h
  refine ⟨vs, hrun, fun i => ?_⟩
  rw [← (hstand i).2]
  exact (hstand i).1.represents

/-- Two blocks, of which a part is dropped and another one is taken. -/
theorem represents_run_split :
    ∃ vs, [VectorOp.append 0 (.ofBytes (ascii "hello ")), .append 0 (.ofBytes (ascii "world")),
        .dropFront 0 2, .takeFront 0 1 6, .trimFront 0].foldlM VectorOp.apply
          (fun _ : Fin 2 => {}) = some vs ∧
      Represents (vs 0) (ascii "rld") ∧ Represents (vs 1) (ascii "llo wo") := by
  have hlegal : byteLists.Legal (fun _ : Fin 2 => [])
      [.append 0 (.ofBytes (ascii "hello ")), .append 0 (.ofBytes (ascii "world")),
        .dropFront 0 2, .takeFront 0 1 6, .trimFront 0] :=
    ⟨trivial, trivial, ⟨by decide +kernel, by decide⟩, by change 6 ≤ List.length _; decide +kernel,
      trivial, trivial⟩
  obtain ⟨vs, hrun, hrep⟩ := represents_run hlegal
  exact ⟨vs, hrun, hrep 0, hrep 1⟩

end Vectors

end AdbBridge
