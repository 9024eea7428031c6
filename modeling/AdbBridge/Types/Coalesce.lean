import AdbBridge.Types.Refinement

/-!
# What a destructive `coalesce` leaves behind

`std::move(v).coalesce()` may take a block out of the chain instead of copying it, and the
source promises that the vector is "in some valid state" afterwards. `IOVector.Usable` is
what this comes to: the first live block is there unless the chain is empty, the counts are
those of the live blocks, and nothing that looks at the front of the chain, now or after an
`append`, looks past its end.

A chain that was not used up is left in one of three states: as it was, without its first
live block, or without its last block (`WF.coalesceMoved_cases`). The last of these is the
one that goes wrong. When a single block is live it goes, but the dead blocks before it
stay: the chain is not empty, so that `front_data` takes the block at `startIndex`, and
there is none. Nothing else can happen to a vector that the other operations built
(`coalesceMoved_usable_iff`).
-/

namespace AdbBridge

open List Option

namespace IOVector

/-- The bytes that `front_data` points to, and nothing for a null pointer. -/
def frontData (v : IOVector) : Option (Option Bytes) :=
  if v.chain = [] then some none
  else v.chain[v.startIndex]?.map fun block => some (block.data.drop v.beginOffset)

def frontSize (v : IOVector) : Option ℕ :=
  if v.chain = [] then some 0
  else v.chain[v.startIndex]?.map fun block => block.size - v.beginOffset

/-- Nothing that looks at the front of the chain looks outside of it. -/
structure Readable (v : IOVector) : Prop where
  frontData : v.frontData.isSome
  frontSize : v.frontSize.isSome
  trimFront : v.trimFront.isSome
  iovecs : v.iovecs.isSome

/-- A valid state of a vector. -/
structure Usable (v : IOVector) : Prop where
  start : v.chain = [] ∨ v.startIndex < v.chain.length
  offset : ∀ b, v.chain[v.startIndex]? = some b → v.beginOffset ≤ b.size
  chainLength : v.chainLength = ((v.chain.drop v.startIndex).map Block.size).sum
  readable : v.Readable
  append : ∀ block, (v.append block).Readable

variable {v v' : IOVector} {b : Block} {bs : List Block} {len : ℕ}

/-! ### Well-formed chains are usable -/

theorem WF.chain_eq_nil_or_live (hv : v.WF) : v.chain = [] ∨ ∃ b bs, v.live = b :: bs := by
  rcases hl : v.live with _ | ⟨b, bs⟩
  · exact Or.inl (hv.drained hl)
  · exact Or.inr ⟨b, bs, rfl⟩

theorem WF.readable (hv : v.WF) : v.Readable := by
  have hfront : v.chain = [] ∨ ∃ b, v.chain[v.startIndex]? = some b :=
    hv.chain_eq_nil_or_live.imp_right fun ⟨b, _, hl⟩ => ⟨b, getElem?_startIndex hl⟩
  obtain ⟨w, htrim, -⟩ := hv.trimFront
  obtain ⟨ranges, hranges, -⟩ := hv.iterateBlocks
  refine ⟨?_, ?_, by rw [htrim, isSome_some], by rw [iovecs, hranges, isSome_some]⟩
  · rcases hfront with hnil | ⟨b, hb⟩
    · rw [frontData, if_pos hnil, isSome_some]
    · rw [frontData, hb]
      split_ifs <;> rfl
  · rcases hfront with hnil | ⟨b, hb⟩
    · rw [frontSize, if_pos hnil, isSome_some]
    · rw [frontSize, hb]
      split_ifs <;> rfl

theorem WF.usable (hv : v.WF) : v.Usable where
  start := hv.chain_eq_nil_or_live.imp_right fun ⟨_, _, hl⟩ => startIndex_lt hl
  offset := fun b hb => by
    rcases hv.chain_eq_nil_or_live with hnil | ⟨c, cs, hl⟩
    · simp [hnil] at hb
    · obtain rfl : c = b := some.inj ((getElem?_startIndex hl).symm.trans hb)
      exact (hv.beginOffset_lt hl).le
  chainLength := hv.length_eq
  readable := hv.readable
  append := fun block => (hv.append block).readable

/-- A chain of dead blocks only is not. -/
theorem not_usable_of_dead (hne : v.chain ≠ []) (hdead : v.chain.length = v.startIndex) :
    ¬ v.Usable := fun h => by
  rcases h.start with hnil | hlt
  · exact hne hnil
  · omega

/-! ### The three states a chain can be left in -/

/-- The chain after its last block has gone, with the dead blocks that are still in it. -/
def withoutLast (v : IOVector) : IOVector :=
  { chain := v.chain.dropLast, chainLength := 0, beginOffset := 0, startIndex := v.startIndex }

/-- The chain after its first live block `c` has gone. -/
def withoutFirst (v : IOVector) (c : Block) : IOVector :=
  { chain := v.chain.set v.startIndex {}, chainLength := v.chainLength - c.size, beginOffset := 0,
    startIndex := v.startIndex + 1 }

/-- More than one block is live. -/
theorem exists_second (h : v.live = b :: bs) (hlast : v.chain.length ≠ v.startIndex + 1) :
    ∃ d ds, bs = d :: ds := by
  refine exists_cons_of_ne_nil fun hnil => hlast ?_
  have hlen := congrArg List.length h
  have hlt := startIndex_lt h
  rw [live, length_drop, hnil, length_singleton] at hlen
  omega

/-- **What is left of the chain.** -/
theorem WF.coalesceMoved_cases (hv : v.WF) (h : v.coalesceMoved = some (v', b)) :
    (v.chain.length ≠ v.startIndex + 1 ∧ v' = v) ∨
    (v.chain.length = v.startIndex + 1 ∧ v' = v.withoutLast) ∨
    (v.chain.length ≠ v.startIndex + 1 ∧
      ∃ c d ds, v.live = c :: d :: ds ∧ v' = v.withoutFirst c) := by
  rw [IOVector.coalesceMoved] at h
  by_cases hsize : v.size = 0
  · rw [if_pos hsize] at h
    obtain ⟨rfl, -⟩ := Prod.mk.inj (some.inj h)
    rw [hv.size_eq] at hsize
    have hnil := hv.drained (hv.live_eq_nil (eq_nil_of_length_eq_zero hsize))
    exact Or.inl ⟨by simp [hnil], rfl⟩
  rw [if_neg hsize] at h
  rw [hv.size_eq, ← Ne, ← Nat.pos_iff_ne_zero] at hsize
  obtain ⟨c, cs, hl⟩ := exists_live (length_pos_iff.mp hsize)
  have hne : v.chain ≠ [] := ne_nil_of_length_pos (pos_of_gt (startIndex_lt hl))
  rw [getElem?_startIndex hl, List.getLast?_eq_some_getLast hne] at h
  dsimp only at h
  -- The first byte is inside of its block, so the first branch is not taken.
  rw [if_neg fun hused => (hv.beginOffset_lt hl).ne hused.1] at h
  by_cases hlast : v.chain.length = v.startIndex + 1
  · refine Or.inr (Or.inl ⟨hlast, ?_⟩)
    rw [if_pos hlast] at h
    obtain ⟨rfl, hback⟩ := live_of_last hl hlast
    obtain rfl : v.chain.getLast hne = c :=
      some.inj ((List.getLast?_eq_some_getLast hne).symm.trans hback)
    have hlen : v.chainLength - (v.chain.getLast hne).size = 0 := by
      rw [hv.chainLength_eq hl]
      simp
    rw [hlen] at h
    split_ifs at h with hzero
    · obtain ⟨_, _, hresize⟩ := bind_eq_some_iff.mp h
      obtain ⟨_, _, hpair⟩ := map_eq_some_iff.mp hresize
      exact (Prod.mk.inj hpair).1.symm
    · rw [not_not] at hzero
      rw [hzero] at h
      exact (Prod.mk.inj (some.inj h)).1.symm
  rw [if_neg hlast] at h
  by_cases hcap : v.size ≤ c.capacity
  · rw [if_pos hcap] at h
    obtain ⟨d, ds, rfl⟩ := exists_second hl hlast
    obtain ⟨_, _, hcopy⟩ := bind_eq_some_iff.mp h
    obtain ⟨_, _, hresize⟩ := bind_eq_some_iff.mp hcopy
    obtain ⟨_, _, hpair⟩ := map_eq_some_iff.mp hresize
    exact Or.inr (Or.inr ⟨hlast, c, d, ds, hl, (Prod.mk.inj hpair).1.symm⟩)
  · rw [if_neg hcap] at h
    obtain ⟨_, _, hpair⟩ := map_eq_some_iff.mp h
    exact Or.inl ⟨hlast, (Prod.mk.inj hpair).1.symm⟩

theorem WF.withoutFirst (hv : v.WF) {c d : Block} {ds : List Block} (hl : v.live = c :: d :: ds) :
    (v.withoutFirst c).WF := by
  have hlive : (v.withoutFirst c).live = d :: ds := drop_set_startIndex_succ hl {}
  refine .of_live hlive ?_ (hv.tail_nonempty hl d mem_cons_self)
    fun e he => hv.tail_nonempty hl e (mem_cons_of_mem d he)
  rw [IOVector.withoutFirst, hv.chainLength_eq hl, Nat.add_sub_cancel_left, map_cons,
    sum_cons]

/-- **A destructive `coalesce` of a well-formed chain** leaves it usable, unless it takes out
the only live block of a chain with dead ones. -/
theorem WF.usable_coalesceMoved_iff (hv : v.WF) (h : v.coalesceMoved = some (v', b)) :
    v'.Usable ↔ ¬ (v.chain.length = v.startIndex + 1 ∧ 0 < v.startIndex) := by
  rcases hv.coalesceMoved_cases h with ⟨hlast, rfl⟩ | ⟨hlast, rfl⟩ | ⟨hlast, c, d, ds, hl, rfl⟩
  · exact iff_of_true hv.usable fun hdead => hlast hdead.1
  · have hlen : v.withoutLast.chain.length = v.startIndex := by
      rw [withoutLast, length_dropLast, hlast, Nat.add_sub_cancel]
    rcases Nat.eq_zero_or_pos v.startIndex with hzero | hpos
    · have hnil : v.chain.dropLast = [] := eq_nil_of_length_eq_zero (hlen.trans hzero)
      have hclear : v.withoutLast = v.clear := by
        rw [withoutLast, hnil, hzero]
        rfl
      rw [hclear]
      exact iff_of_true (WF.clear v).usable fun hdead => hdead.2.ne' hzero
    · exact iff_of_false (not_usable_of_dead (ne_nil_of_length_pos (hlen ▸ hpos)) hlen)
        fun hnot => hnot ⟨hlast, hpos⟩
  · exact iff_of_true (hv.withoutFirst hl).usable fun hdead => hlast hdead.1

/-! ### Vectors that the other operations built -/

/-- Nothing is dropped from a chain that is used up. -/
theorem dropLoop_of_dead (hdead : v.chain[v.startIndex]? = none) {fuel dropped : ℕ}
    (hlt : dropped < len) : IOVector.dropLoop fuel v dropped len = none := by
  cases fuel with
  | zero => rw [IOVector.dropLoop, if_pos hlt]
  | succ fuel => rw [IOVector.dropLoop, if_pos hlt, hdead]

/-- The block that goes is the last one. -/
theorem dead_of_popFrontBlock (hl : v.live = [b]) (h : v.popFrontBlock = some v') :
    v'.chain[v'.startIndex]? = none := by
  have hdrop := drop_set_startIndex_succ hl {}
  have hlen : (v.chain.set v.startIndex {}).length ≤ v.startIndex + 1 :=
    drop_eq_nil_iff.mp hdrop
  rw [popFrontBlock, getElem?_startIndex hl] at h
  obtain rfl := some.inj h
  dsimp only
  split_ifs with hmax
  · rw [trimChainFront, if_pos (Nat.succ_ne_zero _)]
    simp [hdrop]
  · exact List.getElem?_eq_none hlen

/-- A count that wraps never reaches what is to be dropped: the loop ends in the middle of a
block, or not at all. -/
theorem WF.dropLoop_of_wrap (hv : v.WF) {fuel dropped : ℕ} (hlen : 2 ^ 32 ≤ len)
    (hlt : dropped < 2 ^ 32) (h : IOVector.dropLoop fuel v dropped len = some v') : v'.WF := by
  induction fuel generalizing v dropped with
  | zero =>
    rw [IOVector.dropLoop, if_pos (hlt.trans_le hlen)] at h
    exact absurd h (by simp)
  | succ fuel ih =>
    rcases hl : v.live with _ | ⟨b, bs⟩
    · have hdead : v.chain[v.startIndex]? = none := by
        rw [List.getElem?_eq_none_iff]
        exact drop_eq_nil_iff.mp hl
      rw [dropLoop_of_dead hdead (hlt.trans_le hlen)] at h
      exact absurd h (by simp)
    have hoff := hv.beginOffset_lt hl
    rw [IOVector.dropLoop, if_pos (hlt.trans_le hlen), getElem?_startIndex hl] at h
    dsimp only at h
    split_ifs at h with hnext
    · obtain ⟨w, hpop, h⟩ := bind_eq_some_iff.mp h
      have hmod : (dropped + (b.size - v.beginOffset)) % 2 ^ 32 < 2 ^ 32 :=
        Nat.mod_lt _ (by norm_num)
      rcases bs with _ | ⟨c, cs⟩
      · rw [dropLoop_of_dead (dead_of_popFrontBlock hl hpop) (hmod.trans_le hlen)] at h
        exact absurd h (by simp)
      · obtain ⟨w', hpop', hw, -⟩ := hv.popFrontBlock hl
        obtain rfl := some.inj (hpop.symm.trans hpop')
        exact ih hw hmod h
    · obtain rfl := some.inj h
      exact .of_live hl (hv.chainLength_eq hl) (by dsimp only; omega) (hv.tail_nonempty hl)

/-- Whatever is dropped, a chain that comes out of `drop_front` is well formed. -/
theorem WF.of_dropFront (hv : v.WF) (h : v.dropFront len = some v') : v'.WF := by
  rcases lt_or_ge v.bytes.length len with hlong | hle
  · rw [IOVector.dropFront, hv.size_eq, if_neg (by omega), if_neg (by omega),
      if_neg (by omega)] at h
    exact absurd h (by simp)
  rcases lt_or_ge len (2 ^ 32) with hint | hwrap
  · obtain ⟨w, hdrop, hw, -⟩ := hv.dropFront hle hint
    obtain rfl := some.inj (hdrop.symm.trans h)
    exact hw
  · rw [IOVector.dropFront] at h
    split_ifs at h with h0 hall hlt
    · omega
    · obtain rfl := some.inj h
      exact .clear v
    · exact hv.dropLoop_of_wrap hwrap (by norm_num) h

theorem WF.of_takeFront (hv : v.WF) {res : IOVector}
    (h : v.takeFront len = some (v', res)) : v'.WF ∧ res.WF := by
  rcases lt_or_ge v.bytes.length len with hlong | hle
  · rw [IOVector.takeFront, hv.size_eq, if_neg (by omega), if_neg (by omega),
      if_neg (by omega)] at h
    exact absurd h (by simp)
  · obtain ⟨w, res', htake, hw, hres, -⟩ := hv.takeFront hle
    obtain ⟨rfl, rfl⟩ := Prod.mk.inj (some.inj (htake.symm.trans h))
    exact ⟨hw, hres⟩

end IOVector

section Vectors

variable {ι : Type*} [DecidableEq ι]

theorem wf_update {vs : ι → IOVector} (hvs : ∀ i, (vs i).WF) (i : ι) {v : IOVector} (hv : v.WF) :
    ∀ k, (Function.update vs i v k).WF := fun k => by
  by_cases hk : k = i
  · rw [hk, Function.update_self]
    exact hv
  · rw [Function.update_of_ne hk]
    exact hvs k

/-- One operation, on whatever arguments it gets through with. -/
theorem wf_of_apply {vs vs' : ι → IOVector} (hvs : ∀ i, (vs i).WF) {op : VectorOp ι}
    (h : op.apply vs = some vs') : ∀ i, (vs' i).WF := by
  cases op with
  | append i block =>
    obtain rfl := some.inj h
    exact wf_update hvs i ((hvs i).append block)
  | dropFront i len =>
    obtain ⟨v, hdrop, rfl⟩ := map_eq_some_iff.mp h
    exact wf_update hvs i ((hvs i).of_dropFront hdrop)
  | takeFront i j len =>
    obtain ⟨⟨v, res⟩, htake, rfl⟩ := map_eq_some_iff.mp h
    obtain ⟨hv, hres⟩ := (hvs i).of_takeFront htake
    exact wf_update (wf_update hvs i hv) j hres
  | trimFront i =>
    obtain ⟨v, htrim, rfl⟩ := map_eq_some_iff.mp h
    obtain ⟨w, htrim', hw, -⟩ := (hvs i).trimFront
    obtain rfl := some.inj (htrim'.symm.trans htrim)
    exact wf_update hvs i hw
  | clear i =>
    obtain rfl := some.inj h
    exact wf_update hvs i (.clear _)
  | move i j =>
    obtain rfl := some.inj h
    exact wf_update (wf_update hvs j (hvs i)) i (.clear _)

/-- Any sequence of operations. -/
theorem wf_of_run {vs vs' : ι → IOVector} (hvs : ∀ i, (vs i).WF) {ops : List (VectorOp ι)}
    (h : ops.foldlM VectorOp.apply vs = some vs') : ∀ i, (vs' i).WF := by
  induction ops generalizing vs with
  | nil =>
    obtain rfl := some.inj h
    exact hvs
  | cons op ops ih =>
    rw [foldlM_cons] at h
    obtain ⟨w, happly, hrun⟩ := bind_eq_some_iff.mp h
    exact ih (wf_of_apply hvs happly) hrun

/-- **A destructive `coalesce` of any vector that the other operations built**, whatever they
were called with, as long as no `CHECK` of theirs failed: it gives a block, and it leaves the
vector usable just when it did not take the only live block of a chain with dead ones. -/
theorem coalesceMoved_usable_iff (ops : List (VectorOp ι)) (vs : ι → IOVector)
    (h : ops.foldlM VectorOp.apply (fun _ => {}) = some vs) (i : ι) :
    (∃ v' b, (vs i).coalesceMoved = some (v', b) ∧ v'.Usable) ↔
      ¬ ((vs i).chain.length = (vs i).startIndex + 1 ∧ 0 < (vs i).startIndex) := by
  have hv : (vs i).WF := wf_of_run (fun _ => .clear {}) h i
  obtain ⟨v', b, hmoved, -⟩ := hv.coalesceMoved
  rw [← hv.usable_coalesceMoved_iff hmoved]
  constructor
  · rintro ⟨w, c, hw, husable⟩
    obtain ⟨rfl, -⟩ := Prod.mk.inj (some.inj (hw.symm.trans hmoved))
    exact husable
  · exact fun husable => ⟨v', b, hmoved, husable⟩

/-- The vector of two blocks, `"ab"` and `"cd"`, of which the first has been dropped. -/
def oneOfTwo : List (VectorOp (Fin 1)) :=
  [.append 0 (.ofBytes (ascii "ab")), .append 0 (.ofBytes (ascii "cd")), .dropFront 0 2]

/-- The same, trimmed before it is coalesced. -/
theorem coalesceMoved_usable_trimmed :
    ∃ vs, (oneOfTwo ++ [VectorOp.trimFront 0]).foldlM VectorOp.apply (fun _ => {}) = some vs ∧
      ∃ v' b, (vs 0).coalesceMoved = some (v', b) ∧ v'.Usable :=
  ⟨_, rfl, (coalesceMoved_usable_iff (oneOfTwo ++ [.trimFront 0]) _ rfl 0).mpr (by decide +kernel)⟩

/-- **The only live block goes and a dead one stays**: the vector has a chain, but not the
block that `front_data`, `front_size` and `trim_front` look at. -/
theorem coalesceMoved_not_usable :
    ∃ vs v' b, oneOfTwo.foldlM VectorOp.apply (fun _ => {}) = some vs ∧
      (vs 0).coalesceMoved = some (v', b) ∧ b.data = ascii "cd" ∧ v'.chain.length = 1 ∧
      v'.startIndex = 1 ∧ v'.frontData = none ∧ v'.frontSize = none ∧ v'.trimFront = none ∧
      ¬ v'.Usable := by
  refine ⟨_, _, _, rfl, rfl, by decide +kernel, by decide +kernel, by decide +kernel,
    by decide +kernel, by decide +kernel, by decide +kernel, ?_⟩
  exact IOVector.not_usable_of_dead (by decide +kernel) (by decide +kernel)

end Vectors

end AdbBridge
