import AdbBridge.Lib.Slices
import AdbBridge.Types.CLibrary

/-!
# Serving a package to be sideloaded

The device asks for blocks of the package by their numbers, in requests of eight characters, until
it says `DONEDONE` or `FAILFAIL`. The number is whatever `strtoll` makes of the request. A block
that begins inside of the package is answered with what there is of it, and any other request ends
the loop without an answer: a number that is too large because it is compared with the size, and a
negative one because there is no such place to seek to (`AdbBridge.sideload_serves`).
-/

namespace AdbBridge

open List

/-- `SIDELOAD_HOST_BLOCK_SIZE`, and the size of `buf`. -/
def sideloadHostBlockSize : ℕ := 64 * 1024

/-- `kMinadbdServicesExitSuccess`. -/
def exitSuccess : Bytes := ascii "DONEDONE"

/-- `kMinadbdServicesExitFailure`. -/
def exitFailure : Bytes := ascii "FAILFAIL"

/-- The package: what is in it, what `adb_lseek` returns, and what the reads from some place on
give. -/
structure Package where
  content : Bytes
  seek : ℤ → ℤ
  pieces : ℕ → List Bytes

/-- Seeks and reads inside of the package succeed, and a seek to a negative place fails. -/
structure Package.Readable (p : Package) : Prop where
  seek_inside : ∀ off : ℕ, off < p.content.length → p.seek off = off
  seek_negative : ∀ off < 0, p.seek off = -1
  flows : ∀ off, Flows (p.pieces off)
  read : ∀ off < p.content.length, (p.pieces off).flatten = p.content.drop off

/-- The variables of the loop: the buffer, the ends of all that has been written to it, and what
has been written to the device, by answers. -/
structure Sideload where
  buf : Bytes
  extents : List ℕ
  answers : List Bytes

namespace Sideload

/-- A read into the buffer, of at most `len` bytes. -/
def reserve (s : Sideload) (len : ℕ) : Sideload := { s with extents := s.extents ++ [len] }

/-- Bytes are put into the buffer. -/
def store (s : Sideload) (off : ℕ) (data : Bytes) : Sideload :=
  { s with buf := overwrite s.buf off data, extents := s.extents ++ [off + data.length] }

/-- The string at the beginning of the buffer. -/
def text (s : Sideload) : Bytes := s.buf.takeWhile (· != 0)

end Sideload

/-- `to_write` of a block at `offset`. -/
def toWrite (size offset : ℤ) : ℕ :=
  if size < offset + sideloadHostBlockSize then (size - offset).toNat else sideloadHostBlockSize

/-- The loop of `adb_sideload_install` and what it returns, for at most so many turns. The requests
come in pieces, and `writes` is what the calls of `adb_write` come to for each answer. -/
def sideloadLoop (p : Package) (writes : ℕ → List WriteOutcome) :
    ℕ → List Bytes → Sideload → Option (Sideload × ℤ)
  | 0, _, _ => none
  | turns + 1, pieces, s =>
    let s := s.reserve 8
    match readFdExactly 8 pieces with
    | none => some (s, -1)
    | some (request, pieces) =>
      let s := (s.store 0 request).store 8 [0]
      if s.text = exitSuccess ∨ s.text = exitFailure then
        some (s, if s.text = exitFailure then 1 else 0)
      else
        let size : ℤ := p.content.length
        let offset := strtoll s.text * sideloadHostBlockSize
        if size ≤ offset then some (s, -1)
        else if p.seek offset ≠ offset then some (s, -1)
        else
          let len := toWrite size offset
          let s := s.reserve len
          match readFdExactly len (p.pieces offset.toNat) with
          | none => some (s, -1)
          | some (data, _) =>
            let s := s.store 0 data
            let (written, result) := writeFdExactly (s.buf.take len) (writes s.answers.length)
            let s := { s with answers := s.answers ++ [written] }
            match result with
            | none => none
            | some false => some (s, -1)
            | some true => sideloadLoop p writes turns pieces s

/-! ### What is to be answered -/

/-- The block number in a request. -/
def requestBlock (request : Bytes) : ℤ := strtoll (request.takeWhile (· != 0))

/-- **A request for a block** that begins inside of a package of this size. -/
def isServable (size : ℕ) (request : Bytes) : Bool :=
  request ≠ exitSuccess ∧ request ≠ exitFailure ∧
    0 ≤ requestBlock request * sideloadHostBlockSize ∧
    requestBlock request * sideloadHostBlockSize < size

/-- **The block that is asked for**: from the place of the block up to the end of the block or of
the package. -/
def requestedBytes (content : Bytes) (request : Bytes) : Bytes :=
  let start := (requestBlock request * sideloadHostBlockSize).toNat
  (content.take (min content.length (start + sideloadHostBlockSize))).drop start

/-- What is returned for the first request that is not for a block, or if there is none. -/
def sideloadExit (last : Option Bytes) : ℤ :=
  if last = some exitSuccess then 0 else if last = some exitFailure then 1 else -1

/-! ### One request -/

/-- The text of a request in the buffer ends at its own NUL, or at the one behind it. -/
theorem takeWhile_stored {buf request : Bytes} (h : request.length = 8) :
    (overwrite (overwrite buf 0 request) 8 [0]).takeWhile (· != 0) =
      request.takeWhile (· != 0) := by
  have hbuf : overwrite (overwrite buf 0 request) 8 [0] =
      request ++ 0 :: (overwrite buf 0 request).drop 9 := by
    have htake : (overwrite buf 0 request).take 8 = request := by
      rw [overwrite, take_zero, nil_append, ← h, take_left]
    rw [overwrite, htake]
    rfl
  rw [hbuf]
  by_cases hzero : 0 ∈ request
  · obtain ⟨front, back, rfl, hfront⟩ := eq_append_cons_of_mem hzero
    rw [append_assoc, cons_append, takeWhile_bne_append_cons hfront,
      takeWhile_bne_append_cons hfront]
  · rw [takeWhile_bne_append_cons hzero, takeWhile_bne_of_notMem hzero]

/-- The string is one of the two words just when the request is. -/
theorem takeWhile_eq_iff {request word : Bytes} (h : request.length = 8) (hword : word.length = 8) :
    request.takeWhile (· != 0) = word ↔ request = word ∧ 0 ∉ word := by
  constructor
  · intro htext
    have hall : request.takeWhile (· != 0) = request := by
      refine List.IsPrefix.eq_of_length (List.takeWhile_prefix _) ?_
      rw [htext, hword, h]
    refine ⟨hall.symm.trans htext, fun hzero => ?_⟩
    rw [← htext] at hzero
    simpa using mem_takeWhile_imp hzero
  · rintro ⟨rfl, hzero⟩
    exact takeWhile_bne_of_notMem hzero

theorem toWrite_le {size offset : ℤ} (h : offset < size) :
    toWrite size offset ≤ sideloadHostBlockSize := by
  unfold toWrite
  split_ifs with hend
  · omega
  · exact le_rfl

/-- A block of the package is what is to be answered. -/
theorem take_toWrite {content request : Bytes} (h : isServable content.length request) :
    (content.drop (requestBlock request * sideloadHostBlockSize).toNat).take
        (toWrite content.length (requestBlock request * sideloadHostBlockSize)) =
      requestedBytes content request := by
  obtain ⟨-, -, hpos, hlt⟩ := of_decide_eq_true h
  obtain ⟨start, hstart⟩ := Int.eq_ofNat_of_zero_le hpos
  rw [hstart] at hlt
  have hlen : toWrite content.length start =
      min content.length (start + sideloadHostBlockSize) - start := by
    unfold toWrite
    split_ifs <;> omega
  rw [requestedBytes, hstart, Int.toNat_natCast, drop_take, ← hlen]

/-- The writes of every answer succeed in the end. -/
def Accepted (writes : ℕ → List WriteOutcome) : Prop :=
  ∀ k data, data.length ≤ sideloadHostBlockSize → (writeFdExactly data (writes k)).2 = some true

/-- All that has been written to the buffer fits. -/
def Sideload.Fits (s : Sideload) : Prop := ∀ stop ∈ s.extents, stop ≤ sideloadHostBlockSize

variable {s : Sideload}

theorem Sideload.Fits.reserve (h : s.Fits) {len : ℕ}
    (hlen : len ≤ sideloadHostBlockSize) : (s.reserve len).Fits :=
  forall_mem_append.mpr ⟨h, forall_mem_singleton.mpr hlen⟩

theorem Sideload.Fits.store (h : s.Fits) {off : ℕ} {data : Bytes}
    (hlen : off + data.length ≤ sideloadHostBlockSize) : (s.store off data).Fits :=
  forall_mem_append.mpr ⟨h, forall_mem_singleton.mpr hlen⟩

section

variable {p : Package} {writes : ℕ → List WriteOutcome} {pieces : List Bytes} {request rest : Bytes}
  {s : Sideload}

/-- The request in the buffer. -/
theorem Sideload.text_store (s : Sideload) (h : request.length = 8) :
    (((s.reserve 8).store 0 request).store 8 [0]).text = request.takeWhile (· != 0) :=
  takeWhile_stored h

theorem Sideload.Fits.requested (hs : s.Fits) (h : request.length = 8) :
    (((s.reserve 8).store 0 request).store 8 [0]).Fits := by
  refine ((hs.reserve (by decide)).store ?_).store (by decide)
  rw [h]
  decide

theorem text_isExit_iff (h : request.length = 8) :
    (request.takeWhile (· != 0) = exitSuccess ↔ request = exitSuccess) ∧
      (request.takeWhile (· != 0) = exitFailure ↔ request = exitFailure) :=
  ⟨(takeWhile_eq_iff h rfl).trans (and_iff_left (by decide)),
    (takeWhile_eq_iff h rfl).trans (and_iff_left (by decide))⟩

/-- **A request for a block is answered with the block.** -/
theorem exists_sideloadLoop_served (hp : p.Readable) (hwrites : Accepted writes)
    (hflow : Flows pieces) (hpieces : pieces.flatten = request ++ rest) (h : request.length = 8)
    (hservable : isServable p.content.length request) (hs : s.Fits) (turns : ℕ) :
    ∃ left s', sideloadLoop p writes (turns + 1) pieces s = sideloadLoop p writes turns left s' ∧
      left.flatten = rest ∧ Flows left ∧ s'.Fits ∧
      s'.answers = s.answers ++ [requestedBytes p.content request] := by
  obtain ⟨hsuccess, hfailure, hpos, hlt⟩ := of_decide_eq_true hservable
  obtain ⟨left, hread, hleft, hflow'⟩ := readFdExactly_append hflow hpieces
  rw [h] at hread
  have hblock := take_toWrite hservable
  have hfits := toWrite_le hlt
  obtain ⟨start, hstart⟩ := Int.eq_ofNat_of_zero_le hpos
  rw [hstart] at hlt hblock hfits
  rw [Int.toNat_natCast] at hblock
  have hinside : start < p.content.length := by omega
  -- What is read from the package.
  have hlen : toWrite p.content.length start ≤ (p.pieces start).flatten.length := by
    rw [hp.read start hinside, length_drop]
    unfold toWrite
    split_ifs <;> omega
  obtain ⟨after, hdata, -, -⟩ := readFdExactly_flows (hp.flows start) hlen
  rw [hp.read start hinside, hblock] at hdata
  have hlength : (requestedBytes p.content request).length = toWrite p.content.length start := by
    rw [← hblock, length_take, length_drop]
    unfold toWrite
    split_ifs <;> omega
  have hbuf : ∀ buf, (overwrite buf 0 (requestedBytes p.content request)).take
      (toWrite p.content.length start) = requestedBytes p.content request := by
    intro buf
    rw [overwrite, take_zero, nil_append, ← hlength, take_left]
  have hwritten := fun k => hwrites k (requestedBytes p.content request) (hlength ▸ hfits)
  have hexit : ¬(request.takeWhile (· != 0) = exitSuccess ∨
      request.takeWhile (· != 0) = exitFailure) := by
    rw [(text_isExit_iff h).1, (text_isExit_iff h).2]
    exact not_or.mpr ⟨hsuccess, hfailure⟩
  have hstop : 0 + (requestedBytes p.content request).length ≤ sideloadHostBlockSize := by
    rw [Nat.zero_add, hlength]
    exact hfits
  have hstored := ((hs.requested h).reserve hfits).store hstop
  refine ⟨left, { (((((s.reserve 8).store 0 request).store 8 [0]).reserve
    (toWrite p.content.length start)).store 0 (requestedBytes p.content request)) with
      answers := s.answers ++ [requestedBytes p.content request] }, ?_, hleft, hflow', hstored, rfl⟩
  have hoffset : strtoll (request.takeWhile (· != 0)) * sideloadHostBlockSize = (start : ℤ) :=
    hstart
  rw [sideloadLoop, hread]
  dsimp only
  rw [Sideload.text_store s h, if_neg hexit, hoffset, if_neg (by omega),
    if_neg (not_not.mpr (hp.seek_inside start hinside)), Int.toNat_natCast, hdata]
  dsimp only [Sideload.store, Sideload.reserve]
  rw [hbuf, hwritten, written_of_writeFdExactly _ _ (hwritten _)]

/-- **Any other request ends the loop**, without an answer. -/
theorem exists_sideloadLoop_ended (hp : p.Readable) (hflow : Flows pieces)
    (hpieces : pieces.flatten = request ++ rest) (h : request.length = 8)
    (hservable : ¬isServable p.content.length request) (hs : s.Fits)
    (writes : ℕ → List WriteOutcome) (turns : ℕ) :
    ∃ s', sideloadLoop p writes (turns + 1) pieces s = some (s', sideloadExit (some request)) ∧
      s'.Fits ∧ s'.answers = s.answers := by
  obtain ⟨left, hread, -, -⟩ := readFdExactly_append hflow hpieces
  rw [h] at hread
  refine ⟨((s.reserve 8).store 0 request).store 8 [0], ?_, hs.requested h, rfl⟩
  rw [sideloadLoop, hread]
  dsimp only
  obtain ⟨hsuccess_iff, hfailure_iff⟩ := text_isExit_iff h
  rw [Sideload.text_store s h]
  by_cases hexit : request.takeWhile (· != 0) = exitSuccess ∨
      request.takeWhile (· != 0) = exitFailure
  · rw [if_pos hexit]
    rcases hexit with htext | htext
    · have hcode : sideloadExit (some request) = 0 := if_pos (congrArg some (hsuccess_iff.mp htext))
      rw [htext, hcode]
      rfl
    · have hcode : sideloadExit (some request) = 1 := by
        rw [hfailure_iff.mp htext]
        rfl
      rw [if_pos htext, hcode]
  · obtain ⟨hsuccess, hfailure⟩ := not_or.mp hexit
    rw [hsuccess_iff] at hsuccess
    rw [hfailure_iff] at hfailure
    have hcode : sideloadExit (some request) = -1 := by
      simp [sideloadExit, hsuccess, hfailure]
    have hrange : ¬(0 ≤ requestBlock request * sideloadHostBlockSize ∧
        requestBlock request * sideloadHostBlockSize < p.content.length) :=
      fun hrange => hservable (decide_eq_true ⟨hsuccess, hfailure, hrange⟩)
    rw [if_neg hexit, hcode, show strtoll (request.takeWhile (· != 0)) =
      requestBlock request from rfl]
    by_cases hend : (p.content.length : ℤ) ≤ requestBlock request * sideloadHostBlockSize
    · rw [if_pos hend]
    · -- The block is in front of the package, and its place is not −1, which the failed seek
      -- returns.
      have hnegative : requestBlock request * sideloadHostBlockSize < 0 := by
        by_contra hnot
        exact hrange ⟨not_lt.mp hnot, not_le.mp hend⟩
      have hseek : p.seek (requestBlock request * sideloadHostBlockSize) ≠
          requestBlock request * sideloadHostBlockSize := by
        rw [hp.seek_negative _ hnegative, sideloadHostBlockSize]
        omega
      rw [if_neg hend, if_pos hseek]

end

/-- **The blocks of a package are served as they are asked for.** For every package whose seeks and
reads succeed, and every sequence of requests of eight bytes, however they arrive: the requests
for a block inside of the package are answered with the block, up to the first other request,
which ends the loop; and nothing is written behind the end of the buffer. -/
theorem sideload_serves (p : Package) (hp : p.Readable) (writes : ℕ → List WriteOutcome)
    (hwrites : Accepted writes) (requests : List Bytes) (hrequests : ∀ r ∈ requests, r.length = 8)
    (pieces : List Bytes) (hflow : Flows pieces) (hpieces : pieces.flatten = requests.flatten)
    (memory : Bytes) (turns : ℕ) (hturns : requests.length < turns) :
    ∃ s, sideloadLoop p writes turns pieces ⟨memory, [], []⟩ =
        some (s, sideloadExit (requests.find? (!isServable p.content.length ·))) ∧
      s.answers =
        (requests.takeWhile (isServable p.content.length)).map (requestedBytes p.content) ∧
      ∀ stop ∈ s.extents, stop ≤ sideloadHostBlockSize := by
  suffices hloop : ∀ s : Sideload, s.Fits → ∃ s',
      sideloadLoop p writes turns pieces s =
        some (s', sideloadExit (requests.find? (!isServable p.content.length ·))) ∧
      s'.answers = s.answers ++
        (requests.takeWhile (isServable p.content.length)).map (requestedBytes p.content) ∧
      s'.Fits from hloop ⟨memory, [], []⟩ nofun
  induction requests generalizing pieces turns with
  | nil =>
    intro s hs
    obtain ⟨turns, rfl⟩ := Nat.exists_eq_succ_of_ne_zero (Nat.ne_of_gt hturns)
    have hread : readFdExactly 8 pieces = none := readFdExactly_nil (by decide) hflow hpieces
    exact ⟨s.reserve 8, by rw [sideloadLoop, hread]; rfl, (append_nil _).symm,
      hs.reserve (by decide)⟩
  | cons request requests ih =>
    intro s hs
    obtain ⟨turns, rfl⟩ := Nat.exists_eq_succ_of_ne_zero (Nat.ne_of_gt (Nat.zero_lt_of_lt hturns))
    obtain ⟨h8, hrequests⟩ := forall_mem_cons.mp hrequests
    rw [flatten_cons] at hpieces
    by_cases hservable : isServable p.content.length request
    · obtain ⟨left, s', hturn, hleft, hflow', hs', hanswers⟩ :=
        exists_sideloadLoop_served hp hwrites hflow hpieces h8 hservable hs turns
      obtain ⟨s'', hrest, hanswers', hs''⟩ := ih hrequests left hflow' hleft turns
        (Nat.lt_of_succ_lt_succ hturns) s' hs'
      refine ⟨s'', ?_, ?_, hs''⟩
      · rw [hturn, hrest, List.find?_cons_of_neg (by simpa using hservable)]
      · rw [hanswers', hanswers, takeWhile_cons_of_pos hservable, map_cons,
          append_assoc, singleton_append]
    · obtain ⟨s', hturn, hs', hanswers⟩ :=
        exists_sideloadLoop_ended hp hflow hpieces h8 hservable hs writes turns
      refine ⟨s', ?_, ?_, hs'⟩
      · rw [hturn, List.find?_cons_of_pos (by simpa using hservable)]
      · rw [hanswers, takeWhile_cons_of_neg hservable, map_nil, append_nil]

/-- A package of two bytes. -/
def smallPackage : Package where
  content := [7, 8]
  seek off := if off < 0 then -1 else off
  pieces off := ([7, 8].drop off).map ([·])

theorem smallPackage_readable : smallPackage.Readable where
  seek_inside off _ := by
    have hnot : ¬(off : ℤ) < 0 := by omega
    exact if_neg (t := -1) hnot
  seek_negative _ h := if_pos h
  flows off piece h := by
    obtain ⟨b, -, rfl⟩ := mem_map.mp h
    exact cons_ne_nil b []
  read off h := by
    have hoff : off = 0 ∨ off = 1 := by
      have hlen : off < 2 := h
      omega
    rcases hoff with rfl | rfl <;> rfl

/-- The first block is asked for twice, the second time with blanks and a sign, then a block in
front of the package, and the first again. -/
theorem sideload_serves_smallPackage :
    ∃ s, sideloadLoop smallPackage (fun _ => [.wrote sideloadHostBlockSize]) 5
        [ascii "00000000", ascii "   +0", ascii "zzz     -1 00000000"] ⟨[], [], []⟩ =
          some (s, -1) ∧
      s.answers = [[7, 8], [7, 8]] ∧ ∀ stop ∈ s.extents, stop ≤ sideloadHostBlockSize := by
  have hwrites : Accepted fun _ => [.wrote sideloadHostBlockSize] := by
    intro k data hlen
    cases data with
    | nil => rfl
    | cons b data =>
      rw [writeFdExactly, drop_eq_nil_of_le hlen]
      rfl
  have hflow : Flows [ascii "00000000", ascii "   +0", ascii "zzz     -1 00000000"] := by
    unfold Flows
    decide
  exact sideload_serves smallPackage smallPackage_readable _ hwrites
    [ascii "00000000", ascii "   +0zzz", ascii "     -1 ", ascii "00000000"] (by decide) _ hflow
    (by decide) [] 5 (by decide)

end AdbBridge
