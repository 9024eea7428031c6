import AdbBridge.Transport.Wire
import AdbBridge.Types.Refinement

/-!
# Cutting a stream into packets

`NonblockingFdConnection::Run` reads what there is, up to `MAX_PAYLOAD` bytes, appends it to
`read_buffer_`, and takes a header and then a payload out of the buffer. Here this is over
the chains of blocks as they are; that the chains behave like the bytes they hold makes the
reader a refinement of `AdbBridge.NonblockingReads.receive`
(`AdbBridge.PacketReader.pollIn_receive`).

A `POLLIN` takes out one packet at most. If a read completes a second one, it stays in the buffer
until something else arrives. So after each `POLLIN` all the packets that are complete have been
passed on exactly if no read completes two of them (`AdbBridge.delivers_iff_oneAtATime`).
-/

namespace AdbBridge

open List

/-! ### The reader -/

/-- The block after a read: a buffer of `MAX_PAYLOAD` bytes, of which the first are in use. -/
def readBlock (bytes : Bytes) : Block where
  buf := bytes ++ List.replicate (maxPayload - bytes.length) 0
  size := bytes.length
  fits := by
    rw [length_append]
    omega

/-- What `Run` keeps between two polls, and the packets that it has passed to `HandleRead`. -/
structure PacketReader where
  readHeader : Option Amessage := none
  readBuffer : IOVector := {}
  packets : List WirePacket := []

namespace PacketReader

/-- The header is taken out of the buffer once it is there. The `CHECK_EQ` is a `none`. -/
def takeHeader (header : Option Amessage) (buffer : IOVector) :
    Option (Option Amessage × IOVector) :=
  if header = none ∧ sizeofAmessage ≤ buffer.size then
    (buffer.takeFront sizeofAmessage).bind fun (rest, front) =>
      front.coalesceMoved.bind fun (_, headerBuf) =>
        if headerBuf.size = sizeofAmessage then
          some (some (amessageOfBytes headerBuf.data), rest)
        else none
  else some (header, buffer)

/-- The payload is taken out once it is there, and there is a packet. -/
def takePacket (header : Option Amessage) (buffer : IOVector) :
    Option (Option WirePacket × Option Amessage × IOVector) :=
  match header with
  | none => some (none, none, buffer)
  | some msg =>
    if msg.dataLength.toNat ≤ buffer.size then
      (buffer.takeFront msg.dataLength.toNat).bind fun (rest, dataChain) =>
        dataChain.coalesceMoved.map fun (_, payload) => (some ⟨msg, payload.data⟩, none, rest)
    else some (none, some msg, buffer)

/-- What `Run` does for `POLLIN`, with the bytes that `adb_read` has stored. -/
def pollIn (s : PacketReader) (bytes : Bytes) : Option PacketReader :=
  (takeHeader s.readHeader (s.readBuffer.append (readBlock bytes))).bind fun (header, buffer) =>
    (takePacket header buffer).map fun (packet, header, buffer) =>
      { readHeader := header, readBuffer := buffer, packets := s.packets ++ packet.toList }

/-- The reader after some reads. -/
def run (reads : List Bytes) : Option PacketReader := reads.foldlM pollIn {}

/-! ### The reader over the bytes -/

/-- The same reader over the bytes of its buffer. -/
def overBytes (s : PacketReader) : NonblockingReads where
  readHeader := s.readHeader
  readBuffer := s.readBuffer.bytes

variable {s : PacketReader} {v : IOVector}

theorem data_readBlock (bytes : Bytes) : (readBlock bytes).data = bytes := take_left

/-- The buffer of blocks collects a header as the bytes alone do. -/
theorem takeHeader_collect (hwf : s.readBuffer.WF) (block : Bytes) :
    ∃ v', takeHeader s.readHeader (s.readBuffer.append (readBlock block)) =
        some ((s.overBytes.collect block).1, v') ∧
      v'.WF ∧ v'.bytes = (s.overBytes.collect block).2 := by
  set v := s.readBuffer.append (readBlock block) with hv
  have hvwf : v.WF := hwf.append _
  have hbytes : v.bytes = s.overBytes.readBuffer ++ block := by
    rw [hv, hwf.bytes_append, data_readBlock]
    rfl
  rw [takeHeader, NonblockingReads.collect, hvwf.size_eq, ← hbytes]
  rcases hheader : s.readHeader with _ | msg
  · simp only [overBytes, hheader, true_and]
    split_ifs with hlen
    · obtain ⟨rest, front, htake, hrest, hfront, hfrontBytes, hrestBytes⟩ := hvwf.takeFront hlen
      obtain ⟨_, headerBuf, hcoalesce, hdata⟩ := hfront.coalesceMoved
      have hsize : headerBuf.size = sizeofAmessage := by
        rw [← Block.length_data, hdata, hfrontBytes, length_take_of_le hlen]
      refine ⟨rest, ?_, hrest, hrestBytes⟩
      rw [htake, Option.bind_some, hcoalesce, Option.bind_some, if_pos hsize, hdata, hfrontBytes]
    · exact ⟨v, rfl, hvwf, rfl⟩
  · rw [if_neg (by simp)]
    simp only [overBytes, hheader]
    exact ⟨v, rfl, hvwf, rfl⟩

/-- **The reader refines the reader over bytes.** No `CHECK` fails on the way. -/
theorem pollIn_receive (hwf : s.readBuffer.WF) (block : Bytes) (limit : ℕ) :
    ∃ s', s.pollIn block = some s' ∧ s'.readBuffer.WF ∧
      s'.packets = s.packets ++ (s.overBytes.received block).toList ∧
      s'.readHeader = (s.overBytes.receive block limit).readHeader ∧
      s'.readBuffer.bytes = (s.overBytes.receive block limit).readBuffer := by
  obtain ⟨v, htake, hv, hbytes⟩ := takeHeader_collect hwf block
  rw [pollIn, htake, Option.bind_some, NonblockingReads.receive, NonblockingReads.received]
  rcases hcollect : s.overBytes.collect block with ⟨_ | msg, buffer⟩
  · rw [hcollect] at hbytes
    exact ⟨_, rfl, hv, rfl, rfl, hbytes⟩
  · rw [hcollect] at hbytes
    obtain rfl : v.bytes = buffer := hbytes
    simp only [takePacket, hv.size_eq]
    split_ifs with hlen
    · obtain ⟨rest, chain, htakeFront, hrest, hchain, hchainBytes, hrestBytes⟩ := hv.takeFront hlen
      obtain ⟨_, payload, hcoalesce, hdata⟩ := hchain.coalesceMoved
      rw [htakeFront, Option.bind_some, hcoalesce, Option.map_some, Option.map_some, hdata,
        hchainBytes]
      exact ⟨_, rfl, hrest, rfl, rfl, hrestBytes⟩
    · exact ⟨_, rfl, hv, rfl, rfl, rfl⟩

/-- A poll passes on one packet at most. -/
theorem length_packets_pollIn {s' : PacketReader} {block : Bytes} (h : s.pollIn block = some s') :
    s'.packets.length ≤ s.packets.length + 1 := by
  obtain ⟨⟨header, buffer⟩, -, h⟩ := Option.bind_eq_some_iff.mp h
  obtain ⟨⟨packet, header', buffer'⟩, -, rfl⟩ := Option.map_eq_some_iff.mp h
  rw [length_append]
  cases packet with
  | none => exact Nat.le_succ _
  | some p => exact le_rfl

end PacketReader

/-! ### What has arrived -/

/-- The packets that are completely contained in the first `n` bytes of a stream. -/
def completeIn : List WirePacket → ℕ → List WirePacket
  | [], _ => []
  | p :: ps, n => if p.bytes.length ≤ n then p :: completeIn ps (n - p.bytes.length) else []

/-- **After every read, the packets passed on are all those that are complete.** -/
def Delivers (ps : List WirePacket) (reads : List Bytes) : Prop :=
  ∀ before, before <+: reads → ∃ s, PacketReader.run before = some s ∧
    s.packets = completeIn ps before.flatten.length

/-- No read completes two packets. -/
def OneAtATime (ps : List WirePacket) (reads : List Bytes) : Prop :=
  ∀ before block, before ++ [block] <+: reads →
    (completeIn ps (before ++ [block]).flatten.length).length ≤
      (completeIn ps before.flatten.length).length + 1

theorem completeIn_append (ps qs : List WirePacket) (n : ℕ) :
    completeIn (ps ++ qs) ((wireBytes ps).length + n) = ps ++ completeIn qs n := by
  induction ps with
  | nil => rw [wireBytes_nil, length_nil, Nat.zero_add, nil_append, nil_append]
  | cons p ps ih =>
    rw [cons_append, completeIn, wireBytes_cons, length_append,
      if_pos (by omega), Nat.add_assoc, Nat.add_sub_cancel_left, ih, cons_append]

/-! ### In the middle of a packet -/

namespace NonblockingReads

variable {t : NonblockingReads} {r block tail : Bytes} {p : WirePacket}

/-- The reader has seen so many bytes of a packet: its header may have been taken out already. -/
def Midway (t : NonblockingReads) (r : Bytes) : Prop :=
  (t.readHeader = none ∧ t.readBuffer = r) ∨
    ∃ msg, t.readHeader = some msg ∧ msg.bytes ++ t.readBuffer = r

theorem Midway.congr {t' : NonblockingReads} (h : t.Midway r) (hheader : t'.readHeader =
    t.readHeader)
    (hbuffer : t'.readBuffer = t.readBuffer) : t'.Midway r := by
  rw [Midway, hheader, hbuffer]
  exact h

/-- What has arrived of a packet begins with its header. -/
theorem take_header (hr : r <+: p.bytes ++ tail) (hlen : sizeofAmessage ≤ r.length) :
    r.take sizeofAmessage = p.msg.bytes := by
  rw [prefix_iff_eq_take.mp hr, take_take, min_eq_left hlen, WirePacket.bytes,
    append_assoc, take_left' p.msg.length_bytes]

/-- The header is taken out as soon as it is there. -/
theorem Midway.collect_eq (h : t.Midway r) (hr : r ++ block <+: p.bytes ++ tail) :
    t.collect block =
      if sizeofAmessage ≤ (r ++ block).length then
        (some p.msg, (r ++ block).drop sizeofAmessage)
      else (none, r ++ block) := by
  rcases h with ⟨hnone, rfl⟩ | ⟨msg, hsome, rfl⟩
  · simp only [collect, hnone]
    split_ifs with hlen
    · rw [take_header hr hlen, amessageOfBytes_bytes]
    · rfl
  · rw [append_assoc] at hr ⊢
    have hlen : sizeofAmessage ≤ (msg.bytes ++ (t.readBuffer ++ block)).length := by
      rw [length_append, Amessage.length_bytes]
      omega
    have hmsg : msg = p.msg := by
      have htake := take_header hr hlen
      rw [take_left' msg.length_bytes] at htake
      exact Amessage.eq_of_bytes htake
    simp only [collect, hsome]
    rw [if_pos hlen, drop_left' msg.length_bytes, hmsg]

/-- A packet is taken out as soon as it is complete. -/
theorem Midway.received_eq (h : t.Midway r) (hp : p.Framed) (hr : r ++ block <+: p.bytes ++ tail) :
    t.received block = if p.bytes.length ≤ (r ++ block).length then some p else none := by
  rw [received, h.collect_eq hr]
  by_cases hlen : sizeofAmessage ≤ (r ++ block).length
  · have hbuffer : ((r ++ block).drop sizeofAmessage) <+: p.payload ++ tail := by
      have hdrop := hr.drop sizeofAmessage
      rwa [WirePacket.bytes, append_assoc, drop_left' p.msg.length_bytes] at hdrop
    have hlength : ((r ++ block).drop sizeofAmessage).length =
        (r ++ block).length - sizeofAmessage := length_drop
    simp only [if_pos hlen, ← hp.1, p.length_bytes]
    by_cases hpayload : sizeofAmessage + p.payload.length ≤ (r ++ block).length
    · have hle : p.payload.length ≤ ((r ++ block).drop sizeofAmessage).length := by omega
      have hpre := prefix_of_prefix_length_le (prefix_append p.payload tail) hbuffer hle
      rw [if_pos hle, if_pos hpayload, ← prefix_iff_eq_take.mp hpre]
    · rw [if_neg (by omega), if_neg hpayload]
  · rw [if_neg hlen, if_neg (by rw [p.length_bytes]; omega)]

/-- What is left after a packet, or is there of it, is the beginning of the next one. -/
theorem Midway.receive (h : t.Midway r) (hp : p.Framed) (hr : r ++ block <+: p.bytes ++ tail)
    (limit : ℕ) :
    (t.receive block limit).Midway
      (if p.bytes.length ≤ (r ++ block).length then (r ++ block).drop p.bytes.length
        else r ++ block) := by
  rw [NonblockingReads.receive, h.received_eq hp hr, h.collect_eq hr]
  by_cases hfull : p.bytes.length ≤ (r ++ block).length
  · have hlen : sizeofAmessage ≤ (r ++ block).length := by
      rw [p.length_bytes] at hfull
      omega
    simp only [if_pos hfull, if_pos hlen]
    refine Or.inl ⟨rfl, ?_⟩
    rw [drop_drop, p.length_bytes, ← hp.1]
  · simp only [if_neg hfull]
    split_ifs with hlen
    · refine Or.inr ⟨p.msg, rfl, ?_⟩
      rw [← take_header hr hlen, take_append_drop]
    · exact Or.inl ⟨rfl, rfl⟩

end NonblockingReads

/-! ### A stream of packets -/

/-- A reader that has passed on what is complete: of the next packet it has a part only. -/
structure PacketReader.Current (s : PacketReader) (ps : List WirePacket) (arrived : Bytes) :
    Prop where
  wf : s.readBuffer.WF
  split : ∃ rest r, ps = s.packets ++ rest ∧ arrived = wireBytes s.packets ++ r ∧
    s.overBytes.Midway r ∧ completeIn rest r.length = []

variable {s : PacketReader} {ps : List WirePacket}

theorem PacketReader.Current.packets_eq {arrived : Bytes}
    (h : s.Current ps arrived) : s.packets = completeIn ps arrived.length := by
  obtain ⟨rest, r, hps, harrived, -, hrest⟩ := h.split
  nth_rewrite 1 [hps]
  rw [harrived, length_append, completeIn_append, hrest, append_nil]

/-- **A read that completes one packet at most keeps the reader current.** -/
theorem PacketReader.Current.pollIn
    {arrived block : Bytes} (h : s.Current ps arrived) (hps : ∀ p ∈ ps, p.Framed)
    (hblock : block ≠ []) (hstream : arrived ++ block <+: wireBytes ps)
    (hone : (completeIn ps (arrived ++ block).length).length ≤
      (completeIn ps arrived.length).length + 1) :
    ∃ s', s.pollIn block = some s' ∧ s'.Current ps (arrived ++ block) := by
  obtain ⟨s', hpoll, hwf, hpackets, hheader, hbuffer⟩ := pollIn_receive h.wf block 0
  refine ⟨s', hpoll, hwf, ?_⟩
  rw [← h.packets_eq] at hone
  obtain ⟨rest, r, hrest, rfl, hmid, hnone⟩ := h.split
  rw [append_assoc] at hstream hone ⊢
  rw [hrest, wireBytes_append, prefix_append_right_inj] at hstream
  rw [hrest, length_append, completeIn_append] at hone
  cases rest with
  | nil =>
    -- The stream is over, and nothing more can arrive.
    rw [wireBytes_nil, prefix_nil] at hstream
    exact absurd (append_eq_nil_iff.mp hstream).2 hblock
  | cons p rest =>
    have hp : p.Framed := hps p (by rw [hrest]; simp)
    rw [wireBytes_cons] at hstream
    have hmid' : s'.overBytes.Midway _ := (hmid.receive hp hstream 0).congr hheader hbuffer
    rw [hmid.received_eq hp hstream] at hpackets
    rw [completeIn] at hone
    by_cases hfull : p.bytes.length ≤ (r ++ block).length
    · have hpre : p.bytes <+: r ++ block :=
        prefix_of_prefix_length_le (prefix_append _ _) hstream hfull
      have hsplit : p.bytes ++ (r ++ block).drop p.bytes.length = r ++ block := by
        nth_rewrite 1 [prefix_iff_eq_take.mp hpre]
        exact take_append_drop _ _
      rw [if_pos hfull] at hpackets hmid' hone
      rw [length_append, length_cons] at hone
      refine ⟨rest, (r ++ block).drop p.bytes.length, ?_, ?_, hmid', ?_⟩
      · rw [hpackets, hrest, append_assoc]
        rfl
      · rw [hpackets, Option.toList_some, wireBytes_append, wireBytes_cons, wireBytes_nil,
          append_nil, append_assoc, hsplit]
      · rw [length_drop]
        exact eq_nil_of_length_eq_zero (by omega)
    · rw [if_neg hfull] at hpackets hmid'
      rw [Option.toList_none, append_nil] at hpackets
      refine ⟨p :: rest, r ++ block, by rw [hpackets, hrest], by rw [hpackets], hmid', ?_⟩
      rw [completeIn, if_neg hfull]

/-- One more read. -/
theorem PacketReader.run_concat (before : List Bytes) (block : Bytes) :
    PacketReader.run (before ++ [block]) =
      (PacketReader.run before).bind fun s => s.pollIn block := by
  rw [PacketReader.run, foldlM_append, PacketReader.run]
  congr 1
  funext s
  exact foldlM_cons.trans (by simp)

section Stream

variable {ps : List WirePacket} {reads : List Bytes}

/-- If no read completes two packets, the reader is always current. -/
theorem OneAtATime.current (h : OneAtATime ps reads) (hps : ∀ p ∈ ps, p.Framed)
    (hreads : ∀ block ∈ reads, block ≠ []) (hstream : reads.flatten <+: wireBytes ps)
    (before : List Bytes) (hbefore : before <+: reads) :
    ∃ s, PacketReader.run before = some s ∧ s.Current ps before.flatten := by
  induction before using List.reverseRecOn with
  | nil =>
    refine ⟨{}, rfl, IOVector.WF.clear {}, ps, [], rfl, rfl, Or.inl ⟨rfl, rfl⟩, ?_⟩
    cases ps with
    | nil => rfl
    | cons p ps =>
      rw [completeIn, if_neg (by rw [p.length_bytes, sizeofAmessage, length_nil]; omega)]
  | append_singleton before block ih =>
    obtain ⟨s, hrun, hcurrent⟩ := ih ((prefix_append before [block]).trans hbefore)
    have hflatten : (before ++ [block]).flatten = before.flatten ++ block := by simp
    have hone := h before block hbefore
    rw [hflatten] at hone
    obtain ⟨s', hpoll, hcurrent'⟩ := hcurrent.pollIn hps
      (hreads block (hbefore.subset (by simp)))
      (hflatten ▸ (List.IsPrefix.flatten hbefore).trans hstream) hone
    refine ⟨s', ?_, hflatten ▸ hcurrent'⟩
    rw [PacketReader.run_concat, hrun, Option.bind_some, hpoll]

/-- If all that is complete is always passed on, no read completes two packets. -/
theorem Delivers.oneAtATime (h : Delivers ps reads) : OneAtATime ps reads := by
  intro before block hbefore
  obtain ⟨s, hrun, hpackets⟩ := h before ((prefix_append before [block]).trans hbefore)
  obtain ⟨s', hrun', hpackets'⟩ := h _ hbefore
  rw [PacketReader.run_concat, hrun, Option.bind_some] at hrun'
  rw [← hpackets, ← hpackets']
  exact PacketReader.length_packets_pollIn hrun'

/-- **All the packets that are complete have been passed on after every read exactly if no read
completes two of them.** -/
theorem delivers_iff_oneAtATime (hps : ∀ p ∈ ps, p.Framed)
    (hreads : ∀ block ∈ reads, 1 ≤ block.length ∧ block.length ≤ maxPayload)
    (hstream : reads.flatten <+: wireBytes ps) : Delivers ps reads ↔ OneAtATime ps reads := by
  refine ⟨Delivers.oneAtATime, fun h before hbefore => ?_⟩
  have hne : ∀ block ∈ reads, block ≠ [] := fun block hblock =>
    ne_nil_of_length_pos (hreads block hblock).1
  obtain ⟨s, hrun, hcurrent⟩ := h.current hps hne hstream before hbefore
  exact ⟨s, hrun, hcurrent.packets_eq⟩

end Stream

/-- A packet without a payload. -/
def emptyPacket : WirePacket := ⟨⟨0x59414b4f, 1, 1, 0, 0, 0xa6beb4b0⟩, []⟩

/-- A packet with a payload. -/
def shortPacket : WirePacket := ⟨⟨0x45545257, 1, 1, 3, 0, 0xbaabada8⟩, [1, 2, 3]⟩

/-- Two packets in four reads, the third of which ends in the header of the second packet. -/
theorem delivers_twoPackets :
    Delivers [shortPacket, emptyPacket] [shortPacket.bytes.take 10,
      (shortPacket.bytes.drop 10).take 15, shortPacket.bytes.drop 25 ++ emptyPacket.bytes.take 4,
      emptyPacket.bytes.drop 4] := by
  refine (delivers_iff_oneAtATime (by decide) (by decide) (by decide)).mpr fun before block h => ?_
  have hinits : ∀ l ∈ List.inits [shortPacket.bytes.take 10,
      (shortPacket.bytes.drop 10).take 15, shortPacket.bytes.drop 25 ++ emptyPacket.bytes.take 4,
      emptyPacket.bytes.drop 4], (completeIn [shortPacket, emptyPacket] l.flatten.length).length ≤
        (completeIn [shortPacket, emptyPacket] l.dropLast.flatten.length).length + 1 := by
    decide +kernel
  simpa using hinits (before ++ [block]) ((mem_inits _ _).mpr h)

/-- Of two packets in one read, the second one is not passed on. -/
theorem not_delivers_two_in_one_read :
    (∀ p ∈ [emptyPacket, emptyPacket], p.Framed) ∧
      (wireBytes [emptyPacket, emptyPacket]).length ≤ maxPayload ∧
      ¬ Delivers [emptyPacket, emptyPacket] [wireBytes [emptyPacket, emptyPacket]] := by
  refine ⟨by decide, by decide, fun h => ?_⟩
  have hone := h.oneAtATime [] (wireBytes [emptyPacket, emptyPacket]) prefix_rfl
  revert hone
  decide

end AdbBridge
