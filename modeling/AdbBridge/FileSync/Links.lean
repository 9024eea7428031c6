import AdbBridge.Lib.Slices
import AdbBridge.Types.CLibrary

/-!
# Symbolic links that are pushed

The file sync service of the device handles the requests of a connection one after the other,
with one buffer for all of them. A symbolic link comes as a data message with its target, which
is read into the buffer, and `symlink` is called with a pointer to the buffer: the target is what
is there up to the first NUL. Nothing puts a NUL behind the message. So the target is the one
that was sent if the message has a NUL in it, or if the byte of the buffer behind the message
happens to be a NUL (`AdbBridge.FileSync.link_target_iff`); it is otherwise continued by what an
earlier request has left in the buffer, or by what is in memory behind it.

A request for a file reads into the buffer as well, but only after it has failed, and then it is
the last of the connection. What the other requests do does not touch the buffer.
-/

namespace AdbBridge.FileSync

open List

/-- `S_IFMT` and `S_IFLNK`. -/
def sIfmt : UInt32 := 0o170000

@[inherit_doc sIfmt]
def sIflnk : UInt32 := 0o120000

def syncDataMax : ℕ := 64 * 1024

/-- The file type in `mode` is `type`. -/
def hasType (type mode : UInt32) : Bool := mode &&& sIfmt == type

/-! ### The service -/

def idData : ℕ := leNat (ascii "DATA")

def idDone : ℕ := leNat (ascii "DONE")

/-- A call of `symlink`: the string at the first pointer, how many bytes were looked at for it,
and the path. -/
structure SymlinkCall where
  target : Bytes
  extent : ℕ
  path : Bytes
  deriving DecidableEq

/-- What is sent to the host, besides the answers of other requests. -/
inductive SyncReply
  | okay
  | fail (reason : Bytes)
  deriving DecidableEq

/-- The state of `file_sync_service`: the buffer, what comes from the host, what `symlink` has been
called with, and what has been sent. -/
structure SyncService where
  buffer : Bytes
  pieces : List Bytes
  symlinks : List SymlinkCall
  replies : List SyncReply

/-- The service at its start. -/
def SyncService.start (pieces : List Bytes) : SyncService :=
  ⟨List.replicate syncDataMax 0, pieces, [], []⟩

/-- `SendSyncFail`. -/
def SyncService.sendSyncFail (s : SyncService) (reason : Bytes) : SyncService :=
  { s with replies := s.replies ++ [.fail reason] }

/-- What a call of `symlink` comes to. -/
inductive SymlinkResult
  | made
  | noEntry
  | failed
  deriving DecidableEq

/-- What the calls for a link come to. -/
structure LinkCalls where
  /-- `Readlink`: the target of a link that there is. -/
  readlink : Option Bytes
  symlink : SymlinkResult
  mkdirs : Bool
  /-- The second call of `symlink`. -/
  symlinkAgain : Bool
  /-- `strerror(errno)`, when something has failed. -/
  strerror : Bytes
  /-- The answer can be sent. -/
  written : Bool

/-- What `handle_send_file` comes to before it reports success or a failure: the result, and what
of the stream has not been read. -/
structure FileCalls where
  received : Bool
  pieces : List Bytes
  written : Bool

/-- What the calls of one request come to. Of a request that is not for sending, `other` is what it
leaves of the stream, and its result. -/
structure RequestCalls where
  link : LinkCalls
  file : FileCalls
  other : List Bytes × Bool

section

-- `strtoul` in base 0, with `none` if it sets `errno`; and the memory behind the buffer.
variable (strtoul : Bytes → Option ℕ) (beyond : Bytes)

/-- `symlink(&buffer[0], path)` is called. -/
def SyncService.callSymlink (path : Bytes) (s : SyncService) : SyncService :=
  { s with
    symlinks := s.symlinks ++ [⟨cString s.buffer beyond, cStringExtent s.buffer beyond, path⟩] }

/-- The part of `handle_send_link` that makes the link. -/
def makeLink (calls : LinkCalls) (path : Bytes) (s : SyncService) : SyncService × Bool :=
  if calls.readlink = some (cString s.buffer beyond) then (s, true)
  else
    let s := s.callSymlink beyond path
    match calls.symlink with
    | .made => (s, true)
    | .failed => (s.sendSyncFail (ascii "symlink failed: " ++ calls.strerror), false)
    | .noEntry =>
      if !calls.mkdirs then
        (s.sendSyncFail (ascii "secure_mkdirs failed: " ++ calls.strerror), false)
      else
        let s := s.callSymlink beyond path
        if calls.symlinkAgain then (s, true)
        else (s.sendSyncFail (ascii "symlink failed: " ++ calls.strerror), false)

/-- The end of `handle_send_link`. -/
def finishLink (calls : LinkCalls) (s : SyncService) : SyncService × Bool :=
  match readFdExactly 8 s.pieces with
  | none => (s, false)
  | some (header, pieces) =>
    let s := { s with pieces }
    if leNat (header.take 4) = idDone then
      ({ s with replies := s.replies ++ [.okay] }, calls.written)
    else (s.sendSyncFail (ascii "invalid data message: expected ID_DONE"), false)

/-- A data message is read into the buffer. -/
def SyncService.filled (s : SyncService) (data : Bytes) (pieces : List Bytes) : SyncService :=
  { s with pieces, buffer := overwrite s.buffer 0 data }

/-- What `handle_send_link` does with the message in the buffer. -/
def placeLink (calls : LinkCalls) (path : Bytes) (dryRun : Bool) (s : SyncService) :
    SyncService × Bool :=
  match if dryRun then (s, true) else makeLink beyond calls path s with
  | (s, false) => (s, false)
  | (s, true) => finishLink calls s

/-- `handle_send_link`. A read that fails may have changed the buffer, which is not used again
then. -/
def handleSendLink (calls : LinkCalls) (path : Bytes) (dryRun : Bool) (s : SyncService) :
    SyncService × Bool :=
  match readFdExactly 8 s.pieces with
  | none => (s, false)
  | some (header, pieces) =>
    let s := { s with pieces }
    let len := leNat (header.drop 4)
    if leNat (header.take 4) ≠ idData then
      (s.sendSyncFail (ascii "invalid data message: expected ID_DATA"), false)
    else if syncDataMax < len then (s.sendSyncFail (ascii "oversize data message"), false)
    else
      match readFdExactly len s.pieces with
      | none => (s, false)
      | some (data, pieces) => placeLink beyond calls path dryRun (s.filled data pieces)

/-- The loop at the end of a `handle_send_file` that has failed, which reads data messages and
throws them away; each of its turns reads a header. -/
def discardData : ℕ → SyncService → SyncService
  | 0, s => s
  | turns + 1, s =>
    match readFdExactly 8 s.pieces with
    | none => s
    | some (header, pieces) =>
      let s := { s with pieces }
      let len := leNat (header.drop 4)
      if leNat (header.take 4) ≠ idData ∨ syncDataMax < len then s
      else
        match readFdExactly len s.pieces with
        | none => s
        | some (data, pieces) => discardData turns (s.filled data pieces)

/-- `handle_send_file`, as far as it uses the buffer. -/
def handleSendFile (calls : FileCalls) (s : SyncService) : SyncService × Bool :=
  let s := { s with pieces := calls.pieces }
  if calls.received then ({ s with replies := s.replies ++ [.okay] }, calls.written)
  else (discardData (s.pieces.flatten.length + 1) s, false)

/-- `send_impl`. -/
def sendImpl (calls : RequestCalls) (path : Bytes) (mode : UInt32) (dryRun : Bool)
    (s : SyncService) : SyncService × Bool :=
  if hasType sIflnk mode then handleSendLink beyond calls.link path dryRun s
  else handleSendFile calls.file s

/-- `do_send_v1`. -/
def doSendV1 (calls : RequestCalls) (spec : Bytes) (s : SyncService) : SyncService × Bool :=
  match rfind spec 44 with
  | none => (s.sendSyncFail (ascii "missing , in ID_SEND_V1"), false)
  | some comma =>
    match strtoul (spec.drop (comma + 1)) with
    | none => (s.sendSyncFail (ascii "bad mode"), false)
    | some mode => sendImpl beyond calls (spec.take comma) (UInt32.ofNat mode) false s

/-- What `"%d"` prints for flags. -/
def printFlags (flags : UInt32) : Bytes := ascii (toString (int32OfUint32 flags.toNat))

/-- `do_send_v2`. -/
def doSendV2 (calls : RequestCalls) (path : Bytes) (s : SyncService) : SyncService × Bool :=
  match readFdExactly 12 s.pieces with
  | none => (s, false)
  | some (setup, pieces) =>
    let s := { s with pieces }
    let mode := UInt32.ofNat (leNat (sliceOf setup 4 4))
    let flags := UInt32.ofNat (leNat (sliceOf setup 8 4))
    let compressions := [1, 2, 4].filter fun flag : UInt32 => flags &&& flag ≠ 0
    let unknown := flags &&& ~~~0x80000007
    if 1 < compressions.length then
      (s.sendSyncFail (ascii "multiple compression flags received: " ++ printFlags flags), false)
    else if unknown ≠ 0 then (s.sendSyncFail (ascii "unknown flags: " ++ printFlags unknown), false)
    else sendImpl beyond calls path mode (flags &&& 0x80000000 ≠ 0) s

/-- The requests that neither send nor end the connection: `STAT`, `LST2`, `STA2`, `LIST`, `LIS2`,
`RECV` and `RCV2`. -/
def otherRequests : List ℕ :=
  [leNat (ascii "STAT"), leNat (ascii "LST2"), leNat (ascii "STA2"), leNat (ascii "LIST"),
    leNat (ascii "LIS2"), leNat (ascii "RECV"), leNat (ascii "RCV2")]

/-- `handle_sync_command`. -/
def handleSyncCommand (calls : RequestCalls) (s : SyncService) : SyncService × Bool :=
  match readFdExactly 8 s.pieces with
  | none => (s.sendSyncFail (ascii "command read failure"), false)
  | some (request, pieces) =>
    let s := { s with pieces }
    let id := leNat (request.take 4)
    let pathLength := leNat (request.drop 4)
    if 1024 < pathLength then (s.sendSyncFail (ascii "path too long"), false)
    else
      match readFdExactly pathLength s.pieces with
      | none => (s.sendSyncFail (ascii "filename read failure"), false)
      | some (name, pieces) =>
        let s := { s with pieces }
        let name := cString name []
        if id = leNat (ascii "SEND") then doSendV1 strtoul beyond calls name s
        else if id = leNat (ascii "SND2") then doSendV2 beyond calls name s
        else if id ∈ otherRequests then ({ s with pieces := calls.other.1 }, calls.other.2)
        else if id = leNat (ascii "QUIT") then (s, false)
        else
          (s.sendSyncFail (ascii "unknown command " ++
            List.replicate (8 - (hexDigits id).length) 48 ++ hexDigits id), false)

/-- `file_sync_service` after so many requests, if none of them has ended it. -/
def handledRequests : List RequestCalls → SyncService → Option SyncService
  | [], s => some s
  | calls :: requests, s =>
    match handleSyncCommand strtoul beyond calls s with
    | (s, true) => handledRequests requests s
    | (_, false) => none

end

/-! ### The string in the buffer -/

theorem overwrite_zero (b p : Bytes) : overwrite b 0 p = p ++ b.drop p.length := by
  rw [overwrite, take_zero, nil_append, Nat.zero_add]

/-- **When the string in the buffer is the message**, up to its NUL if it has one, and ends inside
of the buffer. -/
theorem cString_overwrite_iff {b p : Bytes} (hb : b.length = syncDataMax)
    (hp : p.length ≤ syncDataMax) (beyond : Bytes) :
    (cString (overwrite b 0 p) beyond = p.takeWhile (· != 0) ∧
        cStringExtent (overwrite b 0 p) beyond ≤ syncDataMax) ↔
      0 ∈ p ∨ b[p.length]? = some 0 := by
  rw [cStringExtent, cString, overwrite_zero, append_assoc, append_assoc]
  by_cases hzero : 0 ∈ p
  · refine iff_of_true ?_ (Or.inl hzero)
    obtain ⟨front, back, rfl, hfront⟩ := eq_append_cons_of_mem hzero
    rw [append_assoc, cons_append, takeWhile_bne_append_cons hfront,
      takeWhile_bne_append_cons hfront]
    rw [length_append, length_cons] at hp
    exact ⟨rfl, by omega⟩
  · have hall : ∀ x ∈ p, (x != 0) = true := fun x hx => bne_iff_ne.mpr fun h => hzero (h ▸ hx)
    rw [takeWhile_append_of_pos hall, takeWhile_eq_self_iff.mpr hall,
      append_right_eq_self, or_iff_right hzero]
    rcases hp.lt_or_eq with hlt | heq
    · have hget : p.length < b.length := by omega
      rw [drop_eq_getElem_cons hget, cons_append, List.getElem?_eq_getElem hget,
        Option.some_inj]
      by_cases hnext : b[p.length] = 0
      · refine iff_of_true ?_ hnext
        rw [takeWhile_cons_of_neg (by simp [hnext]), append_nil]
        exact ⟨rfl, hlt⟩
      · refine iff_of_false (fun h => ?_) hnext
        rw [takeWhile_cons_of_pos (by simpa using hnext)] at h
        exact nomatch h.1
    · -- The whole buffer is full.
      rw [List.getElem?_eq_none (by omega)]
      refine iff_of_false (fun h => ?_) nofun
      have hlen := h.2
      rw [length_append] at hlen
      omega

/-! ### The buffer over a run -/

/-- The buffer has its size. -/
def SyncService.Full (s : SyncService) : Prop := s.buffer.length = syncDataMax

section

variable {strtoul : Bytes → Option ℕ} {beyond : Bytes} {s s' : SyncService} {path : Bytes}
  {calls : RequestCalls}

/-- What `makeLink` does: it calls `symlink` some times, and perhaps reports a failure. -/
structure Linked (beyond path : Bytes) (s s' : SyncService) : Prop where
  buffer_eq : s'.buffer = s.buffer
  pieces_eq : s'.pieces = s.pieces
  symlinks_eq : ∃ n, s'.symlinks = s.symlinks ++
    List.replicate n ⟨cString s.buffer beyond, cStringExtent s.buffer beyond, path⟩

theorem Linked.refl (beyond path : Bytes) (s : SyncService) : Linked beyond path s s :=
  ⟨rfl, rfl, 0, (append_nil _).symm⟩

theorem Linked.callSymlink (h : Linked beyond path s s') :
    Linked beyond path s (s'.callSymlink beyond path) := by
  obtain ⟨n, hn⟩ := h.symlinks_eq
  refine ⟨h.buffer_eq, h.pieces_eq, n + 1, ?_⟩
  rw [SyncService.callSymlink, hn, h.buffer_eq, replicate_succ', append_assoc]

theorem Linked.sendSyncFail (h : Linked beyond path s s') (reason : Bytes) :
    Linked beyond path s (s'.sendSyncFail reason) :=
  ⟨h.buffer_eq, h.pieces_eq, h.symlinks_eq⟩

/-- Whatever the system answers, `symlink` is only called with the contents of the buffer. -/
theorem linked_makeLink (calls : LinkCalls) (path : Bytes) (s : SyncService) :
    Linked beyond path s (makeLink beyond calls path s).1 := by
  have hrefl := Linked.refl beyond path s
  unfold makeLink
  by_cases hsame : calls.readlink = some (cString s.buffer beyond)
  · rw [if_pos hsame]
    exact hrefl
  · rw [if_neg hsame]
    cases calls.symlink with
    | made => exact hrefl.callSymlink
    | failed => exact hrefl.callSymlink.sendSyncFail _
    | noEntry =>
      dsimp only
      split_ifs
      · exact hrefl.callSymlink.sendSyncFail _
      · exact hrefl.callSymlink.callSymlink
      · exact hrefl.callSymlink.callSymlink.sendSyncFail _

theorem finishLink_keeps (calls : LinkCalls) (s : SyncService) :
    (finishLink calls s).1.buffer = s.buffer ∧ (finishLink calls s).1.symlinks = s.symlinks := by
  unfold finishLink
  split
  · exact ⟨rfl, rfl⟩
  · dsimp only
    split_ifs <;> exact ⟨rfl, rfl⟩

/-- What follows the link keeps the buffer and makes no other link. -/
theorem exists_placeLink (beyond : Bytes) (calls : LinkCalls) (path : Bytes) (dryRun : Bool)
    (s : SyncService) :
    ∃ s', Linked beyond path s s' ∧
      (placeLink beyond calls path dryRun s).1.buffer = s'.buffer ∧
      (placeLink beyond calls path dryRun s).1.symlinks = s'.symlinks := by
  have hlinked : Linked beyond path s
      (if dryRun then (s, true) else makeLink beyond calls path s).1 := by
    split_ifs
    · exact Linked.refl beyond path s
    · exact linked_makeLink calls path s
  refine ⟨_, hlinked, ?_⟩
  unfold placeLink
  split
  · next heq =>
    rw [heq]
    exact ⟨rfl, rfl⟩
  · next heq =>
    rw [heq]
    exact finishLink_keeps calls _

/-- The buffer keeps its size. -/
theorem SyncService.Full.handleSendLink (h : s.Full) (beyond : Bytes) (calls : LinkCalls)
    (path : Bytes) (dryRun : Bool) : (handleSendLink beyond calls path dryRun s).1.Full := by
  unfold FileSync.handleSendLink
  split
  · exact h
  · dsimp only
    split_ifs with hid hsize
    · exact h
    · exact h
    · split
      · exact h
      · next data pieces hread =>
        obtain ⟨s', hlinked, hbuffer, -⟩ :=
          exists_placeLink beyond calls path dryRun (s.filled data pieces)
        have hlen := length_of_readFdExactly hread
        have hfits : 0 + data.length ≤ s.buffer.length := by
          rw [h]
          omega
        change (placeLink beyond calls path dryRun (s.filled data pieces)).1.buffer.length =
          syncDataMax
        rw [hbuffer, hlinked.buffer_eq]
        exact (length_overwrite hfits).trans h

/-- A request for sending that succeeds keeps the size of the buffer. -/
theorem SyncService.Full.sendImpl (h : s.Full) {mode : UInt32}
    {dryRun : Bool} (hs : sendImpl beyond calls path mode dryRun s = (s', true)) : s'.Full := by
  unfold FileSync.sendImpl at hs
  split_ifs at hs
  · have hfull := h.handleSendLink beyond calls.link path dryRun
    rwa [hs] at hfull
  · unfold handleSendFile at hs
    dsimp only at hs
    split_ifs at hs
    · obtain rfl := congrArg Prod.fst hs
      exact h
    · exact nomatch congrArg Prod.snd hs

theorem SyncService.Full.doSendV1 (h : s.Full) {spec : Bytes}
    (hs : doSendV1 strtoul beyond calls spec s = (s', true)) : s'.Full := by
  unfold FileSync.doSendV1 at hs
  split at hs
  · exact nomatch congrArg Prod.snd hs
  · split at hs
    · exact nomatch congrArg Prod.snd hs
    · exact h.sendImpl hs

theorem SyncService.Full.doSendV2 (h : s.Full)
    (hs : doSendV2 beyond calls path s = (s', true)) : s'.Full := by
  unfold FileSync.doSendV2 at hs
  split at hs
  · exact nomatch congrArg Prod.snd hs
  · next setup pieces _ =>
    dsimp only at hs
    split at hs
    · exact nomatch congrArg Prod.snd hs
    · split at hs
      · exact nomatch congrArg Prod.snd hs
      · exact SyncService.Full.sendImpl (s := { s with pieces }) h hs

/-- A request after which the service goes on keeps the size of the buffer. -/
theorem SyncService.Full.handleSyncCommand (h : s.Full)
    (hs : handleSyncCommand strtoul beyond calls s = (s', true)) : s'.Full := by
  unfold FileSync.handleSyncCommand at hs
  split at hs
  · exact nomatch congrArg Prod.snd hs
  · dsimp only at hs
    split at hs
    · exact nomatch congrArg Prod.snd hs
    · split at hs
      · exact nomatch congrArg Prod.snd hs
      · next name pieces _ =>
        have hread : SyncService.Full { s with pieces } := h
        split_ifs at hs
        · exact hread.doSendV1 hs
        · exact hread.doSendV2 hs
        · obtain rfl := congrArg Prod.fst hs
          exact h
        · exact nomatch congrArg Prod.snd hs
        · exact nomatch congrArg Prod.snd hs

/-- **The buffer keeps its size over every run.** -/
theorem SyncService.Full.handledRequests (h : s.Full) {requests : List RequestCalls}
    (hs : handledRequests strtoul beyond requests s = some s') : s'.Full := by
  induction requests generalizing s with
  | nil =>
    obtain rfl := Option.some.inj hs
    exact h
  | cons calls requests ih =>
    unfold FileSync.handledRequests at hs
    split at hs
    · next heq => exact ih (h.handleSyncCommand heq) hs
    · exact nomatch hs

theorem full_start (pieces : List Bytes) : (SyncService.start pieces).Full :=
  length_replicate

/-! ### The target -/

/-- The data message for a payload. -/
def dataMessage (payload : Bytes) : Bytes := ascii "DATA" ++ leBytes 4 payload.length ++ payload

/-- A well-formed message is read into the buffer, however it is cut up, and then used. -/
theorem exists_handleSendLink (beyond : Bytes) {payload rest : Bytes} (hflow : Flows s.pieces)
    (hpieces : s.pieces.flatten = dataMessage payload ++ rest)
    (hpayload : payload.length ≤ syncDataMax) (calls : LinkCalls) (path : Bytes) (dryRun : Bool) :
    ∃ pieces, handleSendLink beyond calls path dryRun s =
      placeLink beyond calls path dryRun (s.filled payload pieces) := by
  rw [dataMessage, append_assoc] at hpieces
  obtain ⟨left, hheader, hleft, hflow'⟩ := readFdExactly_append hflow hpieces
  obtain ⟨left', hdata, -, -⟩ := readFdExactly_append hflow' hleft
  have hlen : (ascii "DATA" ++ leBytes 4 payload.length).length = 8 := by
    rw [length_append, length_leBytes]
    rfl
  rw [hlen] at hheader
  have hid : leNat ((ascii "DATA" ++ leBytes 4 payload.length).take 4) = idData := rfl
  have hsize : leNat ((ascii "DATA" ++ leBytes 4 payload.length).drop 4) = payload.length := by
    rw [show (ascii "DATA" ++ leBytes 4 payload.length).drop 4 = leBytes 4 payload.length from rfl,
      leNat_leBytes]
    refine Nat.mod_eq_of_lt (lt_of_le_of_lt hpayload ?_)
    decide
  refine ⟨left', ?_⟩
  rw [handleSendLink, hheader]
  dsimp only
  rw [hid, hsize, if_neg (not_not.mpr rfl), if_neg (not_lt.mpr hpayload), hdata]
  rfl

end

/-- A link that there is not yet, and can be made. -/
def newLink : LinkCalls where
  readlink := none
  symlink := .made
  mkdirs := true
  symlinkAgain := true
  strerror := []
  written := true

/-- **When the target of a link is the one that was sent.** After any requests on the same
connection, a link is pushed whose payload fits into the buffer. Whatever the calls for it come to,
`symlink` is called with the payload up to its first NUL, and the string ends inside of the
buffer, just when there is a NUL in the payload or in the buffer right behind it. -/
theorem link_target_iff (strtoul : Bytes → Option ℕ) (beyond : Bytes) (pieces : List Bytes)
    (requests : List RequestCalls) (s : SyncService)
    (hs : handledRequests strtoul beyond requests (SyncService.start pieces) = some s)
    (payload rest path : Bytes) (hflow : Flows s.pieces)
    (hpieces : s.pieces.flatten = dataMessage payload ++ rest)
    (hpayload : payload.length ≤ syncDataMax) :
    (∀ calls, ∀ call ∈
        (handleSendLink beyond calls path false s).1.symlinks.drop s.symlinks.length,
      call.target = payload.takeWhile (· != 0) ∧ call.extent ≤ syncDataMax) ↔
      0 ∈ payload ∨ s.buffer[payload.length]? = some 0 := by
  have hfull : s.buffer.length = syncDataMax := (full_start pieces).handledRequests hs
  rw [← cString_overwrite_iff hfull hpayload beyond]
  constructor
  · intro h
    obtain ⟨left, heq⟩ := exists_handleSendLink beyond hflow hpieces hpayload newLink path
      false
    refine h newLink ⟨cString (overwrite s.buffer 0 payload) beyond,
      cStringExtent (overwrite s.buffer 0 payload) beyond, path⟩ ?_
    have hmade : (placeLink beyond newLink path false (s.filled payload left)).1.symlinks =
        ((s.filled payload left).callSymlink beyond path).symlinks :=
      (finishLink_keeps newLink _).2
    rw [heq, hmade]
    change _ ∈ (s.symlinks ++ [_]).drop s.symlinks.length
    rw [drop_left]
    exact mem_singleton_self _
  · intro h calls call hcall
    obtain ⟨left, heq⟩ := exists_handleSendLink beyond hflow hpieces hpayload calls path
      false
    obtain ⟨s', hlinked, -, hsymlinks⟩ :=
      exists_placeLink beyond calls path false (s.filled payload left)
    obtain ⟨n, hn⟩ := hlinked.symlinks_eq
    rw [heq, hsymlinks, hn] at hcall
    rw [show (s.filled payload left).symlinks = s.symlinks from rfl, drop_left] at hcall
    rw [eq_of_mem_replicate hcall]
    exact h

/-- What the host sends to push a link. -/
def pushLink (path payload : Bytes) : Bytes :=
  ascii "SND2" ++ leBytes 4 path.length ++ path ++
    (ascii "SND2" ++ leBytes 4 0o120777 ++ leBytes 4 0) ++ dataMessage payload ++
    (ascii "DONE" ++ leBytes 4 0)

/-- The calls for a request that is for a new link. -/
def newLinkRequest : RequestCalls := ⟨newLink, ⟨false, [], false⟩, ([], false)⟩

/-- A link with a NUL at its end, after a longer one on the same connection. -/
theorem link_target_iff_terminated :
    ∃ s, handledRequests (fun _ => none) [] [newLinkRequest] (SyncService.start
        [pushLink (ascii "/a") (ascii "longtarget\x00"), dataMessage (ascii "to\x00")]) = some s ∧
      ∀ calls, ∀ call ∈ (handleSendLink [] calls (ascii "/b") false s).1.symlinks.drop
          s.symlinks.length,
        call.target = ascii "to" ∧ call.extent ≤ syncDataMax := by
  have hpieces : (handledRequests (fun _ => none) [] [newLinkRequest] (SyncService.start
      [pushLink (ascii "/a") (ascii "longtarget\x00"), dataMessage (ascii "to\x00")])).map
        SyncService.pieces = some [dataMessage (ascii "to\x00")] := by decide +kernel
  obtain ⟨s, hs, hpieces⟩ := Option.map_eq_some_iff.mp hpieces
  refine ⟨s, hs, (link_target_iff _ [] _ _ s hs (ascii "to\x00") [] (ascii "/b") ?_ ?_
    (by decide)).mpr (.inl (by decide))⟩
  · rw [hpieces]
    unfold Flows
    decide
  · rw [hpieces]
    decide

/-- **The end of an earlier target**: a second link is pushed without a NUL, and gets the end of
the first one. -/
theorem link_target_mixed :
    (handledRequests (fun _ => none) [] [newLinkRequest, newLinkRequest]
        (SyncService.start [pushLink (ascii "/a") (ascii "longtarget\x00"),
          pushLink (ascii "/b") (ascii "ab")])).map SyncService.symlinks =
      some [⟨ascii "longtarget", 11, ascii "/a"⟩, ⟨ascii "abngtarget", 11, ascii "/b"⟩] := by
  decide +kernel

end AdbBridge.FileSync
