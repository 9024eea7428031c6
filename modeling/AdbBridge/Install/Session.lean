import AdbBridge.Install.Arguments
import AdbBridge.Install.Commands
import AdbBridge.Types.CLibrary

/-!
# Sessions of several files

`install_multiple_app_streamed` creates a session on the device, writes its files one after the
other, each over a connection of its own, and then commits the session or abandons it. Whatever
goes wrong with a file ends the writing and abandons the session, with one exception:
`copy_to_file` does not look at what `adb_write` returns. So a file can be cut short and the
session is still committed, if the device says `Success` (`AdbBridge.session_committed_iff`).
-/

namespace AdbBridge

open List Option

/-! ### Copying a file -/

/-- One round of `copy_to_file`: what was read, and what `adb_write` says to it (`none` for
−1). -/
structure Chunk where
  bytes : Bytes
  nonempty : bytes ≠ []
  fits : bytes.length ≤ 64 * 1024
  written : Option ℕ
  written_le : ∀ n ∈ written, n ≤ bytes.length

/-- What the connection takes of a chunk. -/
def Chunk.taken (c : Chunk) : Bytes := c.bytes.take (c.written.getD 0)

/-- `copy_to_file`, for reads that end with an error if `readFails`: what the connection has taken,
and the result. -/
def copyToFile (readFails : Bool) : List Chunk → Bytes × Bool
  | [] => ([], !readFails)
  | c :: chunks =>
    let (rest, result) := copyToFile readFails chunks
    (c.taken ++ rest, result)

/-! ### Status lines -/

/-- The loop of `read_status_line`, for what the calls of `adb_read` could return; it ends with the
list, or when nothing was read. -/
def readStatusLoop : ℕ → List Bytes → Bytes
  | 0, _ => []
  | _ + 1, [] => []
  | count + 1, piece :: pieces =>
    let got := piece.take (count + 1)
    if got.isEmpty then [] else got ++ readStatusLoop (count + 1 - got.length) pieces

/-- `read_status_line`: the string in the buffer. -/
def readStatusLine (count : ℕ) (pieces : List Bytes) : Bytes :=
  cString (readStatusLoop (count - 1) pieces) []

/-- `strncmp("Success", buf, 7) == 0`. -/
def saysSuccess (buf : Bytes) : Bool := startsWith buf (ascii "Success")

/-- `strrchr`, as an index. -/
def strrchr (s : Bytes) (c : UInt8) : Option ℕ := rfind s c

/-- The `session_id` in the answer to `install-create`; the result of `strtol` becomes an
`int`. -/
def sessionId (buf : Bytes) : ℤ :=
  if saysSuccess buf then
    match strrchr buf 91, strrchr buf 93 with
    | some start, some stop =>
      (strtoll (((buf.set stop 0).drop (start + 1)).takeWhile (· != 0))).bmod (2 ^ 32)
    | _, _ => -1
  else -1

/-! ### The session -/

/-- What the calls for one file come to. -/
structure FileRun where
  /-- The size, or `none` for −1. -/
  stat : Option ℕ
  opens : Bool
  connects : Bool
  chunks : List Chunk
  readFails : Bool
  /-- What can be read after the file has been written. -/
  reply : List Bytes

/-- What the calls outside of the loop over the files come to. -/
structure SessionRun where
  abbExec : Bool
  /-- There is no `cmd` on the device. -/
  push : Bool
  /-- The sizes of the files at the beginning. -/
  sizes : Bytes → Option ℕ
  /-- The answer to `install-create`, or `none` if there is no connection. -/
  create : Option (List Bytes)
  file : ℕ → FileRun
  /-- The answer to the last command. -/
  finish : Option (List Bytes)

/-- A command that is issued: a call of `send_command`, also one that does not get a connection,
and what `copy_to_file` has brought over its connection. -/
structure Issued where
  args : List Bytes
  accepted : Bytes
  deriving DecidableEq

inductive Exit
  | success
  | failure
  /-- `error_exit` or `perror_exit`. -/
  | error (message : Bytes)
  deriving DecidableEq

/-- The commands of a run and how it ends. -/
structure SessionResult where
  issued : List Issued
  exit : Exit
  deriving DecidableEq

/-- `install_cmd`. -/
def SessionRun.installCmd (s : SessionRun) : Bytes :=
  if s.abbExec then ascii "package" else AdbBridge.installCmd s.push

/-- The loop over the arguments from the last one on: how many files there are at the end, and
their size. -/
def countApks (sizes : Bytes → Option ℕ) : List Bytes → Except Bytes (ℕ × ℕ)
  | [] => .ok (0, 0)
  | file :: argv =>
    if endsWithIgnoreCase file (ascii ".apex") then
      .error (ascii "APEX packages are not compatible with install-multiple")
    else if isApk file || endsWithIgnoreCase file (ascii ".dm") ||
        endsWithIgnoreCase file (ascii ".fsv_sig") then
      match sizes file with
      | none => .error (ascii "failed to stat \"" ++ file ++ ascii "\"")
      | some size => (countApks sizes argv).map fun (n, total) => (n + 1, (total + size) % 2 ^ 64)
    else .ok (0, 0)

/-- A session that has been created. -/
structure OpenSession where
  create : Issued
  files : List (Bytes × FileRun)
  id : ℕ

/-- The command that creates a session. -/
def SessionRun.createCommand (s : SessionRun) (total : ℕ) (args : List Bytes) : Issued :=
  ⟨[s.installCmd, ascii "install-create", ascii "-S", decimal total] ++
    args.map fun arg => if s.abbExec then arg else escapeArg arg, []⟩

/-- `install_multiple_app_streamed` up to its session. -/
def openSession (s : SessionRun) (argv : List Bytes) : Except SessionResult OpenSession :=
  match countApks s.sizes argv.reverse with
  | .error message => .error ⟨[], .error message⟩
  | .ok (n, total) =>
    if n = 0 then .error ⟨[], .error (ascii "need APK file on command line")⟩
    else
      let firstApk := argv.length - n
      let create := s.createCommand total (argv.take firstApk)
      match s.create with
      | none => .error ⟨[create], .failure⟩
      | some reply =>
        let id := sessionId (readStatusLine bufsiz reply)
        if id < 0 then .error ⟨[create], .failure⟩
        else .ok ⟨create, (argv.drop firstApk).zipIdx.map fun (file, i) => (file, s.file i),
          id.toNat⟩

/-- The arguments of `install-write`. -/
def writeArgs (cmd : Bytes) (id size : ℕ) (file : Bytes) : List Bytes :=
  [cmd, ascii "install-write", ascii "-S", decimal size, decimal id, basename file, ascii "-"]

/-- One round of the loop over the files: what is issued, and whether the loop goes on. -/
def streamFile (cmd : Bytes) (id : ℕ) (file : Bytes) (r : FileRun) : List Issued × Bool :=
  match r.stat with
  | none => ([], false)
  | some size =>
    if !r.opens then ([], false)
    else if !r.connects then ([⟨writeArgs cmd id size file, []⟩], false)
    else
      let (accepted, copied) := copyToFile r.readFails r.chunks
      ([⟨writeArgs cmd id size file, accepted⟩],
        copied && saysSuccess (readStatusLine bufsiz r.reply))

/-- The loop over the files, and `success`. -/
def streamFiles (cmd : Bytes) (id : ℕ) : List (Bytes × FileRun) → List Issued × Bool
  | [] => ([], true)
  | (file, r) :: files =>
    match streamFile cmd id file r with
    | (issued, true) =>
      let (rest, success) := streamFiles cmd id files
      (issued ++ rest, success)
    | (issued, false) => (issued, false)

/-- The last command. -/
def finishCommand (cmd : Bytes) (success : Bool) (id : ℕ) : Issued :=
  ⟨[cmd, ascii (if success then "install-commit" else "install-abandon"), decimal id], []⟩

/-- `install_multiple_app_streamed`. -/
def installMultipleAppStreamed (s : SessionRun) (argv : List Bytes) : SessionResult :=
  match openSession s argv with
  | .error result => result
  | .ok o =>
    let (issued, success) := streamFiles s.installCmd o.id o.files
    let issued := [o.create] ++ issued ++ [finishCommand s.installCmd success o.id]
    match s.finish with
    | none => ⟨issued, .failure⟩
    | some reply =>
      ⟨issued, if success && saysSuccess (readStatusLine bufsiz reply) then .success else .failure⟩

/-! ### What is taken of a file -/

/-- The write took all it was given. -/
def Chunk.Whole (c : Chunk) : Prop := c.written = some c.bytes.length

/-- All that was read from a file. -/
def FileRun.read (r : FileRun) : Bytes := r.chunks.flatMap Chunk.bytes

/-- Nothing that is looked at goes wrong. -/
structure FileRun.Finishes (r : FileRun) : Prop where
  stat : r.stat.isSome
  opens : r.opens
  connects : r.connects
  reads : r.readFails = false
  success : saysSuccess (readStatusLine bufsiz r.reply)

theorem Chunk.length_taken_le (c : Chunk) : c.taken.length ≤ c.bytes.length :=
  length_take_le' _ _

theorem Chunk.taken_eq_iff (c : Chunk) : c.taken = c.bytes ↔ c.Whole := by
  have hpos := length_pos_iff.mpr c.nonempty
  rw [taken, take_eq_self_iff, Whole]
  rcases hw : c.written with - | n
  · simpa using c.nonempty
  · have hle := c.written_le n hw
    rw [getD_some, some_inj]
    omega

theorem copyToFile_eq (readFails : Bool) (chunks : List Chunk) :
    copyToFile readFails chunks = (chunks.flatMap Chunk.taken, !readFails) := by
  induction chunks with
  | nil => rfl
  | cons c chunks ih => rw [copyToFile, ih, flatMap_cons]

theorem length_flatMap_taken_le (chunks : List Chunk) :
    (chunks.flatMap Chunk.taken).length ≤ (chunks.flatMap Chunk.bytes).length := by
  induction chunks with
  | nil => exact le_rfl
  | cons c chunks ih =>
    rw [flatMap_cons, flatMap_cons, length_append, length_append]
    exact Nat.add_le_add c.length_taken_le ih

/-- A file arrives whole just when each of its writes is whole: a later write cannot make up for
an earlier one. -/
theorem flatMap_taken_eq_iff (chunks : List Chunk) :
    chunks.flatMap Chunk.taken = chunks.flatMap Chunk.bytes ↔ ∀ c ∈ chunks, c.Whole := by
  induction chunks with
  | nil => simp
  | cons c chunks ih =>
    rw [flatMap_cons, flatMap_cons, forall_mem_cons, ← ih, ← c.taken_eq_iff]
    constructor
    · intro h
      have hlen := congrArg List.length h
      rw [length_append, length_append] at hlen
      have hfirst := c.length_taken_le
      have hrest := length_flatMap_taken_le chunks
      exact append_inj h (by omega)
    · rintro ⟨hc, hrest⟩
      rw [hc, hrest]

/-! ### What is issued -/

/-- What is issued for a file with nothing going wrong, if `accepted` arrives. -/
def writeCommand (cmd : Bytes) (id : ℕ) (file : Bytes × FileRun) (accepted : Bytes) : Issued :=
  ⟨writeArgs cmd id (file.2.stat.getD 0) file.1, accepted⟩

/-- A command that ends a session. -/
def Issued.isFinish (c : Issued) : Bool :=
  c.args[1]? = some (ascii "install-commit") || c.args[1]? = some (ascii "install-abandon")

section

variable (cmd : Bytes) (id : ℕ)

/-- Streaming a file succeeds exactly if its run finishes. -/
theorem streamFile_snd_iff (file : Bytes) (r : FileRun) :
    (streamFile cmd id file r).2 = true ↔ r.Finishes := by
  constructor
  · intro h
    rcases hstat : r.stat with - | size
    · simp [streamFile, hstat] at h
    · simp only [streamFile, hstat, copyToFile_eq] at h
      split_ifs at h with hopens hconnects
      obtain ⟨hreads, hsuccess⟩ := Bool.and_eq_true_iff.mp h
      exact ⟨by rw [hstat]; rfl, by simpa using hopens, by simpa using hconnects,
        by simpa using hreads, hsuccess⟩
  · rintro ⟨hstat, hopens, hconnects, hreads, hsuccess⟩
    obtain ⟨size, hsize⟩ := isSome_iff_exists.mp hstat
    simp [streamFile, hsize, hopens, hconnects, copyToFile_eq, hreads, hsuccess]

theorem streamFile_of_finishes {file : Bytes} {r : FileRun} (h : r.Finishes) :
    streamFile cmd id file r =
      ([writeCommand cmd id (file, r) (r.chunks.flatMap Chunk.taken)], true) := by
  obtain ⟨hstat, hopens, hconnects, hreads, hsuccess⟩ := h
  obtain ⟨size, hsize⟩ := isSome_iff_exists.mp hstat
  simp [streamFile, writeCommand, hsize, hopens, hconnects, copyToFile_eq, hreads, hsuccess]

theorem streamFile_no_finish (file : Bytes) (r : FileRun) :
    ∀ c ∈ (streamFile cmd id file r).1, c.isFinish = false := by
  have hwrite : ∀ size accepted, (⟨writeArgs cmd id size file, accepted⟩ : Issued).isFinish =
    false :=
    fun _ _ => rfl
  intro c hc
  unfold streamFile at hc
  split at hc
  · simp at hc
  · split_ifs at hc
    · simp at hc
    · rw [mem_singleton.mp hc]
      exact hwrite _ _
    · rw [mem_singleton.mp hc]
      exact hwrite _ _

theorem streamFiles_snd_iff (files : List (Bytes × FileRun)) :
    (streamFiles cmd id files).2 = true ↔ ∀ f ∈ files, f.2.Finishes := by
  induction files with
  | nil => simp [streamFiles]
  | cons f files ih =>
    obtain ⟨file, r⟩ := f
    rw [forall_mem_cons, ← ih, streamFiles]
    by_cases h : r.Finishes
    · rw [streamFile_of_finishes cmd id h]
      exact (and_iff_right h).symm
    · have hsnd := mt (streamFile_snd_iff cmd id file r).mp h
      split
      · next heq => exact absurd (congrArg Prod.snd heq) hsnd
      · simp [h]

theorem streamFiles_of_finishes {files : List (Bytes × FileRun)} (h : ∀ f ∈ files, f.2.Finishes) :
    streamFiles cmd id files =
      (files.map fun f => writeCommand cmd id f (f.2.chunks.flatMap Chunk.taken), true) := by
  induction files with
  | nil => rfl
  | cons f files ih =>
    obtain ⟨hf, hfiles⟩ := forall_mem_cons.mp h
    obtain ⟨file, r⟩ := f
    rw [streamFiles, streamFile_of_finishes cmd id hf, ih hfiles]
    rfl

theorem streamFiles_no_finish (files : List (Bytes × FileRun)) :
    ∀ c ∈ (streamFiles cmd id files).1, c.isFinish = false := by
  induction files with
  | nil => simp [streamFiles]
  | cons f files ih =>
    obtain ⟨file, r⟩ := f
    have hfile := streamFile_no_finish cmd id file r
    rw [streamFiles]
    split <;> rename_i heq <;> rw [heq] at hfile
    · exact forall_mem_append.mpr ⟨hfile, ih⟩
    · exact hfile

end

theorem openSession_create {s : SessionRun} {argv : List Bytes} {o : OpenSession}
    (h : openSession s argv = .ok o) : o.create.isFinish = false := by
  unfold openSession at h
  split at h
  · exact nomatch h
  · split_ifs at h
    dsimp only at h
    split at h
    · exact nomatch h
    · split_ifs at h
      obtain rfl := Except.ok.inj h
      rfl

theorem finishCommand_isFinish (cmd : Bytes) (success : Bool) (id : ℕ) :
    (finishCommand cmd success id).isFinish = true := by
  cases success <;> rfl

section

variable {s : SessionRun} {argv : List Bytes} {o : OpenSession} (ho : openSession s argv = .ok o)

include ho

theorem installMultipleAppStreamed_issued :
    (installMultipleAppStreamed s argv).issued =
      [o.create] ++ (streamFiles s.installCmd o.id o.files).1 ++
        [finishCommand s.installCmd (streamFiles s.installCmd o.id o.files).2 o.id] := by
  rw [installMultipleAppStreamed, ho]
  rcases s.finish with - | reply <;> rfl

/-- A session is ended once. -/
theorem installMultipleAppStreamed_finish :
    (installMultipleAppStreamed s argv).issued.filter Issued.isFinish =
      [finishCommand s.installCmd (streamFiles s.installCmd o.id o.files).2 o.id] := by
  have hfiles : (streamFiles s.installCmd o.id o.files).1.filter Issued.isFinish = [] :=
    filter_eq_nil_iff.mpr fun c hc =>
      Bool.eq_false_iff.mp (streamFiles_no_finish s.installCmd o.id o.files c hc)
  rw [installMultipleAppStreamed_issued ho, filter_append, filter_append, hfiles,
    filter_singleton, filter_singleton, openSession_create ho, finishCommand_isFinish]
  rfl

/-- It is committed if all files finish. -/
theorem commit_mem_iff :
    finishCommand s.installCmd true o.id ∈ (installMultipleAppStreamed s argv).issued ↔
      ∀ f ∈ o.files, f.2.Finishes := by
  have hmem : finishCommand s.installCmd true o.id ∈ (installMultipleAppStreamed s argv).issued ↔
      finishCommand s.installCmd true o.id ∈
        (installMultipleAppStreamed s argv).issued.filter Issued.isFinish := by
    rw [mem_filter, finishCommand_isFinish]
    exact (and_iff_left rfl).symm
  rw [hmem, installMultipleAppStreamed_finish ho, mem_singleton,
    ← streamFiles_snd_iff s.installCmd o.id]
  cases (streamFiles s.installCmd o.id o.files).2 with
  | true => exact ⟨fun _ => rfl, fun _ => rfl⟩
  | false =>
    refine ⟨fun h => absurd h ?_, nofun⟩
    simp only [finishCommand, Issued.mk.injEq, List.cons.injEq]
    decide

end

/-- **When a session is committed whole.** Once there is a session, it is ended by one command,
and a commit comes only after the whole of every file has been taken, each by the connection of
its own command, and the device has said `Success` to it – just when the files that are otherwise
written without a failure have no write that is cut short. -/
theorem session_committed_iff (s : SessionRun) (argv : List Bytes) (o : OpenSession)
    (ho : openSession s argv = .ok o) :
    ((∃ success, (installMultipleAppStreamed s argv).issued.filter Issued.isFinish =
        [finishCommand s.installCmd success o.id]) ∧
      (finishCommand s.installCmd true o.id ∈ (installMultipleAppStreamed s argv).issued →
        (installMultipleAppStreamed s argv).issued =
          [o.create] ++ o.files.map (fun f => writeCommand s.installCmd o.id f f.2.read) ++
            [finishCommand s.installCmd true o.id] ∧
        ∀ f ∈ o.files, saysSuccess (readStatusLine bufsiz f.2.reply))) ↔
      ((∀ f ∈ o.files, f.2.Finishes) → ∀ f ∈ o.files, ∀ c ∈ f.2.chunks, c.Whole) := by
  rw [and_iff_right ⟨_, installMultipleAppStreamed_finish ho⟩, commit_mem_iff ho]
  refine imp_congr_right fun hfinishes => ?_
  rw [and_iff_left fun f hf => (hfinishes f hf).success, installMultipleAppStreamed_issued ho,
    streamFiles_of_finishes _ _ hfinishes, append_left_inj, append_right_inj,
    map_inj_left]
  refine forall₂_congr fun f _ => ?_
  rw [← flatMap_taken_eq_iff, writeCommand, writeCommand, Issued.mk.injEq]
  exact and_iff_right rfl

/-- A run with one file `a.apk`, read in one piece and taken as far as `written` says. -/
def oneFileRun (written : Option ℕ) (h : ∀ n ∈ written, n ≤ 3) : SessionRun where
  abbExec := true
  push := false
  sizes := fun _ => some 3
  create := some [ascii "Success: created install session [7]\n"]
  file := fun _ =>
    { stat := some 3
      opens := true
      connects := true
      chunks := [⟨[1, 2, 3], by decide, by decide, written, h⟩]
      readFails := false
      reply := [ascii "Success: streamed 3 bytes\n"] }
  finish := some [ascii "Success\n"]

/-- A run with two files, the first of them read in two pieces, that are taken whole. -/
def twoFilesRun : SessionRun :=
  let run := oneFileRun (some 3) (by decide)
  { run with
    file := fun i => if i = 0 then { run.file 0 with
      chunks := [⟨[1, 2], by decide, by decide, some 2, by decide⟩,
        ⟨[3], by decide, by decide, some 1, by decide⟩] } else run.file 0 }

/-- Two files of three bytes are written as a whole, and the session is committed. -/
theorem session_committed_iff_whole :
    (installMultipleAppStreamed twoFilesRun [ascii "a.apk", ascii "b.apk"]).issued =
      [⟨[ascii "package", ascii "install-create", ascii "-S", ascii "6"], []⟩,
        ⟨writeArgs (ascii "package") 7 3 (ascii "a.apk"), [1, 2, 3]⟩,
        ⟨writeArgs (ascii "package") 7 3 (ascii "b.apk"), [1, 2, 3]⟩,
        finishCommand (ascii "package") true 7] := by
  have hiff := session_committed_iff twoFilesRun [ascii "a.apk", ascii "b.apk"]
    ⟨⟨[ascii "package", ascii "install-create", ascii "-S", ascii "6"], []⟩,
      [(ascii "a.apk", twoFilesRun.file 0), (ascii "b.apk", twoFilesRun.file 1)], 7⟩ rfl
  have hwhole : ∀ f ∈ [(ascii "a.apk", twoFilesRun.file 0), (ascii "b.apk", twoFilesRun.file 1)],
      ∀ c ∈ f.2.chunks, c.Whole := by
    unfold Chunk.Whole
    decide +kernel
  exact ((hiff.mpr fun _ => hwhole).2 (by decide +kernel)).1

/-- **A file that is cut short**: the connection takes one byte of three, or none at all, and the
session is committed. -/
theorem session_committed_short :
    installMultipleAppStreamed (oneFileRun (some 1) (by decide)) [ascii "a.apk"] =
        ⟨[⟨[ascii "package", ascii "install-create", ascii "-S", ascii "3"], []⟩,
          ⟨writeArgs (ascii "package") 7 3 (ascii "a.apk"), [1]⟩,
          finishCommand (ascii "package") true 7], .success⟩ ∧
      installMultipleAppStreamed (oneFileRun none (by decide)) [ascii "a.apk"] =
        ⟨[⟨[ascii "package", ascii "install-create", ascii "-S", ascii "3"], []⟩,
          ⟨writeArgs (ascii "package") 7 3 (ascii "a.apk"), []⟩,
          finishCommand (ascii "package") true 7], .success⟩ := by
  decide +kernel

end AdbBridge
