import AdbBridge.Sockets.Enqueue
import AdbBridge.Transport.Wire

/-!
# Writing to a nonblocking connection

Two threads write on a `NonblockingFdConnection`. `Write` appends a packet to `write_buffer_` and
tries to write at once; the thread in `Run` goes on once the descriptor takes more. `write_mutex_`
guards the buffer, but `Run` decides to poll for `POLLOUT` in one locked section and writes in
another. In between, a `Write` may have emptied the buffer, and then the `CHECK` of
`DispatchWrites` fails (`AdbBridge.ConnectionWriter.check_fails`).

What the descriptor has accepted is always a prefix of what has been written, and a buffer with
something in it is never marked as writable; the `CHECK` does not fail as long as no `Write`
empties the buffer while `Run` is about to write
(`AdbBridge.ConnectionWriter.sound_of_undisturbed`).
-/

namespace AdbBridge

open List

/-- Where the thread in `Run` is. -/
inductive RunPhase
  /-- At the top of the loop. -/
  | top
  /-- The events to poll for are set up, with `POLLOUT` or without. -/
  | prepared (pollOut : Bool)
  /-- `adb_poll` has returned, with `POLLOUT` or without. -/
  | returned (pollOut : Bool)
  deriving DecidableEq, Repr

/-- Whether the thread has asked for `POLLOUT` and not dealt with the answer. -/
def RunPhase.wantsOut : RunPhase → Bool
  | .top => false
  | .prepared out | .returned out => out

/-- A `NonblockingFdConnection` that is written to, with what is seen of it. -/
structure ConnectionWriter where
  writable : Bool := true
  writeBuffer : PacketQueue := .nil
  thread : RunPhase := .top
  /-- The bytes of the packets, in the order of the calls of `Write`. -/
  written : Bytes := []
  /-- The bytes that `adb_writev` has accepted. -/
  accepted : Bytes := []
  /-- `CHECK(!write_buffer_.empty())` has failed. -/
  checkFailed : Bool := false

namespace ConnectionWriter

/-- How many of the bytes of the buffer `adb_writev` takes. -/
def taken (s : ConnectionWriter) (n : ℕ) : ℕ := min (min n writevMax) s.writeBuffer.size

theorem taken_le (s : ConnectionWriter) (n : ℕ) : s.taken n ≤ s.writeBuffer.bytes.length :=
  s.writeBuffer.size_eq ▸ min_le_right _ _

theorem taken_lt (s : ConnectionWriter) (n : ℕ) : s.taken n < 2 ^ 32 :=
  (min_le_left _ _).trans_lt ((min_le_right _ _).trans_lt (by decide))

/-- `DispatchWrites`, with the result of `adb_writev`. -/
def dispatchWrites (s : ConnectionWriter) (rc : WritevResult) : ConnectionWriter :=
  if s.writeBuffer.empty then { s with checkFailed := true }
  else match rc with
    | .eagain => { s with writable := false }
    | .error => s
    | .accepted n =>
      let rest := s.writeBuffer.dropFront (s.taken n) (s.taken_le n) (s.taken_lt n)
      { s with
        writeBuffer := rest
        writable := rest.empty
        accepted := s.accepted ++ s.writeBuffer.bytes.take (s.taken n) }

/-- The part of `Write` before `DispatchWrites`. -/
def enqueue (s : ConnectionWriter) (p : WirePacket) : ConnectionWriter :=
  let queue := s.writeBuffer.append p.msg.bytes
  { s with
    writeBuffer := if p.payload = [] then queue else queue.append p.payload
    written := s.written ++ p.bytes }

/-- What the threads do, in one locked section at a time. -/
inductive Op
  /-- `Run` sets up the events to poll for. -/
  | setUp
  /-- `adb_poll` returns, with `POLLOUT` or without. -/
  | poll (pollOut : Bool)
  /-- `Run` deals with the events; `rc` is for the `adb_writev` after a `POLLOUT`. -/
  | handle (rc : WritevResult)
  /-- `Write` on another thread. -/
  | write (p : WirePacket) (rc : WritevResult)
  deriving DecidableEq, Repr

/-- What an operation does. -/
def step (s : ConnectionWriter) : Op → ConnectionWriter
  | .setUp => { s with thread := .prepared !s.writable }
  | .poll out => { s with thread := .returned out }
  | .handle rc =>
    let s' := if s.thread.wantsOut then s.dispatchWrites rc else s
    { s' with thread := .top }
  | .write p rc => (s.enqueue p).dispatchWrites rc

/-- `adb_writev` takes some of the bytes, or would block. -/
def Takes (s : ConnectionWriter) : WritevResult → Prop
  | .eagain => True
  | .error => False
  | .accepted n => 1 ≤ n ∧ n ≤ s.writeBuffer.size

instance decidableTakes (s : ConnectionWriter) : ∀ rc, Decidable (s.Takes rc)
  | .eagain => inferInstanceAs (Decidable True)
  | .error => inferInstanceAs (Decidable False)
  | .accepted n => inferInstanceAs (Decidable (1 ≤ n ∧ n ≤ s.writeBuffer.size))

/-- When an operation can be made. Only what was asked for is returned by `adb_poll`, and nothing
is done after a failed `CHECK`. -/
def Enabled (s : ConnectionWriter) (op : Op) : Prop :=
  s.checkFailed = false ∧
    match op with
    | .setUp => s.thread = .top
    | .poll out => s.thread = .prepared true ∨ (s.thread = .prepared false ∧ out = false)
    | .handle rc => (s.thread = .returned true ∧ s.Takes rc) ∨ s.thread = .returned false
    | .write p rc => (s.enqueue p).Takes rc

instance decidableEnabled (s : ConnectionWriter) (op : Op) : Decidable (s.Enabled op) := by
  cases op <;> dsimp only [Enabled] <;> infer_instance

end ConnectionWriter

/-- The threads that write on a `NonblockingFdConnection`. -/
def connectionWriter : Machine ConnectionWriter ConnectionWriter.Op where
  init s := s = {}
  enabled := ConnectionWriter.Enabled
  step := ConnectionWriter.step

instance decidableConnectionWriter (s : ConnectionWriter) (op : ConnectionWriter.Op) :
    Decidable (connectionWriter.enabled s op) :=
  ConnectionWriter.decidableEnabled s op

namespace ConnectionWriter

variable {s : ConnectionWriter} {rc : WritevResult} {op : Op}

/-- **What is expected of the connection**: the `CHECK` has not failed, the bytes accepted are a
prefix of the packets, and the buffer is not writable as long as there is something in it. -/
structure Sound (s : ConnectionWriter) : Prop where
  check : s.checkFailed = false
  ordered : s.accepted <+: s.written
  blocked : s.writeBuffer.bytes ≠ [] → s.writable = false

/-- No `Write` empties the buffer after `Run` has asked for `POLLOUT` and before it has dealt with
the answer. -/
def Undisturbed (s : ConnectionWriter) : Op → Prop
  | .write p (.accepted n) => s.thread.wantsOut = true → n < (s.enqueue p).writeBuffer.size
  | _ => True

instance decidableUndisturbed (s : ConnectionWriter) : ∀ op, Decidable (s.Undisturbed op)
  | .write p (.accepted n) => inferInstanceAs (Decidable
      (s.thread.wantsOut = true → n < (s.enqueue p).writeBuffer.size))
  | .write _ .eagain | .write _ .error | .setUp | .poll _ | .handle _ =>
    inferInstanceAs (Decidable True)

/-! ### One locked section -/

/-- What has been written has been accepted or is in the buffer, and the buffer is writable
exactly if it is empty. -/
structure Balanced (s : ConnectionWriter) : Prop where
  written_eq : s.written = s.accepted ++ s.writeBuffer.bytes
  writable_iff : s.writable = true ↔ s.writeBuffer.bytes = []

theorem bytes_enqueue (s : ConnectionWriter) (p : WirePacket) :
    (s.enqueue p).writeBuffer.bytes = s.writeBuffer.bytes ++ p.bytes := by
  rw [enqueue, WirePacket.bytes]
  simp only
  split_ifs with hpayload
  · rw [PacketQueue.bytes_append, hpayload, append_nil]
  · rw [PacketQueue.bytes_append, PacketQueue.bytes_append, append_assoc]

theorem enqueue_ne_nil (s : ConnectionWriter) (p : WirePacket) :
    (s.enqueue p).writeBuffer.bytes ≠ [] := by
  intro hnil
  have hlen := congrArg List.length hnil
  rw [bytes_enqueue, length_append, p.length_bytes, sizeofAmessage, length_nil] at hlen
  omega

/-- What `DispatchWrites` does to a buffer with something in it. -/
theorem dispatchWrites_cases (hne : s.writeBuffer.bytes ≠ []) (hrc : s.Takes rc) :
    (rc = .eagain ∧ s.dispatchWrites rc = { s with writable := false }) ∨
      ∃ n rest, rc = .accepted n ∧ rest.bytes = s.writeBuffer.bytes.drop (s.taken n) ∧
        s.dispatchWrites rc =
          { s with
            writeBuffer := rest
            writable := rest.empty
            accepted := s.accepted ++ s.writeBuffer.bytes.take (s.taken n) } := by
  have hempty : s.writeBuffer.empty = false := by
    rw [Bool.eq_false_iff, Ne, PacketQueue.empty_iff]
    exact hne
  simp only [dispatchWrites.eq_def, hempty, Bool.false_eq_true, if_false]
  cases rc with
  | eagain => exact .inl ⟨rfl, rfl⟩
  | error => exact absurd hrc id
  | accepted n => exact .inr ⟨n, _, rfl, PacketQueue.bytes_dropFront _ _ _, rfl⟩

/-- **A locked section keeps the balance.** -/
theorem Balanced.dispatchWrites (h : s.written = s.accepted ++ s.writeBuffer.bytes)
    (hne : s.writeBuffer.bytes ≠ []) (hrc : s.Takes rc) : (s.dispatchWrites rc).Balanced := by
  rcases dispatchWrites_cases hne hrc with ⟨-, heq⟩ | ⟨n, rest, -, hrest, heq⟩
  · rw [heq]
    exact ⟨h, iff_of_false Bool.false_ne_true hne⟩
  · rw [heq]
    refine ⟨?_, PacketQueue.empty_iff rest⟩
    simp only
    rw [h, hrest, append_assoc, take_append_drop]

/-- What `DispatchWrites` leaves alone. -/
theorem dispatchWrites_frame (hne : s.writeBuffer.bytes ≠ []) (hrc : s.Takes rc) :
    (s.dispatchWrites rc).checkFailed = s.checkFailed ∧
      (s.dispatchWrites rc).thread = s.thread := by
  rcases dispatchWrites_cases hne hrc with ⟨-, heq⟩ | ⟨n, rest, -, -, heq⟩ <;>
    rw [heq] <;> exact ⟨rfl, rfl⟩

/-- A `Write` that does not take everything leaves something in the buffer. -/
theorem dispatchWrites_ne_nil (hne : s.writeBuffer.bytes ≠ [])
    (hrc : s.Takes rc) (hlt : ∀ n, rc = .accepted n → n < s.writeBuffer.size) :
    (s.dispatchWrites rc).writeBuffer.bytes ≠ [] := by
  rcases dispatchWrites_cases hne hrc with ⟨-, heq⟩ | ⟨n, rest, hn, hrest, heq⟩
  · rw [heq]
    exact hne
  · rw [heq]
    have hn := hlt n hn
    have htaken : s.taken n < s.writeBuffer.bytes.length := by
      rw [← s.writeBuffer.size_eq]
      exact ((min_le_left _ _).trans (min_le_left _ _)).trans_lt hn
    intro hnil
    simp only at hnil
    rw [hrest, drop_eq_nil_iff] at hnil
    omega

/-! ### Runs -/

theorem written_enqueue (h : s.Balanced) (p : WirePacket) :
    (s.enqueue p).written = (s.enqueue p).accepted ++ (s.enqueue p).writeBuffer.bytes := by
  rw [bytes_enqueue, ← append_assoc]
  exact congrArg (· ++ p.bytes) h.written_eq

/-- **Every step keeps the balance**, whatever the other thread does. -/
theorem Balanced.step (h : s.Balanced) (hop : s.Enabled op) : (s.step op).Balanced := by
  cases op with
  | setUp | poll => exact ⟨h.written_eq, h.writable_iff⟩
  | write p rc => exact Balanced.dispatchWrites (written_enqueue h p) (s.enqueue_ne_nil p) hop.2
  | handle rc =>
    rw [ConnectionWriter.step]
    rcases hop.2 with ⟨hthread, hrc⟩ | hthread
    · rw [if_pos (by rw [hthread]; rfl)]
      by_cases hne : s.writeBuffer.bytes = []
      · -- The `CHECK` fails before anything is written.
        rw [ConnectionWriter.dispatchWrites.eq_def, if_pos (s.writeBuffer.empty_iff.mpr hne)]
        exact ⟨h.written_eq, h.writable_iff⟩
      · obtain ⟨hwritten, hwritable⟩ := Balanced.dispatchWrites h.written_eq hne hrc
        exact ⟨hwritten, hwritable⟩
    · rw [if_neg (by rw [hthread]; exact Bool.false_ne_true)]
      exact ⟨h.written_eq, h.writable_iff⟩

theorem balanced_of_reach (h : connectionWriter.Reach s) : s.Balanced := by
  refine Machine.Reach.inv ?_ ?_ h
  · rintro s rfl
    exact ⟨rfl, iff_of_true rfl rfl⟩
  · intro s op _ hs hop
    exact hs.step hop

/-- What has been accepted is a prefix of what has been written, in every run. -/
theorem Balanced.ordered (h : s.Balanced) : s.accepted <+: s.written := ⟨_, h.written_eq.symm⟩

/-- The buffer is not writable as long as there is something in it, in every run. -/
theorem Balanced.blocked (h : s.Balanced) (hne : s.writeBuffer.bytes ≠ []) :
    s.writable = false := by
  rw [Bool.eq_false_iff, Ne, h.writable_iff]
  exact hne

/-- The invariant of the runs in which `Run` is not disturbed: `POLLOUT` is asked for only with
something in the buffer, and it stays there. -/
structure Steady (s : ConnectionWriter) : Prop where
  check : s.checkFailed = false
  wantsOut : s.thread.wantsOut = true → s.writeBuffer.bytes ≠ []

/-- **Every undisturbed step keeps the invariant.** -/
theorem Steady.step (h : s.Steady) (hb : s.Balanced) (hop : s.Enabled op)
    (hok : s.Undisturbed op) : (s.step op).Steady := by
  cases op with
  | setUp =>
    refine ⟨h.check, fun hout hnil => ?_⟩
    have hnot : s.writable = false := by simpa [ConnectionWriter.step, RunPhase.wantsOut] using hout
    exact Bool.false_ne_true (hnot ▸ hb.writable_iff.mpr hnil)
  | poll out =>
    refine ⟨h.check, fun hout => h.wantsOut ?_⟩
    rcases hop.2 with hthread | ⟨-, rfl⟩
    · rw [hthread]
      rfl
    · exact absurd hout Bool.false_ne_true
  | handle rc =>
    refine ⟨?_, fun hfalse => absurd hfalse Bool.false_ne_true⟩
    rw [ConnectionWriter.step]
    rcases hop.2 with ⟨hthread, hrc⟩ | hthread
    · have hout : s.thread.wantsOut = true := by rw [hthread]; rfl
      rw [if_pos hout]
      exact (dispatchWrites_frame (h.wantsOut hout) hrc).1.trans h.check
    · rw [if_neg (by rw [hthread]; exact Bool.false_ne_true)]
      exact h.check
  | write p rc =>
    have hne := s.enqueue_ne_nil p
    obtain ⟨hcheck, hthread⟩ := dispatchWrites_frame hne hop.2
    refine ⟨hcheck.trans h.check, fun hout => dispatchWrites_ne_nil hne hop.2 fun n hn => ?_⟩
    subst hn
    refine hok ?_
    rwa [ConnectionWriter.step, hthread] at hout

/-- **In a run in which no `Write` empties the buffer while `Run` is about to write, all is as it
should be.** -/
theorem sound_of_undisturbed (h : (connectionWriter.restrict Undisturbed).Reach s) : s.Sound := by
  have hbalanced : s.Balanced := balanced_of_reach h.of_restrict
  have hsteady : s.Steady := by
    refine Machine.Reach.inv ?_ ?_ h
    · rintro s rfl
      exact ⟨rfl, fun hout => absurd hout Bool.false_ne_true⟩
    · intro s op hreach hs hop
      exact hs.step (balanced_of_reach hreach.of_restrict) hop.1 hop.2
  exact ⟨hsteady.check, hbalanced.ordered, hbalanced.blocked⟩

/-- **Nothing is lost on the way to the connection.** In every run, also in one in which the `CHECK`
fails, what `Write` was given is what has been accepted followed by what is in the buffer, and the
buffer is empty exactly if the connection is taken to be writable. -/
theorem writes_conserved (h : connectionWriter.Reach s) :
    s.written = s.accepted ++ s.writeBuffer.bytes ∧
      (s.writable = true ↔ s.writeBuffer.bytes = []) :=
  ⟨(balanced_of_reach h).written_eq, (balanced_of_reach h).writable_iff⟩

/-- A packet whose bytes are taken in two pieces: the first by `Write`, the rest by `Run`. -/
def undisturbedOps : List Op :=
  [.write ⟨⟨0, 0, 0, 2, 0, 0⟩, [7, 8]⟩ (.accepted 10), .setUp, .poll true, .handle (.accepted 16)]

theorem sound_of_undisturbed_undisturbedOps : (connectionWriter.run {} undisturbedOps).Sound := by
  refine sound_of_undisturbed (Machine.Reach.run (.init rfl) (Machine.Legal.restrict ?_ ?_))
  · decide +kernel
  · decide +kernel

/-- `Run` asks for `POLLOUT`, and a `Write` empties the buffer before `POLLOUT` is reported. -/
def disturbedOps : List Op :=
  [.write ⟨⟨0, 0, 0, 0, 0, 0⟩, []⟩ .eagain, .setUp, .write ⟨⟨0, 0, 0, 0, 0, 0⟩, []⟩ (.accepted 48),
    .poll true, .handle .eagain]

theorem writes_conserved_disturbedOps : (connectionWriter.run {} disturbedOps).written =
    (connectionWriter.run {} disturbedOps).accepted ++
      (connectionWriter.run {} disturbedOps).writeBuffer.bytes :=
  (writes_conserved (Machine.Reach.run (.init rfl) (by decide +kernel))).1

/-- **The `CHECK` fails.** -/
theorem check_fails :
    connectionWriter.Legal {} disturbedOps ∧ ¬ (connectionWriter.run {} disturbedOps).Sound := by
  have hrun : connectionWriter.Legal {} disturbedOps ∧
      (connectionWriter.run {} disturbedOps).checkFailed = true := by decide +kernel
  refine ⟨hrun.1, fun hsound => ?_⟩
  exact Bool.false_ne_true (hsound.check.symm.trans hrun.2)

end ConnectionWriter

end AdbBridge
