import AdbBridge.Graph.Smart

/-!
# Events on sockets, as moves

What the event loop does to a socket: it flushes the queue, and it reads and hands what
it has read to the peer. Where the peer is not a remote socket this is made of `moves`,
and the socket may stop reading. Where it is, the data goes out in a packet, and the
equation for that case says exactly which.
-/

namespace AdbBridge

open SockTable List Option

variable {w w' : World} {a p : Addr} {s q : Asocket} {t : TransportId} {x : Option Addr}

/-! ### The read loop -/

/-- Some system calls have been made. -/
def World.ticks (w : World) (k : ℕ) : World := { w with io := { w.io with tick := w.io.tick + k } }

theorem World.ticks_succ (k : ℕ) : w.tick.ticks k = w.ticks (k + 1) := by
  unfold World.tick World.ticks
  simp only [Nat.add_assoc, Nat.add_comm 1 k]

theorem World.ticks_log (k : ℕ) (es : List Ev) : (w.log es).ticks k = (w.ticks k).log es := rfl

/-- **What the read loop does**: it makes system calls and takes note of the pieces it
reads; what it returns are the pieces in order, and no more than there was room for. -/
theorem readLoop_spec (n avail : ℕ) (data : Bytes) : ∃ (k : ℕ) (chunks : List Bytes),
    (readLoop a n avail w data).1 = (w.ticks k).log (chunks.map (.read a)) ∧
      (readLoop a n avail w data).2.1 = data ++ chunks.flatten ∧
        chunks.flatten.length ≤ avail := by
  induction n generalizing avail w data with
  | zero => exact ⟨0, [], by simp [readLoop, World.ticks], by simp [readLoop], by simp⟩
  | succ n ih =>
    rw [readLoop]
    split
    · exact ⟨0, [], by simp [World.ticks], by simp, by simp⟩
    · split
      · exact ⟨1, [], by simp [World.ticks, World.tick], by simp, by simp⟩
      · exact ⟨1, [], by simp [World.ticks, World.tick], by simp, by simp⟩
      · rename_i bs _
        simp only
        split
        · exact ⟨1, [], by simp [World.ticks, World.tick], by simp, by simp⟩
        · obtain ⟨k, chunks, hw, hdata, hlen⟩ := ih (avail - (bs.take avail).length)
            (w := w.tick.emit (.read a (bs.take avail))) (data ++ bs.take avail)
          refine ⟨k + 1, bs.take avail :: chunks, ?_, ?_, ?_⟩
          · rw [hw, World.emit_eq, World.ticks_log, World.ticks_succ, World.log_log]
            rfl
          · rw [hdata, flatten_cons, append_assoc]
          · have := length_take_le avail bs
            rw [flatten_cons, length_append]
            omega

theorem aside_ticks (k : ℕ) : Aside w (w.ticks k) := by
  induction k generalizing w with
  | zero => exact .refl w
  | succ k ih => exact Aside.tick.trans (World.ticks_succ (w := w) k ▸ ih)

theorem aside_readLoop (n avail : ℕ) (data : Bytes) : Aside w (readLoop a n avail w data).1 := by
  obtain ⟨k, chunks, hw, -, -⟩ := readLoop_spec (w := w) (a := a) n avail data
  rw [hw]
  exact (aside_ticks k).trans ⟨calm_log (by simp [Ev.quiet]), rfl⟩

theorem getMaxPayload_le (w : World) (s : Asocket) : getMaxPayload w s ≤ maxPayload := by
  unfold getMaxPayload
  cases s.transport <;> cases peerTransport w.sk s <;> simp

/-! ### Turns -/

/-- What reading from a socket can come to. -/
inductive Turn
  | move (m : Move)
  /-- What was read goes to a remote peer. -/
  | send (p : Addr) (data : Bytes)
  /-- The peer is busy. -/
  | pause

/-- The machine of what reading from one socket can come to, but for its end. -/
def turns (a : Addr) : Machine World Turn where
  init := actions.init
  enabled := fun w => fun
    | .move m => moves.enabled w m
    | .send p data => Action.Pre w (.transmit a p data)
    | .pause => Action.Pre w (.pause a)
  step := fun w => fun
    | .move m => m.run w
    | .send p data => Action.run w (.transmit a p data)
    | .pause => Action.run w (.pause a)

theorem turns_of_moves (h : moves.Steps w w') : (turns a).Steps w w' := by
  induction h with
  | refl => exact .refl
  | tail _ hlast ih =>
    obtain ⟨m, hm, rfl⟩ := hlast
    exact ih.tail (M := turns a) (i := Turn.move m) hm

theorem turns_of_calm (h : calm.Steps w w') : (turns a).Steps w w' :=
  turns_of_moves (moves_of_calm h)

/-- **Turns are orderly**, and spare all sockets but the one that is read from. -/
theorem steady_of_turns (hsteps : (turns a).Steps w w') (h : Good w) :
    (steady (some a)).Steps w w' := by
  refine hsteps.simulate (P := Good)
    (fun s act hs hact => good_of_steady (.single hact) hs) (fun s i hs hi => ?_) h
  cases i with
  | move m => exact steady_of_moves (.single (M := moves) hi) hs
  | send p data =>
    exact .single (M := steady (some a)) (i := .transmit a p data) ⟨⟨hi, trivial⟩, trivial⟩
  | pause => exact .single (M := steady (some a)) (i := .pause a) ⟨⟨hi, trivial⟩, rfl⟩

theorem good_of_turns (hsteps : (turns a).Steps w w') (h : Good w) : Good w' :=
  good_of_steady (steady_of_turns hsteps h) h

/-! ### Handing data to a peer that is not remote -/

/-- Data for a peer. A result of `true` says that the socket is still in use. -/
structure HandedOver (w : World) (r : World × Bool) (a : Addr) : Prop where
  steps : (turns a).Steps w r.1
  alive : r.2 = true → Action.Usable r.1 a

theorem turns_pause (ha : Action.Usable w a) : (turns a).Steps w (stopReading w a) := by
  obtain ⟨s, hs, hkind, -⟩ := ha
  exact .single (M := turns a) (i := .pause) ⟨s, hs, hkind⟩

theorem usable_pause (ha : Action.Usable w a) : Action.Usable (stopReading w a) a := by
  obtain ⟨s, hs, hkind, hc⟩ := ha
  rw [stopReading_eq hs]
  have hlinks : s.SameLinks s.paused := Asocket.sameLinks_paused
  exact ⟨_, upd_heap_self hs _, hlinks.kind.trans hkind, hlinks.closing.trans hc⟩

/-- The end of `sendToPeer`, once the peer has taken the data. -/
theorem Answered.handedOver {r : World × ℤ} (h : Answered w r a) :
    HandedOver w (if r.2 < 0 then (r.1, false)
      else if 0 < r.2 then (stopReading r.1 a, true) else (r.1, true)) a := by
  have hsteps := turns_of_moves (a := a) h.steps
  split
  · exact ⟨hsteps, fun hr => absurd hr (by simp)⟩
  · rename_i hneg
    have halive := h.alive (not_lt.mp hneg)
    split
    · exact ⟨hsteps.trans (turns_pause halive), fun _ => usable_pause halive⟩
    · exact ⟨hsteps, fun _ => halive⟩

theorem deviceTrackerEnqueue_eq (hs : w.sk.heap a = some s) (hkind : s.kind = .deviceTracker)
    (data : Bytes) : deviceTrackerEnqueue w a data = (close w a, -1) := by
  rw [deviceTrackerEnqueue, close, closeWith, World.deref_of_some hs]
  simp only [hkind]

/-- A peer that is not remote takes the data. -/
theorem answered_enqueue (h : Good w) (hs : w.sk.heap a = some s) (hkind : s.kind = .localSocket)
    (hp : s.peer = some p) (hq : w.sk.heap p = some q) (hqk : q.kind ≠ .remoteSocket)
    (data : Bytes) : Answered w (enqueue w p data) a := by
  obtain ⟨hap, q', hq', hqa⟩ := h.graph.exists_peer hs hp
  obtain rfl : q = q' := some.inj (hq.symm.trans hq')
  have hqc : q.closing = false := h.open_of_peer hq hqa
  have hsc : s.closing = false := h.open_of_peer hs hp
  unfold enqueue
  simp only [hq]
  cases hk : q.kind with
  | smartSocket => exact answered_smartSocketEnqueue h ⟨q, hq, hk, hqa⟩ data
  | remoteSocket => exact absurd hk hqk
  | localSocket =>
    simp only [enqueueData, hq, hk]
    refine ⟨moves_of_calm (calm_push hq hk hqc data), fun _ => ?_⟩
    rw [localSocketEnqueue_eq hq (h.peer_isSome hq) hqc]
    refine ⟨s, ?_, hkind, hsc⟩
    rw [World.upd_sk, upd_heap_of_ne hap, flushLog_sk, hs]
  | deviceTracker =>
    simp only [enqueueData, hq, hk, deviceTrackerEnqueue_eq hq hk]
    exact ⟨moves_of_calm (calm_close hq hqc), fun hr => absurd hr (by simp)⟩

/-- What a local socket does with data for a peer that is not remote. -/
theorem handedOver_sendToPeer (h : Good w) (hs : w.sk.heap a = some s)
    (hkind : s.kind = .localSocket) (hp : s.peer = some p) (hq : w.sk.heap p = some q)
    (hqk : q.kind ≠ .remoteSocket) (data : Bytes) : HandedOver w (sendToPeer w a p data) a := by
  have ht : s.transport = none := by
    by_contra ht
    exact hqk (h.graph.bound a s p q hs hp hq hkind ht)
  have hap : p ≠ a := ((h.graph.exists_peer hs hp).1).symm
  have hrun : Action.run w (.hand a data) =
      (w.log [.outgoing a s.availableSendBytes data]).upd a (·.charge data.length) := by
    rw [Action.run, World.deref_of_some hs]
  have hhand : calm.Steps w (Action.run w (.hand a data)) := by
    refine .single (M := calm) (i := .hand a data) ⟨⟨s, hs, hkind⟩, fun r hr => ?_⟩
    exact some.inj (hs.symm.trans hr) ▸ ht
  rw [hrun] at hhand
  have hs' := upd_heap_self hs (·.charge data.length)
  have hanswer := answered_enqueue (good_of_calm hhand h) hs' hkind hp
    ((upd_heap_of_ne hap _).trans hq) hqk data
  have hover := hanswer.handedOver
  unfold sendToPeer
  simp only [hs]
  exact ⟨(turns_of_calm hhand).trans hover.steps, hover.alive⟩

/-! ### Reading from a socket -/

/-- What a read comes to: the world, the data, and whether the descriptor is at its
end. -/
def readResult (w : World) (a : Addr) (s : Asocket) : World × Bytes × Bool :=
  readLoop a (getMaxPayload w s) (getMaxPayload w s) w []

theorem aside_readResult : Aside w (readResult w a s).1 := aside_readLoop _ _ _

theorem readResult_length : (readResult w a s).2.1.length ≤ maxPayload := by
  obtain ⟨k, chunks, -, hdata, hlen⟩ :=
    readLoop_spec (w := w) (a := a) (getMaxPayload w s) (getMaxPayload w s) []
  rw [readResult, hdata, nil_append]
  exact hlen.trans (getMaxPayload_le w s)

/-- What becomes of the data: the world, and whether the socket is still there. -/
def handOver (w : World) (a : Addr) (peer : Option Addr) (data : Bytes) : World × Bool :=
  match peer with
  | none => (w, true)
  | some p => if data.isEmpty then (w, true) else sendToPeer w a p data

/-- Reading for a socket in one equation: what is read, and what comes of it. -/
theorem localSocketFlushOutgoing_eq (hs : w.sk.heap a = some s) :
    (localSocketFlushOutgoing w a).1 =
      let r := readResult w a s
      let handed := handOver r.1 a s.peer r.2.1
      if handed.2 && r.2.2 then close handed.1 a else handed.1 := by
  have hdef : localSocketFlushOutgoing w a =
      let handed := handOver (readResult w a s).1 a s.peer (readResult w a s).2.1
      if !handed.2 then (handed.1, false)
      else if (readResult w a s).2.2 then (close handed.1 a, false) else (handed.1, true) := by
    unfold localSocketFlushOutgoing
    rw [hs]
    rfl
  rw [hdef]
  cases h₁ : (handOver (readResult w a s).1 a s.peer (readResult w a s).2.1).2 <;>
    cases h₂ : (readResult w a s).2.2 <;> simp [h₁, h₂]

/-- Reading from a socket that has no peer: the data is lost. -/
theorem localSocketFlushOutgoing_alone (hs : w.sk.heap a = some s) (hp : s.peer = none) :
    (localSocketFlushOutgoing w a).1 =
      if (readResult w a s).2.2 then close (readResult w a s).1 a else (readResult w a s).1 := by
  rw [localSocketFlushOutgoing_eq hs, hp]
  rfl

/-- The socket and the packets after data has gone to a remote peer. -/
def transmitted (w : World) (a : Addr) (s q : Asocket) (t : TransportId) (data : Bytes) : World :=
  if data.isEmpty then w
  else (w.log [.outgoing a s.availableSendBytes data, .send t (wrtePacket s q data)]).upd a
    fun s => (s.charge data.length).paused

/-- **Reading from a socket with a remote peer**: the data goes out in a packet. -/
theorem localSocketFlushOutgoing_remote (h : Good w) (hs : w.sk.heap a = some s)
    (hp : s.peer = some p) (hq : w.sk.heap p = some q) (hkind : q.kind = .remoteSocket)
    (ht : q.transport = some t) : (localSocketFlushOutgoing w a).1 =
      let r := readResult w a s
      let w' := transmitted r.1 a s q t r.2.1
      if r.2.2 then close w' a else w' := by
  have hread : Aside w (readResult w a s).1 := aside_readResult
  have hsend := sendToPeer_remote (w := (readResult w a s).1) (hread.good h).graph
    (hread.sk ▸ hs) hp (hread.sk ▸ hq) hkind ht (readResult_length (w := w) (a := a) (s := s))
  have hover : handOver (readResult w a s).1 a s.peer (readResult w a s).2.1 =
      (transmitted (readResult w a s).1 a s q t (readResult w a s).2.1, true) := by
    rw [hp, handOver, hsend, transmitted]
    split <;> rfl
  rw [localSocketFlushOutgoing_eq hs]
  simp only [hover, Bool.true_and]

/-- Reading from a socket whose peer is not remote. -/
theorem turns_flushOutgoing_near (h : Good w) (hs : w.sk.heap a = some s)
    (hkind : s.kind = .localSocket)
    (hremote : ∀ p q, s.peer = some p → w.sk.heap p = some q → q.kind ≠ .remoteSocket)
    (hc : s.closing = true → (readResult w a s).2.2 = false) :
    (turns a).Steps w (localSocketFlushOutgoing w a).1 := by
  have hread : Aside w (readResult w a s).1 := aside_readResult
  cases hclosing : s.closing with
  | true =>
    rw [localSocketFlushOutgoing_alone hs ((h.graph.ok a s hs).closing hclosing).2.1,
      hc hclosing, if_neg (by simp)]
    exact turns_of_calm hread.steps
  | false =>
    have husable : Action.Usable (readResult w a s).1 a := ⟨s, hread.sk ▸ hs, hkind, hclosing⟩
    have hover : HandedOver (readResult w a s).1
        (handOver (readResult w a s).1 a s.peer (readResult w a s).2.1) a := by
      cases hp : s.peer with
      | none => exact ⟨.refl, fun _ => husable⟩
      | some p =>
        obtain ⟨-, q, hq, -⟩ := h.graph.exists_peer hs hp
        rw [handOver]
        split
        · exact ⟨.refl, fun _ => husable⟩
        · exact handedOver_sendToPeer (hread.good h) (hread.sk ▸ hs) hkind hp (hread.sk ▸ hq)
            (hremote p q hp hq) _
    have hsteps := (turns_of_calm hread.steps).trans hover.steps
    rw [localSocketFlushOutgoing_eq hs]
    simp only
    split
    · rename_i heof
      obtain ⟨r, hr, -, hrc⟩ := hover.alive (Bool.and_eq_true _ _ ▸ heof).1
      exact hsteps.trans (turns_of_calm (calm_close hr hrc))
    · exact hsteps

theorem transmitted_heap (hs : w.sk.heap a = some s) (data : Bytes) :
    ∃ s', (transmitted w a s q t data).sk.heap a = some s' ∧ s.SameLinks s' := by
  unfold transmitted
  split
  · exact ⟨s, hs, rfl, rfl, rfl, rfl, rfl⟩
  · have hlinks : (s.charge data.length).SameLinks (s.charge data.length).paused :=
      Asocket.sameLinks_paused
    exact ⟨_, upd_heap_self hs _, hlinks.kind, hlinks.id, hlinks.closing, hlinks.peer,
      hlinks.transport⟩

/-- Sending to a remote peer. -/
theorem turns_transmitted (h : Good w) (hs : w.sk.heap a = some s)
    (hkind : s.kind = .localSocket) (hp : s.peer = some p) (hq : w.sk.heap p = some q)
    (hqk : q.kind = .remoteSocket) (ht : q.transport = some t) {data : Bytes}
    (hlen : data.length ≤ maxPayload) : (turns a).Steps w (transmitted w a s q t data) := by
  unfold transmitted
  split
  · exact .refl
  · have hrun := sendToPeer_remote h.graph hs hp hq hqk ht hlen
    have hstep : (turns a).Steps w (sendToPeer w a p data).1 :=
      .single (M := turns a) (i := .send p data) ⟨⟨s, hs, hkind, h.open_of_peer hs hp⟩,
        (peerOf_of_some hs).trans hp, ⟨q, hq, hqk⟩, hlen⟩
    rwa [hrun] at hstep

/-- **Reading from a socket**, unless a closing socket comes to the end of its
descriptor. -/
theorem turns_localSocketFlushOutgoing (h : Good w) (hs : w.sk.heap a = some s)
    (hkind : s.kind = .localSocket) (hc : s.closing = true → (readResult w a s).2.2 = false) :
    (turns a).Steps w (localSocketFlushOutgoing w a).1 := by
  by_cases hremote : ∃ p q, s.peer = some p ∧ w.sk.heap p = some q ∧ q.kind = .remoteSocket
  · obtain ⟨p, q, hp, hq, hqk⟩ := hremote
    obtain ⟨t, ht⟩ := isSome_iff_exists.mp ((h.graph.ok p q hq).remote hqk).2
    have hread : Aside w (readResult w a s).1 := aside_readResult
    have hsend := turns_transmitted (hread.good h) (hread.sk ▸ hs) hkind hp (hread.sk ▸ hq) hqk
      ht (readResult_length (w := w) (a := a) (s := s))
    have hsteps := (turns_of_calm hread.steps).trans hsend
    rw [localSocketFlushOutgoing_remote h hs hp hq hqk ht]
    simp only
    split
    · obtain ⟨s', hs', hlinks⟩ := transmitted_heap (w := (readResult w a s).1) (q := q) (t := t)
        (hread.sk ▸ hs) (readResult w a s).2.1
      exact hsteps.trans (turns_of_calm
        (calm_close hs' (hlinks.closing.trans (h.open_of_peer hs hp))))
    · exact hsteps
  · push Not at hremote
    exact turns_flushOutgoing_near h hs hkind hremote hc

theorem steady_localSocketFlushOutgoing (h : Good w) (hs : w.sk.heap a = some s)
    (hkind : s.kind = .localSocket) (hc : s.closing = true → (readResult w a s).2.2 = false) :
    (steady (some a)).Steps w (localSocketFlushOutgoing w a).1 :=
  steady_of_turns (turns_localSocketFlushOutgoing h hs hkind hc) h

/-- Reading for a socket spares the interest in reading of all others. -/
theorem sparing_localSocketFlushOutgoing (h : Good w) (hs : w.sk.heap a = some s)
    (hkind : s.kind = .localSocket) :
    (sparing (some a)).Steps w (localSocketFlushOutgoing w a).1 := by
  by_cases hc : s.closing = true → (readResult w a s).2.2 = false
  · exact sparing_of_steady (steady_localSocketFlushOutgoing h hs hkind hc)
  · -- A closing socket at the end of its descriptor is destroyed with its queue.
    push Not at hc
    have hread : Aside w (readResult w a s).1 := aside_readResult
    rw [localSocketFlushOutgoing_alone hs ((h.graph.ok a s hs).closing hc.1).2.1,
      if_pos (by simpa using hc.2)]
    exact (sparing_of_steady (steady_of_calm hread.steps)).trans
      (.single (M := sparing (some a)) (i := .close a) ⟨⟨s, hread.sk ▸ hs⟩, trivial⟩)

/-! ### Events -/

theorem calm_flush (hs : w.sk.heap a = some s) (hkind : s.kind = .localSocket) :
    calm.Steps w (localSocketFlushIncoming w a).1 :=
  .single (M := calm) (i := .flush a) ⟨⟨s, hs, hkind⟩, trivial⟩

/-- A flush that does not destroy the socket. -/
theorem localSocketFlushIncoming_of_alive (h : Good w) (hs : w.sk.heap a = some s)
    (hkind : s.kind = .localSocket) (halive : (localSocketFlushIncoming w a).2 ≠ .destroyed) :
    (localSocketFlushIncoming w a).1 =
      (flushLog w a s).upd a fun _ => (flushResult w s).1.settle := by
  rcases h.flushIncoming_cases hs hkind with ⟨-, heq⟩ | ⟨-, -, heq⟩
  · rw [heq]
  · exact absurd (congrArg Prod.snd heq) halive

/-- The first half of `local_socket_event_func`. -/
def eventWrite (w : World) (a : Addr) (ev : Fdevent) : World × Bool :=
  if ev.write then
    ((localSocketFlushIncoming w a).1, (localSocketFlushIncoming w a).2 == .destroyed)
  else (w, false)

theorem localSocketEventFunc_eq (ev : Fdevent) : localSocketEventFunc w a ev =
    if ev.read && !(eventWrite w a ev).2 then (localSocketFlushOutgoing (eventWrite w a ev).1 a).1
    else (eventWrite w a ev).1 := by
  unfold localSocketEventFunc eventWrite
  cases ev.write <;> rfl

theorem calm_eventWrite (hs : w.sk.heap a = some s) (hkind : s.kind = .localSocket)
    (ev : Fdevent) : calm.Steps w (eventWrite w a ev).1 := by
  unfold eventWrite
  split
  · exact calm_flush hs hkind
  · exact .refl

/-- The socket after the write, if it is still there. -/
theorem eventWrite_heap (h : Good w) (hs : w.sk.heap a = some s) (hkind : s.kind = .localSocket)
    {ev : Fdevent} (halive : (eventWrite w a ev).2 = false) :
    ∃ s', (eventWrite w a ev).1.sk.heap a = some s' ∧ s.SameLinks s' ∧
      s'.fde.read = s.fde.read ∧ s'.availableSendBytes = s.availableSendBytes := by
  unfold eventWrite at halive ⊢
  split
  · rename_i hw
    rw [if_pos hw] at halive
    have hlinks : s.SameLinks (flushResult w s).1 := sameLinks_flushResult
    rw [localSocketFlushIncoming_of_alive h hs hkind (by simpa using halive)]
    refine ⟨_, upd_heap_self (by rwa [flushLog_sk]) _, ⟨hlinks.kind, hlinks.id,
      hlinks.closing, hlinks.peer, hlinks.transport⟩, ?_, ?_⟩
    · change (flushResult w s).1.fde.read = s.fde.read
      rw [flushResult_fde]
    · rw [flushResult_fst]
      rfl
  · exact ⟨s, hs, ⟨rfl, rfl, rfl, rfl, rfl⟩, rfl, rfl⟩

/-- **`local_socket_event_func`.** -/
theorem sparing_localSocketEventFunc (h : Good w) (hs : w.sk.heap a = some s)
    (hkind : s.kind = .localSocket) (ev : Fdevent) :
    (sparing (some a)).Steps w (localSocketEventFunc w a ev) := by
  have hwrite := calm_eventWrite hs hkind ev
  have hsteps := sparing_of_steady (steady_of_calm (x := some a) hwrite)
  rw [localSocketEventFunc_eq]
  split
  · rename_i hread
    have halive : (eventWrite w a ev).2 = false := by simp_all
    obtain ⟨s', hs', hlinks, -⟩ := eventWrite_heap h hs hkind halive
    exact hsteps.trans
      (sparing_localSocketFlushOutgoing (good_of_calm hwrite h) hs' (hlinks.kind.trans hkind))
  · exact hsteps

/-! ### Connections of clients -/

/-- The table after a socket has been joined to a new smart one. -/
theorem calm_connectToSmartsocket (hs : w.sk.heap a = some s) (hne : a ≠ w.sk.brk)
    (hkind : s.kind = .localSocket) (hc : s.closing = false) (hp : s.peer = none)
    (ht : s.transport = none) : calm.Steps w (connectToSmartsocket w a) := by
  have hmake : calm.Steps w (Action.run w (.makeSmart a)) :=
    .single (M := calm) (i := .makeSmart a) ⟨⟨s, hs, hkind, hc, hp, ht⟩, trivial⟩
  have hs' : (Action.run w (.makeSmart a)).sk.heap a = some { s with peer := some w.sk.brk } :=
    (upd_heap_of_ne hne _).trans
      (upd_heap_self ((alloc_heap_of_ne hne).trans hs) _)
  have hss : (Action.run w (.makeSmart a)).sk.heap w.sk.brk =
      some { kind := .smartSocket, peer := some a } :=
    upd_heap_self (f := ({ · with peer := some a }))
      ((upd_heap_of_ne hne.symm _).trans alloc_heap_self)
  refine hmake.trans (.single (M := calm) (i := .wake a)
    ⟨⟨_, hs', hkind, hc⟩, fun r p q hr hp hq => ?_, fun r hr => ?_⟩)
  · obtain rfl := some.inj (hs'.symm.trans hr)
    obtain rfl := some.inj hp
    obtain rfl := some.inj (hss.symm.trans hq)
    simp
  · obtain rfl := some.inj (hs'.symm.trans hr)
    exact ht

/-- `ss_listener_event_func`. -/
theorem calm_ssListenerEventFunc : calm.Steps w (ssListenerEventFunc w) := by
  refine calm_createLocalSocket.trans (calm_connectToSmartsocket createLocalSocket_heap ?_ rfl rfl
    rfl rfl)
  rw [createLocalSocket_eq, World.check]
  split <;> exact Nat.ne_of_lt (Nat.lt_succ_self _)

/-- `listener_event_func`, for a listener that belongs to a transport. -/
theorem calm_listenerEventFunc (h : Good w) {l : Alistener} (hl : l ∈ w.net.listenerList)
    (ht : l.transport = some t) : calm.Steps w (listenerEventFunc w l) := by
  have hmake : calm.Steps w (Action.run w (.makeLocal (some t) (w.initialAllowance t))) :=
    .single (M := calm) (i := .makeLocal (some t) (w.initialAllowance t))
      ⟨trivial, Or.inr (Or.inl ⟨l, hl, ht⟩), rfl⟩
  have hallow : ((createLocalSocket w).1.upd w.sk.brk
      ({ · with transport := some t })).initialAllowance t = w.initialAllowance t := by
    rw [createLocalSocket_eq, World.check]
    split <;> rfl
  have hcell : ((createLocalSocket w).1.upd w.sk.brk ({ · with transport := some t })).sk.heap
      w.sk.brk = some { kind := .localSocket, id := w.sk.localSocketNextId, transport := some t } :=
    upd_heap_self createLocalSocket_heap _
  have hrun : listenerEventFunc w l = dial (Action.run w (.makeLocal (some t)
      (w.initialAllowance t))) t w.sk.localSocketNextId l.connectTo := by
    have hcreate : (createLocalSocket w).2 = w.sk.brk := rfl
    simp only [listenerEventFunc, ht, hcreate]
    rw [connectToRemote_eq hcell rfl rfl, hallow]
    simp only [Action.run, hcreate, World.upd]
    rw [dial_onSk, dial_onSk]
    simp only [World.onSk]
    congr 1
    rw [upd_upd]
    refine upd_congr (s := { kind := .localSocket, id := w.sk.localSocketNextId }) ?_ ?_
    · rw [dial_sk]
      exact createLocalSocket_heap
    · simp
  rw [hrun]
  exact hmake.trans (aside_dial (good_of_calm hmake h) _ _).steps

end AdbBridge
