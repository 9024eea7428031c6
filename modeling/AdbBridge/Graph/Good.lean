import AdbBridge.Graph.Flush

/-!
# Worlds in order

`Good` is the invariant of a whole world as far as the sockets go: the tables form a
socket graph, every socket but the local ones has a peer, every listener knows what to
do with a connection, and if the process has died then not of a bad pointer, nor of a
failed check on the sockets. The operations of `sockets.cpp` keep it, one lemma for
each.
-/

namespace AdbBridge

/-- The faults that the code raises on purpose, as against those that show it to be
wrong. -/
def Fault.deliberate : Fault → Bool
  | .useAfterFree | .nullPointer | .checkFdeWrite | .unexpectedCall | .invalidRemoteId => false
  | _ => true

namespace SockTable

/-- Every socket that is not local has a peer. -/
def Attached (k : SockTable) : Prop :=
  ∀ a s, k.heap a = some s → s.kind ≠ .localSocket → s.peer ≠ none

variable {k : SockTable} {a : Addr} {s : Asocket}

theorem Attached.upd (h : k.Attached) (hs : k.heap a = some s) {f : Asocket → Asocket}
    (hkind : (f s).kind = s.kind) (hpeer : (f s).peer = s.peer) : (k.upd a f).Attached := by
  intro b r hb hr
  rcases heap_upd_cases hs hb with ⟨rfl, rfl⟩ | ⟨-, hb⟩
  · rw [hpeer]
    exact h b s hs (hkind ▸ hr)
  · exact h b r hb hr

theorem Attached.close (h : k.Attached) (hg : k.Graph) : (k.close a).Attached := by
  intro b r hb hr
  rcases hg.heap_close_cases hb with ⟨-, -, hb⟩ | ⟨-, q, -, hq, -, rfl⟩
  · exact h b r hb hr
  · exact absurd hq hr

end SockTable

/-- Every listener is the one for the clients, or has a transport. -/
def Net.ListenersOk (n : Net) : Prop :=
  ∀ l ∈ n.listenerList, l.isSmartSocket = true ∨ l.transport.isSome

/-- **The invariant of the sockets of a server.** -/
structure Good (w : World) : Prop where
  graph : w.sk.Graph
  attached : w.sk.Attached
  listeners : w.net.ListenersOk
  sound : ∀ f, w.fault = some f → f.deliberate = true

variable {w w' : World} {a p : Addr} {s q : Asocket}

namespace Good

theorem congr (h : Good w) (hsk : w'.sk = w.sk) (hnet : w'.net = w.net)
    (hf : w'.fault = w.fault) : Good w' :=
  ⟨hsk ▸ h.graph, hsk ▸ h.attached, hnet ▸ h.listeners, hf ▸ h.sound⟩

theorem log (h : Good w) (es : List Ev) : Good (w.log es) := h.congr rfl rfl rfl

theorem tick (h : Good w) : Good w.tick := h.congr rfl rfl rfl

theorem onNet (h : Good w) {f : Net → Net} (hf : (f w.net).ListenersOk) : Good (w.onNet f) :=
  ⟨h.graph, h.attached, hf, h.sound⟩

variable {f : Fault}

theorem raise (h : Good w) (hf : f.deliberate = true) : Good (w.raise f) where
  graph := h.graph
  attached := h.attached
  listeners := h.listeners
  sound g hg := by
    rw [World.raise] at hg
    cases hw : w.fault with
    | none => simp_all
    | some f' => exact h.sound g (by simp_all)

theorem check (h : Good w) (b : Bool) (hf : f.deliberate = true) : Good (w.check b f) := by
  unfold World.check
  split
  · exact h
  · exact h.raise hf

/-- A write that touches neither links nor lists. -/
theorem upd (h : Good w) (hs : w.sk.heap a = some s) {f : Asocket → Asocket}
    (hrole : (f s).role = s.role) (hpeer : (f s).peer = s.peer) (hok : (f s).Ok)
    (htransport : s.kind = .localSocket → s.peer ≠ none → (f s).transport = s.transport) :
    Good (w.upd a f) where
  graph := h.graph.upd hs hrole hpeer hok htransport
  attached := h.attached.upd hs (congrArg Prod.fst hrole) hpeer
  listeners := h.listeners
  sound := h.sound

theorem upd_sameLinks (h : Good w) (hs : w.sk.heap a = some s) {f : Asocket → Asocket}
    (hlinks : s.SameLinks (f s)) (hok : (f s).Ok) : Good (w.upd a f) :=
  h.upd hs hlinks.role hlinks.peer hok fun _ _ => hlinks.transport

/-- A socket with a peer is not closing. -/
theorem open_of_peer (h : Good w) (hs : w.sk.heap a = some s) (hp : s.peer = some p) :
    s.closing = false := by
  by_contra hclosing
  have hnone := ((h.graph.ok a s hs).closing (by simpa using hclosing)).2.1
  exact absurd (hp.symm.trans hnone) (by simp)

/-- Only local sockets are ever closing. -/
theorem open_of_nonlocal (h : Good w) (hs : w.sk.heap a = some s) (hkind : s.kind ≠ .localSocket) :
    s.closing = false := by
  by_contra hclosing
  exact hkind ((h.graph.ok a s hs).closing (by simpa using hclosing)).1

/-- The other end of a link, as the flush asks for it. -/
theorem peer_isSome (h : Good w) (hs : w.sk.heap a = some s) (p : Addr) (hp : s.peer = some p) :
    p ≠ a ∧ (w.sk.heap p).isSome := by
  obtain ⟨hap, q, hq, -⟩ := h.graph.exists_peer hs hp
  exact ⟨hap.symm, by rw [hq]; rfl⟩

end Good

/-- `close` keeps a world in order. -/
theorem good_close (h : Good w) (hs : w.sk.heap a = some s) : Good (close w a) := by
  rw [close_eq h.graph hs]
  exact ⟨h.graph.close, h.attached.close h.graph, h.listeners, h.sound⟩

/-! ### Flushing -/

theorem good_flushLog (h : Good w) : Good (flushLog w a s) := 
  h.congr flushLog_sk flushLog_net flushLog_fault

/-- A socket whose interest in writing has been settled is in order. -/
theorem Asocket.settle_ok (hkind : s.kind = .localSocket)
    (hc : s.closing = true → s.peer = none ∧ s.fde.read = false ∧ s.fdFull = true) :
    s.settle.Ok where
  closing hcl := by
    obtain ⟨h1, h2, h3⟩ := hc hcl
    simp only [fdFull, Bool.and_eq_true, Bool.not_eq_true'] at h3
    refine ⟨hkind, h1, fun hq => ?_, h3.2, h2⟩
    exact absurd (s.packetQueue.empty_iff.mpr hq) (by simp [h3.1])
  write _ hq hw := by
    have hne : s.packetQueue.empty = false := by
      rw [Bool.eq_false_iff]
      exact fun he => hq (s.packetQueue.empty_iff.mp he)
    have hw' : s.hasWriteError = false := hw
    simp [settle, fdFull, hne, hw']
  remote hr := absurd (hkind.symm.trans hr) (by simp)

theorem flushResult_fde : (flushResult w s).1.fde = s.fde := by
  rw [flushResult_fst]

theorem flushResult_settle_ok (hok : s.Ok) (hkind : s.kind = .localSocket)
    (hc : s.closing = true → (flushResult w s).1.fdFull = true) :
    (flushResult w s).1.settle.Ok := by
  have hlinks : s.SameLinks (flushResult w s).1 := sameLinks_flushResult
  refine Asocket.settle_ok (hlinks.kind.trans hkind) fun hcl => ?_
  rw [hlinks.closing] at hcl
  obtain ⟨-, h2, -, -, h5⟩ := hok.closing hcl
  exact ⟨hlinks.peer.trans h2, by rw [flushResult_fde, h5], hc hcl⟩

/-- **A flush** leaves a socket settled, or it destroys a closing one that has nothing left. -/
theorem Good.flushIncoming_cases (h : Good w) (hs : w.sk.heap a = some s)
    (hkind : s.kind = .localSocket) :
    ((s.closing = true → (flushResult w s).1.fdFull = true) ∧
      localSocketFlushIncoming w a = ((flushLog w a s).upd a fun _ => (flushResult w s).1.settle,
        if (flushResult w s).1.fdFull then .tryAgain else .completed)) ∨
      (s.closing = true ∧ (flushResult w s).1.fdFull = false) ∧ s.peer = none ∧
        localSocketFlushIncoming w a = (((flushLog w a s).log
          (noticeEvents a (flushResult w s).1 ++ [.destroy a])).onSk (·.retire a), .destroyed) := by
  cases hends : s.closing && !(flushResult w s).1.fdFull with
  | false =>
    refine Or.inl ⟨fun hc => by simpa [hc] using hends, ?_⟩
    rw [localSocketFlushIncoming_eq hs (h.peer_isSome hs), hends, if_neg (by simp)]
  | true =>
    obtain ⟨hc, hfull⟩ : s.closing = true ∧ (flushResult w s).1.fdFull = false := by
      simpa using hends
    have hp := ((h.graph.ok a s hs).closing hc).2.1
    exact Or.inr ⟨⟨hc, hfull⟩, hp, localSocketFlushIncoming_of_done hs hp hkind hc hfull⟩

/-- A flush keeps a world in order. -/
theorem good_flushIncoming (h : Good w) (hs : w.sk.heap a = some s)
    (hkind : s.kind = .localSocket) : Good (localSocketFlushIncoming w a).1 := by
  rcases h.flushIncoming_cases hs hkind with ⟨hc, heq⟩ | ⟨-, hp, heq⟩
  · have hlinks : s.SameLinks (flushResult w s).1 := sameLinks_flushResult
    have hs' : (flushLog w a s).sk.heap a = some s := by rwa [flushLog_sk]
    rw [heq]
    exact (good_flushLog h).upd_sameLinks hs'
      ⟨hlinks.kind, hlinks.id, hlinks.closing, hlinks.peer, hlinks.transport⟩
      (flushResult_settle_ok (h.graph.ok a s hs) hkind hc)
  · have hpeer : w.sk.peerOf a = none := (SockTable.peerOf_of_some hs).trans hp
    have hretire : (w.sk.close a) = w.sk.retire a := by rw [SockTable.close, hpeer]
    rw [heq]
    refine ⟨?_, ?_, ?_, ?_⟩
    · simpa using h.graph.retire hpeer
    · simpa [hretire] using h.attached.close (a := a) h.graph
    · simpa using h.listeners
    · simpa using h.sound

theorem enqueued_ok (hkind : s.kind = .localSocket) (hc : s.closing = false) (data : Bytes) :
    (enqueued w s data).Ok := by
  have hlinks : (s.push data).SameLinks (flushResult w (s.push data)).1 := sameLinks_flushResult
  refine Asocket.settle_ok (hlinks.kind.trans hkind) fun hcl => ?_
  rw [hlinks.closing] at hcl
  exact absurd (hc.symm.trans hcl) (by simp)

/-- Enqueueing on a local socket keeps a world in order. -/
theorem good_localSocketEnqueue (h : Good w) (hs : w.sk.heap a = some s)
    (hkind : s.kind = .localSocket) (hc : s.closing = false) (data : Bytes) :
    Good (localSocketEnqueue w a data).1 := by
  rw [localSocketEnqueue_eq hs (h.peer_isSome hs) hc]
  exact (good_flushLog h).upd_sameLinks (by rwa [flushLog_sk]) (sameLinks_enqueued data)
    (enqueued_ok hkind hc data)

end AdbBridge
