import AdbBridge.Graph.Server
import AdbBridge.Requests.Framing

/-!
# What the result of `enqueue` says

A socket that hands data to its peer looks at the result. At `-1` it returns at once and
never touches itself again; at anything else it goes on. The result is thus a message
about the *caller*: `-1` must mean that the caller has been closed on the way.

`Told` is this contract. The four implementations keep it, with one exception: a smart
socket that cannot make sense of what follows `host-transport-id:` returns `-1` and
closes nothing, so that its client is left open and forgotten (`told_enqueue_iff`).
-/

namespace AdbBridge

/-- A socket that has not been closed. -/
def InUse (w : World) (a : Addr) : Prop := ∃ s, w.sk.heap a = some s ∧ s.closing = false

instance (w : World) (a : Addr) : Decidable (InUse w a) :=
  decidable_of_iff ((w.sk.heap a).any fun s => !s.closing) <| by
    cases h : w.sk.heap a <;> simp [InUse, h]

/-- **The contract of `enqueue`**: `-1` says that the caller has been closed. -/
def Told (r : World × ℤ) (p : Addr) : Prop := r.2 = -1 ↔ ¬InUse r.1 p

/-- A request that has arrived in full and is dropped by the smart socket. -/
def Dropped (s : Asocket) (data : Bytes) : Prop :=
  s.kind = .smartSocket ∧ ∃ buf, framing (s.smartSocketData ++ data) = .complete buf ∧
    parseSmartRequest (buf.drop 4) = .error .ignore

section Told

variable {w w' : World} {a c p : Addr} {s : Asocket} {r : World × ℤ}

theorem InUse.of_usable (h : Action.Usable w a) : InUse w a := by
  obtain ⟨s, hs, -, hc⟩ := h
  exact ⟨s, hs, hc⟩

theorem told_of_inUse (hr : 0 ≤ r.2) (h : InUse r.1 p) : Told r p := by
  constructor
  · intro hneg
    omega
  · exact fun hnot => absurd h hnot

/-- Closing a socket closes its peer. -/
theorem not_inUse_close (h : Good w) (hs : w.sk.heap a = some s) (hp : s.peer = some p) :
    ¬InUse (close w a) p := by
  rintro ⟨q, hq, hc⟩
  rw [close_eq h.graph hs, World.onSk_sk, World.log_sk] at hq
  rcases h.graph.heap_close_cases hq with ⟨-, hne, -⟩ | ⟨-, r, -, -, -, rfl⟩
  · exact hne ((SockTable.peerOf_of_some hs).trans hp)
  · exact absurd hc (by simp [Asocket.toClosing])

/-! ### Smart sockets -/

/-- A request has failed, with the client still at its smart socket until the very end,
or there is something to report that is not negative. -/
def Settled (w : World) (r : World × ℤ) (a c : Addr) : Prop :=
  (∃ w', Serves w w' a c ∧ r = smartSocketFail w' a) ∨ 0 ≤ r.2

theorem Settled.told (h : Good w) (hr : Settled w r a c) (ha : Answered w r c) : Told r c := by
  rcases hr with ⟨w', hserves, rfl⟩ | hr
  · obtain ⟨s, hs, -, hsc⟩ := hserves.client
    exact iff_of_true rfl (not_inUse_close (good_of_moves hserves.steps h) hs hsc)
  · exact told_of_inUse hr (.of_usable (ha.alive hr))

theorem settled_smartSocketConnect (hac : Client w a c) (destination : Bytes) :
    Settled w (smartSocketConnect w a c destination) a c := by
  obtain ⟨s, hs, -⟩ := id hac
  unfold smartSocketConnect
  simp only [hs]
  split
  · exact Or.inl ⟨_, hac.aside (.reply _), rfl⟩
  · split
    · exact Or.inl ⟨_, hac.aside (.reply _), rfl⟩
    · exact Or.inr Int.one_nonneg

theorem settled_smartSocketHostService (hac : Client w a c) (service : Bytes) :
    Settled w (smartSocketHostService w a c service) a c := by
  unfold smartSocketHostService
  rcases hostServiceToSocket_cases w service with heq | ⟨o, heq⟩ | heq
  · rw [heq]
    exact Or.inl ⟨_, hac.aside (.reply _), rfl⟩
  · rw [heq]
    exact Or.inr le_rfl
  · rw [heq]
    exact Or.inr le_rfl

theorem Serves.settled (h : Serves w w' a c) (hr : Settled w' r a c) : Settled w r a c := by
  rcases hr with ⟨w'', h', rfl⟩ | hr
  · exact Or.inl ⟨w'', ⟨h.steps.trans h'.steps, h'.client⟩, rfl⟩
  · exact Or.inr hr

/-- Every request that is not ignored is settled. -/
theorem settled_smartSocketRequest (h : Good w) (hac : Client w a c) {service : Bytes}
    (hparse : parseSmartRequest service ≠ .error .ignore) :
    Settled w (smartSocketRequest w a service) a c := by
  obtain ⟨s, q, hs, hkind, hsc, hq, -⟩ := h.client hac
  unfold smartSocketRequest
  simp only [hs]
  split
  · exact Or.inl ⟨w, hac.aside (.refl w), rfl⟩
  · rename_i hignore
    exact absurd hignore hparse
  · rename_i command sel _
    simp only [hsc, hq]
    split
    · exact settled_smartSocketConnect hac service
    · have hreq := serves_handleHostRequest h hac command sel
      split
      · rename_i w' hw'
        rw [hw'] at hreq
        exact Or.inl ⟨w', hreq, rfl⟩
      · exact Or.inr le_rfl
      · rename_i w' hw'
        rw [hw'] at hreq
        exact hreq.settled (settled_smartSocketHostService hreq.client _)

/-- A smart socket keeps the contract exactly if it does not drop the request. -/
theorem told_smartSocketEnqueue_iff (h : Good w) (hs : w.sk.heap a = some s)
    (hkind : s.kind = .smartSocket) (hp : s.peer = some c) (data : Bytes) :
    Told (smartSocketEnqueue w a data) c ↔ ¬Dropped s data := by
  have hac : Client w a c := ⟨s, hs, hkind, hp⟩
  have hread := (hac.aside (.refl w)).write (s.smartSocketData ++ data)
  have hanswer := answered_smartSocketEnqueue h hac data
  rw [smartSocketEnqueue_eq hs] at hanswer ⊢
  cases hframe : framing (s.smartSocketData ++ data) with
  | incomplete =>
    simp only [hframe] at hanswer ⊢
    refine iff_of_true (told_of_inUse le_rfl (.of_usable (hanswer.alive le_rfl))) ?_
    rintro ⟨-, buf, hbuf, -⟩
    exact absurd (hframe.symm.trans hbuf) (by simp)
  | bad =>
    simp only [hframe] at hanswer ⊢
    refine iff_of_true (Settled.told h (Or.inl ⟨_, hread, rfl⟩) hanswer) ?_
    rintro ⟨-, buf, hbuf, -⟩
    exact absurd (hframe.symm.trans hbuf) (by simp)
  | complete buf =>
    simp only [hframe] at hanswer ⊢
    have hset := hread.write buf
    have hdropped : Dropped s data ↔ parseSmartRequest (buf.drop 4) = .error .ignore := by
      unfold Dropped
      rw [hframe]
      simp [hkind]
    rw [hdropped]
    by_cases hparse : parseSmartRequest (buf.drop 4) = .error .ignore
    · -- Nothing has happened, but for the result.
      refine iff_of_false (fun htold => ?_) (not_not.mpr hparse)
      obtain ⟨r, hr, -, -⟩ := hset.client
      obtain ⟨-, q, -, -, -, hq, -, -, hqc, -⟩ := (good_of_moves hset.steps h).client hset.client
      unfold Told smartSocketRequest at htold
      simp only [hr, hparse] at htold
      exact (htold.mp trivial) ⟨q, hq, hqc⟩
    · refine iff_of_true ?_ hparse
      have hg := good_of_moves hset.steps h
      exact (hset.settled (settled_smartSocketRequest hg hset.client hparse)).told h hanswer

/-! ### All sockets -/

/-- **The contract of `enqueue`** is kept by every socket and for every payload, but for
the requests that a smart socket drops. -/
theorem told_enqueue_iff (h : Good w) (hs : w.sk.heap a = some s) (hp : s.peer = some p)
    {data : Bytes} (hlen : data.length ≤ maxPayload) :
    Told (enqueue w a data) p ↔ ¬Dropped s data := by
  obtain ⟨hap, q, hq, hqa⟩ := h.graph.exists_peer hs hp
  have hqc : q.closing = false := h.open_of_peer hq hqa
  unfold enqueue
  simp only [hs]
  cases hkind : s.kind with
  | smartSocket => exact told_smartSocketEnqueue_iff h hs hkind hp data
  | localSocket =>
    refine iff_of_true ?_ fun hdrop => absurd (hkind.symm.trans hdrop.1) (by simp)
    simp only [enqueueData, hs, hkind]
    rw [localSocketEnqueue_eq hs (h.peer_isSome hs) (h.open_of_peer hs hp)]
    refine told_of_inUse ?_ ⟨q, ?_, hqc⟩
    · split <;> simp
    · rw [World.upd_sk, SockTable.upd_heap_of_ne hap.symm, flushLog_sk, hq]
  | remoteSocket =>
    refine iff_of_true ?_ fun hdrop => absurd (hkind.symm.trans hdrop.1) (by simp)
    obtain ⟨t, ht⟩ := Option.isSome_iff_exists.mp ((h.graph.ok a s hs).remote hkind).2
    simp only [enqueueData, hs, hkind, remoteSocketEnqueue, hp, ht, hq, not_lt.mpr hlen, if_false]
    exact told_of_inUse Int.one_nonneg ⟨q, hq, hqc⟩
  | deviceTracker =>
    refine iff_of_true ?_ fun hdrop => absurd (hkind.symm.trans hdrop.1) (by simp)
    simp only [enqueueData, hs, hkind, deviceTrackerEnqueue_eq hs hkind]
    exact iff_of_true rfl (not_inUse_close h hs hp)

/-- A server with one client: its socket is `0`, and the smart socket is `1`. -/
def oneClient : World :=
  server.run (initialWorld {} {}) [.poll [(.listener 0, { epollin := true })]]

/-- A client that asks for the version. -/
theorem told_enqueue_version : Told (enqueue oneClient 1 (ascii "000chost:version")) 0 := by
  have hreach : server.Reach oneClient := reach_of_legal (by decide +kernel)
  obtain ⟨s, hs, hp, hdata⟩ : ∃ s, oneClient.sk.heap 1 = some s ∧ s.peer = some 0 ∧
      s.smartSocketData = [] := ⟨_, rfl, rfl, rfl⟩
  refine (told_enqueue_iff (good_of_reach hreach) hs hp (by decide +kernel)).mpr ?_
  rintro ⟨-, buf, hbuf, hparse⟩
  have hframe : framing ([] ++ ascii "000chost:version") =
      .complete (ascii "000chost:version") := by
    decide +kernel
  rw [hdata] at hbuf
  obtain rfl := Framing.complete.inj (hframe.symm.trans hbuf)
  have hok : (parseSmartRequest ((ascii "000chost:version").drop 4)).isOk = true := by
    decide +kernel
  rw [hparse] at hok
  exact absurd hok (by decide)

/-- A client that asks for a transport by something other than a number. -/
theorem not_told_enqueue : ¬Told (enqueue oneClient 1 (ascii "0013host-transport-id:x")) 0 := by
  unfold Told
  decide +kernel

end Told

end AdbBridge
