import AdbBridge.Graph.Requests

/-!
# Clients, as moves

What happens to a client's socket and the smart socket it is connected to, from the
first byte of a request until the request has been answered, handed to a service of the
host or sent on to a device. Whatever it is, it is made of `moves`, and whenever the
smart socket reports success the client's socket is still in use.
-/

namespace AdbBridge

open SockTable Option

variable {w w' : World} {a c : Addr} {s : Asocket} {t : TransportId} {sel : Selector}

/-! ### A client and its smart socket -/

/-- A smart socket and the socket of its client. -/
def Client (w : World) (a c : Addr) : Prop :=
  ∃ s, w.sk.heap a = some s ∧ s.kind = .smartSocket ∧ s.peer = some c

/-- Moves during which a client stays with its smart socket. -/
structure Serves (w w' : World) (a c : Addr) : Prop where
  steps : moves.Steps w w'
  client : Client w' a c

theorem Client.aside (h : Client w a c) (haside : Aside w w') : Serves w w' a c :=
  ⟨moves_of_calm haside.steps, by rwa [Client, haside.sk]⟩

theorem Serves.aside {w'' : World} (h : Serves w w' a c) (haside : Aside w' w'') :
    Serves w w'' a c :=
  let h' := h.client.aside haside
  ⟨h.steps.trans h'.steps, h'.client⟩

/-- The socket of a client, seen from its smart socket. -/
theorem Good.client (h : Good w) (hac : Client w a c) : ∃ s q, w.sk.heap a = some s ∧
    s.kind = .smartSocket ∧ s.peer = some c ∧ w.sk.heap c = some q ∧ q.peer = some a ∧
      q.kind = .localSocket ∧ q.closing = false ∧ q.transport = none := by
  obtain ⟨s, hs, hkind, hc⟩ := hac
  obtain ⟨c', q, hc', hq, hqa, hqk, hqc⟩ := h.tracker_peer hs (by simp [hkind])
  obtain rfl : c = c' := some.inj (hc.symm.trans hc')
  refine ⟨s, q, hs, hkind, hc, hq, hqa, hqk, hqc, ?_⟩
  by_contra ht
  exact absurd (hkind.symm.trans (h.graph.bound c q a s hq hqa hs hqk ht)) (by simp)

theorem Good.not_tracked (h : Good w) (hac : Client w a c) : ¬w.sk.Tracked a := by
  obtain ⟨s, q, hs, -, hsc, hq, -, hqk, -⟩ := h.client hac
  rintro ⟨p, hp, r, hr, hrk⟩
  obtain rfl : c = p := some.inj (hsc.symm.trans
    ((peerOf_of_some hs).symm.trans hp))
  obtain rfl : q = r := some.inj (hq.symm.trans hr)
  exact absurd (hqk.symm.trans hrk) (by simp)

/-- News for the device trackers is nothing to a client. -/
theorem Serves.updateTransports (h : Serves w w' a c) (hw : Good w) :
    Serves w (updateTransports w') a c := by
  have hg := good_of_moves h.steps hw
  refine ⟨h.steps.trans (moves_of_calm (calm_updateTransports hg)), ?_⟩
  unfold Client
  rw [(updated_updateTransports hg).frame a (hg.not_tracked h.client)]
  exact h.client

/-- The transport a client has switched to is in use. -/
theorem Good.live_of_client (h : Good w) (hac : Client w a c) (ht : w.sk.transportOf a = some t) :
    w.Live t := by
  obtain ⟨s, q, hs, -, -, hq, hqa, hqk, hqc, -⟩ := h.client hac
  refine Or.inr (Or.inr ⟨c, (h.graph.list.mem_iff c).mpr ⟨q, hq, hqk, hqc⟩, ?_⟩)
  exact boundTo_iff.mpr (Or.inr ⟨a, (peerOf_of_some hq).trans hqa, ht⟩)

/-- A client gets only a transport that is of use to it. -/
theorem live_of_acquire (h : acquire w sel false = .ok t) : w.Live t := by
  unfold acquire acquireOneTransport at h
  simp only [Bool.false_eq_true, if_false] at h
  split at h
  · rename_i u hresult
    obtain rfl : u = t := Except.ok.inj h
    split at hresult
    · exact absurd hresult (by simp_all)
    · split at hresult
      · exact absurd hresult (by simp)
      · rename_i v hv _ hactive
        obtain rfl : v = u := some.inj (hv.symm.trans hresult)
        exact Or.inl hactive
  · exact absurd h (by simp)

theorem live_of_ownOrAcquire (h : Good w) (hac : Client w a c)
    (hown : ownOrAcquire w (w.sk.transportOf a) sel false = .ok t) : w.Live t := by
  unfold ownOrAcquire at hown
  split at hown
  · rename_i u hu
    obtain rfl : u = t := Except.ok.inj hown
    exact h.live_of_client hac hu
  · exact live_of_acquire hown

/-! ### Host requests -/

theorem aside_sendOkayString (text : Bytes) : Aside w (sendOkayString w c text) :=
  .reply_reply _ _

theorem aside_queryTransport (acquired : Except Bytes TransportId) (f : Atransport → Bytes) :
    Aside w (queryTransport w c acquired f) := by
  unfold queryTransport
  split
  · exact aside_sendOkayString _
  · exact .reply _

theorem aside_handleDisconnect (h : Good w) (address : Bytes) :
    Aside w (handleDisconnect w c address) := by
  unfold handleDisconnect
  split
  · exact (aside_kickWhere h _).trans (aside_sendOkayString _)
  · simp only
    split
    · exact (aside_kickTransport h).trans (aside_sendOkayString _)
    · split
      · exact .reply _
      · split
        · exact .reply _
        · exact (aside_kickTransport h).trans (aside_sendOkayString _)

theorem aside_handleReconnectOffline (h : Good w) : Aside w (handleReconnectOffline w c) :=
  (aside_kickWhere h _).trans (aside_sendOkayString _)

theorem aside_handleReconnect (h : Good w) (acquired : Except Bytes TransportId) :
    Aside w (handleReconnect w c acquired) := by
  unfold handleReconnect
  split
  · exact aside_sendOkayString _
  · exact (aside_kickTransport h).trans (aside_sendOkayString _)

theorem aside_handleAttach (h : Good w) (acquired : Except Bytes TransportId) :
    Aside w (handleAttach w c acquired) := by
  unfold handleAttach
  split
  · exact .reply _
  · rename_i t
    have hattach := aside_attach (t := t) h
    split
    · rename_i w' hw'
      rw [hw'] at hattach
      exact hattach.trans (aside_sendOkayString _)
    · rename_i w' e hw'
      rw [hw'] at hattach
      exact hattach.trans (.reply _)

/-- Detaching a device is of no consequence to a client that has not selected it. -/
theorem serves_detach (h : Good w) (hac : Client w a c) (ht : w.sk.transportOf a = none) :
    Serves w (detach w t).1 a c := by
  unfold detach
  split
  · exact hac.aside (.refl w)
  · split
    · exact hac.aside (.refl w)
    · obtain ⟨s, q, hs, hkind, hsc, hq, hqa, hqk, -, hqt⟩ := h.client hac
      have hunbound : boundTo w.sk t a = false := by
        rw [Bool.eq_false_iff, Ne, boundTo_iff]
        rintro (hta | ⟨p, hp, htp⟩)
        · exact absurd (ht.symm.trans hta) (by simp)
        · obtain rfl : c = p := some.inj (hsc.symm.trans
            ((peerOf_of_some hs).symm.trans hp))
          rw [transportOf_of_some hq, hqt] at htp
          exact absurd htp (by simp)
      have hoff : Serves w (handleOffline w t) a c :=
        ⟨.single (M := moves) (i := .offline t) trivial,
          ⟨s, (handleOffline_heap h hunbound (h.not_tracked hac)).trans hs, hkind, hsc⟩⟩
      have hattach := hoff.aside (aside_connectionAttach (t := t) (ascii "detach"))
      have hnet := connectionAttach_net (w := handleOffline w t) (t := t) (ascii "detach")
      simp only
      rcases hca : connectionAttach (handleOffline w t) t (ascii "detach") with ⟨w', e | ⟨⟩⟩
      · rwa [hca] at hattach
      · rw [hca] at hattach hnet
        -- The state is set after the transport has gone offline.
        have hmark : moves.enabled w' (.markDetached t) := by
          change (w'.net.transports t).connectionState = _
          rw [hnet]
          exact handleOffline_state h
        have hstate : Serves w (w'.updTransport t ({ · with connectionState :=
          .kCsDetached })) a c :=
          ⟨hattach.steps.tail hmark, hattach.client⟩
        exact hstate.updateTransports h

/-- A client stays with its smart socket when it asks for a device to be detached. -/
theorem serves_handleDetach (h : Good w) (hac : Client w a c)
    (acquired : Except Bytes TransportId) : Serves w (handleDetach w a c acquired) a c := by
  unfold handleDetach
  split
  · exact hac.aside (.reply _)
  · rename_i t
    obtain ⟨s, hs, hkind, hsc⟩ := hac
    have hswitch : calm.Steps w (w.upd a ({ · with transport := none })) :=
      .single (M := calm) (i := .switch a none) ⟨⟨s, hs, hkind⟩, fun _ hu => absurd hu (by simp)⟩
    have hs' := upd_heap_self hs ({ · with transport := none })
    have hdetach := serves_detach (t := t) (good_of_calm hswitch h) ⟨_, hs', hkind, hsc⟩
      (transportOf_of_some hs')
    have hserves : Serves w (detach (w.upd a ({ · with transport := none })) t).1 a c :=
      ⟨(moves_of_calm hswitch).trans hdetach.steps, hdetach.client⟩
    simp only
    rcases hd : detach (w.upd a ({ · with transport := none })) t with ⟨w', e | ⟨⟩⟩
    · rw [hd] at hserves
      exact hserves.aside (.reply _)
    · rw [hd] at hserves
      exact hserves.aside (aside_sendOkayString _)

/-- The transport selection of a client. -/
theorem serves_handleTransportRequest (hac : Client w a c) (service : Bytes) (sel : Selector) :
    Serves w (handleTransportRequest w a c service sel).1 a c := by
  unfold handleTransportRequest
  split
  · exact hac.aside (.reply _)
  · split
    · exact hac.aside (.reply _)
    · rename_i legacy sel _ t hacquire
      obtain ⟨s, hs, hkind, hsc⟩ := hac
      have hswitch : Serves w (w.upd a ({ · with transport := some t })) a c :=
        ⟨moves_of_calm (.single (M := calm) (i := .switch a (some t)) ⟨⟨s, hs, hkind⟩,
            fun u hu => some.inj hu ▸ live_of_acquire hacquire⟩),
          ⟨_, upd_heap_self hs _, hkind, hsc⟩⟩
      refine (hswitch.aside (.reply (a := c) .okay)).aside ?_
      simp only
      split
      · exact .refl _
      · exact .reply _

theorem Serves.ite {p : Prop} [Decidable p] {x y : World × HostRequestResult}
    (hx : Serves w x.1 a c) (hy : Serves w y.1 a c) : Serves w (if p then x else y).1 a c := by
  split
  · exact hx
  · exact hy

/-- Everything else a host answers by itself. -/
theorem serves_handleTransportlessRequest (h : Good w) (hac : Client w a c) (service : Bytes)
    (sel : Selector) :
    Serves w (handleTransportlessRequest w a c (w.sk.transportOf a) service sel).1 a c := by
  have handled : ∀ {v}, Aside w v → Serves w
      ((fun w : World => (w, HostRequestResult.handled)) v).1 a c := fun hv => hac.aside hv
  unfold handleTransportlessRequest
  refine .ite (handled (aside_sendOkayString _)) ?_
  refine .ite (handled (aside_sendOkayString _)) ?_
  refine .ite (handled (aside_sendOkayString _)) ?_
  refine .ite (handled (aside_handleReconnectOffline h)) ?_
  refine .ite (handled (aside_queryTransport _ _)) ?_
  refine .ite (handled (aside_sendOkayString _)) ?_
  refine .ite (handled (aside_handleDisconnect h _)) ?_
  refine .ite (handled (aside_sendOkayString _)) ?_
  refine .ite (handled (aside_queryTransport _ _)) ?_
  refine .ite (handled (aside_queryTransport _ _)) ?_
  refine .ite (handled (aside_queryTransport _ _)) ?_
  refine .ite (handled (.refl w)) ?_
  refine .ite (handled (aside_handleReconnect h _)) ?_
  refine .ite (handled (aside_handleAttach h _)) ?_
  refine .ite (serves_handleDetach h hac _) ?_
  have hlive : ∀ t, ((ownOrAcquire w (w.sk.transportOf a) sel false).mapError fun _ => ([] :
    Bytes)) =
      .ok t → w.Live t := by
    intro t ht
    cases hown : ownOrAcquire w (w.sk.transportOf a) sel false with
    | error e =>
      rw [hown] at ht
      exact absurd ht (by simp [Except.mapError])
    | ok u =>
      rw [hown] at ht
      exact Except.ok.inj ht ▸ live_of_ownOrAcquire h hac hown
  have hforward := aside_handleForwardRequest (a := c) h hlive (cString service [])
  dsimp only
  split <;> rename_i w' hw' <;> rw [hw'] at hforward <;> exact hac.aside hforward

/-- **`handle_host_request`.** -/
theorem serves_handleHostRequest (h : Good w) (hac : Client w a c) (service : Bytes)
    (sel : Selector) : Serves w (handleHostRequest w a c service sel).1 a c := by
  obtain ⟨s, hs, -⟩ := id hac
  have hown : s.transport = w.sk.transportOf a := (transportOf_of_some hs).symm
  unfold handleHostRequest
  simp only [hs, hown]
  split
  · exact (hac.aside (.reply _)).aside ⟨calm_raise rfl, rfl⟩
  · have hkill : Aside w (if service == ascii "kill" then
        w.reply c (.fail (ascii "kill-server rejected by remote server")) else w) := by
      split
      · exact .reply _
      · exact .refl w
    have hac' := hac.aside hkill
    split
    · have hreq := serves_handleTransportRequest hac'.client service sel
      exact ⟨hac'.steps.trans hreq.steps, hreq.client⟩
    · have hreq := serves_handleTransportlessRequest (hkill.good h) hac'.client service sel
      rw [hkill.sk] at hreq
      exact ⟨hac'.steps.trans hreq.steps, hreq.client⟩

end AdbBridge
