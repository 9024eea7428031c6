import AdbBridge.Graph.Cells
import AdbBridge.Graph.Server

/-!
# What a client is told

Everything that the server writes to the descriptor of a client outside of the queue of
its socket is a `Reply` in the trace. `Says c w w' rs` says that the replies to the client
`c` between two worlds are `rs`, in this order, and that nothing on the way has ended the
process for one of the two reasons that a request for a stream can give it. The relation
composes, so the replies to a request are found by following the source.

A client whose smart socket is still with it does not wait for a stream (`Notifies`), and
so it is told nothing when the two are closed.
-/

namespace AdbBridge

open List Option

/-! ### Replies -/

/-- What the events tell a client. -/
def repliesTo (c : Addr) (es : List Ev) : List Reply :=
  es.filterMap fun
    | .reply a r => if a = c then some r else none
    | _ => none

/-- The two ways in which a request for a stream can end the process. -/
def Fault.ofStream : Fault → Bool
  | .checkMaxPayload | .unhandledReverse => true
  | _ => false

/-- The client is told this between the two worlds. -/
def Tells (c : Addr) (w w' : World) (rs : List Reply) : Prop :=
  ∃ es, w'.io.trace = w.io.trace ++ es ∧ repliesTo c es = rs

/-- The client is told this between the two worlds, and no stream has been asked for that
ends the process. -/
structure Says (c : Addr) (w w' : World) (rs : List Reply) : Prop where
  tells : Tells c w w' rs
  fault : ∀ f, w'.fault = some f → w.fault = some f ∨ f.ofStream = false

section Replies

variable {c : Addr} {w w' w'' : World} {rs rs' : List Reply}

@[simp]
theorem repliesTo_append (es es' : List Ev) :
    repliesTo c (es ++ es') = repliesTo c es ++ repliesTo c es' := filterMap_append

theorem repliesTo_eq_nil {es : List Ev} (h : ∀ r, .reply c r ∉ es) : repliesTo c es = [] := by
  refine filterMap_eq_nil_iff.mpr fun e he => ?_
  cases e with
  | reply a r =>
    by_cases ha : a = c
    · exact absurd (ha ▸ he) (h r)
    · simp [ha]
  | _ => rfl

theorem Tells.trans (h : Tells c w w' rs) (h' : Tells c w' w'' rs') :
    Tells c w w'' (rs ++ rs') := by
  obtain ⟨es, htrace, rfl⟩ := h
  obtain ⟨es', htrace', rfl⟩ := h'
  exact ⟨es ++ es', by rw [htrace', htrace, append_assoc], repliesTo_append es es'⟩

/-- What a client is told is what the trace has grown by. -/
theorem Tells.unique (h : Tells c w w' rs) :
    repliesTo c (w'.io.trace.drop w.io.trace.length) = rs := by
  obtain ⟨es, htrace, rfl⟩ := h
  rw [htrace, drop_left]

namespace Says

/-- A step that is not written down. -/
theorem of_eq (htrace : w'.io.trace = w.io.trace) (hfault : w'.fault = w.fault) :
    Says c w w' [] := ⟨⟨[], by simp [htrace], rfl⟩, fun f hf => Or.inl (hfault ▸ hf)⟩

theorem refl (w : World) : Says c w w [] := of_eq rfl rfl

theorem trans (h : Says c w w' rs) (h' : Says c w' w'' rs') : Says c w w'' (rs ++ rs') := by
  refine ⟨h.tells.trans h'.tells, fun f hf => ?_⟩
  rcases h'.fault f hf with hf | hf
  · exact h.fault f hf
  · exact Or.inr hf

theorem log (es : List Ev) : Says c w (w.log es) (repliesTo c es) :=
  ⟨⟨es, rfl, rfl⟩, fun _ => Or.inl⟩

theorem reply (r : Reply) : Says c w (w.reply c r) [r] := by
  have hsays := log (c := c) (w := w) [.reply c r]
  rwa [show repliesTo c [.reply c r] = [r] by simp [repliesTo]] at hsays

/-- A step after which the client is told something. -/
theorem then_reply (h : Says c w w' rs) (r : Reply) : Says c w (w'.reply c r) (rs ++ [r]) :=
  h.trans (reply r)

/-- A step that tells the client nothing. -/
theorem quietly (h : Says c w w' rs) (h' : Says c w' w'' []) : Says c w w'' rs := by
  have htrans := h.trans h'
  rwa [append_nil] at htrans

variable {f : Fault}

theorem raise (hf : f.ofStream = false) : Says c w (w.raise f) [] := by
  refine ⟨⟨[], by simp, rfl⟩, fun g hg => ?_⟩
  unfold World.raise at hg
  cases hw : w.fault with
  | none =>
    rw [hw] at hg
    exact Or.inr (some.inj hg ▸ hf)
  | some e =>
    rw [hw] at hg
    exact Or.inl hg

theorem check (b : Bool) (hf : f.ofStream = false) : Says c w (w.check b f) [] := by
  unfold World.check
  split
  · exact refl w
  · exact raise hf

theorem sendPacket (t : TransportId) (p : Apacket) : Says c w (w.sendPacket t p) [] :=
  log [.send t p]

theorem ite {b : Prop} [Decidable b] {v v' : World} (h : Says c w v rs) (h' : Says c w v' rs) :
    Says c w (if b then v else v') rs := by
  split
  · exact h
  · exact h'

end Says

end Replies

/-! ### What is done for others -/

section Others

variable {c a : Addr} {w : World} {s : Asocket} {t : TransportId}

theorem repliesTo_writeEvents : repliesTo c (writeEvents w a s) = [] := by
  refine repliesTo_eq_nil fun r hr => ?_
  unfold writeEvents at hr
  split at hr
  · simp at hr
  · unfold writevEvent at hr
    split at hr
    · simp at hr
    · split at hr <;> simp at hr

theorem repliesTo_ackEvents (n : ℕ) : repliesTo c (ackEvents w s n) = [] := by
  unfold ackEvents
  repeat' split
  all_goals rfl

/-- Enqueueing on a local socket that is open. -/
theorem says_localSocketEnqueue (h : Good w) (hs : w.sk.heap a = some s)
    (hc : s.closing = false) (data : Bytes) : Says c w (localSocketEnqueue w a data).1 [] := by
  rw [localSocketEnqueue_eq hs (h.peer_isSome hs) hc]
  have heffect := Action.effect_flushLog (w := w) a (s.push data)
  refine ⟨⟨_, heffect.trace, ?_⟩, fun f hf => Or.inl ?_⟩
  · rw [repliesTo_append, repliesTo_writeEvents, repliesTo_ackEvents, append_nil]
  · simpa using hf

theorem says_deviceTrackerSend (h : Good w) (ha : w.sk.At a Asocket.IsTracker) (text : Bytes) :
    Says c w (deviceTrackerSend w a text) [] := by
  obtain ⟨s, hs, hkind⟩ := ha
  obtain ⟨p, q, hp, hq, -, hqk, hqc⟩ := h.tracker_peer hs (by rw [hkind]; simp)
  rw [deviceTrackerSend_eq hs hp hq hqk]
  exact says_localSocketEnqueue h hq hqc _

/-- The device trackers are told, but no client. -/
theorem says_updateTransports (h : Good w) : Says c w (updateTransports w) [] := by
  suffices hloop : ∀ (l : List Addr) (w : World), Good w →
      (∀ a ∈ l, w.sk.At a Asocket.IsTracker) → Says c w (l.foldl updateTracker w) [] from
    hloop _ w h fun _ => (h.graph.trackers.mem_iff _).mp
  intro l
  induction l with
  | nil => exact fun w _ _ => .refl w
  | cons a l ih =>
    intro w h hl
    obtain ⟨s, hs, hkind⟩ := hl a (by simp)
    have hround : updateTracker w a = deviceTrackerSend w a (listTransports w s.outputType) := by
      rw [updateTracker, World.deref_of_some hs]
    have hsays : Says c w (updateTracker w a) [] :=
      hround ▸ says_deviceTrackerSend h ⟨s, hs, hkind⟩ _
    obtain ⟨hsteps, hupd⟩ := updateTracker_foldl (l := [a]) h (by simpa using ⟨s, hs, hkind⟩)
    exact hsays.quietly (ih _ (good_of_calm hsteps h) fun b hb =>
      hupd.roles.isTracker_iff.mpr (hl b (by simp [hb])))

theorem says_setConnectionState (h : Good w) (st : ConnectionState) :
    Says c w (setConnectionState w t st) [] := by
  have hupd : Says c w (w.updTransport t ({ · with connectionState := st })) [] := .of_eq rfl rfl
  exact hupd.quietly (says_updateTransports (h.onNet h.listeners))

theorem repliesTo_noticeEvents (h : a = c → s.notify = false) :
    repliesTo c (noticeEvents a s) = [] := by
  refine repliesTo_eq_nil fun r hr => ?_
  unfold noticeEvents at hr
  split at hr
  · rename_i hcond
    obtain ⟨rfl, -⟩ : c = a ∧ _ := by simpa using hr
    exact absurd (hcond.2.symm.trans (h rfl)) (by simp)
  · simp at hr

theorem repliesTo_farewellEvents : repliesTo c (farewellEvents a s) = [] := by
  unfold farewellEvents
  repeat' split
  all_goals rfl

theorem repliesTo_clseEvents (q : Asocket) : repliesTo c (clseEvents s q) = [] := by
  refine repliesTo_eq_nil fun r hr => ?_
  unfold clseEvents at hr
  split at hr <;> simp at hr

/-- Closing a socket is news for two clients only, and only if they wait for a stream. -/
theorem repliesTo_closeEvents {k : SockTable}
    (h : ∀ q, k.heap c = some q → q.notify = true → a ≠ c ∧ k.peerOf a ≠ some c) :
    repliesTo c (closeEvents k a) = [] := by
  unfold closeEvents
  cases hs : k.heap a with
  | none => rfl
  | some s =>
    have hnotice : repliesTo c (noticeEvents a s) = [] := by
      refine repliesTo_noticeEvents ?_
      rintro rfl
      exact Bool.eq_false_iff.mpr fun hn => (h s hs hn).1 rfl
    cases hp : s.peer with
    | none => simp [hp, hnotice, repliesTo_farewellEvents]
    | some p =>
      cases hq : k.heap p with
      | none => simp [hp, hq, repliesTo]
      | some q =>
        have hpeer : repliesTo c (noticeEvents p q) = [] := by
          refine repliesTo_noticeEvents ?_
          rintro rfl
          exact Bool.eq_false_iff.mpr fun hn => (h q hq hn).2
            ((SockTable.peerOf_of_some hs).trans hp)
        simp [hp, hq, hnotice, hpeer, repliesTo_farewellEvents, repliesTo_clseEvents]

theorem says_close (h : Good w) (hs : w.sk.heap a = some s)
    (hn : ∀ q, w.sk.heap c = some q → q.notify = true → a ≠ c ∧ w.sk.peerOf a ≠ some c) :
    Says c w (close w a) [] := by
  rw [close_eq h.graph hs]
  exact ⟨⟨_, rfl, repliesTo_closeEvents hn⟩, fun _ => Or.inl⟩

/-- Closing the sockets of a transport is nothing to a client that is not bound to it. -/
theorem says_closeAllSockets (h : Good w) (hc : boundTo w.sk t c = false) :
    Says c w (closeAllSockets w t) [] := by
  suffices hloop : ∀ (n : ℕ) (w : World), Good w → boundTo w.sk t c = false →
      Says c w (closeAllSocketsLoop t n w) [] from hloop _ w h hc
  intro n
  induction n with
  | zero => exact fun w _ _ => .refl w
  | succ n ih =>
    intro w h hc
    rw [closeAllSocketsLoop]
    split
    · exact .refl w
    · rename_i a hfind
      obtain ⟨s, hs, -, hsc, hbound⟩ := closeAllSockets_find h hfind
      have hclose : Says c w (close w a) [] := by
        refine says_close h hs fun _ _ _ => ⟨?_, fun hp => ?_⟩
        · rintro rfl
          exact absurd (hbound.symm.trans hc) (by simp)
        · exact absurd (hbound.symm.trans ((h.graph.boundTo_peer hp).trans hc)) (by simp)
      have hheap := close_heap_of_unbound h hs hbound hc
      refine hclose.quietly (ih _ (good_of_calm (calm_close hs hsc) h) ?_)
      refine (boundTo_congr hheap fun p hp => ?_).trans hc
      exact close_heap_of_unbound h hs hbound ((h.graph.boundTo_peer hp).symm.trans hc)

/-- Neither is the loss of the transport. -/
theorem says_handleOffline (h : Good w) (hc : boundTo w.sk t c = false) :
    Says c w (handleOffline w t) [] := by
  unfold handleOffline
  refine .ite (.refl w) ?_
  have hupd := setConnectionState_updated (t := t) h .kCsOffline
  have g := good_setConnectionState (t := t) h .kCsOffline
  have g' := good_updTransport (t := t) g ({ · with online := false })
  have hstate := says_setConnectionState (c := c) (t := t) h .kCsOffline
  have honline : Says c (setConnectionState w t .kCsOffline)
      ((setConnectionState w t .kCsOffline).updTransport t ({ · with online := false })) [] :=
    .of_eq rfl rfl
  have hclose := says_closeAllSockets (c := c) g' (hupd.boundTo.trans hc)
  exact (hstate.quietly honline).quietly (hclose.quietly (.of_eq rfl rfl))

theorem says_kickWhere (p : Atransport → Bool) : Says c w (kickWhere w p) [] := by
  suffices hloop : ∀ (ts : List TransportId) (w : World), Says c w (ts.foldl kick w) [] from
    hloop _ w
  intro ts
  induction ts with
  | nil => exact fun w => .refl w
  | cons t ts ih =>
    intro w
    have hkick : Says c w (kick w t) [] := .of_eq rfl rfl
    exact hkick.quietly (ih _)

theorem says_kickTransport : Says c w (kickTransport w t) [] :=
  .ite (.of_eq rfl rfl) (.refl w)

theorem says_connectionAttach (what : Bytes) : Says c w (connectionAttach w t what).1 [] := by
  unfold connectionAttach
  split
  · exact .of_eq rfl rfl
  · exact .refl w

theorem says_sendConnect : Says c w (sendConnect w t) [] :=
  (Says.check _ rfl).quietly (.sendPacket _ _)

theorem says_attach : Says c w (attach w t).1 [] := by
  unfold attach
  split
  · exact .refl w
  · split
    · exact .refl w
    · have hkeys : Says c w (w.updTransport t ({ · with keys := [] })) [] := .of_eq rfl rfl
      have hattach := hkeys.quietly (says_connectionAttach (t := t) (ascii "attach"))
      simp only
      split
      · rename_i hca
        rwa [hca] at hattach
      · rename_i w' hca
        rw [hca] at hattach
        have hrun : Says c w' (w'.updTransport t ({ · with conn := .running })) [] := .of_eq rfl rfl
        exact hattach.quietly (hrun.quietly says_sendConnect)

/-- Detaching a device tells nothing to a client that is not bound to it. -/
theorem says_detach (h : Good w) (hc : boundTo w.sk t c = false) : Says c w (detach w t).1 [] := by
  unfold detach
  split
  · exact .refl w
  · split
    · exact .refl w
    · have hoff := says_handleOffline (c := c) h hc
      have g := good_handleOffline (t := t) h
      have hattach := hoff.quietly (says_connectionAttach (t := t) (ascii "detach"))
      have haside := (aside_connectionAttach (w := handleOffline w t) (t :=
        t) (ascii "detach")).good g
      simp only
      split
      · rename_i hca
        rwa [hca] at hattach
      · rename_i w' hca
        rw [hca] at hattach haside
        exact hattach.quietly (says_setConnectionState haside _)

end Others

/-! ### Clients that wait for a stream -/

/-- Only a local socket that is bound to a transport has a client that waits. -/
def Notifies (w : World) : Prop :=
  ∀ a s, w.sk.heap a = some s → s.notify = true → s.kind = .localSocket ∧ s.transport ≠ none

section Notifies

variable {w w' : World} {a c : Addr} {act : Action}

theorem notify_flushResult (s : Asocket) : (flushResult w s).1.notify = s.notify := by
  rw [flushResult_fst]

/-- Every action keeps the flag on local sockets with a transport. -/
theorem notifies_run (h : Good w) (hpre : act.Pre w) (hn : Notifies w) : Notifies (act.run w) := by
  intro b s' hb hnotify
  rcases act.cell_cases h hpre hb with hb | ⟨s, hs, hwrites⟩ | ⟨-, hmakes⟩
  · exact hn b s' hb hnotify
  · -- What an action writes keeps the flag and the transport, or clears the flag, or
    -- sets both.
    have hsame : ∀ {r : Asocket}, r.kind = s.kind → r.transport = s.transport →
        r.notify = s.notify → r.notify = true → r.kind = .localSocket ∧ r.transport ≠ none := by
      intro r hkind ht hflag hr
      rw [hkind, ht]
      exact hn b s hs (hflag ▸ hr)
    cases act with
    | flush a =>
      obtain ⟨-, rfl, -⟩ := hwrites
      have hlinks := sameLinks_flushResult (w := w) (s := s)
      exact hsame hlinks.kind hlinks.transport (notify_flushResult s) hnotify
    | push a data =>
      obtain ⟨-, rfl⟩ := hwrites
      have hlinks := sameLinks_enqueued (w := w) (s := s) data
      exact hsame hlinks.kind hlinks.transport (notify_flushResult (s.push data)) hnotify
    | transmit a p data =>
      obtain ⟨-, rfl⟩ := hwrites
      have hlinks : (s.charge data.length).SameLinks (s.charge data.length).paused :=
        Asocket.sameLinks_paused
      refine hsame hlinks.kind hlinks.transport ?_ hnotify
      unfold Asocket.paused
      split <;> rfl
    | pause a =>
      obtain ⟨-, rfl⟩ := hwrites
      have hlinks : s.SameLinks s.paused := Asocket.sameLinks_paused
      refine hsame hlinks.kind hlinks.transport ?_ hnotify
      unfold Asocket.paused
      split <;> rfl
    | close a =>
      obtain ⟨-, -, -, rfl⟩ := hwrites
      exact absurd hnotify (by simp [Asocket.toClosing])
    | wake a =>
      obtain ⟨-, rfl⟩ := hwrites
      exact absurd hnotify (by simp [Asocket.awake])
    | hand a data | grant a n | join a id t | makeSmart a | drop a c | scratch a data u =>
      obtain ⟨-, rfl⟩ := hwrites
      exact hsame rfl rfl rfl hnotify
    | makeTracker c o =>
      obtain ⟨-, rfl⟩ := hwrites
      exact absurd hnotify (by simp)
    | pair c d =>
      rcases hwrites with ⟨-, rfl⟩ | ⟨-, rfl⟩
      · exact absurd hnotify (by simp)
      · exact hsame rfl rfl rfl hnotify
    | bindTo c t n =>
      obtain ⟨rfl, rfl⟩ := hwrites
      obtain ⟨⟨r, hr, hkind, -⟩, -⟩ := hpre
      obtain rfl : s = r := some.inj (hs.symm.trans hr)
      exact ⟨hkind, by simp⟩
    | switch a t =>
      obtain ⟨rfl, rfl⟩ := hwrites
      obtain ⟨r, hr, hkind⟩ := hpre
      obtain rfl : s = r := some.inj (hs.symm.trans hr)
      exact absurd (hkind.symm.trans (hn b s hs hnotify).1) (by simp)
    | log _ | tick | onNet _ | raise _ | makeLocal _ _ => exact hwrites.elim
  · cases act with
    | makeLocal t n | join a id t | makeSmart a | makeTracker c o =>
      obtain rfl : s' = _ := hmakes
      exact absurd hnotify (by simp)
    | _ => exact hmakes.elim

theorem notifies_of_steps (hsteps : actions.Steps w w') (h : Good w) (hn : Notifies w) :
    Notifies w' :=
  (hsteps.inv (P := fun w => Good w ∧ Notifies w)
    (fun _ _ hw hpre => ⟨Action.good_run hw.1 hpre, notifies_run hw.1 hpre hw.2⟩) ⟨h, hn⟩).2

theorem notifies_of_reach (h : server.Reach w) : Notifies w := by
  refine h.inv ?_ fun w op hw hn _ => notifies_of_steps (actions_step (good_of_reach hw) op)
    (good_of_reach hw) hn
  rintro w ⟨cfg, sys, rfl⟩ a s hs
  exact absurd hs (by simp [initialWorld])

/-- A client that is with its smart socket does not wait. -/
theorem Notifies.client (hn : Notifies w) (h : Good w) (hac : Client w a c) :
    ∀ q, w.sk.heap c = some q → q.notify = false := by
  intro q hq
  obtain ⟨-, q', -, -, -, hq', -, -, -, ht⟩ := h.client hac
  obtain rfl : q = q' := some.inj (hq.symm.trans hq')
  exact Bool.eq_false_iff.mpr fun hnotify => (hn c q hq hnotify).2 ht

/-- The end of a request that has failed. -/
theorem says_smartSocketFail (h : Good w) (hn : Notifies w) (hac : Client w a c) :
    Says c w (smartSocketFail w a).1 [] := by
  obtain ⟨s, hs, -⟩ := id hac
  refine says_close h hs fun q hq hnotify => ?_
  exact absurd (hnotify.symm.trans (hn.client h hac q hq)) (by simp)

/-! ### Services -/

theorem says_deviceTrackerReady {s : Asocket} (h : Good w) (hs : w.sk.heap a = some s)
    (hkind : s.kind = .deviceTracker) : Says c w (ready w a) [] := by
  rw [ready, World.deref_of_some hs]
  simp only [hkind, deviceTrackerReady, World.deref_of_some hs]
  refine .ite ?_ (.refl w)
  have hs' := SockTable.upd_heap_self hs ({ · with updateNeeded := false })
  have hg := good_of_calm (calm_updateSeen hs hkind) h
  have hupd : Says c w (w.upd a ({ · with updateNeeded := false })) [] := .of_eq rfl rfl
  exact hupd.quietly (says_deviceTrackerSend hg ⟨_, hs', hkind⟩ _)

/-- What a client is told about a service of the host. -/
def serviceReply (w : World) (service : Bytes) : Reply :=
  match (hostServiceToSocket w service).2 with
  | none => .fail (ascii "unknown host service '" ++ service ++ ascii "'")
  | some _ => .okay

/-- A client is told one thing about a service of the host. -/
theorem says_smartSocketHostService (h : Good w) (hn : Notifies w) (hac : Client w a c)
    (service : Bytes) :
    Says c w (smartSocketHostService w a c service).1 [serviceReply w service] := by
  obtain ⟨s, q, hs, hkind, hsc, hq, -⟩ := h.client hac
  have hne : a ≠ c := (h.graph.exists_peer hs hsc).1
  unfold smartSocketHostService serviceReply
  rcases hostServiceToSocket_cases w service with heq | ⟨o, heq⟩ | heq
  · rw [heq]
    have hreply := hac.aside (.reply (a := c)
      (.fail (ascii "unknown host service '" ++ service ++ ascii "'")))
    have hg := good_of_moves hreply.steps h
    exact (Says.reply _).quietly (says_smartSocketFail hg
      (notifies_of_steps (actions_of_moves hreply.steps h) h hn) hreply.client)
  · rw [heq]
    obtain ⟨hsteps, -, htracker⟩ := made_tracker h hac o
    dsimp only
    rw [close_relinked_tracker hs hkind hne (h.graph.ne_brk hs) (h.graph.ne_brk hq)]
    have hmade : Says c w (Action.run (Action.run (w.reply c .okay) (.drop a c))
        (.makeTracker c o)) [.okay] := (Says.reply .okay).quietly (.of_eq rfl rfl)
    exact hmade.quietly (says_deviceTrackerReady (good_of_moves hsteps h) htracker rfl)
  · obtain ⟨hsteps, hclient, hd⟩ := made_thread h hac
    have hg := good_of_calm hsteps h
    obtain ⟨hda, hcd, -, -, hd'⟩ := made_pair hg hclient hd rfl rfl rfl rfl
    obtain ⟨r, hr, hrk, -⟩ := hclient
    have hthread : Says c w (createServiceThreadSocket w).1 [] := by
      have hlocal : Says c w (createLocalSocket w.tick).1 [] := by
        rw [createLocalSocket_eq]
        refine Says.quietly ?_ (.check _ rfl)
        exact .of_eq rfl rfl
      exact hlocal.quietly (.check _ rfl)
    have hservice : createServiceThreadSocket w =
        ((createServiceThreadSocket w).1, some w.sk.brk) := rfl
    rw [heq, hservice]
    dsimp only
    rw [close_relinked (w := (createServiceThreadSocket w).1.reply c .okay) hr hrk hne hda.symm,
      ready_eq hd' rfl]
    -- Neither the new link nor the first read of the service is written down.
    have hmade : Says c w (Action.run (Action.run ((createServiceThreadSocket w).1.reply c .okay)
        (.drop a c)) (.pair c w.sk.brk)) _ :=
      (hthread.then_reply .okay).quietly (.of_eq rfl rfl)
    exact hmade.quietly ((Says.log []).quietly (.of_eq rfl rfl))

end Notifies

end AdbBridge
