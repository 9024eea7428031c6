import AdbBridge.Listeners.Forward
import AdbBridge.Requests.Contract
import AdbBridge.Requests.Says

/-!
# One failure, and its reason

A request that fails is answered by `FAIL` and a text, and then the connection is closed.
The replies are written from many branches of three functions. `Reported` says what a
client may count on: there is at most one `FAIL`, nothing follows it, and where the
request has failed for want of a transport, the text is the one `acquire_one_transport`
came back with.

Two requests break this. A `kill` that is rejected goes on, and is rejected once more as
a service nobody knows. And the acquirer that `handle_host_request` hands to
`handle_forward_request` writes its error to a variable of its own, so that a forward
request without a transport fails with an empty text. `reported_iff` says that these are
the only ones.
-/

namespace AdbBridge

open List Option

/-! ### Lists of replies -/

/-- At most one failure, and nothing after it. -/
def OneFail (rs : List Reply) : Prop :=
  ∀ e, .fail e ∈ rs → ∃ pre, rs = pre ++ [.fail e] ∧ ∀ e', .fail e' ∉ pre

/-- The failures are reported as they should, given why no transport was found. -/
structure Reported (rs : List Reply) (reason : Option Bytes) : Prop where
  once : OneFail rs
  reason : ∀ e, reason = some e → ∀ e', .fail e' ∈ rs → e' = e

section Lists

variable {rs : List Reply} {reason : Option Bytes} {e : Bytes}

theorem reported_of_noFail (h : ∀ e, .fail e ∉ rs) : Reported rs reason :=
  ⟨fun e he => absurd he (h e), fun _ _ e he => absurd he (h e)⟩

theorem reported_fail (h : ∀ e', reason = some e' → e = e') : Reported [.fail e] reason := by
  refine ⟨fun e' he => ⟨[], ?_, by simp⟩, fun e' he' e'' he => ?_⟩
  · obtain rfl : e' = e := by simpa using he
    rfl
  · obtain rfl : e'' = e := by simpa using he
    exact h e' he'

end Lists

/-! ### Why no transport was found -/

/-- What went wrong, if something did. -/
def errorOf {α : Type} : Except Bytes α → Option Bytes
  | .error e => some e
  | .ok _ => none

/-- The text of the call of `acquire_one_transport` that a host request makes, if it
makes one and that comes back without a transport. -/
def acquireError (w : World) (own : Option TransportId) (command : Bytes) (sel : Selector) :
    Option Bytes :=
  if startsWith command (ascii "transport") || startsWith command (ascii "tport:") then
    (parseTransportRequest command sel).bind fun r => errorOf (acquire w r.2 false)
  else if command == ascii "features" || command == ascii "get-serialno" ||
      command == ascii "get-devpath" || command == ascii "get-state" then
    errorOf (ownOrAcquire w own sel false)
  else if command == ascii "reconnect" || command == ascii "attach" ||
      command == ascii "detach" then
    errorOf (ownOrAcquire w own sel true)
  else if (parseForwardRequest (cString command [])).isSome then
    errorOf (ownOrAcquire w own sel false)
  else none

/-- The requests that are reported wrongly: a `kill` that is rejected, and a forward
request that finds no transport for a reason that has a text. -/
def Misreported (w : World) (own : Option TransportId) (command : Bytes) (sel : Selector) : Prop :=
  command = ascii "kill" ∧ w.cfg.rejectKillServer = true ∨
    (parseForwardRequest (cString command [])).isSome ∧
      ∃ e, ownOrAcquire w own sel false = .error e ∧ e ≠ []

/-! ### Handlers -/

/-- The client is told what it may count on. -/
def Answers (c : Addr) (w w' : World) (reason : Option Bytes) : Prop :=
  ∃ rs, Says c w w' rs ∧ Reported rs reason

section Handlers

variable {w w' : World} {a c : Addr} {t : TransportId} {reason : Option Bytes}

theorem Says.answers_okay (h : Says c w w' []) (text : Bytes) :
    Answers c w (sendOkayString w' c text) reason :=
  ⟨_, (h.then_reply .okay).then_reply _, reported_of_noFail (by simp)⟩

theorem Says.answers_fail (h : Says c w w' []) {e : Bytes} (he : ∀ e', reason = some e' → e = e') :
    Answers c w (w'.reply c (.fail e)) reason :=
  ⟨_, h.then_reply _, reported_fail he⟩

theorem answers_queryTransport (acquired : Except Bytes TransportId) (f : Atransport → Bytes) :
    Answers c w (queryTransport w c acquired f) (errorOf acquired) := by
  unfold queryTransport
  split
  · exact (Says.refl w).answers_okay _
  · exact (Says.refl w).answers_fail fun e' he' => some.inj he'

theorem answers_handleDisconnect (address : Bytes) :
    Answers c w (handleDisconnect w c address) none := by
  unfold handleDisconnect
  split
  · exact (says_kickWhere _).answers_okay _
  · simp only
    split
    · exact says_kickTransport.answers_okay _
    · split
      · exact (Says.refl w).answers_fail (by simp)
      · split
        · exact (Says.refl w).answers_fail (by simp)
        · exact says_kickTransport.answers_okay _

theorem answers_handleReconnect (acquired : Except Bytes TransportId) :
    Answers c w (handleReconnect w c acquired) (errorOf acquired) := by
  unfold handleReconnect
  split
  · exact (Says.refl w).answers_okay _
  · exact says_kickTransport.answers_okay _

theorem answers_handleAttach (acquired : Except Bytes TransportId) :
    Answers c w (handleAttach w c acquired) (errorOf acquired) := by
  unfold handleAttach
  split
  · exact (Says.refl w).answers_fail fun e' he' => some.inj he'
  · rename_i t
    have hattach := says_attach (c := c) (w := w) (t := t)
    split
    · rename_i hw'
      rw [hw'] at hattach
      exact hattach.answers_okay _
    · rename_i hw'
      rw [hw'] at hattach
      exact hattach.answers_fail (by simp [errorOf])

/-- A client that has forgotten its transport is not bound to any. -/
theorem Good.unbound_client (h : Good w) (hac : Client w a c) (ht : w.sk.transportOf a = none) :
    boundTo w.sk t c = false := by
  obtain ⟨s, q, hs, -, -, hq, hqa, -, -, hqt⟩ := h.client hac
  rw [Bool.eq_false_iff, Ne, boundTo_iff]
  rintro (htc | ⟨p, hp, htp⟩)
  · rw [SockTable.transportOf_of_some hq, hqt] at htc
    exact absurd htc (by simp)
  · obtain rfl : a = p := some.inj (hqa.symm.trans
      ((SockTable.peerOf_of_some hq).symm.trans hp))
    exact absurd (ht.symm.trans htp) (by simp)

/-- A client that asks for a device to be detached is told what it may count on. -/
theorem answers_handleDetach (h : Good w) (hac : Client w a c)
    (acquired : Except Bytes TransportId) :
    Answers c w (handleDetach w a c acquired) (errorOf acquired) := by
  unfold handleDetach
  split
  · exact (Says.refl w).answers_fail fun e' he' => some.inj he'
  · rename_i t
    obtain ⟨s, hs, hkind, hsc⟩ := hac
    have hg := good_of_calm (.single (M := calm) (i := .switch a none)
      ⟨⟨s, hs, hkind⟩, fun _ hu => absurd hu (by simp)⟩) h
    have hs' := SockTable.upd_heap_self hs ({ · with transport := none })
    have hclient : Client (w.upd a ({ · with transport := none })) a c := ⟨_, hs', hkind, hsc⟩
    have hunbound := Good.unbound_client (t := t) hg hclient (SockTable.transportOf_of_some hs')
    have hforget : Says c w (w.upd a ({ · with transport := none })) [] := .of_eq rfl rfl
    have hdetach := hforget.quietly (says_detach hg hunbound)
    simp only
    split
    · rename_i hw'
      rw [hw'] at hdetach
      exact hdetach.answers_okay _
    · rename_i hw'
      rw [hw'] at hdetach
      exact hdetach.answers_fail (by simp [errorOf])

theorem says_sendStatusOkay (h : Says c w w' []) :
    ∃ rs, Says c w (sendStatusOkay w' c) rs ∧ ∀ e, .fail e ∉ rs := by
  unfold sendStatusOkay
  split
  · exact ⟨_, (h.then_reply .okay).then_reply .okay, by simp⟩
  · exact ⟨_, h.then_reply .okay, by simp⟩

theorem says_runForwardRequest (request : ForwardRequest) :
    Says c w (runForwardRequest w t request).1 [] := by
  cases request with
  | killforward l =>
    simp only [runForwardRequest]
    split
    · exact .refl w
    · exact .of_eq rfl rfl
  | forward noRebind l r =>
    simp only [runForwardRequest, installListener]
    repeat' split
    · exact .refl w
    · exact .refl w
    · exact .raise rfl
    · exact .of_eq rfl rfl
    · exact .of_eq rfl rfl
    · exact .of_eq rfl rfl

/-- A host request has been looked at. What is left for others has not been answered, and
no transport has been looked for. -/
def Looked (c : Addr) (w : World) (r : World × HostRequestResult) (reason : Option Bytes) : Prop :=
  ∃ rs, Says c w r.1 rs ∧ Reported rs reason ∧ (r.2 = .unhandled → rs = [] ∧ reason = none)

theorem Answers.looked (h : Answers c w w' reason) : Looked c w (w', .handled) reason := by
  obtain ⟨rs, hsays, hrep⟩ := h
  exact ⟨rs, hsays, hrep, fun hr => absurd hr (by simp)⟩

theorem Looked.ite {p : Prop} [Decidable p] {x y : World × HostRequestResult}
    (hx : p → Looked c w x reason) (hy : ¬p → Looked c w y reason) :
    Looked c w (if p then x else y) reason := by
  split
  · rename_i hp
    exact hx hp
  · rename_i hp
    exact hy hp

/-- A request about listeners, or one that is nothing of the kind. -/
theorem answers_handleForwardRequest (service : Bytes) (acquired : Except Bytes TransportId)
    (hreason : reason = if (parseForwardRequest service).isSome then errorOf acquired else none) :
    ∃ rs, Says c w (handleForwardRequest w service acquired c).1 rs ∧ Reported rs reason ∧
      ((handleForwardRequest w service acquired c).2 = false → rs = [] ∧ reason = none) := by
  have handled : ∀ {v}, Answers c w v reason → ∃ rs, Says c w (v, true).1 rs ∧
      Reported rs reason ∧ ((v, true).2 = false → rs = [] ∧ reason = none) := by
    rintro v ⟨rs, hsays, hrep⟩
    exact ⟨rs, hsays, hrep, fun hr => absurd hr (by simp)⟩
  unfold handleForwardRequest
  split
  · refine handled ?_
    split
    · exact ⟨_, (Says.reply .okay).then_reply _, reported_of_noFail (by simp)⟩
    · exact ⟨_, Says.reply _, reported_of_noFail (by simp)⟩
  · split
    · have hremove : Says c w (w.onNet (·.removeAllListeners)) [] := .of_eq rfl rfl
      obtain ⟨rs, hsays, hfail⟩ := says_sendStatusOkay hremove
      exact handled ⟨rs, hsays, reported_of_noFail hfail⟩
    · split
      · rename_i hrequest
        exact ⟨[], .refl w, reported_of_noFail (by simp), fun _ => ⟨rfl, by simp [hreason,
          hrequest]⟩⟩
      · rename_i request hrequest
        have hreason' : reason = errorOf acquired := by simp [hreason, hrequest]
        split
        · rename_i e
          refine handled ((Says.refl w).answers_fail fun e' he' => ?_)
          exact some.inj (hreason'.symm.trans he')
        · rename_i t
          have hnone : ∀ {e e' : Bytes}, reason = some e' → e = e' :=
            fun he' => absurd (hreason'.symm.trans he') (by simp [errorOf])
          split
          · exact handled ((Says.refl w).answers_fail fun _ => hnone)
          · rename_i request
            have hrun := says_runForwardRequest (c := c) (w := w) (t := t) request
            split
            · rename_i w' resolved hw'
              rw [hw'] at hrun
              obtain ⟨rs, hsays, hfail⟩ := says_sendStatusOkay hrun
              refine handled ?_
              split
              · exact ⟨rs, hsays, reported_of_noFail hfail⟩
              · refine ⟨_, hsays.then_reply _, reported_of_noFail fun e he => ?_⟩
                exact (mem_append.mp he).elim (hfail e) (by simp)
            · rename_i w' e hw'
              rw [hw'] at hrun
              exact handled (hrun.answers_fail fun _ => hnone)

/-- A request about forwarding looks for a transport only if it can be parsed. -/
theorem looked_handleForwardRequest (service : Bytes) (acquired : Except Bytes TransportId)
    (hreason : reason = if (parseForwardRequest service).isSome then errorOf acquired else none) :
    Looked c w (match handleForwardRequest w service acquired c with
      | (w, true) => (w, HostRequestResult.handled)
      | (w, false) => (w, HostRequestResult.unhandled)) reason := by
  obtain ⟨rs, hsays, hrep, hfalse⟩ := answers_handleForwardRequest (c := c) (w := w) service
    acquired hreason
  rcases hr : handleForwardRequest w service acquired c with ⟨w', _ | _⟩ <;>
    rw [hr] at hsays hfalse
  · exact ⟨rs, hsays, hrep, fun _ => hfalse rfl⟩
  · exact ⟨rs, hsays, hrep, fun h => absurd h (by simp)⟩

/-- The transport selection of a client. -/
theorem looked_handleTransportRequest (command : Bytes) (sel : Selector) :
    Looked c w (handleTransportRequest w a c command sel)
      ((parseTransportRequest command sel).bind fun r => errorOf (acquire w r.2 false)) := by
  unfold handleTransportRequest
  split
  · rename_i hparse
    exact Answers.looked ((Says.refl w).answers_fail (by simp [hparse]))
  · rename_i legacy sel' hparse
    split
    · rename_i e he
      refine Answers.looked ((Says.refl w).answers_fail fun e' he' => ?_)
      simpa [hparse, he, errorOf] using he'
    · rename_i t ht
      have hswitch : Says c w (w.upd a ({ · with transport := some t })) [] := .of_eq rfl rfl
      dsimp only
      split
      · exact ⟨_, hswitch.then_reply .okay, reported_of_noFail (by simp), fun hr =>
          absurd hr (by simp)⟩
      · exact ⟨_, (hswitch.then_reply .okay).then_reply _, reported_of_noFail (by simp), fun hr =>
          absurd hr (by simp)⟩

/-- **Everything a host answers by itself**, but for the transport selection. -/
theorem looked_handleTransportlessRequest (h : Good w) (hac : Client w a c)
    (own : Option TransportId) (command : Bytes) (sel : Selector)
    (htransport : (startsWith command (ascii "transport") ||
      startsWith command (ascii "tport:")) = false)
    (hforward : (parseForwardRequest (cString command [])).isSome →
      ∀ e, ownOrAcquire w own sel false = .error e → e = []) :
    Looked c w (handleTransportlessRequest w a c own command sel)
      (acquireError w own command sel) := by
  -- A request that makes no call of `acquire_one_transport`.
  have okay : ∀ {name text : Bytes}, acquireError w own name sel = none → command == name →
      Looked c w (sendOkayString w c text, .handled) (acquireError w own command sel) := by
    intro name text hnone heq
    rw [eq_of_beq heq, hnone]
    exact ((Says.refl w).answers_okay _).looked
  -- A request that asks for a transport in use, or for any.
  have query : ∀ {name : Bytes} {f : Atransport → Bytes},
      acquireError w own name sel = errorOf (ownOrAcquire w own sel false) → command == name →
      Looked c w (queryTransport w c (ownOrAcquire w own sel false) f, .handled)
        (acquireError w own command sel) := by
    intro name f hacquire heq
    rw [eq_of_beq heq, hacquire]
    exact (answers_queryTransport _ _).looked
  unfold handleTransportlessRequest
  refine .ite (okay rfl) fun _ => ?_
  refine .ite (okay rfl) fun _ => ?_
  refine .ite (okay rfl) fun _ => ?_
  refine .ite (fun heq => ?_) fun _ => ?_
  · rw [eq_of_beq heq]
    exact ((says_kickWhere _).answers_okay _).looked
  refine .ite (query rfl) fun hfeatures => ?_
  refine .ite (okay rfl) fun _ => ?_
  refine .ite (fun hpre => ?_) fun _ => ?_
  · obtain ⟨rest, rfl⟩ := List.isPrefixOf_iff_prefix.mp hpre
    exact (answers_handleDisconnect _).looked
  refine .ite (okay rfl) fun _ => ?_
  refine .ite (query rfl) fun hserialno => ?_
  refine .ite (query rfl) fun hdevpath => ?_
  refine .ite (query rfl) fun hstate => ?_
  refine .ite (fun hpre => ?_) fun _ => ?_
  · exact ⟨[], .refl w, reported_of_noFail (by simp), fun hr => absurd hr (by simp)⟩
  refine .ite (fun heq => ?_) fun hreconnect => ?_
  · rw [eq_of_beq heq]
    exact (answers_handleReconnect _).looked
  refine .ite (fun heq => ?_) fun hattach => ?_
  · rw [eq_of_beq heq]
    exact (answers_handleAttach _).looked
  refine .ite (fun heq => ?_) fun hdetach => ?_
  · rw [eq_of_beq heq]
    exact (answers_handleDetach h hac _).looked
  refine looked_handleForwardRequest _ _ ?_
  simp only [acquireError, htransport, hfeatures, hserialno, hdevpath, hstate, hreconnect,
    hattach, hdetach, Bool.or_self, Bool.false_eq_true, if_false]
  split
  · rename_i hsome
    cases hown : ownOrAcquire w own sel false with
    | ok t => rfl
    | error e =>
      rw [hforward hsome e hown]
      rfl
  · rfl

/-- **`handle_host_request`**, unless the request is reported wrongly. -/
theorem looked_handleHostRequest {s : Asocket} (h : Good w) (hac : Client w a c)
    (hs : w.sk.heap a = some s) (command : Bytes) (sel : Selector)
    (hmis : ¬Misreported w s.transport command sel) :
    Looked c w (handleHostRequest w a c command sel) (acquireError w s.transport command sel) := by
  have hforward : (parseForwardRequest (cString command [])).isSome →
      ∀ e, ownOrAcquire w s.transport sel false = .error e → e = [] := by
    intro hsome e he
    by_contra hne
    exact hmis (Or.inr ⟨hsome, e, he, hne⟩)
  unfold handleHostRequest
  simp only [hs]
  refine .ite (fun _ => ?_) fun hkill => ?_
  · exact Answers.looked ⟨_, (Says.reply .okay).quietly (.raise rfl),
      reported_of_noFail (by simp)⟩
  · have hother : ¬(command == ascii "kill") = true := by
      intro heq
      refine hmis (Or.inl ⟨eq_of_beq heq, ?_⟩)
      simpa [heq] using hkill
    simp only [hother]
    cases htransport : startsWith command (ascii "transport") ||
        startsWith command (ascii "tport:") with
    | true =>
      rw [if_pos rfl, acquireError, if_pos htransport]
      exact looked_handleTransportRequest command sel
    | false =>
      rw [if_neg (by simp)]
      exact looked_handleTransportlessRequest h hac _ command sel htransport hforward

end Handlers

/-! ### Requests -/

/-- The text of the call of `acquire_one_transport` that a request makes, if that comes
back without a transport. -/
def failedAcquire (w : World) (own : Option TransportId) (service : Bytes) : Option Bytes :=
  match parseSmartRequest service with
  | .ok (command, sel) => acquireError w own command sel
  | .error _ => none

section Requests

variable {w : World} {a c : Addr} {s : Asocket} {service command e : Bytes} {sel : Selector}
  {own : Option TransportId}

theorem tells_sendPacket {v : World} (hv : v.io = w.io) (t : TransportId) (p : Apacket) :
    Tells c w (v.sendPacket t p) [] :=
  ⟨[.send t p], by rw [World.sendPacket_eq, World.log_trace, hv], rfl⟩

theorem tells_dial (t : TransportId) (id : ℕ) (destination : Bytes) :
    Tells c w (dial w t id destination) [] := by
  have hcheck : ∀ (v : World) b f, (v.check b f).io = v.io := by
    intro v b f
    unfold World.check
    split <;> rfl
  refine tells_sendPacket ((hcheck _ _ _).trans ?_) t _
  split
  · unfold updateReverseConfig
    split <;> rfl
  · rfl

/-- A client that is turned away. -/
theorem says_turnedAway (h : Good w) (hn : Notifies w) (hac : Client w a c) (e : Bytes) :
    Says c w (smartSocketFail (w.reply c (.fail e)) a).1 [.fail e] := by
  have hreply := hac.aside (.reply (a := c) (.fail e))
  have hn' := notifies_of_steps (actions_of_moves hreply.steps h) h hn
  exact (Says.reply _).quietly
    (says_smartSocketFail (good_of_moves hreply.steps h) hn' hreply.client)

theorem tells_smartSocketConnect (h : Good w) (hn : Notifies w) (hac : Client w a c)
    (destination : Bytes) : ∃ rs, Tells c w (smartSocketConnect w a c destination).1 rs ∧
      Reported rs none := by
  obtain ⟨s, q, hs, hkind, hsc, hq, -⟩ := h.client hac
  have hne : a ≠ c := (h.graph.exists_peer hs hsc).1
  unfold smartSocketConnect
  simp only [hs]
  split
  · exact ⟨_, (says_turnedAway h hn hac _).tells, reported_fail (by simp)⟩
  · split
    · exact ⟨_, (says_turnedAway h hn hac _).tells, reported_fail (by simp)⟩
    · rename_i t _ _
      rw [smartSocketConnect_eq hs hkind hne hq]
      set w' := Action.run (Action.run w (.drop a c))
        (.bindTo c t ((w.initialAllowance t).or q.availableSendBytes)) with hw'
      have hquiet : Tells c w w' [] := ⟨[], (append_nil _).symm, rfl⟩
      exact ⟨[], hquiet.trans (tells_dial t _ _), reported_of_noFail (by simp)⟩

/-- The requests for a service of the device. -/
theorem smartSocketRequest_of_device (h : Good w) (hac : Client w a c) (hparse :
    parseSmartRequest service = .ok ([], sel)) :
    smartSocketRequest w a service = smartSocketConnect w a c service := by
  obtain ⟨s, q, hs, -, hsc, hq, -⟩ := h.client hac
  unfold smartSocketRequest
  simp only [hs, hparse, hsc, hq]
  rfl

/-- A request for the host that is not among those that are reported wrongly. -/
theorem says_smartSocketRequest (h : Good w) (hn : Notifies w) (hs : w.sk.heap a = some s)
    (hac : Client w a c) (hhost : ∀ sel, parseSmartRequest service ≠ .ok ([], sel))
    (hmis : ∀ command sel, parseSmartRequest service = .ok (command, sel) →
      ¬Misreported w s.transport command sel) :
    ∃ rs, Says c w (smartSocketRequest w a service).1 rs ∧
      Reported rs (failedAcquire w s.transport service) := by
  obtain ⟨s', q, hs', -, hsc, hq, -⟩ := h.client hac
  obtain rfl : s = s' := some.inj (hs.symm.trans hs')
  unfold smartSocketRequest failedAcquire
  simp only [hs]
  cases hparse : parseSmartRequest service with
  | error e =>
    cases e with
    | fail => exact ⟨[], says_smartSocketFail h hn hac, reported_of_noFail (by simp)⟩
    | ignore => exact ⟨[], .refl w, reported_of_noFail (by simp)⟩
  | ok request =>
    obtain ⟨command, sel⟩ := request
    have hcommand : ¬command.isEmpty = true := fun hempty =>
      hhost sel (List.isEmpty_iff.mp hempty ▸ hparse)
    simp only [hsc, hq]
    rw [if_neg hcommand]
    obtain ⟨rs, hsays, hrep, hrest⟩ := looked_handleHostRequest h hac hs command sel
      (hmis command sel hparse)
    have hserves := serves_handleHostRequest h hac command sel
    have hg := good_of_moves hserves.steps h
    have hn' := notifies_of_steps (actions_of_moves hserves.steps h) h hn
    rcases hr : handleHostRequest w a c command sel with ⟨w', _ | _ | _⟩ <;>
      rw [hr] at hsays hrest hserves hg hn'
    · exact ⟨rs, hsays.quietly (says_smartSocketFail hg hn' hserves.client), hrep⟩
    · have hclear : Says c w' (w'.upd a ({ · with smartSocketData := [] })) [] := .of_eq rfl rfl
      exact ⟨rs, hsays.quietly hclear, hrep⟩
    · -- Nothing has been said yet, and what was to be acquired was not.
      obtain ⟨rfl, hreason⟩ := hrest rfl
      refine ⟨_, hsays.trans (says_smartSocketHostService hg hn' hserves.client command), ?_⟩
      dsimp only
      rw [hreason, nil_append, serviceReply]
      split
      · exact reported_fail (by simp)
      · exact reported_of_noFail (by simp)

/-! ### What a request is reported by -/

/-- The search of a transport does not look at the sockets. -/
theorem searchLoop_onSk (f : SockTable → SockTable) (sel : TransportSelector)
    (ts : List TransportId) (s : Search) :
    searchLoop (w.onSk f) sel ts s = searchLoop w sel ts s := by
  induction ts generalizing s with
  | nil => rfl
  | cons t ts ih => simp only [searchLoop, ih]; rfl

theorem acquire_upd (f : Asocket → Asocket) (sel : Selector) (any : Bool) :
    acquire (w.upd a f) sel any = acquire w sel any := by
  simp only [acquire, acquireOneTransport, World.upd, searchLoop_onSk]
  rfl

theorem ownOrAcquire_upd (f : Asocket → Asocket) (own : Option TransportId) (sel : Selector)
    (any : Bool) : ownOrAcquire (w.upd a f) own sel any = ownOrAcquire w own sel any := by
  simp only [ownOrAcquire, acquire_upd]

theorem misreported_upd_iff (f : Asocket → Asocket) :
    Misreported (w.upd a f) own command sel ↔ Misreported w own command sel := by
  simp only [Misreported, ownOrAcquire_upd, World.upd_cfg]

theorem failedAcquire_upd (f : Asocket → Asocket) (own : Option TransportId) (service : Bytes) :
    failedAcquire (w.upd a f) own service = failedAcquire w own service := by
  simp only [failedAcquire, acquireError, ownOrAcquire_upd, acquire_upd]

/-! ### Requests that are reported wrongly -/

theorem not_oneFail {r : Reply} {rs : List Reply} : ¬OneFail (.fail e :: r :: rs) := by
  intro h
  obtain ⟨pre, heq, hpre⟩ := h e (by simp)
  cases pre with
  | nil => simp at heq
  | cons p pre =>
    obtain ⟨rfl, -⟩ := List.cons.inj heq
    exact hpre e (by simp)

/-- A rejected `kill` has been answered, and is still a request nobody knows. -/
theorem handleHostRequest_kill (hs : w.sk.heap a = some s) (sel : Selector)
    (hreject : w.cfg.rejectKillServer = true) :
    handleHostRequest w a c (ascii "kill") sel =
      (w.reply c (.fail (ascii "kill-server rejected by remote server")), .unhandled) := by
  simp only [handleHostRequest, hs, hreject]
  rfl

/-- The requests that ask for a transport on behalf of a listener. -/
theorem eq_of_parseForwardRequest_isSome (h : (parseForwardRequest (cString command [])).isSome) :
    ∃ rest, command = ascii "killforward:" ++ rest ∨ command = ascii "forward:" ++ rest := by
  -- The NUL that ends the string is not in the name of a request.
  have hcut : ∀ {name rest : Bytes}, (∀ x ∈ name, x ≠ 0) →
      consumePrefix (cString command []) name = some rest → ∃ rest', command = name ++ rest' := by
    intro name rest hname hrest
    have hcommand : cString command [] <+: command ++ [0] := by
      rw [cString, append_nil]
      exact List.takeWhile_prefix _
    have hpre : name <+: command ++ [0] :=
      (prefix_append name rest).trans (eq_append_of_consumePrefix hrest ▸ hcommand)
    rcases prefix_concat_iff.mp hpre with heq | ⟨rest', hrest'⟩
    · exact absurd rfl (hname 0 (by simp [heq]))
    · exact ⟨rest', hrest'.symm⟩
  unfold parseForwardRequest at h
  cases hkill : consumePrefix (cString command []) (ascii "killforward:") with
  | some rest =>
    obtain ⟨rest', hrest'⟩ := hcut (by decide +kernel) hkill
    exact ⟨rest', Or.inl hrest'⟩
  | none =>
    cases hforward : consumePrefix (cString command []) (ascii "forward:") with
    | some rest =>
      obtain ⟨rest', hrest'⟩ := hcut (by decide +kernel) hforward
      exact ⟨rest', Or.inr hrest'⟩
    | none => simp [hkill, hforward] at h

/-- A forward request without a transport is answered by the reason it was given. -/
theorem handleForwardRequest_of_error (hsome : (parseForwardRequest service).isSome) :
    handleForwardRequest w service (.error e) c = (w.reply c (.fail e), true) := by
  obtain ⟨request, hrequest⟩ := isSome_iff_exists.mp hsome
  have hlist : ¬(service == ascii "list-forward") = true := by
    intro heq
    rw [eq_of_beq heq] at hsome
    exact absurd hsome (by decide +kernel)
  have hall : ¬(service == ascii "killforward-all") = true := by
    intro heq
    rw [eq_of_beq heq] at hsome
    exact absurd hsome (by decide +kernel)
  rw [handleForwardRequest, if_neg hlist, if_neg hall, hrequest]

/-- The reason why a forward request finds no transport is lost. -/
theorem handleHostRequest_forward (hs : w.sk.heap a = some s)
    (hsome : (parseForwardRequest (cString command [])).isSome)
    (he : ownOrAcquire w s.transport sel false = .error e) :
    handleHostRequest w a c command sel = (w.reply c (.fail []), .handled) ∧
      acquireError w s.transport command sel = some e := by
  have hfail := handleForwardRequest_of_error (w := w) (c := c) (e := []) hsome
  have hacquired : (ownOrAcquire w s.transport sel false).mapError (fun _ => ([] : Bytes)) =
      .error [] := by
    rw [he]
    rfl
  have hrequest : ∀ {r : World × HostRequestResult},
      r = (match handleForwardRequest w (cString command [])
          ((ownOrAcquire w s.transport sel false).mapError fun _ => []) c with
        | (w, true) => (w, .handled)
        | (w, false) => (w, .unhandled)) → r = (w.reply c (.fail []), .handled) := by
    rintro r rfl
    rw [hacquired, hfail]
  have herror : ∀ {r : Option Bytes},
      r = (if (parseForwardRequest (cString command [])).isSome then
        errorOf (ownOrAcquire w s.transport sel false) else none) → r = some e := by
    rintro r rfl
    rw [if_pos hsome, he]
    rfl
  rcases eq_of_parseForwardRequest_isSome hsome with ⟨rest, rfl | rfl⟩
  · refine ⟨hrequest ?_, herror rfl⟩
    simp only [handleHostRequest, hs]
    rfl
  · refine ⟨hrequest ?_, herror rfl⟩
    simp only [handleHostRequest, hs]
    rfl

/-- A request that is reported wrongly. -/
theorem says_smartSocketRequest_of_misreported (h : Good w) (hn : Notifies w)
    (hs : w.sk.heap a = some s) (hac : Client w a c)
    (hparse : parseSmartRequest service = .ok (command, sel))
    (hmis : Misreported w s.transport command sel) :
    ∃ rs, Says c w (smartSocketRequest w a service).1 rs ∧
      ¬Reported rs (failedAcquire w s.transport service) := by
  obtain ⟨s', q, hs', -, hsc, hq, -⟩ := h.client hac
  obtain rfl : s = s' := some.inj (hs.symm.trans hs')
  have hserves := serves_handleHostRequest h hac command sel
  have hg := good_of_moves hserves.steps h
  have hn' := notifies_of_steps (actions_of_moves hserves.steps h) h hn
  unfold smartSocketRequest failedAcquire
  simp only [hs, hparse, hsc, hq]
  rcases hmis with ⟨rfl, hreject⟩ | ⟨hsome, e, he, hne⟩
  · rw [handleHostRequest_kill hs sel hreject] at hserves hg hn' ⊢
    have hsays := (Says.reply (c := c) (w := w) _).trans
      (says_smartSocketHostService hg hn' hserves.client (ascii "kill"))
    exact ⟨_, hsays, fun hrep => not_oneFail hrep.once⟩
  · obtain ⟨hhandled, herror⟩ := handleHostRequest_forward (c := c) hs hsome he
    have hcommand : ¬command.isEmpty = true := by
      rcases eq_of_parseForwardRequest_isSome hsome with ⟨rest, rfl | rfl⟩ <;> simp [ascii]
    rw [if_neg hcommand, hhandled, herror]
    refine ⟨_, says_turnedAway h hn hac [], fun hrep => hne ?_⟩
    exact (hrep.reason e rfl [] (by simp)).symm

/-- A request for the device asks for no transport. -/
theorem not_misreported_device : ¬Misreported w own [] sel := by
  rintro (⟨hkill, -⟩ | ⟨hforward, -⟩)
  · exact absurd hkill (by decide)
  · exact absurd hforward (by decide +kernel)

/-- What a client is told about a request for the host that has arrived. -/
theorem exists_says_smartSocketRequest (h : Good w) (hn : Notifies w) (hs : w.sk.heap a = some s)
    (hac : Client w a c) (hhost : ∀ sel, parseSmartRequest service ≠ .ok ([], sel)) :
    ∃ rs, Says c w (smartSocketRequest w a service).1 rs ∧
      (Reported rs (failedAcquire w s.transport service) ↔
        ∀ command sel, parseSmartRequest service = .ok (command, sel) →
          ¬Misreported w s.transport command sel) := by
  by_cases hmis : ∀ command sel, parseSmartRequest service = .ok (command, sel) →
      ¬Misreported w s.transport command sel
  · obtain ⟨rs, hsays, hrep⟩ := says_smartSocketRequest h hn hs hac hhost hmis
    exact ⟨rs, hsays, iff_of_true hrep hmis⟩
  · obtain ⟨command, sel, hparse, hbad⟩ : ∃ command sel,
        parseSmartRequest service = .ok (command, sel) ∧ Misreported w s.transport command sel := by
      simpa using hmis
    obtain ⟨rs, hsays, hrep⟩ := says_smartSocketRequest_of_misreported h hn hs hac hparse hbad
    exact ⟨rs, hsays, iff_of_false hrep hmis⟩

/-- What a client is told about a request that has arrived. -/
theorem exists_tells_smartSocketRequest (h : Good w) (hn : Notifies w)
    (hs : w.sk.heap a = some s) (hac : Client w a c) (service : Bytes) :
    ∃ rs, Tells c w (smartSocketRequest w a service).1 rs ∧
      (Reported rs (failedAcquire w s.transport service) ↔
        ∀ command sel, parseSmartRequest service = .ok (command, sel) →
          ¬Misreported w s.transport command sel) := by
  by_cases hhost : ∀ sel, parseSmartRequest service ≠ .ok ([], sel)
  · obtain ⟨rs, hsays, hiff⟩ := exists_says_smartSocketRequest h hn hs hac hhost
    exact ⟨rs, hsays.tells, hiff⟩
  · obtain ⟨sel, hparse⟩ : ∃ sel, parseSmartRequest service = .ok ([], sel) := by simpa using hhost
    obtain ⟨rs, htells, hrep⟩ := tells_smartSocketConnect h hn hac service
    rw [smartSocketRequest_of_device h hac hparse]
    have hnone : failedAcquire w s.transport service = none := by
      simp only [failedAcquire, hparse]
      rfl
    refine ⟨rs, htells, iff_of_true (hnone ▸ hrep) fun command sel' hparse' => ?_⟩
    obtain ⟨rfl, -⟩ := Prod.mk.inj (Except.ok.inj (hparse.symm.trans hparse'))
    exact not_misreported_device

/-- The world in which a smart socket acts on a request: it has read the request, and that
is all. -/
theorem read_request (h : Good w) (hn : Notifies w) (hs : w.sk.heap a = some s)
    (hac : Client w a c) (data buf : Bytes) :
    let w' := (w.upd a ({ · with smartSocketData := data })).upd a ({ · with smartSocketData :=
      buf })
    Good w' ∧ Notifies w' ∧ Client w' a c ∧
      w'.sk.heap a = some { s with smartSocketData := buf } := by
  have hread := ((hac.aside (.refl w)).write data).write buf
  refine ⟨good_of_moves hread.steps h,
    notifies_of_steps (actions_of_moves hread.steps h) h hn, hread.client, ?_⟩
  exact SockTable.upd_heap_self (SockTable.upd_heap_self hs _) _

/-- **One failure, with its reason.** What a client is told about a request that its
smart socket has read is as it should be, exactly if the request is neither a `kill` that
is rejected nor a forward request whose transport is not found. -/
theorem reported_iff (h : Good w) (hn : Notifies w) (hs : w.sk.heap a = some s)
    (hkind : s.kind = .smartSocket) (hp : s.peer = some c) {data buf : Bytes}
    (hframe : framing (s.smartSocketData ++ data) = .complete buf) :
    Reported (repliesTo c ((smartSocketEnqueue w a data).1.io.trace.drop w.io.trace.length))
        (failedAcquire w s.transport (buf.drop 4)) ↔
      ∀ command sel, parseSmartRequest (buf.drop 4) = .ok (command, sel) →
        ¬Misreported w s.transport command sel := by
  obtain ⟨hg, hn', hac, hs'⟩ := read_request h hn hs ⟨s, hs, hkind, hp⟩
    (s.smartSocketData ++ data) buf
  obtain ⟨rs, htells, hiff⟩ := exists_tells_smartSocketRequest hg hn' hs' hac (buf.drop 4)
  -- That the request has been read does not change what there is to acquire.
  simp only [failedAcquire_upd, misreported_upd_iff] at hiff
  rw [smartSocketEnqueue_eq hs]
  simp only [hframe]
  rw [← hiff, ← htells.unique]
  rfl

/-- There is no transport to ask for its features, and the client is told so. -/
theorem reported_iff_features :
    Reported (repliesTo 0
      ((smartSocketEnqueue oneClient 1 (ascii "000dhost:features")).1.io.trace.drop
        oneClient.io.trace.length))
      (failedAcquire oneClient none (ascii "host:features")) := by
  have hreach : server.Reach oneClient := reach_of_legal (by decide +kernel)
  obtain ⟨s, hs, hkind, hp, ht, hdata⟩ : ∃ s, oneClient.sk.heap 1 = some s ∧
      s.kind = .smartSocket ∧ s.peer = some 0 ∧ s.transport = none ∧ s.smartSocketData = [] :=
    ⟨_, rfl, rfl, rfl, rfl, rfl⟩
  have hframe : framing (s.smartSocketData ++ ascii "000dhost:features") =
      .complete (ascii "000dhost:features") := by
    rw [hdata]
    decide +kernel
  have hrep := (reported_iff (good_of_reach hreach) (notifies_of_reach hreach) hs hkind hp
    hframe).mpr ?_
  · rw [ht] at hrep
    exact hrep
  · rintro command sel hparse
    have hcommand : (parseSmartRequest ((ascii "000dhost:features").drop 4)).toOption.map
        Prod.fst = some (ascii "features") := by decide +kernel
    rw [hparse] at hcommand
    obtain rfl : command = ascii "features" := some.inj hcommand
    rintro (⟨hkill, -⟩ | ⟨hforward, -⟩)
    · exact absurd hkill (by decide +kernel)
    · exact absurd hforward (by decide +kernel)

/-- A server with one client that does not let itself be killed. -/
def rejecting : World :=
  server.run (initialWorld { rejectKillServer := true } {})
    [.poll [(.listener 0, { epollin := true })]]

/-- A `kill` that is rejected is rejected twice, and a forward request without a transport
is rejected without a reason. -/
theorem not_reported :
    ¬Reported (repliesTo 0 ((smartSocketEnqueue rejecting 1
          (ascii "0009host:kill")).1.io.trace.drop rejecting.io.trace.length))
        (failedAcquire rejecting none (ascii "host:kill")) ∧
      ¬Reported (repliesTo 0 ((smartSocketEnqueue oneClient 1
            (ascii "0018host:forward:tcp:1;tcp:2")).1.io.trace.drop oneClient.io.trace.length))
          (failedAcquire oneClient none (ascii "host:forward:tcp:1;tcp:2")) := by
  have hkill : repliesTo 0 ((smartSocketEnqueue rejecting 1
      (ascii "0009host:kill")).1.io.trace.drop rejecting.io.trace.length) =
        [.fail (ascii "kill-server rejected by remote server"),
          .fail (ascii "unknown host service 'kill'")] := by decide +kernel
  have hforward : repliesTo 0 ((smartSocketEnqueue oneClient 1
      (ascii "0018host:forward:tcp:1;tcp:2")).1.io.trace.drop oneClient.io.trace.length) =
        [.fail []] := by decide +kernel
  have hreason : failedAcquire oneClient none (ascii "host:forward:tcp:1;tcp:2") =
      some (ascii "no devices/emulators found") := by decide +kernel
  rw [hkill, hforward, hreason]
  refine ⟨fun hrep => not_oneFail hrep.once, fun hrep => ?_⟩
  exact absurd (hrep.reason _ rfl [] (by simp)) (by decide)

end Requests

end AdbBridge
