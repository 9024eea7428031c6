import AdbBridge.Requests.Replies

/-!
# Requests that end the process

A request reaches three places at which the process may end. `connect_to_remote` checks
that the request fits into what the device takes, `UpdateReverseConfig` gives up on a
request for a reverse forward that it does not know, and `parse_host_service` reads the
first byte of what is left after a prefix. Nothing on the way to them looks at the size
the device has announced, at the name of a reverse service, or at what is left.

`survives_iff` says which requests do no harm: those for which nothing is read where there
is nothing, and, if they are for the device, that fit and are not for an unknown reverse
service.
-/

namespace AdbBridge

open List Option

/-! ### Reading where there is nothing -/

/-- The request makes `parse_host_service` read the first byte of an empty view. -/
def readsEmptyView (service : Bytes) : Bool :=
  (consumePrefix service (ascii "host-serial:")).any fun full =>
    (hostServicePrefixes.find? (startsWith full)).isNone &&
      (hostServiceStart full).any fun n => (full.drop n).isEmpty

/-- The serials that end before the address starts. -/
def emptySerials : List Bytes := [ascii "vsock:", ascii "tcp:vsock:", ascii "udp:vsock:"]

section Parsing

variable {full service pre : Bytes}

theorem eq_append_of_startsWith (h : startsWith full pre = true) : full =
    pre ++ full.drop pre.length := by
  obtain ⟨rest, rfl⟩ := List.isPrefixOf_iff_prefix.mp h
  rw [drop_left]

/-- Nothing is left of a string that a prefix has been taken from. -/
theorem eq_of_startsWith_of_drop (h : startsWith full pre = true)
    (hdrop : full.drop pre.length = []) : full = pre := by
  have happend := eq_append_of_startsWith h
  rwa [hdrop, append_nil] at happend

/-- There are three texts only in which nothing is left behind the start of the address. -/
theorem mem_emptySerials_of_start {n : ℕ} (hstart : hostServiceStart full = some n)
    (hdrop : full.drop n = []) : full ∈ emptySerials := by
  unfold hostServiceStart at hstart
  dsimp only at hstart
  set k := if startsWith full (ascii "tcp:") || startsWith full (ascii "udp:") then 4 else 0 with hk
  split at hstart
  · exact absurd hstart (by simp)
  · rename_i hrest
    rw [some.injEq] at hstart
    subst hstart
    split at hdrop
    · -- What comes after `tcp:` or `udp:`, if there is one of them, is `vsock:`.
      rename_i hvsock
      rw [← drop_drop] at hdrop
      have hleft := eq_of_startsWith_of_drop hvsock hdrop
      split at hk
      · rename_i hproto
        rw [hk] at hleft
        rcases Bool.or_eq_true_iff.mp hproto with htcp | hudp
        · have happend := eq_append_of_startsWith htcp
          rw [show (ascii "tcp:").length = 4 from rfl, hleft] at happend
          rw [happend]
          decide
        · have happend := eq_append_of_startsWith hudp
          rw [show (ascii "udp:").length = 4 from rfl, hleft] at happend
          rw [happend]
          decide
      · rw [hk, drop_zero] at hleft
        rw [hleft]
        decide
    · exact absurd (List.isEmpty_iff.mpr hdrop) hrest

theorem readsEmptyView_iff :
    readsEmptyView service = true ↔
      ∃ full ∈ emptySerials, service = ascii "host-serial:" ++ full := by
  constructor
  · intro h
    obtain ⟨full, hfull, hreads⟩ := (Option.any_eq_true _ _).mp h
    obtain ⟨n, hstart, hdrop⟩ := (Option.any_eq_true _ _).mp (Bool.and_eq_true_iff.mp hreads).2
    exact ⟨full, mem_emptySerials_of_start hstart (List.isEmpty_iff.mp hdrop),
      eq_append_of_consumePrefix hfull⟩
  · rintro ⟨full, hfull, rfl⟩
    revert full
    decide +kernel

/-! ### Reverse services -/

/-- A request for a reverse service that the host does not know. -/
def unknownReverse (service : Bytes) : Bool :=
  (consumePrefix service (ascii "reverse:")).any fun addr =>
    (consumePrefix addr (ascii "forward:")).isNone &&
      (consumePrefix addr (ascii "killforward:")).isNone &&
        addr != ascii "killforward-all" && addr != ascii "list-forward"

/-- The host does not know what to do exactly with the reverse services that are unknown. -/
theorem reverseConfig_eq_none_iff {forwards : AList fun _ : Bytes => Bytes} :
    reverseConfig forwards service = none ↔ unknownReverse service = true := by
  unfold reverseConfig unknownReverse
  cases consumePrefix service (ascii "reverse:") with
  | none => simp
  | some addr =>
    simp only [any_some]
    cases consumePrefix addr (ascii "forward:") with
    | some rest =>
      simp only [isNone_some, Bool.false_and, Bool.false_eq_true, iff_false]
      split
      · split <;> simp
      · simp
    | none =>
      cases consumePrefix addr (ascii "killforward:") with
      | some rest =>
        simp only [isNone_some, Bool.false_and, Bool.and_false, Bool.false_eq_true, iff_false]
        split <;> simp
      | none =>
        by_cases hall : addr = ascii "killforward-all"
        · simp [hall]
        · by_cases hlist : addr = ascii "list-forward"
          · simp [hlist ▸ hall, hlist]
          · simp [hall, hlist]

end Parsing

/-! ### Asking the device -/

/-- The process ends for one of the reasons a request for a stream can give it. -/
def EndsByStream (w : World) : Prop := ∃ f, w.fault = some f ∧ f.ofStream = true

section Asking

variable {w w' : World} {a c : Addr} {s : Asocket} {t : TransportId} {rs : List Reply}

/-- What a client is told ends no process. -/
theorem Says.survives (h : Says c w w' rs) (hw : w.fault = none) : ¬EndsByStream w' := by
  rintro ⟨f, hf, hstream⟩
  rcases h.fault f hf with hf' | hf'
  · exact absurd (hw.symm.trans hf') (by simp)
  · exact absurd (hf'.symm.trans hstream) (by simp)

theorem raise_of_none {f : Fault} (hw : w.fault = none) : (w.raise f).fault = some f := by
  simp [World.raise, hw]

theorem fault_updateReverseConfig (hw : w.fault = none) (service : Bytes) :
    (updateReverseConfig w t service).fault =
      if unknownReverse service = true then some .unhandledReverse else none := by
  unfold updateReverseConfig Atransport.updateReverseConfig
  by_cases hunknown : unknownReverse service = true
  · rw [reverseConfig_eq_none_iff.mpr hunknown, if_pos hunknown]
    exact raise_of_none hw
  · obtain ⟨r, hr⟩ := ne_none_iff_exists'.mp
      (mt reverseConfig_eq_none_iff.mp hunknown :
        reverseConfig (w.transport t).reverseForwards _ ≠ none)
    rw [hr, if_neg hunknown]
    exact hw

/-- The requests that a device cannot be asked: it does not take as much, or the host
would have to know what they are about. -/
def Unaskable (w : World) (t : TransportId) (service : Bytes) : Prop :=
  (w.cfg.adbHost = true ∧ unknownReverse service = true) ∨
    min maxPayload (w.transport t).maxPayload < service.length + 1

/-- Asking a device ends the process exactly if it cannot be asked. -/
theorem endsByStream_dial_iff (hw : w.fault = none) (id : ℕ) (service : Bytes) :
    EndsByStream (dial w t id service) ↔ Unaskable w t service := by
  set v := if w.cfg.adbHost then updateReverseConfig w t service else w with hv
  have hfault : v.fault =
      if w.cfg.adbHost = true ∧ unknownReverse service =
        true then some .unhandledReverse else none := by
    rw [hv]
    split
    · rename_i hhost
      simp [fault_updateReverseConfig hw, hhost]
    · rename_i hhost
      simp [hw, hhost]
  have hmax : (v.transport t).maxPayload = (w.transport t).maxPayload := by
    rw [hv]
    split
    · obtain ⟨r, hr⟩ := updateReverseConfig_transport w t t service
      rw [hr]
    · rfl
  have hdial : (dial w t id service).fault =
      (v.check ((service ++ [0]).length ≤ min maxPayload (v.transport t).maxPayload)
        .checkMaxPayload).fault := rfl
  rw [length_append, length_singleton, hmax] at hdial
  unfold EndsByStream Unaskable
  rw [hdial, World.check]
  by_cases hunknown : w.cfg.adbHost = true ∧ unknownReverse service = true
  · refine iff_of_true ⟨.unhandledReverse, ?_, rfl⟩ (Or.inl hunknown)
    rw [if_pos hunknown] at hfault
    split <;> simp [World.raise, hfault]
  · rw [if_neg hunknown] at hfault
    by_cases hfits : service.length + 1 ≤ min maxPayload (w.transport t).maxPayload
    · simp [hfits, hfault, hunknown, not_lt.mpr hfits]
    · simp [hfits, raise_of_none hfault, Fault.ofStream, not_le.mp hfits]

/-- So does connecting a client, if its transport is online. -/
theorem endsByStream_smartSocketConnect_iff (h : Good w) (hn : Notifies w) (hw : w.fault = none)
    (hs : w.sk.heap a = some s) (hac : Client w a c) (service : Bytes) :
    EndsByStream (smartSocketConnect w a c service).1 ↔
      ∃ t, s.transport = some t ∧ connectionStateIsOnline (w.transport t).connectionState = true ∧
        Unaskable w t service := by
  obtain ⟨s', q, hs', hkind, hsc, hq, -⟩ := h.client hac
  obtain rfl : s = s' := some.inj (hs.symm.trans hs')
  have hne : a ≠ c := (h.graph.exists_peer hs hsc).1
  have haway : ∀ e, ¬EndsByStream (smartSocketFail (w.reply c (.fail e)) a).1 := fun e =>
    (says_turnedAway h hn hac e).survives hw
  unfold smartSocketConnect
  simp only [hs]
  cases ht : s.transport with
  | none => exact iff_of_false (haway _) (by simp)
  | some t =>
    by_cases honline : connectionStateIsOnline (w.transport t).connectionState = true
    · simp only [honline, Bool.not_true, Bool.false_eq_true, if_false]
      rw [smartSocketConnect_eq hs hkind hne hq]
      set w' := Action.run (Action.run w (.drop a c))
        (.bindTo c t ((w.initialAllowance t).or q.availableSendBytes)) with hw'
      have hnone : w'.fault = none := hw
      rw [endsByStream_dial_iff hnone]
      simp only [some.injEq, exists_eq_left', honline, true_and]
      rfl
    · simp only [honline, Bool.not_false, if_true]
      refine iff_of_false (haway _) ?_
      rintro ⟨t', ht', honline', -⟩
      exact honline (some.inj ht' ▸ honline')

/-- So does a request, if it is not for the host. -/
theorem endsByStream_smartSocketRequest_iff (h : Good w) (hn : Notifies w) (hw : w.fault = none)
    (hs : w.sk.heap a = some s) (hac : Client w a c) (service : Bytes) :
    EndsByStream (smartSocketRequest w a service).1 ↔
      ∃ sel t, parseSmartRequest service = .ok ([], sel) ∧ s.transport = some t ∧
        connectionStateIsOnline (w.transport t).connectionState = true ∧ Unaskable w t service := by
  by_cases hhost : ∀ sel, parseSmartRequest service ≠ .ok ([], sel)
  · obtain ⟨rs, htold, -⟩ := exists_says_smartSocketRequest h hn hs hac hhost
    exact iff_of_false (htold.survives hw) fun ⟨sel, _, hparse, _⟩ => hhost sel hparse
  · obtain ⟨sel, hparse⟩ : ∃ sel, parseSmartRequest service = .ok ([], sel) := by simpa using hhost
    rw [smartSocketRequest_of_device h hac hparse,
      endsByStream_smartSocketConnect_iff h hn hw hs hac service]
    exact ⟨fun ⟨t, ht⟩ => ⟨sel, t, hparse, ht⟩, fun ⟨_, t, _, ht⟩ => ⟨t, ht⟩⟩

/-- **No request ends the process**, exactly if it is not one for a serial that ends too
early, and, where it is for a device that is online, the device can be asked. -/
theorem survives_iff (h : Good w) (hn : Notifies w) (hw : w.fault = none)
    (hs : w.sk.heap a = some s) (hkind : s.kind = .smartSocket) (hp : s.peer = some c)
    {data buf : Bytes} (hframe : framing (s.smartSocketData ++ data) = .complete buf) :
    (¬EndsByStream (smartSocketEnqueue w a data).1 ∧ readsEmptyView (buf.drop 4) = false) ↔
      (∀ full ∈ emptySerials, buf.drop 4 ≠ ascii "host-serial:" ++ full) ∧
        ∀ sel t, parseSmartRequest (buf.drop 4) = .ok ([], sel) → s.transport = some t →
          connectionStateIsOnline (w.transport t).connectionState = true →
            ¬Unaskable w t (buf.drop 4) := by
  obtain ⟨hg, hn', hac, hs'⟩ := read_request h hn hs ⟨s, hs, hkind, hp⟩
    (s.smartSocketData ++ data) buf
  have hends := endsByStream_smartSocketRequest_iff hg hn' hw hs' hac (buf.drop 4)
  rw [smartSocketEnqueue_eq hs]
  simp only [hframe]
  rw [hends, and_comm, ← Bool.not_eq_true, readsEmptyView_iff]
  refine and_congr (by push Not; rfl) ?_
  push Not
  rfl

/-- A client that asks for any transport and then is silent. -/
def choosyClient : Sys where
  read := fun
    | 1 => .data (ascii "0012host:transport-any")
    | _ => .eagain

/-- A server with a device that takes payloads of this size, and such a client: the socket
of the client is `0`, and its smart socket is `1`. -/
def selected (maxdata : ℕ) : World :=
  server.run (initialWorld {} choosyClient)
    [.newTransport { type := .kTransportUsb }, .register 1,
      .packet 1
        { command := .aCnxn, arg0 := aVersion, arg1 := maxdata, payload := ascii "device::" },
      .poll [(.listener 0, { epollin := true })], .poll [(.socket 0, { epollin := true })]]

/-- A shell on a device that takes payloads of twenty bytes. -/
theorem survives_iff_shell :
    ¬EndsByStream (smartSocketEnqueue (selected 20) 1 (ascii "0006shell:")).1 ∧
      readsEmptyView (ascii "shell:") = false := by
  have hreach : server.Reach (selected 20) := reach_of_legal (by decide +kernel)
  obtain ⟨s, hs, hkind, hp, ht, hdata⟩ : ∃ s, (selected 20).sk.heap 1 = some s ∧
      s.kind = .smartSocket ∧ s.peer = some 0 ∧ s.transport = some 1 ∧ s.smartSocketData = [] :=
    ⟨_, rfl, rfl, rfl, rfl, rfl⟩
  have hframe : framing (s.smartSocketData ++ ascii "0006shell:") =
      .complete (ascii "0006shell:") := by
    rw [hdata]
    decide +kernel
  refine (survives_iff (good_of_reach hreach) (notifies_of_reach hreach) (by decide +kernel) hs
    hkind hp hframe).mpr ⟨by decide +kernel, fun sel t _ ht' _ hunaskable => ?_⟩
  obtain rfl : t = 1 := some.inj (ht'.symm.trans ht)
  rcases hunaskable with ⟨-, hunknown⟩ | hshort
  · exact absurd hunknown (by decide +kernel)
  · exact absurd hshort (by decide +kernel)

/-- **The process ends** for a request that does not fit into what the device takes and for
a reverse service the host does not know; and a serial that is no more than `vsock:` is
read beyond its end. -/
theorem not_survives :
    (smartSocketEnqueue (selected 4) 1 (ascii "0006shell:")).1.fault = some .checkMaxPayload ∧
      (smartSocketEnqueue (selected maxPayload) 1 (ascii "000breverse:foo")).1.fault =
        some .unhandledReverse ∧
      readsEmptyView (ascii "host-serial:vsock:") = true := by
  decide +kernel

end Asking

end AdbBridge
