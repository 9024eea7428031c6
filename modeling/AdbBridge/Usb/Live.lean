import AdbBridge.Usb.Reads

/-!
# A connection that is alive reads

A connection that runs (`Live`) and has not reported an error has one read transfer with `libusb`.
Every callback keeps this up: it submits the next read, or reports an error, or finds that the
connection is closing or detached. But a submission that `libusb` does not take is only logged, by
`SubmitRead` as well as by `SubmitWrite`, and an `Attach` that cannot open the device again leaves
a connection that looks as if it were running. `Served` leaves these out.
-/

namespace AdbBridge.Usb

/-- A `Write` that returned true submitted every transfer that the packet needs, in their order,
unless the connection was detached or had reported an error. -/
def Reply.Honest (r : Reply) : Prop :=
  r.returned = true → r.submitted = r.required.map (·, true) ∨ r.detached = true ∨
    r.reported = true

namespace LibusbConnection

variable {c : LibusbConnection} {op : Op}

/-- The connection has been started, is not going down and has not reported an error. It is not
yet started again while the first read of an `Attach` is still to be submitted. -/
structure Live (c : LibusbConnection) : Prop where
  started : c.started = true
  running : ∀ caller, c.phase ≠ .starting caller
  terminated : c.terminated = false
  detached : c.detached = false
  error : c.error = none

/-- A connection that is alive has a transfer with `libusb`. -/
def Reading (c : LibusbConnection) : Prop := c.Live → c.inflight ≠ []

/-! ### Going down, and errors -/

theorem closeDevice_terminated (c : LibusbConnection) (caller : Caller) :
    (c.closeDevice caller).terminated = true := by
  rw [closeDevice]
  split_ifs with hterm
  · rw [(closed_same c caller).2.1, hterm]
  · rfl

theorem reading_of_terminated (h : c.terminated = true) : c.Reading := fun hlive =>
  absurd (h.symm.trans hlive.terminated) (by decide)

theorem cleanup_same (c : LibusbConnection) (p : Bool) :
    (c.cleanup p).terminated = c.terminated ∧ (c.cleanup p).detached = c.detached ∧
      (c.cleanup p).error = c.error := by
  cases p <;> exact ⟨rfl, rfl, rfl⟩

theorem onError_ne (c : LibusbConnection) (e : UsbError) : (c.onError e).error ≠ none := by
  rw [onError_eq]
  exact Option.some_ne_none _

theorem reading_dropError (c : LibusbConnection) (p : Bool) (e : UsbError) :
    ((c.onError e).cleanup p).Reading := fun hlive =>
  absurd ((cleanup_same _ p).2.2.symm.trans hlive.error) (onError_ne c e)

theorem reading_readFailed (c : LibusbConnection) (p : Bool) (status : Status) :
    (c.readFailed p status).Reading := by
  rw [readFailed]
  split_ifs with hdetached
  · exact fun hlive =>
      absurd (hdetached.symm.trans ((cleanup_same c p).2.1.symm.trans hlive.detached)) (by decide)
  · exact reading_dropError c p _

/-! ### The next read -/

/-- A submission that `libusb` takes, unless a check fails. -/
theorem submitRead_inflight {p : Bool} {length : ℕ} (h : (c.submitRead p length true).failed =
    none) :
    (c.submitRead p length true).inflight ≠ [] := by
  rw [submitRead] at h ⊢
  split at h
  · cases h
  · split at h
    · cases h
    · simp

theorem Reading.of_inflight (h : c.inflight ≠ []) : c.Reading := fun _ => h

/-- **The callbacks**: the next read, or an error, or the end. -/
theorem reading_readCb {t : Transfer} {status : Status} {data : Bytes}
    (h : (c.readCb t status data true).failed = none) : (c.readCb t status data true).Reading := by
  have hfail {c : LibusbConnection} {k : Check} (h : (c.fail k).failed = none) :
      (c.fail k).Reading := nomatch h
  rw [readCb] at h ⊢
  set c₀ : LibusbConnection := { c with inflight := c.inflight.erase t }
  have hdown (p : Bool) (hterm : c₀.terminated = true) : (c₀.cleanup p).Reading :=
    reading_of_terminated ((cleanup_same c₀ p).1.trans hterm)
  by_cases hp : t.payload = true
  · rw [if_pos hp, payloadReadCb] at h ⊢
    split_ifs at h ⊢ with hnone hterm hstatus hlength
    · exact hfail h
    · exact hdown true hterm
    · exact reading_readFailed _ _ _
    · exact reading_dropError _ _ _
    · cases hheader : c₀.incomingHeader with
      | none =>
        simp only [hheader] at h ⊢
        exact hfail h
      | some header =>
        simp only [hheader] at h ⊢
        exact .of_inflight (submitRead_inflight h)
  · rw [if_neg hp, headerReadCb] at h ⊢
    split_ifs at h ⊢ with hnone hterm hstatus hlength hsome hlong hzero
    · exact hfail h
    · exact hdown false hterm
    · exact reading_readFailed _ _ _
    · exact reading_dropError _ _ _
    · exact hfail h
    · exact reading_dropError _ _ _
    · exact .of_inflight (submitRead_inflight h)
    · exact .of_inflight (submitRead_inflight h)

/-! ### Steps that are served -/

/-- What a packet with a payload of some length needs is submitted. -/
def taken (c : LibusbConnection) (payloadLength : ℕ) (header payload zero : Bool) : Bool :=
  header && (payloadLength == 0 || (payload &&
    (!shouldPerformZeroTransfer payloadLength c.interface.zeroMask || zero)))

/-- The steps at which `libusb` takes every transfer that it is given. A connection that was
started can be opened again. -/
def Served (c : LibusbConnection) : Op → Prop
  | .attach o => c.started = true → c.error = none →
      (({ c with terminated := false, detached := false } : LibusbConnection).openDevice o).1 = true
  | .startImpl _ taken => taken = true
  | .readCb _ _ _ taken => taken = true
  | .write payloadLength header payload zero =>
      c.terminated = true ∨ c.detached = true ∨ c.error ≠ none ∨
        c.taken payloadLength header payload zero = true
  | _ => True

instance decidableServed (c : LibusbConnection) (op : Op) : Decidable (c.Served op) := by
  induction op using Op.casesOn <;> dsimp only [Served] <;> infer_instance

theorem reading_attach {caller : Caller} {o : Opening}
    (hopen : caller ≠ .start → c.started = true → c.error = none →
      (({ c with terminated := false, detached := false } :
        LibusbConnection).openDevice o).1 = true) : (c.attach caller o).Reading := by
  intro hlive
  rw [attach] at hlive ⊢
  split at hlive
  · exact absurd rfl (hlive.running caller)
  · next c₁ hc₁ =>
    obtain ⟨handle, interface, nextHandle, calls, heq⟩ := openDevice_eq
      { c with terminated := false, detached := false } o
    rw [hc₁] at heq hopen
    split_ifs at hlive with hcaller
    · exact absurd hlive.error (onError_ne c₁ _)
    · obtain rfl : c₁ = _ := heq
      exact absurd (hopen hcaller hlive.started hlive.error) Bool.false_ne_true

/-- **One step** of a connection that is served. -/
theorem Reading.step (hr : c.Reading) (hs : c.Sound) (hen : c.Enabled op)
    (hserved : c.Served op) (hs' : (c.step op).Sound) : (c.step op).Reading := by
  -- The sections of `CloseDevice` run with the flag set.
  have hclosing {phase : Phase} (hphase : c.phase = phase) (h : phase.closing = true) :
      c.terminated = true := hs.closing (hphase ▸ h)
  cases op with
  | start o => exact reading_attach fun h => absurd rfl h
  | attach o => exact reading_attach fun _ => hserved
  | detach => exact reading_of_terminated (closeDevice_terminated _ _)
  | stop => exact reading_of_terminated (closeDevice_terminated _ _)
  | destroy => exact reading_of_terminated (closeDevice_terminated _ _)
  | reset ok =>
    rw [LibusbConnection.step, reset]
    split_ifs
    · exact reading_of_terminated (closeDevice_terminated _ _)
    · exact fun hlive => hr ⟨hlive.1, hlive.2, hlive.3, hlive.4, hlive.5⟩
  | startImpl caller taken =>
    obtain rfl : taken = true := hserved
    have hok := hs'.ok
    rw [LibusbConnection.step, startImpl] at hok ⊢
    split_ifs at hok ⊢
    · exact reading_of_terminated (closeDevice_terminated _ _)
    · exact .of_inflight (submitRead_inflight hok)
  | cancelWrites caller cancelled => exact reading_of_terminated (hclosing hen rfl)
  | awaitWrites caller => exact reading_of_terminated (hclosing hen.1 rfl)
  | cancelReads caller header payload =>
    refine reading_of_terminated ?_
    rw [LibusbConnection.step]
    exact (cancelReadTransfer_same _ true payload).2.1.trans
      ((cancelReadTransfer_same c false header).2.1.trans (hclosing hen rfl))
  | awaitReads caller => exact reading_of_terminated (hclosing hen.1 rfl)
  | release caller =>
    refine reading_of_terminated ?_
    rw [LibusbConnection.step, releaseHandle, (closed_same _ caller).2.1]
    split_ifs <;> exact hclosing hen rfl
  | readCb t status data taken =>
    obtain rfl : taken = true := hserved
    exact reading_readCb hs'.ok
  | write payloadLength header payload zero =>
    obtain ⟨_, _, _, _, _, heq⟩ := write_eq c payloadLength header payload zero
    rw [LibusbConnection.step, heq]
    exact fun hlive => hr ⟨hlive.1, hlive.2, hlive.3, hlive.4, hlive.5⟩
  | writeCb id status =>
    rw [LibusbConnection.step, writeCb]
    split_ifs
    · exact fun hlive => absurd hlive.error (onError_ne _ _)
    · exact fun hlive => hr ⟨hlive.1, hlive.2, hlive.3, hlive.4, hlive.5⟩

/-! ### What `Write` returns -/

/-- A `Write` that is served is honest. -/
theorem honest_write {payloadLength : ℕ} {header payload zero : Bool}
    (h : c.Served (.write payloadLength header payload zero)) :
    ∃ r : Reply, r.Honest ∧
      (c.write payloadLength header payload zero).replies = c.replies ++ [r] := by
  by_cases hterm : c.terminated = true
  · rw [write, if_pos hterm]
    refine ⟨⟨false, c.requiredTransfers payloadLength, [], c.detached, c.error.isSome⟩, ?_, rfl⟩
    intro hreturned
    cases hreturned
  by_cases hdetached : c.detached = true
  · rw [write, if_neg hterm, if_pos hdetached]
    exact ⟨⟨true, c.requiredTransfers payloadLength, [], c.detached, c.error.isSome⟩,
      fun _ => .inr (.inl hdetached), rfl⟩
  have hdone : c.error ≠ none ∨ c.taken payloadLength header payload zero = true :=
    (h.resolve_left hterm).resolve_left hdetached
  rw [write, if_neg hterm, if_neg hdetached]
  refine ⟨⟨true, c.requiredTransfers payloadLength, (if payloadLength = 0 then [(headerSize,
    header)]
    else if shouldPerformZeroTransfer payloadLength c.interface.zeroMask then
      [(headerSize, header), (payloadLength, payload), (0, zero)]
    else [(headerSize, header), (payloadLength, payload)]), c.detached, c.error.isSome⟩,
    fun _ => ?_, ?_⟩
  · rcases hdone with herror | htaken
    · exact .inr (.inr (Option.isSome_iff_ne_none.mpr herror))
    · left
      rw [taken] at htaken
      simp only [requiredTransfers]
      split_ifs with hzero hmask <;> simp_all
  · simp only
    split_ifs <;> rfl

/-- Only a `Write` returns something. -/
theorem honest_step (hc : ∀ r ∈ c.replies, r.Honest) (hserved : c.Served op) :
    ∀ r ∈ (c.step op).replies, r.Honest := by
  have hsame {c' : LibusbConnection} {a : Account} (h : c'.account = a)
      (ha : a.replies = c.replies) : ∀ r ∈ c'.replies, r.Honest := by
    rw [show c'.replies = c.replies from (congrArg Account.replies h).trans ha]
    exact hc
  have hattach (caller : Caller) (o : Opening) : ∀ r ∈ (c.attach caller o).replies, r.Honest := by
    obtain ⟨_, _, _, _, heq⟩ := openDevice_eq { c with terminated := false, detached := false } o
    refine hsame (account_attach c caller o) ?_
    rw [heq]
    rfl
  cases op with
  | start o => exact hattach .start o
  | attach o => exact hattach .attach o
  | detach => exact hsame (account_closeDevice _ .detach) rfl
  | stop => exact hsame (account_closeDevice c .stop) rfl
  | destroy => exact hsame (account_closeDevice c .destroy) rfl
  | reset ok =>
    rw [LibusbConnection.step, reset]
    split_ifs
    · exact hsame (account_closeDevice _ .stop) rfl
    · exact hc
  | startImpl caller taken =>
    rw [LibusbConnection.step, startImpl]
    split_ifs
    · exact hsame (account_closeDevice c caller) rfl
    · rcases account_submitRead _ false headerSize taken with h | h <;> exact hsame h rfl
  | cancelWrites caller cancelled => exact hc
  | awaitWrites caller => exact hc
  | cancelReads caller header payload =>
    exact hsame (account_cancelReadTransfer _ true payload)
      (congrArg Account.replies (account_cancelReadTransfer c false header))
  | awaitReads caller => exact hc
  | release caller =>
    rw [LibusbConnection.step, releaseHandle]
    refine hsame (account_closed _ caller) ?_
    split_ifs <;> rfl
  | readCb t status data taken =>
    rcases account_readCb c t status data taken with h | ⟨-, -, h⟩ <;> exact hsame h rfl
  | write payloadLength header payload zero =>
    obtain ⟨r, hr, heq⟩ := honest_write hserved
    intro r' hr'
    rw [LibusbConnection.step, heq, List.mem_append, List.mem_singleton] at hr'
    rcases hr' with hr' | rfl
    · exact hc r' hr'
    · exact hr
  | writeCb id status =>
    rw [LibusbConnection.step, writeCb]
    split_ifs
    · exact hsame (account_onError _ _) rfl
    · exact hc

end LibusbConnection

/-! ### Every run that is served -/

/-- **A connection that is alive is not dead**, in every run that is careful and served: it has
one read transfer with `libusb`, and every `Write` that returned true did what it says. -/
theorem live_reads_once {c : LibusbConnection}
    (h : (connection.restrict fun c op => c.Careful op ∧ c.Served op).Reach c) :
    (c.Live → c.inflight.length = 1) ∧ ∀ r ∈ c.replies, r.Honest := by
  have hall : c.Sound ∧ c.Reading ∧ ∀ r ∈ c.replies, r.Honest := by
    refine h.inv (P := fun c => c.Sound ∧ c.Reading ∧ ∀ r ∈ c.replies, r.Honest) ?_ ?_
    · rintro _ ⟨handle, k, rfl⟩
      refine ⟨LibusbConnection.sound_create handle k, fun hlive => ?_, ?_⟩
      · have hstarted : (LibusbConnection.create handle k).started = false := by
          rcases k with ⟨_ | _, _ | interface, _ | _⟩ <;> rfl
        exact absurd (hstarted.symm.trans hlive.started) (by decide)
      · have hnone : (LibusbConnection.create handle k).replies = [] := by
          rcases k with ⟨_ | _, _ | interface, _ | _⟩ <;> rfl
        simp [hnone]
    · rintro c op - ⟨hs, hr, hc⟩ ⟨⟨-, hen⟩, hcare, hserved⟩
      have hs' := hs.step hen hcare
      exact ⟨hs', hr.step hs hen hserved hs', LibusbConnection.honest_step hc hserved⟩
  obtain ⟨hs, hr, hc⟩ := hall
  exact ⟨fun hlive => le_antisymm hs.single (List.length_pos_of_ne_nil (hr hlive)), hc⟩

/-! ### Three runs that are not served -/

/-- `libusb` does not take the first read. -/
def firstReadRefused : List Op := [.start goodOpening, .startImpl .start false]

/-- `libusb` does not take the header of a packet. -/
def headerRefused : List Op :=
  [.start goodOpening, .startImpl .start true, .write 0 false true true]

/-- `Detach`, and an `Attach` that cannot open the device. -/
def notOpenedAgain : List Op :=
  [.start goodOpening, .startImpl .start true, .detach, .cancelWrites .detach [],
    .awaitWrites .detach, .cancelReads .detach true true, .readCb ⟨0, false, 24⟩ .cancelled [] true,
    .awaitReads .detach, .release .detach, .attach { goodOpening with opened := false }]

/-- Between two calls, being alive is a matter of flags. -/
def LibusbConnection.looksLive (c : LibusbConnection) : Bool :=
  c.phase == .idle && c.started && !c.terminated && !c.detached && c.error == none

theorem LibusbConnection.live_of_looksLive {c : LibusbConnection} (h : c.looksLive = true) :
    c.Live := by
  simp only [looksLive, Bool.and_eq_true, beq_iff_eq, Bool.not_eq_true'] at h
  obtain ⟨⟨⟨⟨hphase, hstarted⟩, hterm⟩, hdetached⟩, herror⟩ := h
  exact ⟨hstarted, by simp [hphase], hterm, hdetached, herror⟩

/-- The connection is alive and reads nothing, twice; and `Write` returned true for a packet whose
header was not sent. -/
theorem live_reads_nothing :
    connection.init opened ∧
      connection.Legal opened firstReadRefused ∧
      (connection.run opened firstReadRefused).Live ∧
      (connection.run opened firstReadRefused).inflight = [] ∧
      connection.Legal opened notOpenedAgain ∧
      (connection.run opened notOpenedAgain).Live ∧
      (connection.run opened notOpenedAgain).inflight = [] ∧
      connection.Legal opened headerRefused ∧
      (connection.run opened headerRefused).replies = [⟨true, [24], [(24, false)], false, false⟩] ∧
      ¬Reply.Honest ⟨true, [24], [(24, false)], false, false⟩ := by
  have hfirst : connection.Legal opened firstReadRefused ∧
      (connection.run opened firstReadRefused).looksLive = true ∧
      (connection.run opened firstReadRefused).inflight = [] := by decide +kernel
  have hagain : connection.Legal opened notOpenedAgain ∧
      (connection.run opened notOpenedAgain).looksLive = true ∧
      (connection.run opened notOpenedAgain).inflight = [] := by decide +kernel
  have hheader : connection.Legal opened headerRefused ∧
      (connection.run opened headerRefused).replies
        = [⟨true, [24], [(24, false)], false, false⟩] := by decide +kernel
  refine ⟨⟨some 0, ⟨true, some {}, true⟩, rfl⟩, hfirst.1,
    LibusbConnection.live_of_looksLive hfirst.2.1, hfirst.2.2, hagain.1,
    LibusbConnection.live_of_looksLive hagain.2.1, hagain.2.2, hheader.1, hheader.2, fun h => ?_⟩
  exact absurd (h rfl) (by decide)

/-- A packet with a payload read and another one written. -/
def servedOps : List Op :=
  readingPayload ++ [.readCb ⟨1, true, 8⟩ .completed (List.replicate 8 0) true,
    .write 16 true true true]

theorem live_reads_once_servedOps :
    connection.Legal opened servedOps ∧
      connection.Meets (fun c op => c.Careful op ∧ c.Served op) opened servedOps ∧
      (connection.run opened servedOps).inflight.length = 1 ∧
      ∀ r ∈ (connection.run opened servedOps).replies, r.Honest := by
  have hrun : connection.Legal opened servedOps ∧
      connection.Meets (fun c op => c.Careful op ∧ c.Served op) opened servedOps ∧
      (connection.run opened servedOps).looksLive = true := by decide +kernel
  have hreach : (connection.restrict fun c op => c.Careful op ∧ c.Served op).Reach opened :=
    .init ⟨some 0, ⟨true, some {}, true⟩, rfl⟩
  obtain ⟨hlive, hhonest⟩ := live_reads_once (hreach.run (hrun.1.restrict hrun.2.1))
  exact ⟨hrun.1, hrun.2.1, hlive (LibusbConnection.live_of_looksLive hrun.2.2), hhonest⟩

end AdbBridge.Usb
