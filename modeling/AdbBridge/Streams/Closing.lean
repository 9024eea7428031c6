import AdbBridge.Graph.Cells
import AdbBridge.Graph.Server

/-!
# Data that waits to be written when its socket is closed

A local socket that is closed with data in its queue goes to the closing list and is
destroyed later. What it owes its client can be read off the trace of a run: the bytes
that were in the queue when it was closed, less what `adb_writev` has accepted since.
The invariant `LedgerAt` says that the queue of a closing socket holds exactly that.

All actions keep the books but one. The loop fakes a read for a descriptor that has
been hung up, also if nobody asked for reads; a closing socket that is read from and
found to be at its end is closed a second time, and that destroys it with whatever it
owes. `kept_iff_keepsQueues` says that nothing else goes wrong.
-/

namespace AdbBridge

open SockTable List Option

/-! ### Accounts -/

/-- What `adb_writev` has accepted for a socket. -/
def written (a : Addr) (es : List Ev) : Bytes :=
  es.flatMap fun
    | .writev b bs => if b = a then bs else []
    | _ => []

/-- A socket that was closed with data in its queue is destroyed only after all of it
was written, in order, or after a write failed. -/
def KeptAt (a : Addr) (tr : List Ev) : Prop :=
  ∀ pre q mid post, tr = (pre ++ .closing a q :: mid) ++ .destroy a :: post →
    written a mid = q ∨ .writeError a ∈ mid

/-- **No queued data is dropped on close.** -/
def Kept (tr : List Ev) : Prop := ∀ a, KeptAt a tr

/-- The socket whose account an event is for. -/
def Ev.account : Ev → Option Addr
  | .writev a _ | .writeError a | .closing a _ | .destroy a => some a
  | _ => none

/-- A socket was closed, and owes these bytes since. -/
def Owes (tr : List Ev) (a : Addr) (queue : Bytes) : Prop :=
  ∃ pre q mid, tr = pre ++ .closing a q :: mid ∧ (∀ q', .closing a q' ∉ pre) ∧
    (∀ q', .closing a q' ∉ mid) ∧ .writeError a ∉ mid ∧ written a mid ++ queue = q

section Accounts

variable {a : Addr} {tr es : List Ev} {queue : Bytes}

@[simp]
theorem written_append (es es' : List Ev) : written a (es ++ es') = written a es ++ written a es' :=
  flatMap_append

theorem written_eq_nil (h : ∀ bs, .writev a bs ∉ es) : written a es = [] := by
  refine flatMap_eq_nil_iff.mpr fun e he => ?_
  cases e with
  | writev b bs =>
    by_cases hb : b = a
    · exact absurd (hb ▸ he) (h bs)
    · simp [hb]
  | _ => rfl

theorem keptAt_of_not_closing (h : ∀ q, .closing a q ∉ tr) : KeptAt a tr := by
  intro pre q mid post heq
  exact absurd (by rw [heq]; simp) (h q)

/-- An event is not among those that are added behind it. -/
theorem split_append {e : Ev} (hes : e ∉ es) {pre post : List Ev}
    (heq : tr ++ es = pre ++ e :: post) : ∃ post', tr = pre ++ e :: post' ∧ post = post' ++ es := by
  rcases append_eq_append_iff.mp heq with ⟨as, -, rfl⟩ | ⟨bs, rfl, hbs⟩
  · exact absurd (by simp) hes
  · cases bs with
    | nil => exact absurd (by rw [← nil_append es, ← hbs]; simp) hes
    | cons b bs =>
      obtain ⟨rfl, rfl⟩ := cons_eq_cons.mp hbs
      exact ⟨bs, rfl, rfl⟩

theorem KeptAt.append (h : KeptAt a tr) (hes : .destroy a ∉ es) : KeptAt a (tr ++ es) := by
  intro pre q mid post heq
  obtain ⟨post', htr, -⟩ := split_append hes heq
  exact h pre q mid post' htr

/-- The account of a socket is closed. -/
theorem KeptAt.concat (h : KeptAt a tr) (hdone : ∀ pre q mid, tr = pre ++ .closing a q :: mid →
    written a mid = q ∨ .writeError a ∈ mid) : KeptAt a (tr ++ [.destroy a]) := by
  intro pre q mid post heq
  rcases eq_nil_or_concat post with rfl | ⟨post, e, rfl⟩
  · exact hdone pre q mid (append_inj_left' heq rfl)
  · rw [concat_eq_append, ← cons_append, ← append_assoc] at heq
    exact h pre q mid post (append_inj_left' heq rfl)

/-- What is written is no longer owed. -/
theorem Owes.write (h : Owes tr a (written a es ++ queue)) (hclosing : ∀ q, .closing a q ∉ es)
    (herror : .writeError a ∉ es) : Owes (tr ++ es) a queue := by
  obtain ⟨pre, q, mid, rfl, hpre, hmid, hno, hq⟩ := h
  refine ⟨pre, q, mid ++ es, by simp, hpre, fun q' hmem => ?_, fun hmem => ?_, ?_⟩
  · exact (mem_append.mp hmem).elim (hmid q') (hclosing q')
  · exact (mem_append.mp hmem).elim hno herror
  · rw [written_append, append_assoc, hq]

theorem Owes.append (h : Owes tr a queue) (hes : ∀ e ∈ es, e.account ≠ some a) :
    Owes (tr ++ es) a queue := by
  refine Owes.write ?_ (fun q hmem => hes _ hmem rfl) fun hmem => hes _ hmem rfl
  rwa [written_eq_nil fun bs hmem => hes _ hmem rfl]

/-- What the account of a closing socket says, wherever the trace is cut. -/
theorem Owes.split (h : Owes tr a queue) {pre : List Ev} {q : Bytes} {mid : List Ev}
    (heq : tr = pre ++ .closing a q :: mid) : written a mid ++ queue = q ∧ .writeError a ∉ mid := by
  obtain ⟨pre', q', mid', rfl, hpre, hmid, herror, hq⟩ := h
  obtain ⟨-, he, rfl⟩ := (append_cons_inj_of_notMem (hpre q) (hmid q)).mp heq
  obtain rfl : q' = q := by simpa using he
  exact ⟨hq, herror⟩

/-- **A socket that owes something must not be destroyed.** -/
theorem Owes.not_keptAt (h : Owes tr a queue) (hqueue : queue ≠ []) {post : List Ev} :
    ¬KeptAt a (tr ++ .destroy a :: post) := by
  obtain ⟨pre, q, mid, rfl, -, -, herror, hq⟩ := h
  intro hkept
  rcases hkept pre q mid post rfl with hdone | hfailed
  · exact hqueue (by simpa [hdone] using hq)
  · exact herror hfailed

end Accounts

/-! ### The write of a flush -/

section Write

variable {w : World} {a b : Addr} {s : Asocket}

/-- A write that takes something is not an error. -/
theorem Asocket.hasWriteError_afterWritev (rc : WritevResult) :
    (s.afterWritev rc).2 = 0 ∧ (s.afterWritev rc).1.hasWriteError = true ∨
      (s.afterWritev rc).1.hasWriteError = s.hasWriteError := by
  cases rc with
  | accepted n =>
    simp only [afterWritev]
    split
    · exact Or.inl ⟨rfl, rfl⟩
    · split <;> exact Or.inr rfl
  | eagain => exact Or.inr rfl
  | error => exact Or.inl ⟨rfl, rfl⟩

/-- A write takes bytes off the queue, or fails, or does nothing. -/
theorem writeEvents_cases :
    (∃ bs, writeEvents w a s = [.writev a bs] ∧
      bs ++ (flushResult w s).1.packetQueue.bytes = s.packetQueue.bytes ∧
        (flushResult w s).1.hasWriteError = s.hasWriteError) ∨
    writeEvents w a s = [.writeError a] ∧ (flushResult w s).1.hasWriteError = true ∨
    writeEvents w a s = [] ∧ (flushResult w s).1.packetQueue.bytes = s.packetQueue.bytes ∧
      (flushResult w s).1.hasWriteError = s.hasWriteError := by
  have hbytes := flushResult_bytes (w := w) (s := s)
  by_cases hempty : s.packetQueue.empty = true
  · simp [writeEvents, flushResult, hempty]
  · rw [flushResult, if_neg hempty] at hbytes ⊢
    have herror := Asocket.hasWriteError_afterWritev (s := s) (w.io.sys.writev w.io.tick)
    rw [writeEvents, if_neg hempty, writevEvent]
    obtain ⟨s', n, hr⟩ : ∃ s' n, s.afterWritev (w.io.sys.writev w.io.tick) = (s', n) := ⟨_, _, rfl⟩
    rw [hr] at hbytes herror ⊢
    cases n with
    | succ n =>
      refine Or.inl ⟨_, rfl, ?_, herror.resolve_left fun h => Nat.succ_ne_zero n h.1⟩
      rw [hbytes, take_append_drop]
    | zero =>
      right
      cases hs' : s'.hasWriteError with
      | true => exact Or.inl ⟨if_pos hs', rfl⟩
      | false =>
        have hsame := herror.resolve_left fun h => Bool.false_ne_true (hs'.symm.trans h.2)
        exact Or.inr ⟨if_neg (by simp [hs']), hbytes, hs' ▸ hsame⟩

theorem mem_writeEvents {e : Ev} (he : e ∈ writeEvents w a s) :
    e = .writeError a ∨ ∃ bs, e = .writev a bs := by
  rcases writeEvents_cases (w := w) (a := a) (s := s) with ⟨bs, h, -⟩ | ⟨h, -⟩ | ⟨h, -⟩
  · exact Or.inr ⟨bs, mem_singleton.mp (h ▸ he)⟩
  · exact Or.inl (mem_singleton.mp (h ▸ he))
  · exact absurd (h ▸ he) not_mem_nil

end Write

/-! ### Which accounts an action is about -/

section Events

variable {w : World} {a b : Addr} {s : Asocket} {e : Ev} {k : SockTable}

theorem account_ackEvents {n : ℕ} (he : e ∈ ackEvents w s n) : e.account = none := by
  unfold ackEvents at he
  split at he
  · split at he
    · rw [mem_singleton.mp he]
      rfl
    · split at he
      · rw [mem_singleton.mp he]
        rfl
      · exact absurd he (by simp)
  · exact absurd he (by simp)

theorem account_noticeEvents (he : e ∈ noticeEvents a s) : e.account = none := by
  unfold noticeEvents at he
  split at he
  · rw [mem_singleton.mp he]
    rfl
  · exact absurd he (by simp)

theorem account_clseEvents {q : Asocket} (he : e ∈ clseEvents s q) : e.account = none := by
  unfold clseEvents at he
  split at he
  · obtain ⟨t, -, rfl⟩ := List.mem_map.mp he
    rfl
  · exact absurd he (by simp)

theorem account_farewellEvents (he : e ∈ farewellEvents a s) : e.account = some a := by
  unfold farewellEvents at he
  split at he
  · split at he <;>
    · rw [mem_singleton.mp he]
      rfl
  · exact absurd he (by simp)

theorem account_writeEvents (he : e ∈ writeEvents w a s) : e.account = some a := by
  rcases mem_writeEvents he with rfl | ⟨bs, rfl⟩
  · rfl
  · rfl

/-- A flush is about one socket. -/
theorem account_flushEvents (he : e ∈ flushEvents w a s) :
    e.account = some a ∨ e.account = none := by
  rcases mem_append.mp he with he | he
  · rcases mem_append.mp he with he | he
    · exact Or.inl (account_writeEvents he)
    · exact Or.inr (account_ackEvents he)
  · split at he
    · rcases mem_append.mp he with he | he
      · exact Or.inr (account_noticeEvents he)
      · rw [mem_singleton.mp he]
        exact Or.inl rfl
    · exact absurd he (by simp)

/-- What a close says about one of the two sockets that it ends. -/
theorem closeEvents_split (h : k.Graph) (hs : k.heap a = some s)
    (hab : a = b ∨ k.peerOf b = some a) : ∃ es es', closeEvents k b =
      es ++ farewellEvents a s ++ es' ∧ ∀ e ∈ es ++ es', e.account ≠ some a := by
  have hnone : ∀ {es : List Ev}, (∀ e ∈ es, e.account = none) → ∀ e ∈ es, e.account ≠ some a :=
    fun hes e he => by rw [hes e he]; simp
  cases hp : k.peerOf b with
  | none =>
    obtain rfl : a = b := hab.resolve_right (by simp [hp])
    have hpeer : s.peer = none := (peerOf_of_some hs).symm.trans hp
    refine ⟨noticeEvents a s, [], by rw [closeEvents_of_alone hs hpeer, append_nil], ?_⟩
    rw [append_nil]
    exact hnone fun e he => account_noticeEvents he
  | some p =>
    obtain ⟨r, hr, hrp⟩ := bind_eq_some_iff.mp hp
    obtain ⟨hbp, q, hq, -⟩ := h.exists_peer hr hrp
    have hother : ∀ {c d : Addr} {x : Asocket}, d ≠ c → ∀ e ∈ farewellEvents c x,
        e.account ≠ some d := fun hne e he heq =>
      hne (some.inj (heq.symm.trans (account_farewellEvents he)))
    rw [closeEvents_of_peer hr hrp hq]
    rcases hab with rfl | hab
    · obtain rfl : r = s := some.inj (hr.symm.trans hs)
      refine ⟨_, [], by rw [append_nil], ?_⟩
      intro e he
      simp only [append_nil, mem_append] at he
      rcases he with (he | he) | he | he
      · exact hnone (fun _ => account_noticeEvents) e he
      · exact hnone (fun _ => account_clseEvents) e he
      · exact hnone (fun _ => account_noticeEvents) e he
      · exact hother hbp e he
    · obtain rfl : p = a := some.inj (hp.symm.trans hab)
      obtain rfl : q = s := some.inj (hq.symm.trans hs)
      refine ⟨noticeEvents b r ++ clseEvents r q ++ noticeEvents p q, farewellEvents b r,
        by simp [append_assoc], ?_⟩
      intro e he
      simp only [mem_append] at he
      rcases he with ((he | he) | he) | he
      · exact hnone (fun _ => account_noticeEvents) e he
      · exact hnone (fun _ => account_clseEvents) e he
      · exact hnone (fun _ => account_noticeEvents) e he
      · exact hother hbp.symm e he

/-- A close is about the two sockets that it ends. -/
theorem account_closeEvents (he : e ∈ closeEvents k b)
    (ha : e.account = some a) : a = b ∨ k.peerOf b = some a := by
  have hnone : e.account ≠ none := by rw [ha]; simp
  unfold closeEvents at he
  split at he
  · exact absurd he (by simp)
  · rename_i s hs
    split at he
    · rcases mem_append.mp he with he | he
      · exact absurd (account_noticeEvents he) hnone
      · exact Or.inl (some.inj (ha.symm.trans (account_farewellEvents he)))
    · rename_i p hp
      split at he
      · exact absurd he (by simp)
      · simp only [mem_append] at he
        rcases he with ((he | he) | he | he) | he
        · exact absurd (account_noticeEvents he) hnone
        · exact absurd (account_clseEvents he) hnone
        · exact absurd (account_noticeEvents he) hnone
        · refine Or.inr ?_
          rw [peerOf_of_some hs, hp, ← account_farewellEvents he, ha]
        · exact Or.inl (some.inj (ha.symm.trans (account_farewellEvents he)))

/-- An event of an account is one of a flush or the end of a socket. -/
theorem account_events {act : Action} (hpre : act.Pre w) (he : e ∈ act.events w)
    (ha : e.account = some a) : act = .flush a ∨ (∃ data, act = .push a data) ∨
      ∃ b, act = .close b ∧ (a = b ∨ w.sk.peerOf b = some a) := by
  have hnone : e.account ≠ none := by rw [ha]; simp
  cases act with
  | log es =>
    have hquiet := hpre e he
    cases e <;> first | exact absurd rfl hnone | exact absurd hquiet (by simp [Ev.quiet])
  | flush b =>
    obtain ⟨s, hs, -⟩ := hpre
    rw [Action.events, hs, elim_some] at he
    rcases account_flushEvents he with h | h
    · exact Or.inl (by rw [some.inj (ha.symm.trans h)])
    · exact absurd h hnone
  | push b data =>
    obtain ⟨s, hs, -⟩ := hpre
    rw [Action.events, hs, elim_some] at he
    rcases account_flushEvents he with h | h
    · exact Or.inr (Or.inl ⟨data, by rw [some.inj (ha.symm.trans h)]⟩)
    · exact absurd h hnone
  | close b => exact Or.inr (Or.inr ⟨b, rfl, account_closeEvents he ha⟩)
  | transmit b p data =>
    obtain ⟨⟨s, hs, -⟩, -, ⟨q, hq, -⟩, -⟩ := hpre
    simp only [Action.events, hs, hq, mem_cons, List.mem_map] at he
    rcases he with rfl | ⟨t, -, rfl⟩ <;> exact absurd rfl hnone
  | hand b data =>
    obtain ⟨s, hs, -⟩ := hpre
    rw [Action.events, hs, elim_some, mem_singleton] at he
    rw [he] at hnone
    exact absurd rfl hnone
  | wake b =>
    obtain ⟨s, hs, -⟩ := hpre
    rw [Action.events, hs, elim_some, wakeEvents] at he
    split at he
    · rw [mem_singleton.mp he] at hnone
      exact absurd rfl hnone
    · exact absurd he (by simp)
  | _ => exact absurd he (by simp [Action.events])

end Events

/-! ### The books -/

/-- The account of a socket. -/
structure LedgerAt (w : World) (a : Addr) : Prop where
  kept : KeptAt a w.io.trace
  /-- A socket that has not been closed owes nothing. -/
  opened : ∀ s, w.sk.heap a = some s → s.closing = false → ∀ q, .closing a q ∉ w.io.trace
  unborn : w.sk.brk ≤ a → ∀ q, .closing a q ∉ w.io.trace
  /-- The queue of a closing socket is what it owes. -/
  owed : ∀ s, w.sk.heap a = some s → s.closing = true → Owes w.io.trace a s.packetQueue.bytes

/-- All accounts are in order. -/
def Books (w : World) : Prop := ∀ a, LedgerAt w a

namespace LedgerAt

variable {w : World} {a b : Addr} {s s' : Asocket} {act : Action} {w' : World}

/-- Only a close makes a socket closing, and only a flush changes what it owes. -/
theorem writes_closing (hw : act.Writes w a s s') (hflush : act ≠ .flush a) (hpush : ∀ data,
    act ≠ .push a data)
    (hclose : ∀ b, act = .close b → a ≠ b ∧ w.sk.peerOf b ≠ some a) :
    s'.closing = s.closing ∧ s'.packetQueue = s.packetQueue := by
  cases act with
  | flush b => exact absurd (by rw [hw.1]) hflush
  | push b data => exact absurd (by rw [hw.1]) (hpush data)
  | close b =>
    obtain ⟨hab, hpeer⟩ := hclose b rfl
    exact absurd hw.1 (not_or.mpr ⟨hab, hpeer⟩)
  | transmit b p data =>
    obtain ⟨-, rfl⟩ := hw
    exact ⟨Asocket.sameLinks_paused.closing, Asocket.packetQueue_paused⟩
  | hand b data | wake b | grant b n | join b id t | makeSmart b | makeTracker b o | drop c b
  | bindTo b t n | switch b t | scratch b data u =>
    obtain ⟨-, rfl⟩ := hw
    exact ⟨rfl, rfl⟩
  | pause b =>
    obtain ⟨-, rfl⟩ := hw
    exact ⟨Asocket.sameLinks_paused.closing, Asocket.packetQueue_paused⟩
  | pair c d =>
    rcases hw with ⟨-, rfl⟩ | ⟨-, rfl⟩ <;> exact ⟨rfl, rfl⟩
  | _ => exact hw.elim

/-- An action that is about other sockets. -/
theorem frame (h : Good w) (hl : LedgerAt w a) (hpre : act.Pre w) (hflush : act ≠ .flush a)
    (hpush : ∀ data, act ≠ .push a data)
    (hclose : ∀ b, act = .close b → a ≠ b ∧ w.sk.peerOf b ≠ some a) : LedgerAt (act.run w) a := by
  have hevents : ∀ e ∈ act.events w, e.account ≠ some a := by
    intro e he ha
    rcases account_events hpre he ha with rfl | ⟨data, rfl⟩ | ⟨b, rfl, hb⟩
    · exact hflush rfl
    · exact hpush data rfl
    · exact absurd hb (not_or.mpr (hclose b rfl))
  have htrace := (Action.effect_run h hpre).trace
  have hnew : (∀ q, .closing a q ∉ w.io.trace) → ∀ q, .closing a q ∉ (act.run w).io.trace := by
    intro hold q hq
    rw [htrace] at hq
    rcases mem_append.mp hq with hq | hq
    · exact hold q hq
    · exact hevents _ hq rfl
  refine ⟨?_, fun s' hs' hc => hnew ?_, fun hbrk => hnew (hl.unborn ?_), fun s' hs' hc => ?_⟩
  · rw [htrace]
    exact hl.kept.append fun hmem => hevents _ hmem rfl
  · rcases Action.cell_cases h hpre hs' with hs | ⟨s, hs, hw⟩ | ⟨rfl, -⟩
    · exact hl.opened s' hs hc
    · exact hl.opened s hs
        ((writes_closing hw hflush hpush hclose).1.symm.trans hc)
    · exact hl.unborn le_rfl
  · exact (Action.brk_le_run h hpre).trans hbrk
  · rw [htrace]
    rcases Action.cell_cases h hpre hs' with hs | ⟨s, hs, hw⟩ | ⟨rfl, hmakes⟩
    · exact (hl.owed s' hs hc).append hevents
    · obtain ⟨hclosing, hqueue⟩ := writes_closing hw hflush hpush hclose
      rw [hqueue]
      exact (hl.owed s hs (hclosing.symm.trans hc)).append hevents
    · exact absurd hc (by cases act <;> simp_all [Action.Makes])

/-- The events of a flush of a socket that goes on. -/
theorem flushEvents_of_not_ends (hends : flushEnds w s = false) : flushEvents w a s =
    writeEvents w a s ++ ackEvents w (flushResult w s).1 (flushResult w s).2 := by
  rw [flushEvents, hends, if_neg (by simp), append_nil]

/-- A write neither closes nor ends its socket. -/
theorem not_closing_of_write {e : Ev} (he : e ∈ writeEvents w a s ∨ e.account = none) :
    e ≠ .destroy a ∧ ∀ q, e ≠ .closing a q := by
  rcases he with he | hnone
  · rcases mem_writeEvents he with rfl | ⟨bs, rfl⟩
    · exact ⟨nofun, nofun⟩
    · exact ⟨nofun, nofun⟩
  · constructor
    · rintro rfl
      exact nomatch hnone
    · rintro q rfl
      exact nomatch hnone

theorem not_closing_of_flush (hends : flushEnds w s = false) {e : Ev} (he : e ∈ flushEvents w a s) :
    e ≠ .destroy a ∧ ∀ q, e ≠ .closing a q := by
  rw [flushEvents_of_not_ends hends] at he
  exact not_closing_of_write ((mem_append.mp he).imp_right account_ackEvents)

/-- A socket that has not been closed is flushed or written to. -/
theorem of_open (hl : LedgerAt w a) (hs : w.sk.heap a = some s) (hc : s.closing = false) {x :
    Asocket} (hx : flushEnds w x = false)
    (hsk : w'.sk = w.sk.upd a fun _ => s') (hc' : s'.closing = false)
    (htrace : w'.io.trace = w.io.trace ++ flushEvents w a x) : LedgerAt w' a := by
  have hnew : ∀ q, .closing a q ∉ w'.io.trace := by
    intro q hq
    rw [htrace] at hq
    rcases mem_append.mp hq with hq | hq
    · exact hl.opened s hs hc q hq
    · exact (not_closing_of_flush hx hq).2 q rfl
  refine ⟨keptAt_of_not_closing hnew, fun _ _ _ => hnew, fun _ => hnew, fun r hr hrc => ?_⟩
  rw [hsk, upd_heap_self hs] at hr
  rw [← some.inj hr, hc'] at hrc
  exact absurd hrc (by simp)

/-- The account of a socket that is no longer there. -/
theorem of_gone (hkept : KeptAt a w'.io.trace) (hgone : w'.sk.heap a = none)
    (hold : a < w'.sk.brk) : LedgerAt w' a where
  kept := hkept
  opened s' hs' := absurd (hgone.symm.trans hs') (by simp)
  unborn hbrk := absurd hold (not_lt.mpr hbrk)
  owed s' hs' := absurd (hgone.symm.trans hs') (by simp)

/-- A socket on the closing list is flushed and has more to write. -/
theorem of_full (hl : LedgerAt w a) (hs : w.sk.heap a = some s) (hc : s.closing = true)
    (hold : a < w.sk.brk) (hends : flushEnds w s = false)
    (hsk : w'.sk = w.sk.upd a fun _ => (flushResult w s).1.settle)
    (htrace : w'.io.trace = w.io.trace ++ flushEvents w a s) : LedgerAt w' a := by
  have hfull : (flushResult w s).1.fdFull = true := by simpa [flushEnds, hc] using hends
  have hno : (flushResult w s).1.hasWriteError = false := by
    simp only [Asocket.fdFull, Bool.and_eq_true, Bool.not_eq_true'] at hfull
    exact hfull.2
  have howes : Owes (w.io.trace ++ writeEvents w a s) a (flushResult w s).1.packetQueue.bytes := by
    have hold' := hl.owed s hs hc
    rcases writeEvents_cases (w := w) (a := a) (s := s) with ⟨bs, hev, hbs, -⟩ | ⟨-, herr⟩ |
      ⟨hev, hbs, -⟩
    · rw [hev]
      rw [← hbs] at hold'
      exact Owes.write (by simpa [written] using hold') (by simp) (by simp)
    · exact absurd (hno.symm.trans herr) (by simp)
    · rwa [hev, append_nil, hbs]
  refine ⟨?_, fun s' hs' hc' => ?_, fun hbrk => ?_, fun s' hs' _ => ?_⟩
  · rw [htrace]
    exact hl.kept.append fun hmem => (not_closing_of_flush hends hmem).1 rfl
  · rw [hsk, upd_heap_self hs] at hs'
    obtain rfl := some.inj hs'
    exact absurd (hc'.symm.trans ((sameLinks_flushResult (w := w)).closing.trans hc)) (by simp)
  · rw [hsk] at hbrk
    exact absurd hold (not_lt.mpr hbrk)
  · rw [hsk, upd_heap_self hs] at hs'
    obtain rfl := some.inj hs'
    rw [htrace, flushEvents_of_not_ends hends, ← append_assoc]
    refine howes.append fun e he => ?_
    rw [account_ackEvents he]
    simp

/-- **The last flush of a socket on the closing list** pays what it owes, or fails. -/
theorem of_ends (hl : LedgerAt w a) (hs : w.sk.heap a = some s) (hok : s.Ok)
    (hends : flushEnds w s = true) : KeptAt a (w.io.trace ++ flushEvents w a s) := by
  have hc : s.closing = true := (Bool.and_eq_true_iff.mp hends).1
  have hfull : (flushResult w s).1.fdFull = false := by simpa [flushEnds, hc] using hends
  have howes := hl.owed s hs hc
  set es := writeEvents w a s ++ ackEvents w (flushResult w s).1 (flushResult w s).2 ++
    noticeEvents a (flushResult w s).1 with hes
  have hsplit : w.io.trace ++ flushEvents w a s = w.io.trace ++ es ++ [.destroy a] := by
    rw [flushEvents, hends, if_pos rfl, hes]
    simp
  -- Of what comes before the end, only the write is about this socket.
  have hquiet : ∀ e ∈ es, e ∈ writeEvents w a s ∨ e.account = none := by
    intro e he
    rcases mem_append.mp he with he | he
    · rcases mem_append.mp he with he | he
      · exact Or.inl he
      · exact Or.inr (account_ackEvents he)
    · exact Or.inr (account_noticeEvents he)
  have hopen : ∀ e ∈ es, e ≠ .destroy a ∧ ∀ q, e ≠ .closing a q := fun e he =>
    not_closing_of_write (hquiet e he)
  rw [hsplit]
  refine (hl.kept.append fun he => (hopen _ he).1 rfl).concat fun pre q mid heq => ?_
  obtain ⟨mid', htr, rfl⟩ := split_append (fun he => (hopen _ he).2 q rfl) heq
  obtain ⟨hq, -⟩ := howes.split htr
  have hrest : written a (ackEvents w (flushResult w s).1 (flushResult w s).2 ++
      noticeEvents a (flushResult w s).1) = [] := by
    refine written_eq_nil fun bs hmem => ?_
    rcases mem_append.mp hmem with hmem | hmem
    · exact absurd (account_ackEvents hmem) (by simp [Ev.account])
    · exact absurd (account_noticeEvents hmem) (by simp [Ev.account])
  have hwritten : written a es = written a (writeEvents w a s) := by
    rw [hes, append_assoc, written_append, hrest, append_nil]
  obtain ⟨-, -, hqueue, herror, -⟩ := hok.closing hc
  simp only [Asocket.fdFull, Bool.and_eq_false_iff, Bool.not_eq_false'] at hfull
  rcases writeEvents_cases (w := w) (a := a) (s := s) with ⟨bs, hev, hbs, hsame⟩ | ⟨hev, -⟩ |
    ⟨-, hbs, hsame⟩
  · have hempty := hfull.resolve_right (by simp [hsame, herror])
    rw [(PacketQueue.empty_iff _).mp hempty, append_nil] at hbs
    rw [written_append, hwritten, hev, ← hq, ← hbs]
    simp [written]
  · refine Or.inr (mem_append_right _ ?_)
    rw [hes, hev]
    simp
  · -- Nothing was written, so the socket would not have ended.
    have hempty := hfull.resolve_right (by simp [hsame, herror])
    exact absurd (hbs.symm.trans ((PacketQueue.empty_iff _).mp hempty)) hqueue

/-- A flush pays what a closing socket owes. -/
theorem flush (h : Good w) (hl : LedgerAt w a) (hpre : Action.Pre w (.flush a)) :
    LedgerAt (Action.run w (.flush a)) a := by
  have heffect := Action.effect_run h hpre
  obtain ⟨s, hs, -⟩ := hpre
  have hold := h.graph.lt_brk hs
  have htrace : (Action.run w (.flush a)).io.trace = w.io.trace ++ flushEvents w a s := by
    rw [heffect.trace, Action.events, hs, elim_some]
  have hsk := heffect.sk
  rw [Action.table, hs, any_some] at hsk
  cases hends : flushEnds w s with
  | true =>
    rw [hends, if_pos rfl] at hsk
    have hc : s.closing = true := (Bool.and_eq_true_iff.mp hends).1
    refine of_gone (htrace ▸ hl.of_ends hs (h.graph.ok a s hs) hends) ?_ ?_
    · rw [hsk, retire_heap_self, hs, bind_some, if_neg (by simp [Asocket.lingers, hc])]
    · rwa [hsk, Action.brk_retire]
  | false =>
    rw [hends, if_neg (by simp), upd_congr hs (g := fun _ => (flushResult w s).1.settle)
      rfl] at hsk
    cases hc : s.closing with
    | false => exact hl.of_open hs hc hends hsk (sameLinks_flushResult.closing.trans hc) htrace
    | true => exact hl.of_full hs hc hold hends hsk htrace

theorem push {data : Bytes} (h : Good w) (hl : LedgerAt w a) (hpre : Action.Pre w (.push a data)) :
    LedgerAt (Action.run w (.push a data)) a := by
  have heffect := Action.effect_run h hpre
  obtain ⟨s, hs, -, hc⟩ := hpre
  have hends : flushEnds w (s.push data) = false := by
    have hc' : (s.push data).closing = false := hc
    simp [flushEnds, hc']
  refine hl.of_open hs hc hends ?_ ((sameLinks_enqueued (w := w) data).closing.trans hc) ?_
  · rw [heffect.sk]
    exact upd_congr hs rfl
  · rw [heffect.trace, Action.events, hs, elim_some]

/-- A close of an open socket, or of the peer of one, opens its account or ends it. -/
theorem close (h : Good w) (hl : LedgerAt w a) (hpre : Action.Pre w (.close b))
    (hs : w.sk.heap a = some s) (hc : s.closing = false) (hab : a = b ∨ w.sk.peerOf b = some a) :
    LedgerAt (Action.run w (.close b)) a := by
  have heffect := Action.effect_run h hpre
  have hbrk : a < (Action.run w (.close b)).sk.brk :=
    (h.graph.lt_brk hs).trans_le (Action.brk_le_run h hpre)
  obtain ⟨es, es', hevents, hother⟩ := closeEvents_split h.graph hs hab
  have htrace : (Action.run w (.close b)).io.trace =
      w.io.trace ++ (es ++ farewellEvents a s ++ es') := by
    rw [heffect.trace, Action.events, hevents]
  have hcell : ∀ s', (Action.run w (.close b)).sk.heap a = some s' → s.kind = .localSocket ∧
      s.lingers = true ∧ s' = { s with peer := none }.toClosing := by
    intro s' hs'
    rw [heffect.sk] at hs'
    rcases h.graph.heap_close_cases hs' with ⟨hne, hpeer, -⟩ | ⟨-, r, hr, hkind, hlingers, heq⟩
    · exact absurd hab (not_or.mpr ⟨hne, hpeer⟩)
    · obtain rfl := some.inj (hs.symm.trans hr)
      exact ⟨hkind, hlingers, heq⟩
  have hnever := hl.opened s hs hc
  by_cases hstays : s.kind = .localSocket ∧ s.lingers = true
  · have hfarewell : farewellEvents a s = [.closing a s.packetQueue.bytes] := by
      rw [farewellEvents, if_pos hstays.1, if_pos hstays.2]
    have hnot : ∀ {e : Ev}, e.account = some a → e ∉ es ∧ e ∉ es' := fun ha =>
      ⟨fun he => hother _ (mem_append_left _ he) ha,
        fun he => hother _ (mem_append_right _ he) ha⟩
    have howes : Owes (Action.run w (.close b)).io.trace a s.packetQueue.bytes := by
      refine ⟨w.io.trace ++ es, s.packetQueue.bytes, es', ?_, fun q hq => ?_,
        fun q => (hnot rfl).2, (hnot rfl).2, ?_⟩
      · rw [htrace, hfarewell]
        simp
      · rcases mem_append.mp hq with hq | hq
        · exact hnever q hq
        · exact (hnot rfl).1 hq
      · rw [written_eq_nil fun bs => (hnot rfl).2, nil_append]
    refine ⟨?_, fun s' hs' hc' => ?_, fun hb => absurd hbrk (not_lt.mpr hb), fun s' hs' _ => ?_⟩
    · rw [htrace, hfarewell]
      refine hl.kept.append fun hmem => ?_
      simp only [mem_append, mem_singleton] at hmem
      rcases hmem with (hmem | hmem) | hmem
      · exact (hnot rfl).1 hmem
      · exact absurd hmem (by simp)
      · exact (hnot rfl).2 hmem
    · obtain ⟨-, -, rfl⟩ := hcell s' hs'
      exact absurd hc' (by simp [Asocket.toClosing])
    · obtain ⟨-, -, rfl⟩ := hcell s' hs'
      exact howes
  · refine of_gone (keptAt_of_not_closing fun q hq => ?_) ?_ hbrk
    · rw [htrace] at hq
      have hfarewell : .closing a q ∉ farewellEvents a s := by
        unfold farewellEvents
        split
        · split <;> simp_all
        · simp
      simp only [mem_append] at hq
      rcases hq with hq | (hq | hq) | hq
      · exact hnever q hq
      · exact hother _ (mem_append_left _ hq) rfl
      · exact hfarewell hq
      · exact hother _ (mem_append_right _ hq) rfl
    · refine eq_none_iff_forall_ne_some.mpr fun s' hs' => hstays ?_
      exact ⟨(hcell s' hs').1, (hcell s' hs').2.1⟩

end LedgerAt

section Books

variable {w w' : World} {a : Addr} {s : Asocket}

/-- **An orderly action keeps the books.** -/
theorem Books.run {act : Action} (h : Good w) (hb : Books w) (hpre : act.Pre w)
    (horderly : Orderly w act) : Books (act.run w) := by
  intro a
  by_cases hflush : act = .flush a
  · subst hflush
    exact (hb a).flush h hpre
  by_cases hpush : ∃ data, act = .push a data
  · obtain ⟨data, rfl⟩ := hpush
    exact (hb a).push h hpre
  by_cases hclose : ∃ b, act = .close b ∧ (a = b ∨ w.sk.peerOf b = some a)
  · obtain ⟨b, rfl, hab⟩ := hclose
    -- The socket itself is open since the action is orderly, its peer since it has a peer.
    rcases hab with rfl | hpeer
    · obtain ⟨s, hs⟩ := hpre
      exact (hb a).close h ⟨s, hs⟩ hs (horderly s hs) (Or.inl rfl)
    · obtain ⟨r, hr, hrp⟩ := bind_eq_some_iff.mp hpeer
      obtain ⟨-, q, hq, hqp⟩ := h.graph.exists_peer hr hrp
      exact (hb a).close h hpre hq (h.open_of_peer hq hqp) (Or.inr hpeer)
  · push Not at hpush hclose
    exact (hb a).frame h hpre hflush hpush hclose

theorem books_of_orderly (h : Good w) (hb : Books w) (hsteps : orderly.Steps w w') : Books w' := by
  have hboth : Good w' ∧ Books w' := Machine.Steps.inv (M := orderly)
    (P := fun w => Good w ∧ Books w)
    (fun w act hw hact => ⟨Action.good_run hw.1 hact.1, hw.2.run hw.1 hact.1 hact.2⟩) hsteps ⟨h, hb⟩
  exact hboth.2

theorem books_initialWorld (cfg : Config) (sys : Sys) : Books (initialWorld cfg sys) := by
  intro a
  exact ⟨keptAt_of_not_closing (by simp [initialWorld]), fun _ hs => by simp [initialWorld] at hs,
    fun _ => by simp [initialWorld], fun _ hs => by simp [initialWorld] at hs⟩

theorem Books.kept (hb : Books w) : Kept w.io.trace := fun a => (hb a).kept

end Books

/-! ### A closing socket that is hung up -/

/-- The kernel reports an error or the end of the connection for a socket on the closing list,
the write of the event, if there is one, leaves something to write, and the read comes to the end
of the descriptor. -/
def hangsUp (w : World) (a : Addr) (e : EpollEvents) : Bool :=
  (w.sk.heap a).any (·.closing) && e.epollhup && !(eventWrite w a e.events).2 &&
    ((eventWrite w a e.events).1.sk.heap a).any fun s =>
      (readResult (eventWrite w a e.events).1 a s).2.2

/-- No socket on the closing list is found at its end. -/
def KeepsQueues (w : World) : Op → Prop
  | .poll reports => ∀ a e, delivered w reports = some (.socket a, e) → hangsUp w a e = false
  | _ => True

section Delivery

variable {w : World} {a : Addr} {s : Asocket} {e : EpollEvents}

/-- Nobody asks for reads of a socket on the closing list: those that come are faked. -/
theorem read_of_closing (hok : s.Ok) (hc : s.closing = true) (hexpected : e.expected s.fde = true) :
    e.events.read = e.epollhup := by
  obtain ⟨-, -, -, -, hread⟩ := hok.closing hc
  simp only [EpollEvents.expected, hread, Bool.and_eq_true, Bool.or_false, Bool.not_eq_true']
    at hexpected
  rw [EpollEvents.events, hexpected.1, Bool.false_or]

/-- **An event that does not hang up is orderly.** -/
theorem orderly_event (h : Good w) (hs : w.sk.heap a = some s) (hkind : s.kind = .localSocket)
    (hexpected : e.expected s.fde = true) (hup : hangsUp w a e = false) :
    orderly.Steps w (localSocketEventFunc w a e.events) := by
  have hwrite := calm_eventWrite hs hkind e.events
  have hsteps := orderly_of_steady (steady_of_calm (x := some a) hwrite)
  rw [localSocketEventFunc_eq]
  split
  · rename_i hread
    obtain ⟨hread, halive⟩ := Bool.and_eq_true_iff.mp hread
    have halive' : (eventWrite w a e.events).2 = false := by simpa using halive
    obtain ⟨s', hs', hlinks, -⟩ := eventWrite_heap h hs hkind halive'
    refine hsteps.trans (orderly_of_steady (steady_localSocketFlushOutgoing (good_of_calm hwrite h)
      hs' (hlinks.kind.trans hkind) fun hc => ?_))
    have hc' : s.closing = true := hlinks.closing.symm.trans hc
    rw [read_of_closing (h.graph.ok a s hs) hc' hexpected] at hread
    simpa [hangsUp, hs, hc', hread, halive', hs'] using hup
  · exact hsteps

/-- **A hang-up destroys the socket with what it owes.** -/
theorem not_kept_of_hangsUp (h : Good w) (hb : Books w) (hs : w.sk.heap a = some s)
    (hkind : s.kind = .localSocket) (hexpected : e.expected s.fde = true)
    (hup : hangsUp w a e = true) : ¬Kept (localSocketEventFunc w a e.events).io.trace := by
  simp only [hangsUp, hs, any_some, Bool.and_eq_true, Bool.not_eq_true'] at hup
  obtain ⟨⟨⟨hc, hhup⟩, halive⟩, hend⟩ := hup
  have hwrite := calm_eventWrite hs hkind e.events
  obtain ⟨s', hs', hlinks, -⟩ := eventWrite_heap h hs hkind halive
  have hgood := good_of_calm hwrite h
  have hbooks := books_of_orderly h hb (orderly_of_steady (steady_of_calm (x := none) hwrite))
  have hc' : s'.closing = true := hlinks.closing.trans hc
  obtain ⟨hkind', hp, hqueue, -⟩ := (hgood.graph.ok a s' hs').closing hc'
  rw [hs', any_some] at hend
  set w₁ := (eventWrite w a e.events).1 with hw₁
  have hread : Aside w₁ (readResult w₁ a s').1 := aside_readResult
  have hs'' : (readResult w₁ a s').1.sk.heap a = some s' := hread.sk ▸ hs'
  have hbooks' := books_of_orderly hgood hbooks
    (orderly_of_steady (steady_of_calm (x := none) hread.steps))
  rw [localSocketEventFunc_eq, read_of_closing (h.graph.ok a s hs) hc hexpected, hhup, halive,
    ← hw₁]
  simp only [Bool.not_false, Bool.and_self, if_true]
  rw [localSocketFlushOutgoing_alone hs' hp, if_pos hend, close_eq (hread.good hgood).graph hs'']
  -- The socket says no more than that it is gone.
  have hevents : closeEvents (readResult w₁ a s').1.sk a = noticeEvents a s' ++ [.destroy a] := by
    rw [closeEvents_of_alone hs'' hp, farewellEvents, if_pos hkind', if_neg]
    simp [Asocket.lingers, hc']
  have hnotice : ∀ e ∈ noticeEvents a s', e.account ≠ some a := by
    intro e he
    rw [account_noticeEvents he]
    simp
  have howes := ((hbooks' a).owed s' hs'' hc').append hnotice
  have hnot : ¬KeptAt a (_ ++ .destroy a :: []) := howes.not_keptAt hqueue
  intro hkept
  refine hnot ?_
  have htrace := hkept a
  rw [World.onSk_io, World.log_trace, hevents, ← append_assoc] at htrace
  exact htrace

end Delivery

/-! ### Runs -/

section Runs

variable {w : World} {op : Op} {ops : List Op} {reports : List (Fde × EpollEvents)}

/-- The event of an iteration goes to a descriptor that is installed and was asked about. -/
theorem expected_of_delivered {a : Addr} {e : EpollEvents}
    (h : delivered w reports = some (.socket a, e)) : ∃ s, w.sk.heap a = some s ∧
      s.kind = .localSocket ∧ e.expected s.fde = true ∧
        loopIteration w reports = localSocketEventFunc w a e.events := by
  rw [delivered] at h
  split at h
  · rename_i hall
    have hinstalled := List.find?_some h
    obtain ⟨i, hi⟩ := isSome_iff_exists.mp hinstalled
    obtain ⟨s, hs, hif⟩ := bind_eq_some_iff.mp hi
    split at hif
    · rename_i hkind
      obtain rfl := some.inj hif
      have hexpected := List.all_eq_true.mp hall _ (List.mem_of_find?_eq_some h)
      rw [hi, all_some] at hexpected
      refine ⟨s, hs, hkind, hexpected, ?_⟩
      rw [loopIteration, if_pos hall, h]
      rfl
    · exact absurd hif (by simp)
  · exact absurd h (by simp)

/-- An iteration that does not deliver to a socket. -/
theorem orderly_loopIteration (h : Good w)
    (hnone : ∀ a e, delivered w reports ≠ some (.socket a, e)) :
    orderly.Steps w (loopIteration w reports) := by
  unfold loopIteration
  unfold delivered at hnone
  split
  · rename_i hall
    rw [if_pos hall] at hnone
    split
    · exact .refl
    · rename_i fde e hfind
      cases fde with
      | socket a => exact absurd hfind (hnone a e)
      | listener id =>
        exact orderly_of_steady (steady_of_calm (x := none) (calm_invokeListener h e.events id))
      | other => exact .refl
  · exact orderly_of_steady (steady_of_calm (x := none) (calm_raise rfl))

/-- A step that keeps the queues keeps all accounts in order. -/
theorem books_step (h : Good w) (hb : Books w) (hkeeps : KeepsQueues w op) : Books (op.step w) := by
  by_cases hop : ∀ reports, op ≠ .poll reports
  · exact books_of_orderly h hb (orderly_step h hop)
  · push Not at hop
    obtain ⟨reports, rfl⟩ := hop
    by_cases hsocket : ∃ a e, delivered w reports = some (.socket a, e)
    · obtain ⟨a, e, hd⟩ := hsocket
      obtain ⟨s, hs, hkind, hexpected, hstep⟩ := expected_of_delivered hd
      rw [Op.step, hstep]
      exact books_of_orderly h hb (orderly_event h hs hkind hexpected (hkeeps a e hd))
    · push Not at hsocket
      exact books_of_orderly h hb (orderly_loopIteration h hsocket)

theorem not_kept_step (h : Good w) (hb : Books w) (hkeeps : ¬KeepsQueues w op) :
    ¬Kept (op.step w).io.trace := by
  cases op with
  | poll reports =>
    simp only [KeepsQueues] at hkeeps
    push Not at hkeeps
    obtain ⟨a, e, hd, hup⟩ := hkeeps
    obtain ⟨s, hs, hkind, hexpected, hstep⟩ := expected_of_delivered hd
    rw [Op.step, hstep]
    exact not_kept_of_hangsUp h hb hs hkind hexpected (by simpa using hup)
  | _ => exact absurd trivial hkeeps

/-- What has happened has happened. -/
theorem trace_prefix_step (h : Good w) (op : Op) : w.io.trace <+: (op.step w).io.trace := by
  have hboth := Machine.Steps.inv (M := actions)
    (P := fun w' => Good w' ∧ w.io.trace <+: w'.io.trace)
    (fun w' act hw hact => ⟨Action.good_run hw.1 hact,
      hw.2.trans (by
        change _ <+: (act.run w').io.trace
        rw [(Action.effect_run hw.1 hact).trace]
        exact prefix_append _ _)⟩) (actions_step h op) ⟨h, prefix_rfl⟩
  exact hboth.2

theorem trace_prefix_run (h : Good w) (ops : List Op) :
    w.io.trace <+: (server.run w ops).io.trace := by
  induction ops generalizing w with
  | nil => exact prefix_rfl
  | cons op ops ih =>
    exact (trace_prefix_step h op).trans (ih (good_of_steps (actions_step h op) h))

theorem Kept.of_prefix {tr tr' : List Ev} (h : Kept tr') (hpre : tr <+: tr') : Kept tr := by
  obtain ⟨es, rfl⟩ := hpre
  rintro a pre q mid post rfl
  exact h a pre q mid (post ++ es) (by simp)

/-- A run from a state in which the books are in order. -/
theorem kept_run_iff (h : Good w) (hb : Books w) :
    Kept (server.run w ops).io.trace ↔ server.Meets KeepsQueues w ops := by
  induction ops generalizing w with
  | nil => exact iff_of_true hb.kept trivial
  | cons op ops ih =>
    have hgood := good_of_steps (actions_step h op) h
    by_cases hkeeps : KeepsQueues w op
    · exact (ih hgood (books_step h hb hkeeps)).trans (and_iff_right hkeeps).symm
    · refine iff_of_false (fun hkept => ?_) fun hmeets => hkeeps hmeets.1
      exact not_kept_step h hb hkeeps (hkept.of_prefix (trace_prefix_run hgood ops))

/-- **Queued data is kept on close in exactly those runs in which no closing socket is hung
up.** -/
theorem kept_iff_keepsQueues (cfg : Config) (sys : Sys) (ops : List Op) :
    Kept (server.run (initialWorld cfg sys) ops).io.trace ↔
      server.Meets KeepsQueues (initialWorld cfg sys) ops :=
  kept_run_iff (good_initialWorld cfg sys) (books_initialWorld cfg sys)

/-- The socket of the hasty client is destroyed with the list it has not read. -/
theorem not_kept_hastyRun :
    server.Legal (initialWorld {} hastyClient)
      (hastyRun ++ [.poll [(.socket 0, { epollhup := true })]]) ∧
    ¬Kept (server.run (initialWorld {} hastyClient)
      (hastyRun ++ [.poll [(.socket 0, { epollhup := true })]])).io.trace := by
  refine ⟨by decide +kernel, fun hkept => ?_⟩
  have hcut := hkept 0
    ((server.run (initialWorld {} hastyClient) hastyRun).io.trace.take 5) (ascii "0000") [] []
    (by decide +kernel)
  exact absurd hcut (by decide)

end Runs

end AdbBridge
