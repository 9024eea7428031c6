import AdbBridge.Graph.Cells
import AdbBridge.Graph.Server

/-!
# Backpressure between two local sockets

The client of a service of the host and the service itself are two local sockets that
are joined without a transport. What one of them reads goes into the queue of the other.
When the queue is not written out at once, `enqueue` says so, and the reader loses its
interest in `FDE_READ` until the peer calls its `ready`.

Nobody does. `local_socket_flush_incoming` acknowledges what it has written to a
*transport*, if there is one, and says nothing to a peer that is local; the only other
caller of `ready` for a socket that has a peer is the handler of `A_OKAY`. The interest
of a joined socket is therefore settled by the operations of the server alone
(`AdbBridge.Stays.step`): an `A_OKAY` packet that names both sockets turns it on, data
that the peer cannot take turns it off, and nothing else makes a difference as long as
both are open – in particular not that the queue has been emptied.
-/

namespace AdbBridge

open SockTable Option

/-! ### Joined sockets -/

/-- A local socket in use that has this peer and no transport. -/
structure Asocket.Faces (s : Asocket) (b : Addr) : Prop where
  kind : s.kind = .localSocket
  closing : s.closing = false
  peer : s.peer = some b
  transport : s.transport = none

/-- Two local sockets in use that are each other's peer and have no transport. -/
def Coupled (w : World) (a b : Addr) : Prop :=
  (∃ s, w.sk.heap a = some s ∧ s.Faces b) ∧ ∃ r, w.sk.heap b = some r ∧ r.Faces a

instance Asocket.decidableFaces (s : Asocket) (b : Addr) : Decidable (s.Faces b) :=
  decidable_of_iff (s.kind = .localSocket ∧ s.closing = false ∧ s.peer = some b ∧ s.transport =
    none)
    ⟨fun ⟨hk, hc, hp, ht⟩ => ⟨hk, hc, hp, ht⟩, fun h => ⟨h.kind, h.closing, h.peer, h.transport⟩⟩

instance decidableCoupled (w : World) (a b : Addr) : Decidable (Coupled w a b) :=
  decidable_of_iff ((w.sk.heap a).any (fun s => decide (s.Faces b)) = true ∧
      (w.sk.heap b).any (fun r => decide (r.Faces a)) = true)
    (by simp only [any_eq_true, decide_eq_true_eq, Coupled])

/-- Whether the server reads from a socket. -/
def reads (w : World) (a : Addr) : Bool := (w.sk.heap a).any (·.fde.read)

/-- Whether the queue of a socket is empty. -/
def drained (w : World) (b : Addr) : Bool := (w.sk.heap b).any (·.packetQueue.empty)

variable {w w' : World} {a b : Addr} {s s' r : Asocket} {act : Action} {x : Option Addr}

theorem Asocket.Faces.of_sameLinks (h : s.Faces b) (hlinks : s.SameLinks s') : s'.Faces b :=
  ⟨hlinks.kind.trans h.kind, hlinks.closing.trans h.closing, hlinks.peer.trans h.peer,
    hlinks.transport.trans h.transport⟩

theorem Coupled.symm (h : Coupled w a b) : Coupled w b a := ⟨h.2, h.1⟩

theorem Coupled.usable (h : Coupled w a b) : Action.Usable w a := by
  obtain ⟨⟨s, hs, hf⟩, -⟩ := h
  exact ⟨s, hs, hf.kind, hf.closing⟩

/-- A joined socket is not apart. -/
theorem Coupled.not_apart (h : Coupled w a b) : ¬w.Apart a := by
  obtain ⟨⟨s, hs, hf⟩, r, hr, hg⟩ := h
  exact fun hapart => hapart s b r hs hf.peer hr hg.kind

/-! ### What an action does to a joined socket -/

/-- **A joined socket that is still open after an action** is still joined, and its
interest has changed only if the action was to change that. -/
theorem Coupled.faces_run (h : Good w) (hpair : Coupled w a b) (hs : w.sk.heap a = some s)
    (hpre : act.Pre w) (hopen : Action.Usable (act.run w) a) :
    ∃ s', (act.run w).sk.heap a = some s' ∧ s'.Faces b ∧
      (act ≠ .wake a → act ≠ .pause a → s'.fde.read = s.fde.read) := by
  obtain ⟨⟨q, hq, hf⟩, r, hr, hg⟩ := hpair
  obtain rfl : s = q := some.inj (hs.symm.trans hq)
  obtain ⟨s', hs', hkind', hc'⟩ := hopen
  refine ⟨s', hs', ?_⟩
  have hpeer : w.sk.peerOf a = some b := (peerOf_of_some hs).trans hf.peer
  have hfree : ¬Action.Free w a := by
    rintro ⟨q, hq, -, -, hqp, -⟩
    obtain rfl := some.inj (hs.symm.trans hq)
    exact absurd (hf.peer.symm.trans hqp) (by simp)
  rcases Action.cell_cases h hpre hs' with hsame | ⟨q, hq, hwrites⟩ | ⟨rfl, -⟩
  · obtain rfl := some.inj (hs.symm.trans hsame)
    exact ⟨hf, fun _ _ => rfl⟩
  · obtain rfl := some.inj (hs.symm.trans hq)
    cases act with
    | log es | tick | onNet f | raise f | makeLocal t n => exact hwrites.elim
    | flush c =>
      obtain ⟨rfl, rfl, -⟩ := hwrites
      have hlinks : s.SameLinks (flushResult w s).1 := sameLinks_flushResult
      refine ⟨hf.of_sameLinks ⟨hlinks.kind, hlinks.id, hlinks.closing, hlinks.peer,
        hlinks.transport⟩, fun _ _ => ?_⟩
      change (flushResult w s).1.fde.read = s.fde.read
      rw [flushResult_fde]
    | push c data =>
      obtain ⟨rfl, rfl⟩ := hwrites
      refine ⟨hf.of_sameLinks (sameLinks_enqueued data), fun _ _ => ?_⟩
      change (flushResult w (s.push data)).1.fde.read = s.fde.read
      rw [flushResult_fde]
      rfl
    | close c =>
      obtain ⟨-, -, -, rfl⟩ := hwrites
      exact absurd hc' (by simp [Asocket.toClosing])
    | transmit c p data =>
      -- The peer would be remote.
      obtain ⟨rfl, -⟩ := hwrites
      obtain ⟨-, hp, ⟨q, hq, hqk⟩, -⟩ := hpre
      obtain rfl := some.inj (hpeer.symm.trans hp)
      obtain rfl := some.inj (hr.symm.trans hq)
      exact absurd (hg.kind.symm.trans hqk) (by simp)
    | hand c data | grant c n =>
      obtain ⟨rfl, rfl⟩ := hwrites
      exact ⟨hf.of_sameLinks ⟨rfl, rfl, rfl, rfl, rfl⟩, fun _ _ => rfl⟩
    | pause c =>
      obtain ⟨rfl, rfl⟩ := hwrites
      exact ⟨hf.of_sameLinks Asocket.sameLinks_paused, fun _ hne => absurd rfl hne⟩
    | wake c =>
      obtain ⟨rfl, rfl⟩ := hwrites
      exact ⟨hf.of_sameLinks Asocket.sameLinks_awake, fun hne _ => absurd rfl hne⟩
    | join c id t =>
      obtain ⟨rfl, -⟩ := hwrites
      exact absurd (hpeer.symm.trans hpre.2.1) (by simp)
    | makeSmart c | makeTracker c o =>
      obtain ⟨rfl, -⟩ := hwrites
      exact absurd hpre hfree
    | pair c d =>
      obtain ⟨-, hc, hd⟩ := hpre
      rcases hwrites with ⟨rfl, -⟩ | ⟨rfl, -⟩
      · exact absurd hc hfree
      · exact absurd hd hfree
    | drop c d =>
      -- The peer would be a smart socket.
      obtain ⟨rfl, -⟩ := hwrites
      obtain ⟨hca, q, hq, hqk⟩ := hpre
      obtain ⟨-, q', hq', hp'⟩ := h.graph.exists_peer hq ((peerOf_of_some hq).symm.trans hca)
      obtain rfl := some.inj (hs.symm.trans hq')
      obtain rfl := some.inj (hf.peer.symm.trans hp')
      obtain rfl := some.inj (hr.symm.trans hq)
      exact absurd (hg.kind.symm.trans hqk) (by simp)
    | bindTo c t n =>
      obtain ⟨rfl, -⟩ := hwrites
      exact absurd (hpeer.symm.trans hpre.2) (by simp)
    | switch c t =>
      obtain ⟨rfl, -⟩ := hwrites
      obtain ⟨q, hq, hqk⟩ := hpre
      obtain rfl := some.inj (hs.symm.trans hq)
      exact absurd (hf.kind.symm.trans hqk) (by simp)
    | scratch c data u =>
      obtain ⟨rfl, -⟩ := hwrites
      obtain ⟨q, hq, hqk⟩ := hpre
      obtain rfl := some.inj (hs.symm.trans hq)
      exact absurd hf.kind hqk
  · exact absurd rfl (h.graph.ne_brk hs)

/-- An action does not change the kind of a socket, and opens none that is closing. -/
theorem Action.Writes.open (hw : act.Writes w a s s') (hc : s'.closing = false) :
    s'.kind = s.kind ∧ s.closing = false := by
  have hsame : ∀ {q : Asocket}, s.SameLinks q → q.closing = false →
      q.kind = s.kind ∧ s.closing = false := fun hlinks hc =>
    ⟨hlinks.kind, hlinks.closing.symm.trans hc⟩
  cases act with
  | flush c =>
    obtain ⟨-, rfl, -⟩ := hw
    exact hsame (q := (flushResult w s).1) sameLinks_flushResult hc
  | push c data =>
    obtain ⟨-, rfl⟩ := hw
    exact hsame (sameLinks_enqueued data) hc
  | close c =>
    obtain ⟨-, -, -, rfl⟩ := hw
    exact absurd hc (by simp [Asocket.toClosing])
  | transmit c p data =>
    obtain ⟨-, rfl⟩ := hw
    have hlinks := Asocket.sameLinks_paused (s := s.charge data.length)
    exact ⟨hlinks.kind, hlinks.closing.symm.trans hc⟩
  | pause c =>
    obtain ⟨-, rfl⟩ := hw
    exact hsame Asocket.sameLinks_paused hc
  | hand c data | wake c | grant c n | join c id t | makeSmart c | makeTracker c o | drop c d
  | bindTo c t n | switch c t | scratch c data u =>
    obtain ⟨-, rfl⟩ := hw
    exact ⟨rfl, hc⟩
  | pair c d => rcases hw with ⟨-, rfl⟩ | ⟨-, rfl⟩ <;> exact ⟨rfl, hc⟩
  | log es | tick | onNet f | raise f | makeLocal t n => exact hw.elim

/-- What is open after an action, and is not new, was open before. -/
theorem usable_of_run (h : Good w) (hpre : act.Pre w) (ha : a < w.sk.brk)
    (hopen : Action.Usable (act.run w) a) : Action.Usable w a := by
  obtain ⟨s', hs', hkind, hc⟩ := hopen
  rcases Action.cell_cases h hpre hs' with hs | ⟨s, hs, hw⟩ | ⟨rfl, -⟩
  · exact ⟨s', hs, hkind, hc⟩
  · obtain ⟨hk, hcl⟩ := hw.open hc
    exact ⟨s, hs, hk.symm.trans hkind, hcl⟩
  · exact absurd ha (lt_irrefl _)

/-! ### Joined until one of them closes -/

/-- Two sockets of which one at least has been closed. -/
structure Parted (w : World) (a b : Addr) : Prop where
  left : a < w.sk.brk
  right : b < w.sk.brk
  closed : ¬(Action.Usable w a ∧ Action.Usable w b)

/-- Two sockets that are joined, with this interest of the first, unless one of them has
been closed. -/
def Stays (a b : Addr) (interest : Bool) (w : World) : Prop :=
  Coupled w a b ∧ reads w a = interest ∨ Parted w a b

variable {i : Bool} {op : Op}

theorem Parted.run (h : Good w) (hparted : Parted w a b) (hpre : act.Pre w) :
    Parted (act.run w) a b := by
  have hbrk := Action.brk_le_run h hpre
  refine ⟨hparted.left.trans_le hbrk, hparted.right.trans_le hbrk, ?_⟩
  rintro ⟨ha, hb⟩
  exact hparted.closed ⟨usable_of_run h hpre hparted.left ha, usable_of_run h hpre hparted.right hb⟩

/-- Sockets that are no longer both open have parted. -/
theorem Coupled.parted (h : Good w) (hpair : Coupled w a b) (hpre : act.Pre w)
    (hclosed : ¬(Action.Usable (act.run w) a ∧ Action.Usable (act.run w) b)) :
    Parted (act.run w) a b := by
  obtain ⟨⟨s, hs, -⟩, r, hr, -⟩ := hpair
  have hbrk := Action.brk_le_run h hpre
  exact ⟨(h.graph.lt_brk hs).trans_le hbrk, (h.graph.lt_brk hr).trans_le hbrk, hclosed⟩

/-- **An action that spares a joined socket** leaves its interest as it is. -/
theorem Stays.run (act : Action) (h : Good w) (hstays : Stays a b i w) (hx : x ≠ some a)
    (hpre : (sparing x).enabled w act) : Stays a b i (act.run w) := by
  obtain ⟨hpre, hspares⟩ := hpre
  rcases hstays with ⟨hpair, hreads⟩ | hparted
  · by_cases hopen : Action.Usable (act.run w) a ∧ Action.Usable (act.run w) b
    · obtain ⟨⟨s, hs, hf⟩, r, hr, hg⟩ := id hpair
      obtain ⟨s', hs', hf', hread⟩ := hpair.faces_run h hs hpre hopen.1
      obtain ⟨r', hr', hg', -⟩ := hpair.symm.faces_run h hr hpre hopen.2
      have hwake : act ≠ .wake a := by
        rintro rfl
        rcases hspares with hx' | hapart
        · exact hx hx'.symm
        · exact hpair.not_apart hapart
      have hpause : act ≠ .pause a := by
        rintro rfl
        exact hx hspares.symm
      refine Or.inl ⟨⟨⟨s', hs', hf'⟩, r', hr', hg'⟩, ?_⟩
      rw [reads, hs, any_some] at hreads
      rw [reads, hs', any_some, hread hwake hpause, hreads]
    · exact Or.inr (hpair.parted h hpre hopen)
  · exact Or.inr (hparted.run h hpre)

theorem Stays.steps (h : Good w) (hstays : Stays a b i w) (hx : x ≠ some a)
    (hsteps : (sparing x).Steps w w') : Stays a b i w' :=
  (Machine.Steps.inv (M := sparing x) (P := fun w => Good w ∧ Stays a b i w)
    (fun _ _ hw hact => ⟨Action.good_run hw.1 hact.1, hw.2.run _ hw.1 hx hact⟩) hsteps ⟨h,
      hstays⟩).2

theorem Parted.steps (h : Good w) (hparted : Parted w a b) (hsteps : actions.Steps w w') :
    Parted w' a b :=
  (Machine.Steps.inv (M := actions) (P := fun w => Good w ∧ Parted w a b)
    (fun _ _ hw hact => ⟨Action.good_run hw.1 hact, hw.2.run hw.1 hact⟩) hsteps ⟨h, hparted⟩).2

/-! ### Data the peer cannot take -/

/-- Whether `a` loses its interest over data for `b`: `b->enqueue` returns a positive
value, and there is no allowance left. -/
def holdsUp (w : World) (a b : Addr) (s : Asocket) (data : Bytes) : Bool :=
  decide (0 < (enqueue (Action.run w (.hand a data)) b data).2) &&
    (s.charge data.length).availableSendBytes.all (· ≤ 0)

/-- Whether an event makes `a` read data that holds it up. -/
def refused (w : World) (a b : Addr) (ev : Fdevent) : Bool :=
  ev.read && ((eventWrite w a ev).1.sk.heap a).any fun s =>
    let r := readResult (eventWrite w a ev).1 a s
    !r.2.1.isEmpty && holdsUp r.1 a b s r.2.1

section Event

variable (h : Good w) (hs : w.sk.heap a = some s) (hf : s.Faces b) (hr : w.sk.heap b = some r)
  (hg : r.Faces a)

include h hs hf hr hg in
/-- **Handing data to a local peer.** Both sockets stay as they are joined, and the reader
loses its interest if the peer is full and there is no allowance left. -/
theorem sendToPeer_local (data : Bytes) :
    (sendToPeer w a b data).2 = true ∧ Coupled (sendToPeer w a b data).1 a b ∧
      reads (sendToPeer w a b data).1 a = (s.fde.read && !holdsUp w a b s data) := by
  have hne : b ≠ a := (h.graph.exists_peer hs hf.peer).1.symm
  set v := Action.run w (.hand a data) with hv
  have hhand : v =
      (w.log [.outgoing a s.availableSendBytes data]).upd a (·.charge data.length) := by
    rw [hv, Action.run, World.deref_of_some hs]
  have hgood : Good v := Action.good_run h ⟨s, hs, hf.kind⟩
  have hsv : v.sk.heap a = some (s.charge data.length) := by
    rw [hhand]
    exact upd_heap_self hs _
  have hrv : v.sk.heap b = some r := by
    rw [hhand]
    exact (upd_heap_of_ne hne _).trans hr
  have henq := (enqueue_local hrv hg.kind data).trans
    (localSocketEnqueue_eq hrv (hgood.peer_isSome hrv) hg.closing data)
  set u := (flushLog v b (r.push data)).upd b fun _ => enqueued v r data with hu
  have hsu : u.sk.heap a = some (s.charge data.length) := by
    rw [hu, World.upd_sk, upd_heap_of_ne hne.symm, flushLog_sk, hsv]
  have hru : u.sk.heap b = some (enqueued v r data) := by
    rw [hu, World.upd_sk]
    exact upd_heap_self (by rw [flushLog_sk, hrv]) _
  have hfu : (s.charge data.length).Faces b := hf.of_sameLinks ⟨rfl, rfl, rfl, rfl, rfl⟩
  have hgu : (enqueued v r data).Faces a := hg.of_sameLinks (sameLinks_enqueued data)
  have hsend : sendToPeer w a b data =
      (if 0 < (enqueue v b data).2 then stopReading u a else u, true) := by
    unfold sendToPeer
    simp only [hs]
    rw [World.emit_eq, show (w.log [.outgoing a s.availableSendBytes data]).upd a (fun s =>
      { s with availableSendBytes := s.availableSendBytes.map (· - (data.length : ℤ)) }) = v
      from hhand.symm, henq]
    cases (flushResult v (r.push data)).1.fdFull <;> simp
  rw [hsend, holdsUp, ← hv]
  refine ⟨rfl, ?_⟩
  by_cases hfull : 0 < (enqueue v b data).2
  · have hlinks : (s.charge data.length).SameLinks (s.charge data.length).paused :=
      Asocket.sameLinks_paused
    have hsp := upd_heap_self (f := Asocket.paused) hsu
    simp only [hfull, if_true, decide_true, Bool.true_and, stopReading_eq hsu]
    refine ⟨⟨⟨_, hsp, hfu.of_sameLinks hlinks⟩, _, (upd_heap_of_ne hne _).trans hru, hgu⟩,
      ?_⟩
    rw [reads, World.upd_sk, hsp, any_some, Asocket.paused]
    split
    · rename_i hall
      rw [hall, Bool.not_true, Bool.and_false]
    · rename_i hall
      rw [Bool.eq_false_iff.mpr hall, Bool.not_false, Bool.and_true]
      rfl
  · simp only [hfull, decide_false, Bool.false_and, if_false, Bool.not_false, Bool.and_true]
    refine ⟨⟨⟨_, hsu, hfu⟩, _, hru, hgu⟩, ?_⟩
    rw [reads, hsu]
    rfl

include h hs hf hr hg in
/-- What becomes of the data a joined socket has read. -/
theorem handOver_local (data : Bytes) :
    let handed := handOver w a (some b) data
    Good handed.1 ∧ handed.2 = true ∧ Coupled handed.1 a b ∧
      reads handed.1 a = (s.fde.read && !(!data.isEmpty && holdsUp w a b s data)) := by
  simp only [handOver]
  cases hdata : data.isEmpty with
  | true =>
    refine ⟨h, rfl, ⟨⟨s, hs, hf⟩, r, hr, hg⟩, ?_⟩
    simp [reads, hs]
  | false =>
    have hover := handedOver_sendToPeer h hs hf.kind hf.peer hr (by simp [hg.kind]) data
    have hlocal := sendToPeer_local h hs hf hr hg data
    simp only [Bool.false_eq_true, if_false, Bool.not_false, Bool.true_and]
    exact ⟨good_of_turns hover.steps h, hlocal⟩

include h hs hf hr hg in
/-- **Reading from a joined socket.** At the end of its descriptor it is closed. -/
theorem stays_flushOutgoing :
    let v := readResult w a s
    Stays a b (s.fde.read && !(!v.2.1.isEmpty && holdsUp v.1 a b s v.2.1))
      (localSocketFlushOutgoing w a).1 := by
  have hread : Aside w (readResult w a s).1 := aside_readResult
  obtain ⟨hgood, halive, hpair, hreads⟩ := handOver_local (hread.good h) (hread.sk ▸ hs) hf
    (hread.sk ▸ hr) hg (readResult w a s).2.1
  rw [localSocketFlushOutgoing_eq hs, hf.peer]
  simp only [halive, Bool.true_and]
  have hstays : Stays a b _ _ := Or.inl ⟨hpair, hreads⟩
  split
  · obtain ⟨⟨q, hq, -⟩, -⟩ := hpair
    exact hstays.run (x := none) (.close a) hgood (by simp) ⟨⟨q, hq⟩, trivial⟩
  · exact hstays

end Event

/-- The write of an event on a joined socket leaves both sockets open. -/
theorem eventWrite_coupled (h : Good w) (hs : w.sk.heap a = some s) (hf : s.Faces b)
    (hr : w.sk.heap b = some r) (ev : Fdevent) :
    (eventWrite w a ev).2 = false ∧ (eventWrite w a ev).1.sk.heap b = some r := by
  have hne : b ≠ a := (h.graph.exists_peer hs hf.peer).1.symm
  unfold eventWrite
  split
  · rw [localSocketFlushIncoming_of_open hs (h.peer_isSome hs) hf.closing]
    refine ⟨by split <;> rfl, ?_⟩
    rw [World.upd_sk, upd_heap_of_ne hne, flushLog_sk, hr]
  · exact ⟨rfl, hr⟩

/-- **An event on a joined socket.** -/
theorem stays_eventFunc (h : Good w) (hpair : Coupled w a b) (ev : Fdevent) :
    Stays a b (reads w a && !refused w a b ev) (localSocketEventFunc w a ev) := by
  obtain ⟨⟨s, hs, hf⟩, r, hr, hg⟩ := id hpair
  have hgood := good_of_calm (calm_eventWrite hs hf.kind ev) h
  obtain ⟨halive, hr'⟩ := eventWrite_coupled h hs hf hr ev
  obtain ⟨s', hs', hlinks, hread, -⟩ := eventWrite_heap h hs hf.kind halive
  have hf' := hf.of_sameLinks hlinks
  have hreads : reads w a = s'.fde.read := by rw [reads, hs, hread, any_some]
  rw [localSocketEventFunc_eq, halive, refused, hs', hreads, any_some]
  cases ev.read with
  | false =>
    simp only [Bool.false_and, Bool.false_eq_true, if_false, Bool.not_false, Bool.and_true]
    exact Or.inl ⟨⟨⟨s', hs', hf'⟩, r, hr', hg⟩, by rw [reads, hs', any_some]⟩
  | true => exact stays_flushOutgoing hgood hs' hf' hr' hg

/-! ### Acknowledgements -/

/-- Whether an acknowledgement wakes a socket with this allowance. -/
def ackWakes : Option ℤ → Option ℤ → Bool
  | some n, some v => decide (0 < n + v)
  | none, none => true
  | _, _ => false

/-- Whether a packet is an `A_OKAY` that names both sockets and wakes `a`. -/
def relieves (w : World) (a b : Addr) (t : TransportId) (p : Apacket) : Bool :=
  p.command == .aOkay && (w.transport t).online && (w.sk.heap b).any (·.id == p.arg0) &&
    (w.sk.heap a).any fun s => s.id == p.arg1 &&
      match ackedBytes p.payload with
      | .ok acked => ackWakes s.availableSendBytes acked
      | .error () => false

theorem Coupled.upd (hpair : Coupled w a b) (hne : b ≠ a) (hs : w.sk.heap a = some s)
    {f : Asocket → Asocket} (hf : (f s).Faces b) :
    Coupled (w.upd a f) a b ∧ reads (w.upd a f) a = (f s).fde.read := by
  obtain ⟨-, r, hr, hg⟩ := hpair
  have hs' := upd_heap_self (f := f) hs
  refine ⟨⟨⟨f s, hs', hf⟩, r, (upd_heap_of_ne hne _).trans hr, hg⟩, ?_⟩
  rw [reads, World.upd_sk, hs', any_some]

/-- An acknowledgement for a joined socket. -/
theorem coupled_localSocketAck (hpair : Coupled w a b) (hne : b ≠ a) (hs : w.sk.heap a = some s)
    (hf : s.Faces b) (acked : Option ℤ) : Coupled (localSocketAck w a acked) a b ∧
      reads (localSocketAck w a acked) a =
        (s.fde.read || ackWakes s.availableSendBytes acked) := by
  have hwake : ∀ {v q}, Coupled v a b → v.sk.heap a = some q → q.Faces b →
      Coupled (ready v a) a b ∧ reads (ready v a) a = true := by
    intro v q hv hq hqf
    rw [ready_eq hq hqf.kind]
    exact Coupled.upd (w := v.log (wakeEvents a q)) hv hne hq
      (hqf.of_sameLinks Asocket.sameLinks_awake)
  unfold localSocketAck
  rw [World.deref_of_some hs]
  cases hav : s.availableSendBytes with
  | none =>
    cases acked with
    | none => simpa [ackWakes] using hwake hpair hs hf
    | some v => exact ⟨hpair, by simp [ackWakes, reads, World.emit_eq, hs]⟩
  | some n =>
    cases acked with
    | none => exact ⟨hpair, by simp [ackWakes, reads, World.emit_eq, hs]⟩
    | some v =>
      have hf' : ({ s with availableSendBytes := some (n + v) } : Asocket).Faces b :=
        hf.of_sameLinks ⟨rfl, rfl, rfl, rfl, rfl⟩
      have hs' := upd_heap_self hs ({ · with availableSendBytes := some (n + v) })
      obtain ⟨hpair', hreads⟩ :=
        hpair.upd (f := ({ · with availableSendBytes := some (n + v) })) hne hs hf'
      by_cases hpos : 0 < n + v
      · simpa [ackWakes, hpos] using hwake hpair' hs' hf'
      · simpa [ackWakes, hpos] using And.intro hpair' hreads

/-- **An acknowledgement addressed to a joined socket.** -/
theorem stays_handleOkay {t : TransportId} {p : Apacket} (h : Good w) (hpair : Coupled w a b)
    (hcommand : p.command = .aOkay) (hfind : findLocalSocket w.sk p.arg1 0 = some a) :
    Stays a b (reads w a || relieves w a b t p) (handleOkay w t p) := by
  obtain ⟨⟨s, hs, hf⟩, r, hr, hg⟩ := id hpair
  have hne : b ≠ a := (h.graph.exists_peer hs hf.peer).1.symm
  obtain ⟨q, hq, -, -, hid, -⟩ := findLocalSocket_spec h hfind
  obtain rfl := some.inj (hs.symm.trans hq)
  have hsid : 0 < s.id := (h.graph.id_bound a s hs hf.kind).1
  have hrid : 0 < r.id := (h.graph.id_bound b r hr hg.kind).1
  have hreads : reads w a = s.fde.read := by rw [reads, hs, any_some]
  have hrelieves : relieves w a b t p = ((w.transport t).online && r.id == p.arg0 &&
      match ackedBytes p.payload with
      | .ok acked => ackWakes s.availableSendBytes acked
      | .error () => false) := by
    simp [relieves, hcommand, hs, hr, hid]
  -- Nothing happens unless the transport is online and the packet names the peer.
  by_cases hnames : (w.transport t).online = true ∧ r.id = p.arg0
  · obtain ⟨honline, hrarg⟩ := hnames
    have hguard : ((w.transport t).online && p.arg0 != 0 && p.arg1 != 0) = true := by
      simp only [honline, Bool.true_and, Bool.and_eq_true, bne_iff_ne]
      omega
    rw [handleOkay, if_pos hguard, hfind, hrelieves, honline, hrarg]
    simp only [beq_self_eq_true, Bool.true_and]
    cases ackedBytes p.payload with
    | error u => exact Or.inl ⟨hpair, by simp⟩
    | ok acked =>
      simp only [okaySocket, World.deref_of_some hs, hf.peer, World.deref_of_some hr, hrarg,
        if_true]
      rw [hreads]
      exact Or.inl (coupled_localSocketAck hpair hne hs hf acked)
  · have hsame : handleOkay w t p = w := by
      unfold handleOkay
      split
      · rename_i hguard
        simp only [Bool.and_eq_true] at hguard
        rw [hfind]
        simp only
        split
        · rfl
        · simp only [okaySocket, World.deref_of_some hs, hf.peer, World.deref_of_some hr]
          exact if_neg fun hrarg => hnames ⟨hguard.1.1, hrarg⟩
      · rfl
    have hfalse : relieves w a b t p = false := by
      rw [hrelieves, show ((w.transport t).online && r.id == p.arg0) = false by simpa using hnames,
        Bool.false_and]
    rw [hsame, hfalse, Bool.or_false]
    exact Or.inl ⟨hpair, rfl⟩

/-! ### Operations and runs -/

/-- Whether an operation wakes `a` on behalf of `b`. -/
def Op.relieves (w : World) (a b : Addr) : Op → Bool
  | .packet t p => AdbBridge.relieves w a b t p
  | _ => false

/-- Whether an operation makes `a` read data that `b` cannot take. -/
def Op.refused (w : World) (a b : Addr) : Op → Bool
  | .poll reports => (delivered w reports).any fun r =>
      r.1.socket? == some a && AdbBridge.refused w a b r.2.events
  | _ => false

/-- An operation that wakes a joined socket or holds it up does not spare it. -/
theorem Op.touched_of_relieves (h : Good w) (hpair : Coupled w a b)
    (hop : (op.relieves w a b || op.refused w a b) = true) : op.touched w = some a := by
  obtain ⟨⟨s, hs, hf⟩, -⟩ := hpair
  cases op with
  | poll reports =>
    have hany : ((delivered w reports).any fun r =>
        r.1.socket? == some a && AdbBridge.refused w a b r.2.events) = true := hop
    rw [any_eq_true] at hany
    obtain ⟨r, hr, hrefused⟩ := hany
    rw [Op.touched, hr, bind_some]
    simpa using (Bool.and_eq_true_iff.mp hrefused).1
  | packet t p =>
    have hrelieves : AdbBridge.relieves w a b t p = true := by
      simpa [Op.relieves, Op.refused] using hop
    simp only [AdbBridge.relieves, hs, any_some, Bool.and_eq_true, beq_iff_eq] at hrelieves
    obtain ⟨⟨⟨hcommand, -⟩, -⟩, hid, -⟩ := hrelieves
    rw [Op.touched, acknowledged, if_pos hcommand, ← hid]
    exact findLocalSocket_eq h hs hf.kind hf.closing (Or.inl rfl)
  | _ => exact absurd hop (by simp [Op.relieves, Op.refused])

/-- An operation on a joined socket. -/
theorem Coupled.stays_touched (h : Good w) (hpair : Coupled w a b)
    (htouched : op.touched w = some a) :
    Stays a b (op.relieves w a b || reads w a && !op.refused w a b) (op.step w) := by
  cases op with
  | poll reports =>
    obtain ⟨⟨fde, e⟩, hdel, hsocket⟩ := bind_eq_some_iff.mp htouched
    obtain rfl : fde = .socket a := by
      cases fde with
      | socket c => exact congrArg Fde.socket (some.inj hsocket)
      | listener l | other => exact absurd hsocket (by simp [Fde.socket?])
    have hloop : loopIteration w reports = localSocketEventFunc w a e.events := by
      unfold delivered at hdel
      unfold loopIteration
      split at hdel
      · rename_i hall
        rw [if_pos hall, hdel]
        rfl
      · exact absurd hdel (by simp)
    simp only [Op.step, Op.relieves, Op.refused, hdel, hloop, any_some, Fde.socket?,
      beq_self_eq_true, Bool.true_and, Bool.false_or]
    exact stays_eventFunc h hpair e.events
  | packet t p =>
    have hrecv : Good (w.emit (.recv t p)) := h.log _
    rw [Op.touched, acknowledged] at htouched
    split at htouched
    · rename_i hcommand
      have hstays := stays_handleOkay (w := w.emit (.recv t p)) (t :=
        t) hrecv hpair hcommand htouched
      have hstep : Op.step w (.packet t p) = handleOkay (w.emit (.recv t p)) t p := by
        simp only [Op.step, handlePacket, hcommand]
      have hnone : Op.refused w a b (.packet t p) = false := rfl
      rw [hstep, hnone, Bool.not_false, Bool.and_true, Bool.or_comm]
      exact hstays
    · exact absurd htouched (by simp)
  | _ => exact absurd htouched (by simp [Op.touched])

/-- **What an operation does to the interest of a joined socket.** -/
theorem Stays.step (h : Good w) (hstays : Stays a b i w) (op : Op) :
    Stays a b (op.relieves w a b || i && !op.refused w a b) (op.step w) := by
  rcases hstays with ⟨hpair, rfl⟩ | hparted
  · by_cases htouched : op.touched w = some a
    · exact hpair.stays_touched h htouched
    · have hnone : (op.relieves w a b || op.refused w a b) = false :=
        Bool.eq_false_iff.mpr fun hop => htouched (Op.touched_of_relieves h hpair hop)
      obtain ⟨hrelieves, hrefused⟩ := Bool.or_eq_false_iff.mp hnone
      rw [hrelieves, hrefused, Bool.false_or, Bool.not_false, Bool.and_true]
      exact Stays.steps h (Or.inl ⟨hpair, rfl⟩) htouched (sparing_step h op)
  · exact Or.inr (hparted.steps h (actions_step h op))

/-- Whether the last thing that happened to the interest of `a` is that it was woken,
starting from a state in which it has the given interest. -/
def relieved (a b : Addr) (interest : Bool) : World → List Op → Bool
  | _, [] => interest
  | w, op :: ops =>
    relieved a b (op.relieves w a b || interest && !op.refused w a b) (op.step w) ops

/-- **The interest of a joined socket along a run.** -/
theorem Stays.run_ops (h : Good w) (hstays : Stays a b i w) (ops : List Op) :
    Stays a b (relieved a b i w ops) (server.run w ops) := by
  induction ops generalizing w i with
  | nil => exact hstays
  | cons op ops ih => exact ih (good_of_steps (actions_step h op) h) (hstays.step h op)

/-- **Backpressure is released by an acknowledgement only.** Let `a` read data that its
local peer `b` cannot take at once. In every later state in which both are open, `a` has
its interest again once the queue of `b` is empty if, and only if, an `A_OKAY` packet that
names them has woken it since it was last held up. -/
theorem released_iff (h : server.Reach w) (hpair : Coupled w a b) {op : Op}
    (hrefused : op.refused w a b = true) (ops : List Op)
    (ha : Action.Usable (server.run w (op :: ops)) a)
    (hb : Action.Usable (server.run w (op :: ops)) b) :
    (drained (server.run w (op :: ops)) b = true → reads (server.run w (op :: ops)) a = true) ↔
      (drained (server.run w (op :: ops)) b = true →
        relieved a b false (op.step w) ops = true) := by
  have hgood := good_of_reach h
  have hstays : Stays a b false (op.step w) := by
    have hstep := Stays.step hgood (Or.inl ⟨hpair, rfl⟩) op
    have hpoll : op.relieves w a b = false := by
      cases op with
      | packet t p => exact absurd hrefused (by simp [Op.refused])
      | _ => rfl
    rwa [hpoll, hrefused, Bool.not_true, Bool.and_false, Bool.false_or] at hstep
  rcases hstays.run_ops (good_of_steps (actions_step hgood op) hgood) ops with ⟨-, hreads⟩ | hparted
  · rw [Machine.run_cons, show server.step w op = op.step w from rfl, hreads]
  · exact absurd ⟨ha, hb⟩ hparted.closed

/-- A client that asks for a service of the host, and whose descriptor is full for a while
when the service has something to say. -/
def slowClient : Sys where
  read := fun tick =>
    match tick with
    | 1 => .data (ascii "000ehost:connect:x")
    | 4 => .data [79]
    | _ => .eagain
  writev := fun tick => if tick = 7 then .accepted 1 else .eagain

/-- A device connects; the client connects and is joined to its service. -/
def slowStart : List Op :=
  deviceConnects 1 (ascii "device::") ++
    [.poll [(.listener 0, { epollin := true })], .poll [(.socket 0, { epollin := true })]]

/-- The service writes. -/
def serviceWrites : Op := .poll [(.socket 2, { epollin := true })]

/-- The client can be written to. -/
def clientReads : Op := .poll [(.socket 0, { epollout := true })]

/-- The state in which the client has been joined to its service. -/
def slowPair : World := server.run (initialWorld {} slowClient) slowStart

/-- The device sends an `A_OKAY` with the ids of the two sockets. -/
def strayOkay : Op := .packet 1 { command := .aOkay, arg0 := 1, arg1 := 2 }

theorem reach_slowPair : server.Reach slowPair := reach_of_legal (by decide +kernel)

/-- A device that happens to name the two sockets lets the service go on. -/
theorem released_iff_strayOkay :
    serviceWrites.refused slowPair 2 0 = true ∧
      drained (server.run slowPair [serviceWrites, clientReads, strayOkay]) 0 = true ∧
        reads (server.run slowPair [serviceWrites, clientReads, strayOkay]) 2 = true := by
  have hrun : Coupled slowPair 2 0 ∧ serviceWrites.refused slowPair 2 0 = true ∧
      Coupled (server.run slowPair [serviceWrites, clientReads, strayOkay]) 2 0 ∧
        drained (server.run slowPair [serviceWrites, clientReads, strayOkay]) 0 = true ∧
          relieved 2 0 false (serviceWrites.step slowPair) [clientReads, strayOkay] = true := by
    decide +kernel
  obtain ⟨hpair, hrefused, hpair', hdrained, hrelieved⟩ := hrun
  have hiff := released_iff reach_slowPair hpair hrefused [clientReads, strayOkay] hpair'.usable
    hpair'.symm.usable
  exact ⟨hrefused, hdrained, hiff.mpr (fun _ => hrelieved) hdrained⟩

/-- **A service that is never read from again.** Its client has taken everything, both
sockets are open, and the service has lost its interest for good. -/
theorem service_held_up :
    server.Legal (initialWorld {} slowClient) (slowStart ++ [serviceWrites, clientReads]) ∧
      Coupled slowPair 2 0 ∧ serviceWrites.refused slowPair 2 0 = true ∧
        Coupled (server.run slowPair [serviceWrites, clientReads]) 2 0 ∧
          drained (server.run slowPair [serviceWrites, clientReads]) 0 = true ∧
            reads (server.run slowPair [serviceWrites, clientReads]) 2 = false :=
  by decide +kernel

end AdbBridge
