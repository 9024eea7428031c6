import AdbBridge.Graph.Actions

/-!
# What an action does, cell by cell

An invariant of the server is checked against the actions one by one. This file says
once what each of them can do, so that the checks need not look into the model again:

* `Action.effect_run` – the tables an action leaves behind and the events it adds;
* `Action.cell_cases` – where a socket that is there after an action comes from: it was
  there before, it was written to, or it was made.
-/

namespace AdbBridge

open SockTable List Option

/-! ### The events of a flush -/

/-- Whether a flush is the end of a closing socket. -/
def flushEnds (w : World) (s : Asocket) : Bool := s.closing && !(flushResult w s).1.fdFull

/-- The write of a flush. -/
def writeEvents (w : World) (a : Addr) (s : Asocket) : List Ev :=
  if s.packetQueue.empty then [] else writevEvent a s (w.io.sys.writev w.io.tick)

/-- Everything a flush causes, in order. -/
def flushEvents (w : World) (a : Addr) (s : Asocket) : List Ev :=
  writeEvents w a s ++ ackEvents w (flushResult w s).1 (flushResult w s).2 ++
    if flushEnds w s then noticeEvents a (flushResult w s).1 ++ [.destroy a] else []

namespace Action

/-! ### Tables and events -/

/-- The sockets after an action. -/
def table (w : World) : Action → SockTable
  | .log _ | .tick | .onNet _ | .raise _ => w.sk
  | .flush a =>
    if (w.sk.heap a).any (flushEnds w) then w.sk.retire a
    else w.sk.upd a fun s => (flushResult w s).1.settle
  | .push a data => w.sk.upd a fun s => enqueued w s data
  | .close a => w.sk.close a
  | .transmit a _ data => w.sk.upd a fun s => (s.charge data.length).paused
  | .hand a data => w.sk.upd a (·.charge data.length)
  | .pause a => w.sk.upd a Asocket.paused
  | .wake a => w.sk.upd a Asocket.awake
  | .grant a n => w.sk.upd a ({ · with availableSendBytes := some n })
  | .makeLocal t n =>
    (w.sk.withLocal { kind := .localSocket, id := w.sk.localSocketNextId }).upd w.sk.brk
      ({ · with transport := t, availableSendBytes := n })
  | .join a id t =>
    (w.sk.alloc { kind := .remoteSocket, id := id, transport := some t }).link a w.sk.brk
  | .makeSmart a => (w.sk.alloc { kind := .smartSocket }).link a w.sk.brk
  | .makeTracker c o =>
    let s : Asocket := { kind := .deviceTracker, updateNeeded := true, outputType := o }
    { w.sk.alloc s with deviceTrackerList := w.sk.brk :: w.sk.deviceTrackerList }
      |>.upd c ({ · with notify := false, peer := some w.sk.brk })
      |>.upd w.sk.brk ({ · with peer := some c })
  | .pair c d =>
    (w.sk.upd c ({ · with notify := false, peer := some d })).upd d ({ · with peer := some c })
  | .drop a c => (w.sk.unlink a c).retire a
  | .bindTo c t n =>
    w.sk.upd c ({ · with notify := true, transport := some t, availableSendBytes := n })
  | .switch a t => w.sk.upd a ({ · with transport := t })
  | .scratch a data u => w.sk.upd a ({ · with smartSocketData := data, updateNeeded := u })

/-- The events an action adds. -/
def events (w : World) : Action → List Ev
  | .log es => es
  | .flush a => (w.sk.heap a).elim [] (flushEvents w a)
  | .push a data => (w.sk.heap a).elim [] fun s => flushEvents w a (s.push data)
  | .close a => closeEvents w.sk a
  | .transmit a p data =>
    match w.sk.heap a, w.sk.heap p with
    | some s, some q => .outgoing a s.availableSendBytes data ::
        q.transport.toList.map fun t => .send t (wrtePacket s q data)
    | _, _ => []
  | .hand a data => (w.sk.heap a).elim [] fun s => [.outgoing a s.availableSendBytes data]
  | .wake a => (w.sk.heap a).elim [] (wakeEvents a)
  | _ => []

/-- The transports and listeners after an action. -/
def netAfter (w : World) : Action → Net
  | .onNet f => f w.net
  | _ => w.net

end Action

/-- The difference between two worlds, but for the process and its clock. -/
structure Effect (w w' : World) (k : SockTable) (n : Net) (es : List Ev) : Prop where
  sk : w'.sk = k
  net : w'.net = n
  trace : w'.io.trace = w.io.trace ++ es
  out : w'.io.out = w.io.out ++ es.filterMap Ev.packet?
  sys : w'.io.sys = w.io.sys
  cfg : w'.cfg = w.cfg

namespace Action

section Run

variable {w : World} {act : Action} {a : Addr} {data : Bytes}

theorem effect_flushLog (a : Addr) (s : Asocket) : Effect w (flushLog w a s) w.sk w.net
    (writeEvents w a s ++ ackEvents w (flushResult w s).1 (flushResult w s).2) := by
  unfold flushLog flushWorld writeEvents
  split
  · exact ⟨rfl, rfl, rfl, rfl, rfl, rfl⟩
  · rw [World.log_log]
    exact ⟨rfl, rfl, rfl, rfl, rfl, rfl⟩

/-- What flushing a socket does to the table, and what it adds to the trace. -/
theorem effect_flush (h : Good w) (hpre : Pre w (.flush a)) :
    Effect w (run w (.flush a)) (table w (.flush a)) w.net (events w (.flush a)) := by
  obtain ⟨s, hs, hkind⟩ := hpre
  have hlog := effect_flushLog (w := w) a s
  have hevents : events w (.flush a) = flushEvents w a s := by rw [events, hs, elim_some]
  rw [run]
  rcases h.flushIncoming_cases hs hkind with ⟨hc, heq⟩ | ⟨⟨hc, hfull⟩, -, heq⟩
  · have hends : flushEnds w s = false := by
      cases hcl : s.closing <;> simp [flushEnds, hcl, hc]
    simp only [heq]
    rw [hevents, flushEvents, hends, if_neg (by simp), append_nil]
    refine ⟨?_, hlog.net, hlog.trace, hlog.out, hlog.sys, hlog.cfg⟩
    rw [World.upd_sk, hlog.sk, table, hs, any_some, hends, if_neg (by simp)]
    exact upd_congr hs rfl
  · have hends : flushEnds w s = true := by simp [flushEnds, hc, hfull]
    rw [heq, hevents, flushEvents, hends, if_pos rfl]
    refine ⟨?_, hlog.net, ?_, ?_, hlog.sys, hlog.cfg⟩
    · rw [World.onSk_sk, World.log_sk, hlog.sk, table, hs, any_some, hends, if_pos rfl]
    · rw [World.onSk_io, World.log_trace, hlog.trace, append_assoc]
    · rw [World.onSk_io, World.log_out, hlog.out, append_assoc, ← filterMap_append]

/-- The same for enqueueing on a socket. -/
theorem effect_push (h : Good w) (hpre : Pre w (.push a data)) :
    Effect w (run w (.push a data)) (table w (.push a data)) w.net (events w (.push a data)) := by
  obtain ⟨s, hs, hkind, hc⟩ := hpre
  have hlog := effect_flushLog (w := w) a (s.push data)
  have hends : flushEnds w (s.push data) = false := by
    have hc' : (s.push data).closing = false := hc
    simp [flushEnds, hc']
  rw [run, localSocketEnqueue_eq hs (h.peer_isSome hs) hc, events, hs, elim_some, flushEvents]
  simp only [hends, Bool.false_eq_true, if_false, append_nil]
  refine ⟨?_, hlog.net, hlog.trace, hlog.out, hlog.sys, hlog.cfg⟩
  rw [World.upd_sk, hlog.sk]
  exact upd_congr hs rfl

theorem effect_transmit {p : Addr} (h : Good w)
    (hpre : Pre w (.transmit a p data)) : Effect w (run w (.transmit a p data))
      (table w (.transmit a p data)) w.net (events w (.transmit a p data)) := by
  obtain ⟨⟨s, hs, -, -⟩, hp, ⟨q, hq, hqk⟩, hlen⟩ := hpre
  rw [peerOf_of_some hs] at hp
  obtain ⟨t, ht⟩ := isSome_iff_exists.mp ((h.graph.ok p q hq).remote hqk).2
  rw [run, sendToPeer_remote h.graph hs hp hq hqk ht hlen]
  simp only [events, hs, hq, ht, toList_some, map_cons, map_nil]
  exact ⟨rfl, rfl, rfl, rfl, rfl, rfl⟩

/-- **What an action does.** -/
theorem effect_run (h : Good w) (hpre : act.Pre w) :
    Effect w (act.run w) (act.table w) (act.netAfter w) (act.events w) := by
  have hquiet : ∀ {w' : World} {k n}, w'.sk = k → w'.net = n → w'.io.trace = w.io.trace →
      w'.io.out = w.io.out → w'.io.sys = w.io.sys → w'.cfg = w.cfg → Effect w w' k n [] :=
    fun hsk hnet htrace hout hsys hcfg =>
      ⟨hsk, hnet, by simp [htrace], by simp [hout], hsys, hcfg⟩
  cases act with
  | log es => exact ⟨rfl, rfl, rfl, rfl, rfl, rfl⟩
  | tick | onNet f | raise f | grant a n | bindTo c t n | switch a t | scratch a data u | pair c d
  | drop a c | makeSmart a | makeTracker c o => exact hquiet rfl rfl rfl rfl rfl rfl
  | flush a => exact effect_flush h hpre
  | push a data => exact effect_push h hpre
  | close a =>
    obtain ⟨s, hs⟩ := hpre
    rw [run, close_eq h.graph hs]
    exact ⟨rfl, rfl, rfl, rfl, rfl, rfl⟩
  | transmit a p data => exact effect_transmit h hpre
  | hand a data =>
    obtain ⟨s, hs, -⟩ := hpre
    rw [run, World.deref_of_some hs, events, hs]
    exact ⟨rfl, rfl, rfl, rfl, rfl, rfl⟩
  | pause a =>
    obtain ⟨s, hs, -⟩ := hpre
    rw [run, stopReading_eq hs]
    exact hquiet rfl rfl rfl rfl rfl rfl
  | wake a =>
    obtain ⟨s, hs, hkind, -⟩ := hpre
    rw [run, ready_eq hs hkind, events, hs]
    exact ⟨rfl, rfl, rfl, rfl, rfl, rfl⟩
  | makeLocal t n =>
    simp only [run, createLocalSocket_eq, World.check]
    split <;> exact hquiet rfl rfl rfl rfl rfl rfl
  | join a id t =>
    simp only [run, joinRemote, createRemoteSocket_eq hpre.2.2]
    exact hquiet rfl rfl rfl rfl rfl rfl

end Run

/-! ### Where a socket comes from -/

/-- What an action makes of a socket it writes to. -/
def Writes (w : World) : Action → Addr → Asocket → Asocket → Prop
  | .flush a, b, s, s' => b = a ∧ s' = (flushResult w s).1.settle ∧ flushEnds w s = false
  | .push a data, b, s, s' => b = a ∧ s' = enqueued w s data
  | .close a, b, s, s' => (b = a ∨ w.sk.peerOf a = some b) ∧ s.kind = .localSocket ∧
      s.lingers = true ∧ s' = { s with peer := none }.toClosing
  | .transmit a _ data, b, s, s' => b = a ∧ s' = (s.charge data.length).paused
  | .hand a data, b, s, s' => b = a ∧ s' = s.charge data.length
  | .pause a, b, s, s' => b = a ∧ s' = s.paused
  | .wake a, b, s, s' => b = a ∧ s' = s.awake
  | .grant a n, b, s, s' => b = a ∧ s' = { s with availableSendBytes := some n }
  | .join a _ _, b, s, s' => b = a ∧ s' = { s with peer := some w.sk.brk }
  | .makeSmart a, b, s, s' => b = a ∧ s' = { s with peer := some w.sk.brk }
  | .makeTracker c _, b, s, s' => b = c ∧ s' = { s with notify := false, peer := some w.sk.brk }
  | .pair c d, b, s, s' => b = c ∧ s' = { s with notify := false, peer := some d } ∨
      b = d ∧ s' = { s with peer := some c }
  | .drop _ c, b, s, s' => b = c ∧ s' = { s with peer := none }
  | .bindTo c t n, b, s, s' => b = c ∧
      s' = { s with notify := true, transport := some t, availableSendBytes := n }
  | .switch a t, b, s, s' => b = a ∧ s' = { s with transport := t }
  | .scratch a data u, b, s, s' => b = a ∧
      s' = { s with smartSocketData := data, updateNeeded := u }
  | _, _, _, _ => False

/-- The socket an action makes. -/
def Makes (w : World) : Action → Asocket → Prop
  | .makeLocal t n, s =>
    s = {
      kind := .localSocket
      id := w.sk.localSocketNextId
      transport := t
      availableSendBytes := n }
  | .join a id t, s => s = { kind := .remoteSocket, id := id, transport := some t, peer := some a }
  | .makeSmart a, s => s = { kind := .smartSocket, peer := some a }
  | .makeTracker c o, s =>
    s = { kind := .deviceTracker, updateNeeded := true, outputType := o, peer := some c }
  | _, _ => False

section Cells

variable {w : World} {a b p : Addr} {s s' : Asocket} {k : SockTable} {f : Asocket → Asocket}
  {act : Action}

/-- A write to one socket. -/
theorem cell_upd (hb : (k.upd a f).heap b = some s') :
    k.heap b = some s' ∧ b ≠ a ∨ ∃ s, k.heap b = some s ∧ b = a ∧ s' = f s := by
  by_cases hba : b = a
  · subst hba
    have hcell : (k.heap b).map f = some s' := by simpa [SockTable.upd] using hb
    obtain ⟨s, hs, rfl⟩ := map_eq_some_iff.mp hcell
    exact Or.inr ⟨s, hs, rfl, rfl⟩
  · rw [upd_heap_of_ne hba] at hb
    exact Or.inl ⟨hb, hba⟩

/-- A new socket, and a socket that is joined to it. -/
theorem cell_joined {r : Asocket} (ha : a ≠ w.sk.brk) (hk : k.heap = (w.sk.alloc r).heap)
    (hb : ((k.upd a f).upd w.sk.brk ({ · with peer := some a })).heap b = some s') :
    w.sk.heap b = some s' ∨ (∃ s, w.sk.heap b = some s ∧ b = a ∧ s' = f s) ∨
      b = w.sk.brk ∧ s' = { r with peer := some a } := by
  have hcell : ∀ {s'}, b ≠ w.sk.brk → k.heap b = some s' → w.sk.heap b = some s' := by
    intro s' hne hb
    rwa [hk, alloc_heap_of_ne hne] at hb
  rcases cell_upd hb with ⟨hb, hne⟩ | ⟨s₁, hs₁, rfl, rfl⟩
  · rcases cell_upd hb with ⟨hb, -⟩ | ⟨s, hs, rfl, rfl⟩
    · exact Or.inl (hcell hne hb)
    · exact Or.inr (Or.inl ⟨s, hcell hne hs, rfl, rfl⟩)
  · rw [upd_heap_of_ne ha.symm, hk, alloc_heap_self] at hs₁
    obtain rfl := some.inj hs₁
    exact Or.inr (Or.inr ⟨rfl, rfl⟩)

theorem cell_makeLocal {t : Option TransportId} {n : Option ℤ}
    (hb : (table w (.makeLocal t n)).heap b = some s') :
    w.sk.heap b = some s' ∨ b = w.sk.brk ∧ Makes w (.makeLocal t n) s' := by
  rcases cell_upd hb with ⟨hb, hne⟩ | ⟨s, hs, rfl, rfl⟩
  · exact Or.inl ((alloc_heap_of_ne hne).symm.trans hb)
  · obtain rfl := some.inj (alloc_heap_self.symm.trans hs)
    exact Or.inr ⟨rfl, rfl⟩

/-- Dropping a smart socket writes to its client only. -/
theorem cell_drop {c : Addr} (hs : w.sk.heap a = some s) (hkind : s.kind = .smartSocket)
    (hb : (table w (.drop a c)).heap b = some s') :
    w.sk.heap b = some s' ∨ ∃ r, w.sk.heap b = some r ∧ Writes w (.drop a c) b r s' := by
  by_cases hba : b = a
  · subst hba
    obtain ⟨r, hr, hif⟩ := bind_eq_some_iff.mp (retire_heap_self.symm.trans hb)
    have hrk : r.kind = .smartSocket := by
      obtain ⟨r', hr', ⟨rfl, -⟩ | ⟨rfl, -⟩⟩ := heap_unlink_cases hr <;>
        exact some.inj (hs.symm.trans hr') ▸ hkind
    rw [if_neg (by simp [hrk])] at hif
    exact absurd hif (by simp)
  · rw [table, retire_heap_of_ne hba] at hb
    obtain ⟨r, hr, ⟨rfl, hbc⟩ | ⟨rfl, -⟩⟩ := heap_unlink_cases hb
    · exact Or.inr ⟨r, hr, hbc.resolve_left hba, rfl⟩
    · exact Or.inl hr

/-- A flush writes to one socket, unless it ends it. -/
theorem cell_flush (hs : w.sk.heap a = some s) (hkind : s.kind = .localSocket)
    (hb : (table w (.flush a)).heap b = some s') :
    w.sk.heap b = some s' ∨ ∃ r, w.sk.heap b = some r ∧ Writes w (.flush a) b r s' := by
  rw [table, hs, any_some] at hb
  cases hends : flushEnds w s with
  | false =>
    rw [hends, if_neg (by simp)] at hb
    rcases heap_upd_cases hs hb with ⟨rfl, rfl⟩ | ⟨-, hb⟩
    · exact Or.inr ⟨s, hs, rfl, rfl, hends⟩
    · exact Or.inl hb
  | true =>
    have hc : s.closing = true := (Bool.and_eq_true_iff.mp hends).1
    rw [hends, if_pos rfl, retire_of_local hs hkind (by simp [Asocket.lingers, hc])] at hb
    exact Or.inl (heap_of_free (k := w.sk.removeSocket a) hb)

/-- **Where a socket comes from.** -/
theorem cell_cases (h : Good w) (hpre : act.Pre w)
    (hb : (act.run w).sk.heap b = some s') : w.sk.heap b = some s' ∨
      (∃ s, w.sk.heap b = some s ∧ act.Writes w b s s') ∨ b = w.sk.brk ∧ act.Makes w s' := by
  have hone : ∀ {a f}, (w.sk.upd a f).heap b = some s' → w.sk.heap b = some s' ∨
      ∃ s, w.sk.heap b = some s ∧ b = a ∧ s' = f s := fun hb => (cell_upd hb).imp_left And.left
  rw [(effect_run h hpre).sk] at hb
  cases act with
  | log es | tick | onNet f | raise f => exact Or.inl hb
  | push a data | transmit a p data | hand a data | pause a | wake a | grant a n | bindTo c t n
  | switch a t | scratch a data u => exact (hone hb).imp_right Or.inl
  | flush a =>
    obtain ⟨s, hs, hkind⟩ := hpre
    exact (cell_flush hs hkind hb).imp_right Or.inl
  | close a =>
    rcases h.graph.heap_close_cases hb with ⟨-, -, hb⟩ | ⟨hba, r, hr, hkind, hl, rfl⟩
    · exact Or.inl hb
    · exact Or.inr (Or.inl ⟨r, hr, hba, hkind, hl, rfl⟩)
  | makeLocal t n => exact (cell_makeLocal hb).imp_right Or.inr
  | join a id t =>
    obtain ⟨⟨s, hs, -, -⟩, -⟩ := hpre
    exact cell_joined (h.graph.ne_brk hs) rfl hb
  | makeSmart a | makeTracker c o =>
    obtain ⟨s, hs, -⟩ := hpre
    exact cell_joined (h.graph.ne_brk hs) rfl hb
  | pair c d =>
    obtain ⟨hcd, -⟩ := hpre
    rcases cell_upd hb with ⟨hb, -⟩ | ⟨r, hr, rfl, rfl⟩
    · exact (hone hb).imp_right fun ⟨s, hs, hw⟩ => Or.inl ⟨s, hs, Or.inl hw⟩
    · rw [upd_heap_of_ne hcd.symm] at hr
      exact Or.inr (Or.inl ⟨r, hr, Or.inr ⟨rfl, rfl⟩⟩)
  | drop a c =>
    obtain ⟨-, s, hs, hkind⟩ := hpre
    exact (cell_drop hs hkind hb).imp_right Or.inl

theorem brk_retire (k : SockTable) (a : Addr) : (k.retire a).brk = k.brk := by
  unfold SockTable.retire
  split
  · rfl
  · split
    · split <;> rfl
    · rfl
    · rfl

theorem brk_close (k : SockTable) (a : Addr) : (k.close a).brk = k.brk := by
  unfold SockTable.close
  split
  · exact brk_retire k a
  · rw [brk_retire, brk_retire]
    rfl

/-- An address is not used twice. -/
theorem brk_le_run (h : Good w) (hpre : act.Pre w) : w.sk.brk ≤ (act.run w).sk.brk := by
  rw [(effect_run h hpre).sk]
  cases act with
  | log es | tick | onNet f | raise f | push a data | transmit a p data | hand a data | pause a
  | wake a | grant a n | bindTo c t n | switch a t | scratch a data u | pair c d => exact le_rfl
  | makeLocal t n | join a id t | makeSmart a | makeTracker c o => exact Nat.le_succ _
  | flush a =>
    rw [table]
    split
    · exact (brk_retire _ _).ge
    · exact le_rfl
  | close a => exact (brk_close _ _).ge
  | drop a c => exact (brk_retire (w.sk.unlink a c) a).ge

end Cells

end Action

end AdbBridge
