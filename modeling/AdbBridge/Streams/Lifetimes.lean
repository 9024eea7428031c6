import AdbBridge.Streams.Closing

/-!
# The life of a socket

What holds of a socket over a whole run of the server, beyond the tables at one moment: it is not
used after its end, its id is never given to another one, and what is queued for its client is
written as it was queued. The last two are kept by every action, and `Good.run_inv` carries them to
the runs.
-/

namespace AdbBridge

open SockTable List Option

/-- **The rule of runs.** What every action keeps, every run of the server keeps. -/
theorem Good.run_inv {P : World → Prop}
    (hstep : ∀ w act, Good w → Action.Pre w act → P w → P (act.run w)) {w : World} (h : Good w)
    (hw : P w) (ops : List Op) : P (server.run w ops) := by
  induction ops generalizing w with
  | nil => exact hw
  | cons op ops ih =>
    obtain ⟨hgood, hkept⟩ := (actions_step h op).inv (P := fun w => Good w ∧ P w)
      (fun w act hw hpre => ⟨Action.good_run hw.1 hpre, hstep w act hw.1 hpre hw.2⟩) ⟨h, hw⟩
    exact ih hgood hkept

/-! ### Pointers -/

/-- **No run follows a wild pointer**: whatever clients, devices and system calls do, the server
does not use a socket it has deleted, nor call a function that it takes for impossible. -/
theorem pointers_of_reach {w : World} (h : server.Reach w) :
    w.fault ≠ some .useAfterFree ∧ w.fault ≠ some .nullPointer ∧
      w.fault ≠ some .unexpectedCall := by
  have hsound := (good_of_reach h).sound
  refine ⟨fun hf => ?_, fun hf => ?_, fun hf => ?_⟩ <;> exact absurd (hsound _ hf) (by decide)

/-- The server after a hasty client has asked to track the devices. -/
def trackingWorld : World := server.run (initialWorld {} hastyClient) (hastyRun.take 2)

theorem reach_trackingWorld : server.Reach trackingWorld := reach_of_legal (by decide +kernel)

theorem pointers_of_trackingWorld : trackingWorld.fault ≠ some .useAfterFree :=
  (pointers_of_reach reach_trackingWorld).1

/-! ### Ids -/

variable {w : World} {act : Action} {a b : Addr} {s s' : Asocket}

/-- A socket keeps its kind and its id, and its queue unless it is flushed. -/
theorem Action.Writes.same (hw : act.Writes w a s s') : s'.kind = s.kind ∧ s'.id = s.id ∧
    (act = .flush a ∨ (∃ data, act = .push a data) ∨ s'.packetQueue = s.packetQueue) := by
  cases act with
  | flush c =>
    obtain ⟨rfl, rfl, -⟩ := hw
    exact ⟨sameLinks_flushResult.kind, sameLinks_flushResult.id, .inl rfl⟩
  | push c data =>
    obtain ⟨rfl, rfl⟩ := hw
    exact ⟨(sameLinks_enqueued data).kind, (sameLinks_enqueued data).id, .inr (.inl ⟨data, rfl⟩)⟩
  | close c =>
    obtain ⟨-, -, -, rfl⟩ := hw
    exact ⟨rfl, rfl, .inr (.inr rfl)⟩
  | transmit c p data | pause c =>
    obtain ⟨-, rfl⟩ := hw
    exact ⟨Asocket.sameLinks_paused.kind, Asocket.sameLinks_paused.id,
      .inr (.inr Asocket.packetQueue_paused)⟩
  | hand c data | wake c | grant c n | join c id t | makeSmart c | makeTracker c o | drop c d
  | bindTo c t n | switch c t | scratch c data u =>
    obtain ⟨-, rfl⟩ := hw
    exact ⟨rfl, rfl, .inr (.inr rfl)⟩
  | pair c d => rcases hw with ⟨-, rfl⟩ | ⟨-, rfl⟩ <;> exact ⟨rfl, rfl, .inr (.inr rfl)⟩
  | _ => exact hw.elim

theorem nextId_retire (k : SockTable) (a : Addr) :
    (k.retire a).localSocketNextId = k.localSocketNextId := by
  unfold SockTable.retire
  repeat' split
  all_goals rfl

/-- An id is not used twice. -/
theorem nextId_le_run (h : Good w) (hpre : act.Pre w) :
    w.sk.localSocketNextId ≤ (act.run w).sk.localSocketNextId := by
  rw [(Action.effect_run h hpre).sk]
  cases act with
  | makeLocal t n => exact Nat.le_succ _
  | flush a =>
    rw [Action.table]
    split
    · exact (nextId_retire _ _).ge
    · exact le_rfl
  | close a =>
    rw [Action.table, SockTable.close]
    split
    · exact (nextId_retire _ _).ge
    · rw [nextId_retire, nextId_retire]
      exact le_rfl
  | drop a c => exact (nextId_retire (w.sk.unlink a c) a).ge
  | _ => exact le_rfl

/-- **An id names one socket for good.** A packet that is late, for a socket that is gone, does not
find another one: whatever the server does after a local socket has got its id, no other local
socket has it. -/
theorem id_names_one_socket (h : server.Reach w) (ops : List Op) (hs : w.sk.heap a = some s)
    (hkind : s.kind = .localSocket) (hs' : (server.run w ops).sk.heap b = some s')
    (hkind' : s'.kind = .localSocket) (hid : s'.id = s.id) : b = a := by
  have hgood := good_of_reach h
  refine (hgood.run_inv (P := fun w => s.id < w.sk.localSocketNextId ∧ ∀ b s',
    w.sk.heap b = some s' → s'.kind = .localSocket → s'.id = s.id → b = a) ?_
      ⟨(hgood.graph.id_bound a s hs hkind).2, ?_⟩ ops).2 b s' hs' hkind' hid
  · rintro w act hw hpre ⟨hlt, hone⟩
    refine ⟨hlt.trans_le (nextId_le_run hw hpre), fun b s' hb hk hid => ?_⟩
    rcases Action.cell_cases hw hpre hb with hb | ⟨r, hr, hwrites⟩ | ⟨-, hmakes⟩
    · exact hone b s' hb hk hid
    · obtain ⟨hsame, hsame', -⟩ := hwrites.same
      exact hone b r hr (hsame.symm.trans hk) (hsame'.symm.trans hid)
    · -- A new local socket has the next id, which is larger.
      have hnext : s'.id = w.sk.localSocketNextId := by
        cases act with
        | makeLocal t n => rw [show s' = _ from hmakes]
        | join c id t | makeSmart c | makeTracker c o =>
          rw [show s' = _ from hmakes] at hk
          exact absurd hk (by simp)
        | _ => exact hmakes.elim
      omega
  · exact fun b s' hb hk hid => hgood.graph.id_inj b a s' s hb hs hk hkind hid

/-- The server after another client has connected. -/
def nextClientWorld : World :=
  server.run trackingWorld (hastyRun.drop 2 ++ [.poll [(.listener 0, { epollin := true })]])

theorem trackingWorld_socket : ∃ s ∈ trackingWorld.sk.heap 0, s.kind = .localSocket ∧ s.id = 1 := by
  decide +kernel

/-- There are now two local sockets, and the id of the first is not that of the later one. -/
theorem id_names_one_socket_nextClient :
    (∃ s ∈ nextClientWorld.sk.heap 0, s.kind = .localSocket ∧ s.id = 1) ∧
      (∃ s ∈ nextClientWorld.sk.heap 3, s.kind = .localSocket) ∧
      ∀ b, ∀ s' ∈ nextClientWorld.sk.heap b, s'.kind = .localSocket → s'.id = 1 → b = 0 := by
  obtain ⟨s, hs, hkind, hid⟩ := trackingWorld_socket
  refine ⟨by decide +kernel, by decide +kernel, fun b s' hs' hkind' hid' => ?_⟩
  exact id_names_one_socket reach_trackingWorld _ hs hkind hs' hkind' (hid'.trans hid.symm)

/-! ### What is queued is written -/

/-- A flush takes what it writes off the front of the queue. -/
theorem written_flushEvents (hends : flushEnds w s = false)
    (herror : .writeError a ∉ flushEvents w a s) :
    written a (flushEvents w a s) ++ (flushResult w s).1.packetQueue.bytes =
      s.packetQueue.bytes := by
  rw [LedgerAt.flushEvents_of_not_ends hends] at herror ⊢
  have hack : written a (ackEvents w (flushResult w s).1 (flushResult w s).2) = [] :=
    written_eq_nil fun bs hmem => absurd (account_ackEvents hmem) (by simp [Ev.account])
  rw [written_append, hack, append_nil]
  rcases writeEvents_cases (w := w) (a := a) (s := s) with ⟨bs, hev, hbs, -⟩ | ⟨hev, -⟩ |
    ⟨hev, hbs, -⟩
  · rw [hev, ← hbs]
    simp [written]
  · exact absurd (mem_append_left _ (by simp [hev])) herror
  · rw [hev, hbs]
    rfl

/-- Nothing else writes. -/
theorem written_events (h : Good w) (hpre : act.Pre w) (hs : w.sk.heap a = some s)
    (hflush : act ≠ .flush a) (hpush : ¬∃ data, act = .push a data) :
    written a (act.events w) = [] := by
  refine written_eq_nil fun bs hmem => ?_
  rcases account_events hpre hmem rfl with hact | hact | ⟨b, rfl, hb⟩
  · exact hflush hact
  · exact hpush hact
  · obtain ⟨es, es', hsplit, hother⟩ := closeEvents_split h.graph hs hb
    rw [Action.events, hsplit] at hmem
    rcases mem_append.mp hmem with hmem | hmem
    · rcases mem_append.mp hmem with hmem | hmem
      · exact hother _ (mem_append_left _ hmem) rfl
      · unfold farewellEvents at hmem
        split_ifs at hmem <;> simp at hmem
    · exact hother _ (mem_append_right _ hmem) rfl

/-- **One action**: what is in the queue of a socket stays in front of what comes. -/
theorem queue_prefix_run (h : Good w) (hpre : act.Pre w) (ha : a < w.sk.brk)
    (hs' : (act.run w).sk.heap a = some s') (herror : .writeError a ∉ act.events w) :
    ∃ s, w.sk.heap a = some s ∧
      s.packetQueue.bytes <+: written a (act.events w) ++ s'.packetQueue.bytes := by
  have hcell := hs'
  rw [(Action.effect_run h hpre).sk] at hcell
  by_cases hflush : act = .flush a
  · subst hflush
    obtain ⟨s, hs, hkind⟩ := hpre
    rw [Action.events, hs, elim_some] at herror ⊢
    rw [Action.table, hs, any_some] at hcell
    refine ⟨s, rfl, ?_⟩
    cases hends : flushEnds w s with
    | true =>
      have hc : s.closing = true := (Bool.and_eq_true_iff.mp hends).1
      rw [hends, if_pos rfl, retire_of_local hs hkind (by simp [Asocket.lingers, hc])] at hcell
      exact absurd hcell (by simp)
    | false =>
      rw [hends, if_neg (by simp), upd_heap_self hs] at hcell
      obtain rfl := some.inj hcell
      exact (written_flushEvents hends herror).symm ▸ prefix_rfl
  by_cases hpush : ∃ data, act = .push a data
  · obtain ⟨data, rfl⟩ := hpush
    obtain ⟨s, hs, -, hc⟩ := hpre
    rw [Action.events, hs, elim_some] at herror ⊢
    rw [Action.table, upd_heap_self hs] at hcell
    obtain rfl := some.inj hcell
    have hends : flushEnds w (s.push data) = false := by
      simp [flushEnds, show (s.push data).closing = false from hc]
    have hbytes := written_flushEvents hends herror
    exact ⟨s, rfl, data, by rw [← PacketQueue.bytes_append]; exact hbytes.symm⟩
  obtain ⟨s, hs, hqueue⟩ : ∃ s, w.sk.heap a = some s ∧ s'.packetQueue = s.packetQueue := by
    rcases Action.cell_cases h hpre hs' with hs | ⟨s, hs, hw⟩ | ⟨rfl, -⟩
    · exact ⟨s', hs, rfl⟩
    · exact ⟨s, hs, (hw.same.2.2.resolve_left hflush).resolve_left hpush⟩
    · exact absurd ha (lt_irrefl _)
  rw [written_events h hpre hs hflush hpush, hqueue]
  exact ⟨s, hs, prefix_rfl⟩

/-- **What is queued is written, in order.** As long as a socket is there and no write to its
client has failed, what has been written and what is queued only ever grows at its end: nothing
that has been queued is dropped, repeated or overtaken. -/
theorem queue_in_order (h : server.Reach w) (ops : List Op) (hs : w.sk.heap a = some s)
    (hs' : (server.run w ops).sk.heap a = some s')
    (herror : .writeError a ∉ (server.run w ops).io.trace) :
    written a w.io.trace ++ s.packetQueue.bytes <+:
      written a (server.run w ops).io.trace ++ s'.packetQueue.bytes := by
  have hgood := good_of_reach h
  refine (hgood.run_inv (P := fun w' => a < w'.sk.brk ∧ (.writeError a ∉ w'.io.trace → ∀ s',
    w'.sk.heap a = some s' → written a w.io.trace ++ s.packetQueue.bytes <+:
      written a w'.io.trace ++ s'.packetQueue.bytes)) ?_
        ⟨hgood.graph.lt_brk hs, ?_⟩ ops).2 herror s' hs'
  · rintro w' act hw hpre ⟨hold, hgrown⟩
    refine ⟨hold.trans_le (Action.brk_le_run hw hpre), fun hno s' hs' => ?_⟩
    rw [(Action.effect_run hw hpre).trace] at hno ⊢
    obtain ⟨r, hr, hprefix⟩ := queue_prefix_run hw hpre hold hs'
      fun hmem => hno (mem_append_right _ hmem)
    refine (hgrown (fun hmem => hno (mem_append_left _ hmem)) r hr).trans ?_
    rw [written_append, append_assoc]
    exact (prefix_append_right_inj _).mpr hprefix
  · intro _ r hr
    exact some.inj (hs.symm.trans hr) ▸ prefix_rfl

/-- The server after the client has hung up. -/
def hungUpWorld : World := server.run trackingWorld (hastyRun.drop 2)

theorem queue_in_order_hungUp : ∃ s s', trackingWorld.sk.heap 0 = some s ∧
    hungUpWorld.sk.heap 0 = some s' ∧ written 0 trackingWorld.io.trace ++ s.packetQueue.bytes <+:
      written 0 hungUpWorld.io.trace ++ s'.packetQueue.bytes := by
  have hsome : (trackingWorld.sk.heap 0).isSome ∧ (hungUpWorld.sk.heap 0).isSome := by
    decide +kernel
  obtain ⟨s, hs⟩ := isSome_iff_exists.mp hsome.1
  obtain ⟨s', hs'⟩ := isSome_iff_exists.mp hsome.2
  exact ⟨s, s', hs, hs', queue_in_order reach_trackingWorld _ hs hs' (by decide +kernel)⟩

end AdbBridge
