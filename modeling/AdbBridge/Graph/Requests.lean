import AdbBridge.Graph.Calm

/-!
# Requests of clients, as calm actions

The functions behind `handle_host_request`. All but one are runs of `calm`; detaching a
device takes its transport offline. `Move` adds the two steps that this needs, and
`moves` is the machine of the calm actions and these two.
-/

namespace AdbBridge

open List

variable {w w' : World} {a c : Addr} {s : Asocket} {t : TransportId}

/-! ### Listeners -/

namespace Net

variable {n : Net} {l : Alistener}

@[simp] theorem updTransport_listenerList (f : Atransport → Atransport) :
    (n.updTransport t f).listenerList = n.listenerList := rfl

theorem eraseListener_listenerList :
    (n.eraseListener l).listenerList = n.listenerList.filter (·.id != l.id) := by
  unfold eraseListener
  split <;> rfl

theorem rebindListener_listenerList (connectTo : Bytes) :
    (n.rebindListener l connectTo t).listenerList = n.listenerList.map fun x =>
      if x.id == l.id then { x with connectTo := connectTo, transport := some t } else x := by
  unfold rebindListener
  split
  · rfl
  · cases l.transport <;> rfl

theorem listenerDisconnect_foldl (ls : List ListenerId) :
    (ls.foldl listenerDisconnect n).listenerList =
      n.listenerList.filter fun l => !ls.contains l.id := by
  induction ls generalizing n with
  | nil => simp
  | cons x ls ih =>
    rw [foldl_cons, ih, listenerDisconnect, filter_filter]
    refine filter_congr fun l _ => ?_
    by_cases hx : l.id = x <;> simp [hx]

theorem listenerDisconnect_foldl_transports (ls : List ListenerId) :
    (ls.foldl listenerDisconnect n).transports = n.transports := by
  induction ls generalizing n with
  | nil => rfl
  | cons x ls ih => exact ih

theorem runDisconnects_listenerList : (n.runDisconnects t).listenerList =
    n.listenerList.filter fun l => !(n.transports t).disconnects.contains l.id :=
  listenerDisconnect_foldl _

theorem ListenersOk.subset {n' : Net} (h : n.ListenersOk)
    (hsub : n'.listenerList ⊆ n.listenerList) : n'.ListenersOk := fun l hl => h l (hsub hl)

theorem ListenersOk.runDisconnects (h : n.ListenersOk) : (n.runDisconnects t).ListenersOk :=
  h.subset (runDisconnects_listenerList ▸ filter_sublist.subset)

theorem ListenersOk.rebindListener (h : n.ListenersOk) (l : Alistener) (connectTo : Bytes)
    (t : TransportId) : (n.rebindListener l connectTo t).ListenersOk := by
  intro x hx
  rw [rebindListener_listenerList] at hx
  obtain ⟨y, hy, rfl⟩ := mem_map.mp hx
  split
  · exact Or.inr rfl
  · exact h y hy

theorem ListenersOk.pushListener (h : n.ListenersOk) (localName connectTo : Bytes)
    (t : TransportId) : (n.pushListener localName connectTo t).ListenersOk := by
  intro x hx
  rcases mem_append.mp hx with hx | hx
  · exact h x hx
  · rw [mem_singleton.mp hx]
    exact Or.inr rfl

/-- The transports after a listener's callback has been taken off the list of one. -/
theorem removeDisconnect_transports (u : TransportId) (i : ListenerId) :
    (n.transports u).SameConn ((n.removeDisconnect t i).transports u) ∧
      ∀ j, j ≠ i → (j ∈ ((n.removeDisconnect t i).transports u).disconnects ↔
        j ∈ (n.transports u).disconnects) := by
  unfold removeDisconnect
  by_cases hu : u = t
  · subst hu
    rw [n.updTransport_self]
    exact ⟨⟨rfl, rfl, rfl, rfl, rfl, Or.inl rfl⟩, fun j hj => by simp [hj]⟩
  · rw [n.updTransport_of_ne hu]
    exact ⟨.refl _, fun _ _ => Iff.rfl⟩

theorem removeDisconnect_subset (u : TransportId) (i : ListenerId) :
    ((n.removeDisconnect t i).transports u).disconnects ⊆ (n.transports u).disconnects := by
  unfold removeDisconnect
  by_cases hu : u = t
  · subst hu
    rw [n.updTransport_self]
    exact filter_sublist.subset
  · rw [n.updTransport_of_ne hu]
    exact List.Subset.refl _

theorem addDisconnect_transports (u : TransportId) (i : ListenerId) :
    (n.transports u).SameConn ((n.addDisconnect t i).transports u) ∧
      ((n.addDisconnect t i).transports u).disconnects =
        (n.transports u).disconnects ++ if u = t then [i] else [] := by
  unfold addDisconnect
  by_cases hu : u = t
  · subst hu
    rw [n.updTransport_self]
    exact ⟨⟨rfl, rfl, rfl, rfl, rfl, Or.inl rfl⟩, by simp⟩
  · rw [n.updTransport_of_ne hu]
    exact ⟨.refl _, by simp [hu]⟩

/-- What erasing a listener does to the transports. -/
theorem eraseListener_transports (u : TransportId) :
    (n.transports u).SameConn ((n.eraseListener l).transports u) ∧
      ((n.eraseListener l).transports u).disconnects ⊆ (n.transports u).disconnects ∧
        ∀ j, j ≠ l.id → j ∈ (n.transports u).disconnects →
          j ∈ ((n.eraseListener l).transports u).disconnects := by
  unfold eraseListener
  cases l.transport with
  | none => exact ⟨.refl _, List.Subset.refl _, fun _ _ h => h⟩
  | some v =>
    obtain ⟨hconn, hmem⟩ := removeDisconnect_transports
      (n := { n with listenerList := n.listenerList.filter (·.id != l.id) }) (t := v) u l.id
    exact ⟨hconn, removeDisconnect_subset u l.id, fun j hj h => (hmem j hj).mpr h⟩

end Net

theorem quiet_eraseListener (l : Alistener) : w.Quiet (w.net.eraseListener l) where
  conn u := (Net.eraseListener_transports u).1
  disconnects u hu := Or.inl fun h => hu <| by
    have hsub := (Net.eraseListener_transports (n := w.net) (l := l) u).2.1
    rw [show (w.net.transports u).disconnects = [] from h] at hsub
    exact subset_nil.mp hsub
  listeners x hx u hu := by
    rw [Net.eraseListener_listenerList, mem_filter, bne_iff_ne] at hx
    exact Or.inr ⟨⟨x, hx.1, rfl, hu⟩, (Net.eraseListener_transports u).2.2 x.id hx.2⟩

theorem calm_eraseListener (h : Good w) (l : Alistener) :
    calm.Steps w (w.onNet (·.eraseListener l)) :=
  calm_onNet (h.listeners.subset (Net.eraseListener_listenerList ▸ filter_sublist.subset))
    (quiet_eraseListener l)

theorem calm_removeAllListeners (h : Good w) : calm.Steps w (w.onNet (·.removeAllListeners)) := by
  suffices hfold : ∀ (ls : List Alistener) (w : World), Good w →
      calm.Steps w (w.onNet fun n => ls.foldl Net.eraseListener n) from hfold _ w h
  intro ls
  induction ls with
  | nil => exact fun _ _ => .refl
  | cons l ls ih =>
    intro w h
    have hstep := calm_eraseListener h l
    exact hstep.trans (ih _ (good_of_calm hstep h))

/-- Pointing a listener at a transport in use. -/
theorem quiet_rebindListener {l : Alistener} (hl : l ∈ w.net.listenerList) (ht : w.Live t)
    (connectTo : Bytes) : w.Quiet (w.net.rebindListener l connectTo t) := by
  unfold Net.rebindListener
  set n : Net := { w.net with listenerList := w.net.listenerList.map fun x =>
    if x.id == l.id then { x with connectTo := connectTo, transport := some t } else x } with hn
  have hmap : ∀ x ∈ n.listenerList, x.id = l.id ∧ x.transport = some t ∨
      x.id ≠ l.id ∧ x ∈ w.net.listenerList := by
    intro x hx
    obtain ⟨y, hy, rfl⟩ := mem_map.mp hx
    by_cases hid : y.id = l.id
    · exact Or.inl (by simp [hid])
    · exact Or.inr (by simp [hid, hy])
  by_cases hlt : l.transport = some t
  · rw [if_pos (by simp [hlt])]
    refine ⟨fun u => .refl _, fun u hu => Or.inl hu, fun x hx u hu => Or.inr ⟨?_, fun h => h⟩⟩
    rcases hmap x hx with ⟨hid, hxt⟩ | ⟨-, hx⟩
    · exact ⟨l, hl, hid.symm, hlt.trans (hxt.symm.trans hu)⟩
    · exact ⟨x, hx, rfl, hu⟩
  · rw [if_neg (by simp [hlt])]
    -- What is left of the old registration.
    suffices hrest : ∀ m : Net, (m.addDisconnect t l.id).listenerList = n.listenerList →
        (∀ u, (n.transports u).SameConn (m.transports u) ∧
          (m.transports u).disconnects ⊆ (n.transports u).disconnects ∧
            ∀ j, j ≠ l.id → j ∈ (n.transports u).disconnects →
              j ∈ (m.transports u).disconnects) → w.Quiet (m.addDisconnect t l.id) by
      cases l.transport with
      | none => exact hrest n rfl fun u => ⟨.refl _, List.Subset.refl _, fun _ _ h => h⟩
      | some v =>
        refine hrest (n.removeDisconnect v l.id) rfl fun u => ?_
        obtain ⟨hconn, hmem⟩ := Net.removeDisconnect_transports (n := n) (t := v) u l.id
        exact ⟨hconn, Net.removeDisconnect_subset u l.id, fun j hj h => (hmem j hj).mpr h⟩
    intro m hlist hm'
    refine ⟨fun u => (hm' u).1.trans (Net.addDisconnect_transports u l.id).1, ?_, ?_⟩
    · intro u hu
      by_cases hut : u = t
      · exact Or.inr (hut ▸ ht)
      · rw [(Net.addDisconnect_transports u l.id).2, if_neg hut, append_nil] at hu
        refine Or.inl fun h => hu ?_
        have hsub := (hm' u).2.1
        rw [show (n.transports u).disconnects = [] from h] at hsub
        exact subset_nil.mp hsub
    · intro x hx u hu
      change x ∈ (m.addDisconnect t l.id).listenerList at hx
      rw [hlist] at hx
      rw [(Net.addDisconnect_transports u l.id).2]
      rcases hmap x hx with ⟨hid, hxt⟩ | ⟨hid, hx⟩
      · obtain rfl : t = u := Option.some.inj (hxt.symm.trans hu)
        exact Or.inl ⟨by simp [hid], ht⟩
      · exact Or.inr ⟨⟨x, hx, rfl, hu⟩, fun h =>
          mem_append_left _ ((hm' u).2.2 x.id hid h)⟩

/-- A new listener of a live transport brings its callback with it. -/
theorem quiet_pushListener (ht : w.Live t) (localName connectTo : Bytes) :
    w.Quiet (w.net.pushListener localName connectTo t) where
  conn u := (Net.addDisconnect_transports u w.net.nextListener).1
  disconnects u hu := by
    by_cases hut : u = t
    · exact Or.inr (hut ▸ ht)
    · refine Or.inl ?_
      have hdisc := (Net.addDisconnect_transports (n := w.net) (t := t) u w.net.nextListener).2
      rw [if_neg hut, append_nil] at hdisc
      exact fun h => hu (hdisc.trans h)
  listeners x hx u hu := by
    have hdisc := (Net.addDisconnect_transports (n := w.net) (t := t) u w.net.nextListener).2
    simp only [Net.pushListener, hdisc]
    rcases mem_append.mp hx with hx | hx
    · exact Or.inr ⟨⟨x, hx, rfl, hu⟩, fun h => mem_append_left _ h⟩
    · obtain rfl := mem_singleton.mp hx
      obtain rfl : t = u := Option.some.inj hu
      exact Or.inl ⟨by simp, ht⟩

/-- `install_listener` for a transport in use. -/
theorem calm_installListener (h : Good w) (ht : w.Live t) (localName connectTo : Bytes)
    (noRebind : Bool) : calm.Steps w (installListener w localName connectTo t noRebind).1 := by
  unfold installListener
  split
  · rename_i l hfind
    have hl : l ∈ w.net.listenerList := List.mem_of_find?_eq_some hfind
    split
    · exact .refl
    · rename_i hsmart
      split
      · exact .refl
      · split
        · rename_i hnone
          have := (h.listeners l hl).resolve_left hsmart
          rw [Option.isNone_iff_eq_none.mp hnone] at this
          exact absurd this (by simp)
        · exact calm_onNet (f := (·.rebindListener l connectTo t))
            (h.listeners.rebindListener l connectTo t) (quiet_rebindListener hl ht connectTo)
  · split
    · exact calm_tick
    · rename_i resolved _
      exact calm_tick.trans (calm_onNet
        (f := (·.pushListener (resolvedName localName resolved) connectTo t))
        (Net.ListenersOk.pushListener h.listeners _ _ t) (quiet_pushListener (w := w.tick) ht _ _))

/-! ### What is done aside from the sockets -/

/-- Calm actions that touch no socket. -/
structure Aside (w w' : World) : Prop where
  steps : calm.Steps w w'
  sk : w'.sk = w.sk

namespace Aside

theorem refl (w : World) : Aside w w := ⟨.refl, rfl⟩

theorem trans {w'' : World} (h : Aside w w') (h' : Aside w' w'') : Aside w w'' :=
  ⟨h.steps.trans h'.steps, h'.sk.trans h.sk⟩

theorem good (h : Aside w w') (hw : Good w) : Good w' := good_of_calm h.steps hw

theorem reply (r : Reply) : Aside w (w.reply a r) := ⟨calm_reply r, rfl⟩

theorem reply_reply (r r' : Reply) : Aside w ((w.reply a r).reply a r') :=
  (reply r).trans (reply r')

theorem tick : Aside w w.tick := ⟨calm_tick, rfl⟩

theorem check (b : Bool) {f : Fault} (hf : f.deliberate = true) : Aside w (w.check b f) :=
  ⟨calm_check b hf, by unfold World.check; split <;> rfl⟩

theorem sendPacket {p : Apacket} (hp : p.command ≠ .aWrte) : Aside w (w.sendPacket t p) :=
  ⟨calm_sendPacket hp, rfl⟩

theorem updTransport (h : Good w) {f : Atransport → Atransport}
    (hf : (w.transport t).SameConn (f (w.transport t)))
    (hd : (f (w.transport t)).disconnects = (w.transport t).disconnects) :
    Aside w (w.updTransport t f) := ⟨calm_updTransport h hf hd, rfl⟩

end Aside

theorem aside_sendStatusOkay : Aside w (sendStatusOkay w a) := by
  unfold sendStatusOkay
  split
  · exact .reply_reply _ _
  · exact .reply _

theorem aside_runForwardRequest (h : Good w) (ht : w.Live t) (request : ForwardRequest) :
    Aside w (runForwardRequest w t request).1 := by
  cases request with
  | killforward l =>
    simp only [runForwardRequest, Net.removeListener]
    split
    · exact .refl w
    · rename_i n hn
      split at hn
      · exact absurd hn (by simp)
      · obtain rfl := Except.ok.inj hn
        exact ⟨calm_eraseListener h _, rfl⟩
  | forward noRebind l r =>
    refine ⟨calm_installListener h ht l r noRebind, ?_⟩
    simp only [runForwardRequest, installListener]
    repeat' split
    all_goals rfl

/-- `handle_forward_request` on behalf of a client. -/
theorem aside_handleForwardRequest (h : Good w) {acquired : Except Bytes TransportId}
    (ht : ∀ t, acquired = .ok t → w.Live t) (service : Bytes) :
    Aside w (handleForwardRequest w service acquired a).1 := by
  unfold handleForwardRequest
  split
  · refine Aside.trans ?_ (.reply _)
    split
    · exact .reply _
    · exact .refl w
  · split
    · have hremove : Aside w (w.onNet (·.removeAllListeners)) := ⟨calm_removeAllListeners h, rfl⟩
      exact hremove.trans aside_sendStatusOkay
    · split
      · exact .refl w
      · split
        · exact .reply _
        · rename_i t
          split
          · exact .reply _
          · rename_i request _
            have hrun := aside_runForwardRequest h (ht t rfl) request
            split
            · rename_i w' resolved hw'
              rw [hw'] at hrun
              refine hrun.trans ((aside_sendStatusOkay (a := a)).trans ?_)
              dsimp only
              split
              · exact .refl _
              · exact .reply _
            · rename_i w' e hw'
              rw [hw'] at hrun
              exact hrun.trans (.reply _)

/-! ### Kicking and attaching -/

theorem aside_kick (h : Good w) : Aside w (kick w t) :=
  .updTransport h ⟨rfl, rfl, rfl, rfl, rfl, Or.inl rfl⟩ rfl

theorem aside_kickTransport (h : Good w) : Aside w (kickTransport w t) := by
  unfold kickTransport
  split
  · exact aside_kick h
  · exact .refl w

theorem aside_kickWhere (h : Good w) (p : Atransport → Bool) : Aside w (kickWhere w p) := by
  suffices hfold : ∀ (ts : List TransportId) (w : World), Good w → Aside w (ts.foldl kick w) from
    hfold _ w h
  intro ts
  induction ts with
  | nil => exact fun w _ => .refl w
  | cons t ts ih => exact fun w h => (aside_kick h).trans (ih _ ((aside_kick h).good h))

theorem aside_sendConnect : Aside w (sendConnect w t) :=
  (Aside.check _ rfl).trans (.sendPacket (by simp))

theorem aside_connectionAttach (what : Bytes) : Aside w (connectionAttach w t what).1 := by
  unfold connectionAttach
  split
  · exact .tick
  · exact .refl w

theorem connectionAttach_net (what : Bytes) : (connectionAttach w t what).1.net = w.net := by
  unfold connectionAttach
  split <;> rfl

/-- Attaching a device is calm and touches no socket. -/
theorem aside_attach (h : Good w) : Aside w (attach w t).1 := by
  unfold attach
  split
  · exact .refl w
  · split
    · exact .refl w
    · rename_i hstate
      have hkeys : Aside w (w.updTransport t ({ · with keys := [] })) :=
        .updTransport h ⟨rfl, rfl, rfl, rfl, rfl, Or.inl rfl⟩ rfl
      have hattach := hkeys.trans (aside_connectionAttach (t := t) (ascii "attach"))
      have hnet := connectionAttach_net (w := w.updTransport t ({ · with keys := [] })) (t := t)
        (ascii "attach")
      simp only
      rcases hca : connectionAttach (w.updTransport t ({ · with keys := [] })) t (ascii "attach")
        with ⟨w', e | ⟨⟩⟩
      · rwa [hca] at hattach
      · rw [hca] at hattach hnet
        refine hattach.trans (Aside.trans ?_ aside_sendConnect)
        refine .updTransport (hattach.good h) ⟨rfl, rfl, rfl, rfl, rfl, Or.inr ⟨rfl, ?_⟩⟩ rfl
        rw [World.transport, hnet, ← World.transport, World.transport_updTransport_self]
        exact not_not.mp hstate

/-! ### Taking a transport offline -/

/-- What a client's request can come to, beside calm actions. -/
inductive Move
  | act (x : Action)
  /-- `handle_offline`. -/
  | offline (t : TransportId)
  /-- The state of a transport that has been detached. -/
  | markDetached (t : TransportId)

/-- What a move does. -/
def Move.run (w : World) : Move → World
  | .act x => x.run w
  | .offline t => handleOffline w t
  | .markDetached t => w.updTransport t ({ · with connectionState := .kCsDetached })

/-- The machine of the moves. A transport is marked as detached after `handle_offline`. -/
def moves : Machine World Move where
  init := actions.init
  enabled := fun w => fun
    | .act x => calm.enabled w x
    | .offline _ => True
    | .markDetached t => (w.transport t).connectionState = .kCsOffline
  step := Move.run

theorem moves_of_calm (h : calm.Steps w w') : moves.Steps w w' := by
  induction h with
  | refl => exact .refl
  | tail _ hlast ih =>
    obtain ⟨act, hact, rfl⟩ := hlast
    exact ih.tail (M := moves) (i := Move.act act) hact

/-- The actions that destroy no socket which still has data to write. -/
def Orderly (w : World) : Action → Prop
  | .close a => ∀ s, w.sk.heap a = some s → s.closing = false
  | _ => True

/-- The machine of the orderly actions. -/
def orderly : Machine World Action := actions.restrict Orderly

theorem good_of_orderly (hsteps : orderly.Steps w w') (h : Good w) : Good w' :=
  good_of_steps hsteps.of_restrict h

/-! ### The interest in reading -/

/-- The actions that change the interest in reading of no local socket joined to another
one, unless it is `x`. -/
def Spares (x : Option Addr) (w : World) : Action → Prop
  | .wake c => some c = x ∨ w.Apart c
  | .pause c => some c = x
  | _ => True

/-- The machine of the actions that spare all sockets but one. -/
def sparing (x : Option Addr) : Machine World Action := actions.restrict (Spares x)

/-- The machine of those that are orderly as well. -/
def steady (x : Option Addr) : Machine World Action := orderly.restrict (Spares x)

variable {x : Option Addr}

theorem orderly_of_steady (h : (steady x).Steps w w') : orderly.Steps w w' := h.of_restrict

theorem sparing_of_steady (h : (steady x).Steps w w') : (sparing x).Steps w w' :=
  Machine.Steps.mono (M := steady x) rfl (fun _ _ hact => ⟨hact.1.1, hact.2⟩) h

theorem good_of_steady (hsteps : (steady x).Steps w w') (h : Good w) : Good w' :=
  good_of_orderly (orderly_of_steady hsteps) h

theorem steady_of_calm (h : calm.Steps w w') : (steady x).Steps w w' := by
  refine Machine.Steps.mono (M := calm) rfl (fun w act hact => ?_) h
  cases act with
  | close a => exact ⟨⟨hact.1, hact.2⟩, trivial⟩
  | wake a => exact ⟨⟨hact.1, trivial⟩, Or.inr hact.2.1⟩
  | pause a => exact hact.2.elim
  | _ => exact ⟨⟨hact.1, trivial⟩, trivial⟩

theorem steady_onNet {f : Net → Net} (hok : (f w.net).ListenersOk) :
    (steady x).Steps w (w.onNet f) := .single (i := Action.onNet f) ⟨⟨hok, trivial⟩, trivial⟩

theorem steady_updTransport (h : Good w) (f : Atransport → Atransport) :
    (steady x).Steps w (w.updTransport t f) := steady_onNet h.listeners

theorem good_updTransport (h : Good w) (f : Atransport → Atransport) : Good (w.updTransport t f) :=
  h.onNet h.listeners

theorem steady_setConnectionState (h : Good w) (st : ConnectionState) :
    (steady x).Steps w (setConnectionState w t st) := by
  have hupd := steady_updTransport (x := x) (t := t) h ({ · with connectionState := st })
  exact hupd.trans (steady_of_calm (calm_updateTransports (good_of_steady hupd h)))

theorem steady_handleOffline (h : Good w) : (steady x).Steps w (handleOffline w t) := by
  unfold handleOffline
  split
  · exact .refl
  · have h₁ := steady_setConnectionState (x := x) (t := t) h .kCsOffline
    have g₁ := good_of_steady h₁ h
    have h₂ := steady_updTransport (x := x) (t := t) g₁ ({ · with online := false })
    have g₂ := good_of_steady h₂ g₁
    have h₃ := steady_of_calm (x := x) (calm_closeAllSockets (t := t) g₂)
    have g₃ := good_of_steady h₃ g₂
    exact h₁.trans (h₂.trans (h₃.trans (steady_onNet g₃.listeners.runDisconnects)))

/-- **Moves are orderly**, and spare all sockets. -/
theorem steady_of_moves (hsteps : moves.Steps w w') (h : Good w) : (steady x).Steps w w' := by
  refine hsteps.simulate (P := Good)
    (fun s act hs hact => good_of_steady (.single hact) hs) (fun s m hs hm => ?_) h
  cases m with
  | act x => exact steady_of_calm (.single (M := calm) hm)
  | offline t => exact steady_handleOffline hs
  | markDetached t => exact steady_updTransport hs _

theorem actions_of_moves (hsteps : moves.Steps w w') (h : Good w) : actions.Steps w w' :=
  (orderly_of_steady (x := none) (steady_of_moves hsteps h)).of_restrict

theorem good_of_moves (hsteps : moves.Steps w w') (h : Good w) : Good w' :=
  good_of_steady (x := none) (steady_of_moves hsteps h) h

theorem good_setConnectionState (h : Good w) (st : ConnectionState) :
    Good (setConnectionState w t st) :=
  good_of_steady (x := none) (steady_setConnectionState h st) h

theorem good_handleOffline (h : Good w) : Good (handleOffline w t) :=
  good_of_steady (x := none) (steady_handleOffline h) h

/-! ### What `handle_offline` leaves alone -/

theorem setConnectionState_updated (h : Good w) (st : ConnectionState) :
    Updated (w.updTransport t ({ · with connectionState := st })) (setConnectionState w t st) :=
  updated_updateTransports (h.onNet h.listeners)

/-- What `handle_offline` does to a transport that is not offline yet. -/
def Net.offline (n : Net) (t : TransportId) : Net :=
  (n.updTransport t ({ · with connectionState := .kCsOffline, online := false })).runDisconnects t

theorem Net.runDisconnects_transports (n : Net) : (n.runDisconnects t).transports =
    Function.update n.transports t { n.transports t with disconnects := [] } := by
  unfold runDisconnects updTransport
  simp only [listenerDisconnect_foldl_transports]

theorem Net.offline_transports (n : Net) : (n.offline t).transports =
    Function.update n.transports t { n.transports t with
      connectionState := .kCsOffline, online := false, disconnects := [] } := by
  rw [offline, runDisconnects_transports, updTransport_self]
  exact Function.update_idem _ _ _

theorem setConnectionState_net (h : Good w) (st : ConnectionState) :
    (setConnectionState w t st).net = w.net.updTransport t ({ · with connectionState := st }) :=
  (setConnectionState_updated h st).net

theorem handleOffline_net (h : Good w) : (handleOffline w t).net =
    if (w.transport t).connectionState = .kCsOffline then w.net else w.net.offline t := by
  unfold handleOffline
  split
  · rfl
  · have g := good_setConnectionState (t := t) h .kCsOffline
    have g' := good_updTransport (t := t) g ({ · with online := false })
    simp only [World.onNet_net, closeAllSockets_net g', World.updTransport_net,
      setConnectionState_net h]
    unfold Net.offline Net.updTransport
    simp

theorem handleOffline_state (h : Good w) :
    ((handleOffline w t).transport t).connectionState = .kCsOffline := by
  rw [World.transport, handleOffline_net h]
  split
  · rename_i hstate
    exact hstate
  · rw [Net.offline_transports, Function.update_self]

theorem handleOffline_heap (h : Good w) {b : Addr} (hb : boundTo w.sk t b = false)
    (htr : ¬w.sk.Tracked b) : (handleOffline w t).sk.heap b = w.sk.heap b := by
  unfold handleOffline
  split
  · rfl
  · have hupd := setConnectionState_updated (t := t) h .kCsOffline
    have g := good_setConnectionState (t := t) h .kCsOffline
    have g' := good_updTransport (t := t) g ({ · with online := false })
    have hheap := closeAllSocketsLoop_heap g' (hupd.boundTo.trans hb)
      (setConnectionState w t .kCsOffline).sk.localSocketList.length
    exact hheap.trans (hupd.frame b htr)

end AdbBridge
