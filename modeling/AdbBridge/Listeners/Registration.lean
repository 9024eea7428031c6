import AdbBridge.Graph.Server

/-!
# Listeners and the callbacks they register

A listener that belongs to a transport has a callback on the transport's list, and the
callback is what removes the listener when the transport goes. The registration is kept
up from four places: the constructor and the rebinding in `install_listener`, the
destructor of a listener, and the callback itself, which erases its own listener while
`RunDisconnects` iterates over the list.

`Net.Registered` is the correspondence: the list of a transport has the listeners of
that transport on it, each once, and nothing else. Each of the four places keeps it,
and so does every sequence of calls (`registry_corresponds`). That the iteration is not
disturbed rests on one line of `listener_disconnect`, which clears the transport of the
listener before the destructor looks at it; `disconnectListener` is the callback with
that line in it.
-/

namespace AdbBridge

open List Function

namespace Net

/-- The listener is there and belongs to the transport. -/
def Owns (n : Net) (t : TransportId) (i : ListenerId) : Prop :=
  ∃ l ∈ n.listenerList, l.id = i ∧ l.transport = some t

/-- The listeners of a transport. -/
def listenersOf (n : Net) (t : TransportId) : List ListenerId :=
  (n.listenerList.filter (·.transport == some t)).map (·.id)

/-- **Listeners and registrations correspond.** -/
structure Registered (n : Net) : Prop where
  ids : (n.listenerList.map (·.id)).Nodup
  fresh : ∀ l ∈ n.listenerList, l.id < n.nextListener
  listing : ∀ t, Listing (n.transports t).disconnects (n.Owns t)

section Registered

variable {n n' : Net} {t u : TransportId} {i : ListenerId} {l : Alistener}

theorem mem_listenersOf : i ∈ n.listenersOf t ↔ n.Owns t i := by
  constructor
  · intro hi
    obtain ⟨l, hl, rfl⟩ := mem_map.mp hi
    obtain ⟨hmem, ht⟩ := mem_filter.mp hl
    exact ⟨l, hmem, rfl, eq_of_beq ht⟩
  · rintro ⟨l, hl, rfl, ht⟩
    exact mem_map.mpr ⟨l, mem_filter.mpr ⟨hl, by simp [ht]⟩, rfl⟩

namespace Registered

theorem eq_of_id (h : n.Registered) {l' : Alistener} (hl : l ∈ n.listenerList)
    (hl' : l' ∈ n.listenerList) (hid : l.id = l'.id) : l = l' :=
  inj_on_of_nodup_map h.ids hl hl' hid

theorem owns_iff (h : n.Registered) (hl : l ∈ n.listenerList) :
    n.Owns u l.id ↔ l.transport = some u := by
  constructor
  · rintro ⟨l', hl', hid, ht⟩
    rwa [h.eq_of_id hl hl' hid.symm]
  · exact fun ht => ⟨l, hl, rfl, ht⟩

/-- The lists of callbacks hold the listeners of each transport. -/
theorem perm (h : n.Registered) (t : TransportId) :
    (n.transports t).disconnects.Perm (n.listenersOf t) := by
  have hnodup : (n.listenersOf t).Nodup :=
    h.ids.sublist (filter_sublist.map _)
  refine (perm_ext_iff_of_nodup (h.listing t).nodup hnodup).mpr fun i => ?_
  rw [(h.listing t).mem_iff, mem_listenersOf]

/-- Writing to a transport, but not to its list. -/
theorem updTransport (h : n.Registered) {f : Atransport → Atransport}
    (hf : (f (n.transports t)).disconnects = (n.transports t).disconnects) :
    (n.updTransport t f).Registered where
  ids := h.ids
  fresh := h.fresh
  listing u := by
    have hlists : ((n.updTransport t f).transports u).disconnects =
        (n.transports u).disconnects := by
      by_cases hu : u = t
      · subst hu
        rw [updTransport_self, hf]
      · rw [updTransport_of_ne n hu]
    rw [hlists]
    exact h.listing u

end Registered

/-! ### The four places -/

/-- What is left on the lists when the callback of a listener is taken off the list of
its transport. -/
theorem Registered.without (h : n.Registered) (hl : l ∈ n.listenerList) :
    Listing (if l.transport = some u then (n.transports u).disconnects.filter (· != l.id)
      else (n.transports u).disconnects) fun i => n.Owns u i ∧ i ≠ l.id := by
  split
  · exact (h.listing u).filter_ne fun _ => Iff.rfl
  · rename_i ht
    refine (h.listing u).congr fun i => ⟨fun hi => ⟨hi, ?_⟩, And.left⟩
    rintro rfl
    exact ht ((h.owns_iff hl).mp hi)

theorem disconnects_removeDisconnect : ((n.removeDisconnect t i).transports u).disconnects =
    if some t = some u then (n.transports u).disconnects.filter (· != i)
    else (n.transports u).disconnects := by
  unfold removeDisconnect
  by_cases hu : u = t
  · subst hu
    rw [if_pos rfl, updTransport_self]
  · rw [if_neg (by simpa using Ne.symm hu), updTransport_of_ne _ hu]

theorem disconnects_eraseListener : ((n.eraseListener l).transports u).disconnects =
    if l.transport = some u then (n.transports u).disconnects.filter (· != l.id)
    else (n.transports u).disconnects := by
  unfold eraseListener
  cases l.transport with
  | none => simp
  | some v => exact disconnects_removeDisconnect

theorem nextListener_eraseListener : (n.eraseListener l).nextListener = n.nextListener := by
  unfold eraseListener
  cases l.transport <;> rfl

theorem owns_eraseListener : (n.eraseListener l).Owns u i ↔ n.Owns u i ∧ i ≠ l.id := by
  unfold Owns
  rw [eraseListener_listenerList]
  constructor
  · rintro ⟨x, hx, rfl, ht⟩
    obtain ⟨hmem, hne⟩ := mem_filter.mp hx
    exact ⟨⟨x, hmem, rfl, ht⟩, by simpa using hne⟩
  · rintro ⟨⟨x, hx, rfl, ht⟩, hne⟩
    exact ⟨x, mem_filter.mpr ⟨hx, by simpa using hne⟩, rfl, ht⟩

/-- **The destructor.** -/
theorem Registered.eraseListener (h : n.Registered) (hl : l ∈ n.listenerList) :
    (n.eraseListener l).Registered where
  ids := by
    rw [eraseListener_listenerList]
    exact h.ids.sublist (filter_sublist.map _)
  fresh x hx := by
    rw [eraseListener_listenerList] at hx
    rw [nextListener_eraseListener]
    exact h.fresh x (mem_filter.mp hx).1
  listing u := by
    rw [disconnects_eraseListener]
    exact (h.without hl).congr fun i => owns_eraseListener.symm

/-- **The constructor.** -/
theorem Registered.pushListener (h : n.Registered) (localName connectTo : Bytes)
    (t : TransportId) : (n.pushListener localName connectTo t).Registered where
  ids := by
    rw [Net.pushListener, map_append, nodup_append_comm, map_singleton,
      singleton_append, nodup_cons]
    refine ⟨fun hmem => ?_, h.ids⟩
    obtain ⟨l, hl, hid⟩ := mem_map.mp hmem
    exact absurd hid (h.fresh l hl).ne
  fresh x hx := by
    rcases mem_append.mp hx with hx | hx
    · exact Nat.lt_succ_of_lt (h.fresh x hx)
    · rw [mem_singleton.mp hx]
      exact Nat.lt_succ_self _
  listing u := by
    have howns : ∀ i, (n.pushListener localName connectTo t).Owns u i ↔
        n.Owns u i ∨ i = n.nextListener ∧ u = t := by
      intro i
      constructor
      · rintro ⟨x, hx, rfl, hu⟩
        rcases mem_append.mp hx with hx | hx
        · exact Or.inl ⟨x, hx, rfl, hu⟩
        · obtain rfl := mem_singleton.mp hx
          exact Or.inr ⟨rfl, (Option.some.inj hu).symm⟩
      · rintro (⟨x, hx, rfl, hu⟩ | ⟨rfl, rfl⟩)
        · exact ⟨x, mem_append_left _ hx, rfl, hu⟩
        · exact ⟨_, mem_append_right _ (mem_singleton.mpr rfl), rfl, rfl⟩
    have hnew : ¬n.Owns u n.nextListener := by
      rintro ⟨l, hl, hid, -⟩
      exact absurd hid (h.fresh l hl).ne
    have hdisc := (addDisconnect_transports (n := n) (t := t) u n.nextListener).2
    rw [show ((n.pushListener localName connectTo t).transports u).disconnects = _ from hdisc]
    by_cases hu : u = t
    · rw [if_pos hu]
      exact (h.listing u).concat hnew fun i => by rw [howns i, and_iff_left hu]
    · rw [if_neg hu, append_nil]
      exact (h.listing u).congr fun i => by simp [howns i, hu]

/-- The callbacks of each transport after a listener has been bound to another one. -/
theorem disconnects_rebindListener (connectTo : Bytes) :
    ((n.rebindListener l connectTo t).transports u).disconnects =
      if l.transport = some t then (n.transports u).disconnects
      else (if l.transport = some u then (n.transports u).disconnects.filter (· != l.id)
        else (n.transports u).disconnects) ++ if u = t then [l.id] else [] := by
  unfold rebindListener
  by_cases hlt : l.transport = some t
  · simp [hlt]
  · rw [if_neg (by simpa using hlt), if_neg hlt, (addDisconnect_transports u l.id).2]
    congr 1
    cases hl : l.transport with
    | none => simp
    | some v => exact disconnects_removeDisconnect

theorem nextListener_rebindListener (connectTo : Bytes) :
    (n.rebindListener l connectTo t).nextListener = n.nextListener := by
  unfold rebindListener
  split
  · rfl
  · cases l.transport <;> rfl

/-- The listener belongs to the new transport only, and all others to whom they did. -/
theorem owns_rebindListener (hl : l ∈ n.listenerList) (connectTo : Bytes) :
    (n.rebindListener l connectTo t).Owns u i ↔ i = l.id ∧ u = t ∨ n.Owns u i ∧ i ≠ l.id := by
  unfold Owns
  rw [rebindListener_listenerList]
  constructor
  · rintro ⟨x, hx, rfl, hu⟩
    obtain ⟨y, hy, rfl⟩ := mem_map.mp hx
    by_cases hid : y.id = l.id
    · simp only [hid, beq_self_eq_true, if_true] at hu ⊢
      exact Or.inl ⟨trivial, (Option.some.inj hu).symm⟩
    · simp only [beq_iff_eq, hid, if_false] at hu ⊢
      exact Or.inr ⟨⟨y, hy, rfl, hu⟩, hid⟩
  · rintro (⟨rfl, rfl⟩ | ⟨⟨y, hy, rfl, hu⟩, hid⟩)
    · exact ⟨_, mem_map.mpr ⟨l, hl, rfl⟩, by simp, by simp⟩
    · exact ⟨_, mem_map.mpr ⟨y, hy, rfl⟩, by simp [hid], by simp [hid, hu]⟩

/-- **The rebinding.** -/
theorem Registered.rebindListener (h : n.Registered) (hl : l ∈ n.listenerList)
    (connectTo : Bytes) (t : TransportId) : (n.rebindListener l connectTo t).Registered where
  ids := by
    rw [rebindListener_listenerList, map_map]
    refine (map_congr_left fun x _ => ?_) ▸ h.ids
    simp only [comp_apply]
    split <;> rfl
  fresh x hx := by
    rw [rebindListener_listenerList] at hx
    rw [nextListener_rebindListener]
    obtain ⟨y, hy, rfl⟩ := mem_map.mp hx
    split <;> exact h.fresh y hy
  listing u := by
    rw [disconnects_rebindListener]
    by_cases hlt : l.transport = some t
    · -- The callback is on the right list already.
      rw [if_pos hlt]
      refine (h.listing u).congr fun i => ?_
      rw [owns_rebindListener hl]
      by_cases hi : i = l.id
      · subst hi
        rw [h.owns_iff hl, hlt]
        simp [eq_comm]
      · simp [hi]
    · rw [if_neg hlt]
      by_cases hu : u = t
      · rw [if_pos hu]
        refine (h.without hl).concat (fun hi => hi.2 rfl) fun i => ?_
        rw [owns_rebindListener hl]
        simp only [hu, and_true]
        exact or_comm
      · rw [if_neg hu, append_nil]
        refine (h.without hl).congr fun i => ?_
        rw [owns_rebindListener hl]
        simp [hu]

/-! ### The callback -/

/-- `listener_disconnect` line by line: the transport of the listener is cleared, and
then the listener is erased, which runs its destructor. -/
def disconnectListener (n : Net) (i : ListenerId) : Net :=
  match n.listenerList.find? (·.id == i) with
  | none => n
  | some l =>
    let n : Net := { n with listenerList := n.listenerList.map fun x =>
      if x.id == i then { x with transport := none } else x }
    n.eraseListener { l with transport := none }

/-- The destructor finds no transport, and all that happens is that the listener goes. -/
theorem disconnectListener_eq (i : ListenerId) :
    n.disconnectListener i = n.listenerDisconnect i := by
  unfold disconnectListener listenerDisconnect
  cases hfind : n.listenerList.find? (·.id == i) with
  | none =>
    have hall : ∀ x ∈ n.listenerList, (x.id != i) = true := by
      simpa using List.find?_eq_none.mp hfind
    rw [filter_eq_self.mpr hall]
  | some l =>
    have hid : l.id = i := by simpa using List.find?_some hfind
    simp only [eraseListener, hid, filter_map]
    congr 1
    rw [filter_congr (q := (·.id != i)) fun x _ => ?_]
    · refine (map_congr_left fun x hx => ?_).trans (map_id _)
      rw [if_neg (by simpa using (mem_filter.mp hx).2)]
      rfl
    · simp only [comp_apply]
      split <;> rfl

/-- What `RunDisconnects` does to the listeners and the lists. -/
structure RunsDisconnects (n : Net) (t : TransportId) : Prop where
  /-- Exactly the listeners of the transport go. -/
  removed : (n.runDisconnects t).listenerList = n.listenerList.filter (·.transport != some t)
  /-- All other registrations stay. -/
  others : ∀ u, u ≠ t → (n.runDisconnects t).transports u = n.transports u
  /-- The list of the transport is empty. -/
  emptied : ((n.runDisconnects t).transports t).disconnects = []
  /-- No callback writes to a list, so none is modified while it is iterated over. -/
  undisturbed : ∀ done, done <+: (n.transports t).disconnects →
    (done.foldl disconnectListener n).transports = n.transports

/-- If they correspond, the callbacks of a transport remove exactly its listeners. -/
theorem Registered.runsDisconnects (h : n.Registered) (t : TransportId) : n.RunsDisconnects t where
  removed := by
    rw [runDisconnects_listenerList]
    refine filter_congr fun l hl => ?_
    have hiff : l.id ∈ (n.transports t).disconnects ↔ l.transport = some t :=
      ((h.listing t).mem_iff l.id).trans (h.owns_iff hl)
    by_cases ht : l.transport = some t
    · simp [hiff.mpr ht, ht]
    · simp [mt hiff.mp ht, ht]
  others u hu := by rw [runDisconnects_transports, update_of_ne hu]
  emptied := by rw [runDisconnects_transports, update_self]
  undisturbed done _ := by
    have hcallback : disconnectListener = listenerDisconnect := by
      funext n i
      exact disconnectListener_eq i
    rw [hcallback, listenerDisconnect_foldl_transports]

/-- **The callbacks.** -/
theorem Registered.runDisconnects (h : n.Registered) (t : TransportId) :
    (n.runDisconnects t).Registered := by
  have hruns := h.runsDisconnects t
  have hnext : (n.runDisconnects t).nextListener = n.nextListener := by
    unfold Net.runDisconnects
    generalize (n.transports t).disconnects = ls
    change (ls.foldl listenerDisconnect n).nextListener = _
    clear hruns h
    induction ls generalizing n with
    | nil => rfl
    | cons l ls ih => exact ih
  have howns : ∀ u i, (n.runDisconnects t).Owns u i ↔ n.Owns u i ∧ u ≠ t := by
    intro u i
    unfold Owns
    rw [hruns.removed]
    constructor
    · rintro ⟨l, hl, rfl, hu⟩
      obtain ⟨hmem, hne⟩ := mem_filter.mp hl
      exact ⟨⟨l, hmem, rfl, hu⟩, by simpa [hu] using hne⟩
    · rintro ⟨⟨l, hl, rfl, hu⟩, hne⟩
      exact ⟨l, mem_filter.mpr ⟨hl, by simpa [hu] using hne⟩, rfl, hu⟩
  refine ⟨?_, fun l hl => ?_, fun u => ?_⟩
  · rw [hruns.removed]
    exact h.ids.sublist (filter_sublist.map _)
  · rw [hruns.removed] at hl
    rw [hnext]
    exact h.fresh l (mem_filter.mp hl).1
  · by_cases hu : u = t
    · subst hu
      rw [hruns.emptied]
      exact Listing.nil fun i hi => ((howns u i).mp hi).2 rfl
    · rw [hruns.others u hu]
      exact (h.listing u).congr fun i => by simp [howns u i, hu]

end Registered

end Net

/-! ### Sequences of calls -/

/-- A call that changes the listeners. -/
inductive ListenerOp
  | install (localName connectTo : Bytes) (t : TransportId) (noRebind : Bool)
  | remove (localName : Bytes)
  | removeAll
  | offline (t : TransportId)

/-- What a call does. -/
def ListenerOp.step (w : World) : ListenerOp → World
  | .install localName connectTo t noRebind =>
    (installListener w localName connectTo t noRebind).1
  | .remove localName =>
    match w.net.removeListener localName with
    | .error _ => w
    | .ok n => w.onNet fun _ => n
  | .removeAll => w.onNet (·.removeAllListeners)
  | .offline t => handleOffline w t

/-- Any sequence of calls, from a state with the listener for the clients only. -/
def registry : Machine World ListenerOp where
  init := fun w => Good w ∧ w.net.listenerList = [smartSocketListener] ∧ w.net.nextListener = 1 ∧
    ∀ t, (w.net.transports t).disconnects = []
  enabled := fun _ _ => True
  step := ListenerOp.step

section Registry

variable {w : World} {t : TransportId}

/-- Installing a listener keeps the world in order. -/
theorem good_installListener (h : Good w) (localName connectTo : Bytes) (noRebind : Bool) :
    Good (installListener w localName connectTo t noRebind).1 := by
  unfold installListener
  split
  · rename_i l hfind
    split
    · exact h
    · rename_i hsmart
      split
      · exact h
      · split
        · rename_i hnone
          have hsome := (h.listeners l (List.mem_of_find?_eq_some hfind)).resolve_left hsmart
          rw [Option.isNone_iff_eq_none.mp hnone] at hsome
          exact absurd hsome (by simp)
        · exact h.onNet (f := (·.rebindListener l connectTo t))
            (h.listeners.rebindListener l connectTo t)
  · split
    · exact h.tick
    · rename_i resolved _
      exact h.tick.onNet (f := (·.pushListener (resolvedName localName resolved) connectTo t))
        (Net.ListenersOk.pushListener h.listeners _ _ t)

theorem registered_installListener (h : w.net.Registered) (localName connectTo : Bytes)
    (noRebind : Bool) : (installListener w localName connectTo t noRebind).1.net.Registered := by
  unfold installListener
  split
  · rename_i l hfind
    split
    · exact h
    · split
      · exact h
      · split
        · exact h
        · exact h.rebindListener (List.mem_of_find?_eq_some hfind) _ _
  · split
    · exact h
    · exact h.pushListener _ _ _

/-- Removing all listeners takes all their registrations along. -/
theorem Net.Registered.removeAllListeners {n : Net} (h : n.Registered) :
    n.removeAllListeners.Registered := by
  -- The listeners to go are different, so each is still there when its turn comes.
  suffices hfold : ∀ (ls : List Alistener) (n : Net), n.Registered → ls.Sublist n.listenerList →
      (ls.foldl Net.eraseListener n).Registered from hfold _ n h filter_sublist
  intro ls
  induction ls with
  | nil => exact fun n h _ => h
  | cons l ls ih =>
    intro n h hsub
    have hl : l ∈ n.listenerList := hsub.subset mem_cons_self
    refine ih _ (h.eraseListener hl) ?_
    rw [Net.eraseListener_listenerList]
    have hids : (l.id :: ls.map (·.id)).Nodup := h.ids.sublist (hsub.map _)
    have hne : ∀ x ∈ ls, (x.id != l.id) = true := by
      intro x hx
      rw [bne_iff_ne]
      rintro hid
      exact (nodup_cons.mp hids).1 (hid ▸ mem_map_of_mem hx)
    have hkeep := hsub.filter (·.id != l.id)
    rwa [filter_cons_of_neg (by simp), filter_eq_self.mpr hne] at hkeep

/-- Every operation keeps the correspondence. -/
theorem registered_step (h : Good w) (hr : w.net.Registered) (op : ListenerOp) :
    Good (op.step w) ∧ (op.step w).net.Registered := by
  cases op with
  | install localName connectTo t noRebind =>
    exact ⟨good_installListener h _ _ _, registered_installListener hr _ _ _⟩
  | remove localName =>
    simp only [ListenerOp.step, Net.removeListener]
    cases hfind : w.net.listenerList.find? (·.localName == localName) with
    | none => exact ⟨h, hr⟩
    | some l =>
      refine ⟨h.onNet (h.listeners.subset ?_), hr.eraseListener (List.mem_of_find?_eq_some hfind)⟩
      rw [Net.eraseListener_listenerList]
      exact filter_sublist.subset
  | removeAll => exact ⟨good_of_calm (calm_removeAllListeners h) h, hr.removeAllListeners⟩
  | offline t =>
    refine ⟨good_handleOffline h, ?_⟩
    rw [ListenerOp.step, handleOffline_net h]
    split
    · exact hr
    · exact (hr.updTransport (f := ({ · with connectionState := .kCsOffline, online := false }))
        rfl).runDisconnects t

theorem registered_of_reach (h : registry.Reach w) : Good w ∧ w.net.Registered := by
  refine h.inv (P := fun w => Good w ∧ w.net.Registered) (fun w hw => ?_)
    fun w op _ hw _ => registered_step hw.1 hw.2 op
  obtain ⟨hgood, hlist, hnext, hempty⟩ := hw
  refine ⟨hgood, by simp [hlist], fun l hl => ?_, fun t => ?_⟩
  · rw [hlist] at hl
    rw [mem_singleton.mp hl, hnext]
    exact Nat.one_pos
  · rw [hempty t]
    refine Listing.nil fun i => ?_
    rintro ⟨l, hl, -, ht⟩
    rw [hlist, mem_singleton] at hl
    exact absurd (hl ▸ ht) (by simp [smartSocketListener])

/-- **The lists of callbacks and the listeners correspond** after every sequence of
calls, and `RunDisconnects` removes the listeners of its transport and nothing else. -/
theorem registry_corresponds (h : registry.Reach w) (t : TransportId) :
    ((w.net.transports t).disconnects : Multiset ListenerId) = w.net.listenersOf t ∧
      (w.net.transports t).disconnects.Nodup ∧ w.net.RunsDisconnects t := by
  obtain ⟨-, hr⟩ := registered_of_reach h
  exact ⟨Multiset.coe_eq_coe.mpr (hr.perm t), (hr.listing t).nodup, hr.runsDisconnects t⟩

/-- Two listeners for one transport, one of them rebound to another. -/
def rebound : List ListenerOp :=
  [.install (ascii "tcp:1") (ascii "tcp:10") 1 false,
    .install (ascii "tcp:2") (ascii "tcp:20") 1 true,
    .install (ascii "tcp:1") (ascii "tcp:11") 2 false]

/-- Two listeners, one of them bound to another transport later. -/
theorem registry_corresponds_rebound :
    ∃ w, w = registry.run (initialWorld {} {}) rebound ∧
      (w.net.transports 1).disconnects = [2] ∧ (w.net.transports 2).disconnects = [1] ∧
        ((w.net.transports 2).disconnects : Multiset ListenerId) = w.net.listenersOf 2 ∧
          w.net.RunsDisconnects 2 := by
  have hinit : registry.Reach (initialWorld {} {}) :=
    .init ⟨good_initialWorld {} {}, rfl, rfl, fun _ => rfl⟩
  have hlegal : registry.Legal (initialWorld {} {}) rebound := ⟨trivial, trivial, trivial, trivial⟩
  have hreach := hinit.run hlegal
  obtain ⟨hlist, -, hruns⟩ := registry_corresponds hreach 2
  exact ⟨_, rfl, by decide +kernel, by decide +kernel, hlist, hruns⟩

end Registry

end AdbBridge
