import AdbBridge.Listeners.Forward
import AdbBridge.Listeners.Registration

/-!
# The names of listeners

Listeners are looked up by the name they were asked for, but they are stored under the
name they were bound to: whenever `socket_spec_listen` reports a port, `install_listener`
writes `tcp:<port>` over the name. For `tcp:0` that is the point. For `tcp:05`,
`tcp:localhost:5` or `vsock:5` it means that the name a client knows is not in the table, and
that two different sockets can be stored under one name. And `remove_listener`, unlike the
other functions, does not spare the listener the clients connect to.

`forwards` runs any sequence of requests through `handle_forward_request`. What goes
wrong, `NamesApart` excludes, and nothing else has to be excluded: `consistent_iff`. It is a
condition on what is asked for: on the form of the names, on the names in the table and, for
`tcp:0`, on the port the system picks.
-/

namespace AdbBridge

open List Option

/-- The listener table, with the name that was last asked for and the listener that was
installed or rebound for it. -/
structure ForwardTable where
  world : World
  installed : Option (Bytes × ListenerId) := none

/-- A call of `handle_forward_request`. -/
structure ForwardOp where
  service : Bytes
  acquired : Except Bytes TransportId
  client : Addr

/-- The listener a request has installed, or rebound, and the name it was asked for. -/
def ForwardOp.installs (w : World) (op : ForwardOp) : Option (Bytes × ListenerId) :=
  match forwardCall op.service op.acquired with
  | some (t, .forward noRebind name connectTo) =>
    match (installListener w name connectTo t noRebind).2 with
    | .ok _ => some (name, (w.net.named name).elim w.net.nextListener (·.id))
    | .error _ => none
  | _ => none

/-- Any sequence of requests, from a table that holds one listener, for the clients. -/
def forwards (smart : Alistener) : Machine ForwardTable ForwardOp where
  init s := smart.isSmartSocket = true ∧ smart.transport = none ∧
    s.world.net.listenerList = [smart] ∧ smart.id < s.world.net.nextListener ∧
      (∀ t, (s.world.net.transports t).disconnects = []) ∧ s.installed = none
  enabled _ _ := True
  step s op :=
    { world := (handleForwardRequest s.world op.service op.acquired op.client).1
      installed := op.installs s.world }

/-- **A consistent table.** -/
structure Consistent (smart : Alistener) (s : ForwardTable) : Prop where
  /-- No two listeners have the same name. -/
  names : (s.world.net.listenerList.map (·.localName)).Nodup
  /-- The listener for the clients is as it was. -/
  smart : smart ∈ s.world.net.listenerList
  /-- What has been installed can be removed by the name it was asked for. -/
  removable : ∀ name i, s.installed = some (name, i) → name ≠ ascii "tcp:0" →
    ∃ n, s.world.net.removeListener name = .ok n ∧
      n.listenerList = s.world.net.listenerList.filter (·.id != i) ∧
        ∃ l ∈ s.world.net.listenerList, l.id = i

/-- A request does not name the listener for the clients to remove it. And one that binds a
socket has a plain name, or it is for `tcp:0` and no listener has the name of the port that the
system picks. -/
def NamesApart (smart : Alistener) (s : ForwardTable) (op : ForwardOp) : Prop :=
  match forwardCall op.service op.acquired with
  | some (_, .killforward name) => name ≠ smart.localName
  | some (_, .forward _ name _) =>
    match s.world.net.named name, s.world.listen name with
    | none, .ok port => PlainName name ∨
        name = ascii "tcp:0" ∧ s.world.net.named (ascii "tcp:" ++ decimal port) = none
    | _, _ => True
  | none => True

instance (smart : Alistener) (s : ForwardTable) (op : ForwardOp) :
    Decidable (NamesApart smart s op) := by
  unfold NamesApart
  split
  · infer_instance
  · split <;> infer_instance
  · infer_instance

/-! ### Looking up a name -/

namespace Net

variable {n : Net} {l : Alistener} {name : Bytes}

theorem named_eq_none : n.named name = none ↔ ∀ l ∈ n.listenerList, l.localName ≠ name := by
  unfold named
  simp

theorem mem_of_named (h : n.named name = some l) : l ∈ n.listenerList ∧ l.localName = name :=
  ⟨List.mem_of_find?_eq_some h, by simpa using List.find?_some h⟩

theorem named_of_mem (hnames : (n.listenerList.map (·.localName)).Nodup)
    (hl : l ∈ n.listenerList) : n.named l.localName = some l := by
  cases hfind : n.named l.localName with
  | none => exact absurd rfl (named_eq_none.mp hfind l hl)
  | some x =>
    obtain ⟨hx, hname⟩ := mem_of_named hfind
    rw [inj_on_of_nodup_map hnames hx hl hname]

theorem named_isSome_of_removeListener {n' : Net} (h : n.removeListener name = .ok n') :
    (n.named name).isSome := by
  unfold removeListener at h
  unfold named
  cases hfind : n.listenerList.find? (·.localName == name) with
  | none => simp [hfind] at h
  | some l => rfl

/-- A listener is removed by its name. -/
theorem removeListener_of_mem (hnames : (n.listenerList.map (·.localName)).Nodup)
    (hl : l ∈ n.listenerList) : n.removeListener l.localName = .ok (n.eraseListener l) := by
  unfold removeListener
  rw [show n.listenerList.find? (·.localName == l.localName) = some l from named_of_mem hnames hl]

end Net

/-! ### The calls one by one -/

section Calls

variable {smart : Alistener} {s s' : ForwardTable} {t : TransportId} {name : Bytes}
  {connectTo : Bytes}

/-- A call that only removes listeners is as good as what it leaves of the clients'. -/
theorem consistent_of_sublist (hs : Consistent smart s) (hnone : s'.installed = none)
    (hsub : s'.world.net.listenerList.Sublist s.world.net.listenerList) :
    Consistent smart s' ↔ smart ∈ s'.world.net.listenerList := by
  refine ⟨Consistent.smart, fun hsmart => ⟨hs.names.sublist (hsub.map _), hsmart, ?_⟩⟩
  intro name i hi
  rw [hnone] at hi
  exact absurd hi (by simp)

/-- Removing a listener by its name is safe unless it is the name of the listener for the clients.
-/
theorem consistent_killforward (hr : s.world.net.Registered) (hs : Consistent smart s)
    (hnone : s'.installed = none)
    (hnet : s'.world.net = (runForwardRequest s.world t (.killforward name)).1.net) :
    Consistent smart s' ↔ name ≠ smart.localName := by
  have hlist : s'.world.net.listenerList = (s.world.net.named name).elim
      s.world.net.listenerList fun l => s.world.net.listenerList.filter (·.id != l.id) := by
    rw [hnet]
    simp only [runForwardRequest, Net.removeListener, Net.named]
    cases s.world.net.listenerList.find? (·.localName == name) with
    | none => rfl
    | some l => exact Net.eraseListener_listenerList
  cases hfind : s.world.net.named name with
  | none =>
    rw [hfind, elim_none] at hlist
    rw [consistent_of_sublist hs hnone (hlist ▸ List.Sublist.refl _), hlist]
    exact ⟨fun _ => (Net.named_eq_none.mp hfind smart hs.smart).symm, fun _ => hs.smart⟩
  | some l =>
    obtain ⟨hl, hname⟩ := Net.mem_of_named hfind
    rw [hfind, elim_some] at hlist
    rw [consistent_of_sublist hs hnone (hlist ▸ filter_sublist), hlist, mem_filter,
      bne_iff_ne, and_iff_right hs.smart, ← hname]
    -- Both names and ids tell listeners apart.
    refine not_congr ⟨fun hid => ?_, fun heq => ?_⟩
    · rw [hr.eq_of_id hs.smart hl hid]
    · rw [inj_on_of_nodup_map hs.names hl hs.smart heq]

/-- A listener that was there is pointed elsewhere. -/
theorem consistent_rebind {l : Alistener} (hr : s.world.net.Registered)
    (hs : Consistent smart s) (hl : l ∈ s.world.net.listenerList) (hne : l ≠ smart)
    (hinst : s'.installed = some (l.localName, l.id))
    (hlist : s'.world.net.listenerList = s.world.net.listenerList.map fun x =>
      if x.id == l.id then { x with connectTo := connectTo, transport := some t } else x) :
    Consistent smart s' := by
  have hsame : s'.world.net.listenerList.map (·.localName) =
      s.world.net.listenerList.map (·.localName) := by
    rw [hlist, List.map_map]
    refine map_congr_left fun x _ => ?_
    simp only [Function.comp_apply]
    split <;> rfl
  have hnames : (s'.world.net.listenerList.map (·.localName)).Nodup := hsame ▸ hs.names
  refine ⟨hnames, ?_, ?_⟩
  · rw [hlist]
    refine List.mem_map.mpr ⟨smart, hs.smart, if_neg fun hid => hne ?_⟩
    exact hr.eq_of_id hl hs.smart (eq_of_beq hid).symm
  · intro name i hi _
    rw [hinst, some.injEq, Prod.mk.injEq] at hi
    obtain ⟨rfl, rfl⟩ := hi
    -- The listener is still there, under its name and its id.
    obtain ⟨l', hl', hid, hname⟩ : ∃ l' ∈ s'.world.net.listenerList,
        l'.id = l.id ∧ l'.localName = l.localName := by
      refine ⟨{ l with connectTo := connectTo, transport := some t }, ?_, rfl, rfl⟩
      rw [hlist]
      exact List.mem_map.mpr ⟨l, hl, by simp⟩
    refine ⟨_, hname ▸ Net.removeListener_of_mem hnames hl', ?_, l', hl', hid⟩
    rw [Net.eraseListener_listenerList, hid]

/-- A listener is added under the name it was bound to. -/
theorem consistent_push {bound : Bytes} {i : ListenerId} (hs : Consistent smart s)
    (hnone : s.world.net.named name = none) (hinst : s'.installed = some (name, i))
    (hlist : s'.world.net.listenerList = s.world.net.listenerList ++
      [{ id := i, localName := bound, connectTo := connectTo, transport := some t }]) :
    Consistent smart s' ↔
      s.world.net.named bound = none ∧ (bound = name ∨ name = ascii "tcp:0") := by
  have hnames : (s'.world.net.listenerList.map (·.localName)).Nodup ↔
      s.world.net.named bound = none := by
    rw [hlist, map_append, map_singleton, nodup_append_comm,
      singleton_append, nodup_cons, and_iff_left hs.names, Net.named_eq_none]
    simp
  constructor
  · intro hs'
    refine ⟨hnames.mp hs'.names, or_iff_not_imp_right.mpr fun hzero => ?_⟩
    -- Whatever is found under the name asked for must be the listener that was added.
    obtain ⟨n, hn, -⟩ := hs'.removable name i hinst hzero
    obtain ⟨l, hfind⟩ := isSome_iff_exists.mp (Net.named_isSome_of_removeListener hn)
    obtain ⟨hl, hname⟩ := Net.mem_of_named hfind
    rw [hlist] at hl
    rcases mem_append.mp hl with hl | hl
    · exact absurd hname (Net.named_eq_none.mp hnone l hl)
    · rw [← hname, mem_singleton.mp hl]
  · rintro ⟨hfree, hbound⟩
    have hnames' := hnames.mpr hfree
    refine ⟨hnames', hlist ▸ mem_append_left _ hs.smart, ?_⟩
    intro name' i' hi hzero
    rw [hinst, some.injEq, Prod.mk.injEq] at hi
    obtain ⟨rfl, rfl⟩ := hi
    obtain rfl : bound = name := hbound.resolve_right hzero
    have hl : { id := i, localName := bound, connectTo := connectTo, transport := some t } ∈
        s'.world.net.listenerList := by simp [hlist]
    refine ⟨_, Net.removeListener_of_mem hnames' hl, ?_, _, hl, rfl⟩
    rw [Net.eraseListener_listenerList]

end Calls

/-! ### Runs -/

section Runs

variable {smart : Alistener} {s : ForwardTable} {w : World}

theorem world_net_step (s : ForwardTable) (op : ForwardOp) :
    ((forwards smart).step s op).world.net =
      match forwardCall op.service op.acquired with
      | some (t, request) => (runForwardRequest s.world t request).1.net
      | none => if op.service = ascii "killforward-all" then s.world.net.removeAllListeners
        else s.world.net := net_handleForwardRequest_eq _

/-- Listeners and registrations correspond after every request. -/
theorem registered_runForwardRequest (h : w.net.Registered) (hok : w.net.ListenersOk)
    (t : TransportId) (request : ForwardRequest) :
    (runForwardRequest w t request).1.net.Registered ∧
      (runForwardRequest w t request).1.net.ListenersOk := by
  cases request with
  | killforward name =>
    simp only [runForwardRequest, Net.removeListener]
    cases hfind : w.net.listenerList.find? (·.localName == name) with
    | none => exact ⟨h, hok⟩
    | some l =>
      refine ⟨h.eraseListener (List.mem_of_find?_eq_some hfind), hok.subset ?_⟩
      exact Net.eraseListener_listenerList ▸ filter_sublist.subset
  | forward noRebind name connectTo =>
    refine ⟨registered_installListener h _ _ _, ?_⟩
    simp only [runForwardRequest, installListener]
    repeat' split
    · exact hok
    · exact hok
    · exact hok
    · exact hok.rebindListener _ _ _
    · exact hok
    · exact Net.ListenersOk.pushListener hok _ _ _

theorem Net.listenersOk_removeAllListeners {n : Net} (h : n.ListenersOk) :
    n.removeAllListeners.ListenersOk := by
  refine h.subset ?_
  rw [Net.removeAllListeners, Net.foldl_eraseListener_listenerList]
  exact filter_sublist.subset

/-- They correspond in every state of the table. -/
theorem registered_of_forwards (h : (forwards smart).Reach s) :
    s.world.net.Registered ∧ s.world.net.ListenersOk ∧ smart.isSmartSocket = true := by
  refine h.inv (P := fun s => s.world.net.Registered ∧ s.world.net.ListenersOk ∧
    smart.isSmartSocket = true) ?_ ?_
  · rintro s ⟨hsmart, ht, hlist, hfresh, hempty, -⟩
    refine ⟨⟨by simp [hlist], by simpa [hlist] using hfresh, fun t => ?_⟩, ?_, hsmart⟩
    · rw [hempty t]
      refine Listing.nil fun i => ?_
      rintro ⟨l, hl, -, hlt⟩
      rw [hlist, mem_singleton] at hl
      exact absurd (ht.symm.trans (hl ▸ hlt)) (by simp)
    · intro l hl
      rw [hlist, mem_singleton] at hl
      exact Or.inl (hl ▸ hsmart)
  · rintro s op - ⟨hr, hok, hsmart⟩ -
    rw [world_net_step]
    refine and_assoc.mp ⟨?_, hsmart⟩
    split
    · exact registered_runForwardRequest hr hok _ _
    · split
      · exact ⟨hr.removeAllListeners, Net.listenersOk_removeAllListeners hok⟩
      · exact ⟨hr, hok⟩

/-- A listener is added under a new name, and the one asked for, exactly if the name is plain or
the port is left to the system. -/
theorem bound_new_iff {name : Bytes} {port : ℕ} (hnone : w.net.named name = none)
    (hlisten : w.listen name = .ok port) :
    (w.net.named (resolvedName name port) = none ∧
        (resolvedName name port = name ∨ name = ascii "tcp:0")) ↔
      (PlainName name ∨
        name = ascii "tcp:0" ∧ w.net.named (ascii "tcp:" ++ decimal port) = none) := by
  have hplain := resolvedName_eq_self_iff hlisten
  by_cases hname : PlainName name
  · have hbound := hplain.mpr hname
    exact iff_of_true ⟨hbound.symm ▸ hnone, .inl hbound⟩ (.inl hname)
  · rw [or_iff_right (mt hplain.mp hname), or_iff_right hname, and_comm]
    refine and_congr_right ?_
    rintro rfl
    have hport : port ≠ 0 := fun hzero =>
      absurd ((resolved_eq_zero_iff hlisten).mp hzero).1 (by decide +kernel)
    rw [resolvedName, if_neg hport]

/-- `install_listener` keeps the table consistent exactly if the socket it binds has a plain name
or a port that the system picks. -/
theorem consistent_forward {t : TransportId} {noRebind : Bool} {name connectTo : Bytes}
    {s' : ForwardTable} (hr : s.world.net.Registered) (hok : s.world.net.ListenersOk)
    (hs : Consistent smart s) (hsmart : smart.isSmartSocket = true)
    (hnet : s'.world.net = (installListener s.world name connectTo t noRebind).1.net)
    (hinst : s'.installed = match (installListener s.world name connectTo t noRebind).2 with
      | .ok _ => some (name, (s.world.net.named name).elim s.world.net.nextListener (·.id))
      | .error _ => none) :
    Consistent smart s' ↔
      match s.world.net.named name, s.world.listen name with
      | none, .ok port => PlainName name ∨
          name = ascii "tcp:0" ∧ s.world.net.named (ascii "tcp:" ++ decimal port) = none
      | _, _ => True := by
  have hsame : s'.world.net = s.world.net → s'.installed = none → Consistent smart s' := by
    intro hnet hnone
    have hlist : s'.world.net.listenerList = s.world.net.listenerList := by rw [hnet]
    rw [consistent_of_sublist hs hnone (hlist ▸ List.Sublist.refl _), hlist]
    exact hs.smart
  cases hfind : s.world.net.named name with
  | some l =>
    have hfind' : s.world.net.listenerList.find? (·.localName == name) = some l := hfind
    obtain ⟨hl, rfl⟩ := Net.mem_of_named hfind
    refine iff_of_true ?_ trivial
    simp only [installListener, hfind'] at hnet hinst
    by_cases hspecial : l.isSmartSocket = true
    · simp only [hspecial, if_true] at hnet hinst
      exact hsame hnet hinst
    · have hsome := (hok l hl).resolve_left hspecial
      have hnone : l.transport.isNone = false := by simpa using hsome
      simp only [hspecial, hnone, Bool.false_eq_true, if_false] at hnet hinst
      cases noRebind with
      | true => exact hsame hnet hinst
      | false =>
        rw [hfind] at hinst
        have hnet' : s'.world.net = s.world.net.rebindListener l connectTo t := hnet
        refine consistent_rebind hr hs hl ?_ hinst
          (hnet' ▸ Net.rebindListener_listenerList connectTo)
        rintro rfl
        exact hspecial hsmart
  | none =>
    have hfind' : s.world.net.listenerList.find? (·.localName == name) = none := hfind
    simp only [installListener, hfind'] at hnet hinst
    cases hlisten : s.world.listen name with
    | error e =>
      simp only [hlisten] at hnet hinst
      exact iff_of_true (hsame hnet hinst) trivial
    | ok resolved =>
      simp only [hlisten, hfind] at hnet hinst
      exact (consistent_push hs hfind hinst (by rw [hnet]; rfl)).trans (bound_new_iff hfind hlisten)

/-- **One request** leaves the table consistent exactly if the names are apart. -/
theorem consistent_step_iff (h : (forwards smart).Reach s) (hs : Consistent smart s)
    (op : ForwardOp) : Consistent smart ((forwards smart).step s op) ↔ NamesApart smart s op := by
  obtain ⟨hr, hok, hsmart⟩ := registered_of_forwards h
  have hnet := @world_net_step smart s op
  have hinst : ((forwards smart).step s op).installed = op.installs s.world := rfl
  unfold NamesApart
  unfold ForwardOp.installs at hinst
  rcases hcall : forwardCall op.service op.acquired with _ | ⟨t, name | ⟨noRebind, name, connectTo⟩⟩
  · simp only [hcall] at hnet hinst ⊢
    rw [iff_true]
    split at hnet
    · -- The listeners that go are those that do not start with an asterisk.
      have hlist := (congrArg Net.listenerList hnet).trans
        (Net.foldl_eraseListener_listenerList _ _)
      rw [consistent_of_sublist hs hinst (hlist ▸ filter_sublist), hlist, mem_filter]
      refine ⟨hs.smart, ?_⟩
      rw [Bool.not_eq_true', List.any_eq_false]
      intro l hl hid
      obtain ⟨hmem, hstar⟩ := mem_filter.mp hl
      obtain rfl := hr.eq_of_id hmem hs.smart (eq_of_beq hid)
      rw [eq_of_beq hsmart] at hstar
      exact absurd hstar (by decide)
    · have hlist := congrArg Net.listenerList hnet
      rw [consistent_of_sublist hs hinst (hlist ▸ List.Sublist.refl _), hlist]
      exact hs.smart
  · simp only [hcall] at hnet hinst ⊢
    exact consistent_killforward hr hs hinst hnet
  · simp only [hcall] at hnet hinst ⊢
    exact consistent_forward hr hok hs hsmart hnet hinst

/-- **The listener table stays consistent** exactly as long as no request removes the
listener for the clients, and every socket is asked for by a plain name, or by `tcp:0` where no
listener has the name of the port that the system picks. -/
theorem consistent_iff (h : (forwards smart).init s) (ops : List ForwardOp) :
    (∀ ops', ops' <+: ops → Consistent smart ((forwards smart).run s ops')) ↔
      (forwards smart).Meets (NamesApart smart) s ops := by
  refine Machine.forall_prefix_iff (fun s op hs hcons _ => consistent_step_iff hs hcons op)
    (.init h) ?_ (Machine.legal_of_forall (fun _ _ => trivial) s ops)
  obtain ⟨-, -, hlist, -, -, hnone⟩ := h
  refine ⟨by simp [hlist], by simp [hlist], fun name i hi => ?_⟩
  rw [hnone] at hi
  exact absurd hi (by simp)

/-! ### What goes wrong -/

/-- A request of a client, on the only transport. -/
def forwardOp (service : String) : ForwardOp := ⟨ascii service, .ok 1, 0⟩

/-- A server whose system picks the given ports, one after the other. -/
def listening (ports : List ℕ) : ForwardTable where
  world := initialWorld {} { listen := fun i => .ok (ports.getD i 0) }

theorem init_listening (ports : List ℕ) : (forwards smartSocketListener).init (listening ports) :=
  ⟨by decide, rfl, rfl, Nat.one_pos, fun _ => rfl, rfl⟩

theorem consistent_iff_plain :
    Consistent smartSocketListener ((forwards smartSocketListener).run (listening [1, 4321])
      [forwardOp "forward:tcp:5;tcp:6", forwardOp "forward:tcp:5;tcp:7",
        forwardOp "forward:tcp:0;tcp:8", forwardOp "forward:localabstract:a;tcp:9",
        forwardOp "killforward:tcp:5"]) :=
  (consistent_iff (init_listening _) _).mpr (by decide +kernel) _ prefix_rfl

/-- The listener for the clients is removed by a request for its name. A socket that was
asked for as `tcp:05` is not found under that name again. And a listener on `vsock:5` is
stored under the name of the one on `tcp:5`. -/
theorem not_consistent :
    ¬Consistent smartSocketListener ((forwards smartSocketListener).run (listening [])
        [forwardOp "killforward:tcp:5037"]) ∧
      ¬Consistent smartSocketListener ((forwards smartSocketListener).run (listening [])
        [forwardOp "forward:tcp:05;tcp:6"]) ∧
      ¬Consistent smartSocketListener ((forwards smartSocketListener).run (listening [])
        [forwardOp "forward:tcp:5;tcp:6", forwardOp "forward:vsock:5;tcp:7"]) := by
  refine ⟨fun h => absurd h.smart (by decide +kernel), fun h => ?_,
    fun h => absurd h.names (by decide +kernel)⟩
  obtain ⟨n, hn, -⟩ := h.removable (ascii "tcp:05") 1 (by decide +kernel) (by decide +kernel)
  exact absurd (Net.named_isSome_of_removeListener hn) (by decide +kernel)

end Runs

end AdbBridge
