import AdbBridge.Lib.Listing
import AdbBridge.Lib.Pairing
import AdbBridge.Server

/-!
# The socket graph

What holds of the tables of `sockets.cpp` between any two operations. The sockets form
a pairing by their `peer` pointers; the two lists hold the local sockets, each in the
one its `closing` flag says; the ids of local sockets are all different; and a local
socket whose queue is not empty waits for its descriptor to take more, unless writing
has failed.

`SockTable.Graph` is the invariant and this file shows that the few things the code
does to the tables keep it: write to a socket without touching its links, make a
socket, join two, part two, and retire one that is alone. Everything else is put
together from these.
-/

namespace AdbBridge

open Option Function

/-! ### The invariant -/

/-- What holds of a socket by itself. -/
structure Asocket.Ok (s : Asocket) : Prop where
  /-- Only a local socket waits on the closing list, alone and with data to write. -/
  closing : s.closing = true → s.kind = .localSocket ∧ s.peer = none ∧
    s.packetQueue.bytes ≠ [] ∧ s.hasWriteError = false ∧ s.fde.read = false
  /-- Data in the queue is waiting for the descriptor. -/
  write : s.kind = .localSocket → s.packetQueue.bytes ≠ [] → s.hasWriteError = false →
    s.fde.write = true
  remote : s.kind = .remoteSocket → s.id ≠ 0 ∧ s.transport.isSome

variable {s : Asocket}

/-- A socket that loses its peer is still in order. -/
theorem Asocket.Ok.detach (h : s.Ok) : ({ s with peer := none } : Asocket).Ok where
  closing hc := let ⟨h1, _, h3⟩ := h.closing hc; ⟨h1, rfl, h3⟩
  write := h.write
  remote := h.remote

/-- A socket that is not closing may get a peer. -/
theorem Asocket.Ok.attach (h : s.Ok) (hc : s.closing = false) (p : Addr) :
    ({ s with peer := some p } : Asocket).Ok where
  closing hc' := absurd (hc.symm.trans hc') (by simp)
  write := h.write
  remote := h.remote

/-- A local socket that has not been closed. -/
def Asocket.IsOpen (s : Asocket) : Prop := s.kind = .localSocket ∧ s.closing = false

/-- A local socket that has been closed with data left to write. -/
def Asocket.IsClosing (s : Asocket) : Prop := s.kind = .localSocket ∧ s.closing = true

def Asocket.IsTracker (s : Asocket) : Prop := s.kind = .deviceTracker

/-- What holds of the two ends of a link. -/
def Asocket.Joins (s q : Asocket) : Prop :=
  (s.kind ≠ .localSocket → q.kind = .localSocket) ∧
    (s.kind = .localSocket → s.transport ≠ none → q.kind = .remoteSocket)

/-- What decides which lists a socket is on. -/
def Asocket.role (s : Asocket) : SocketKind × ℕ × Bool := (s.kind, s.id, s.closing)

namespace SockTable

/-- There is a socket with the property at the address. -/
def At (k : SockTable) (a : Addr) (P : Asocket → Prop) : Prop := ∃ s, k.heap a = some s ∧ P s

/-- The `peer` pointers. -/
def peerOf (k : SockTable) (a : Addr) : Option Addr := (k.heap a).bind (·.peer)

/-- What holds of the sockets and their links. -/
structure Links (k : SockTable) : Prop where
  /-- Nothing lives above the next address. -/
  fresh : ∀ a, k.brk ≤ a → k.heap a = none
  ok : ∀ a s, k.heap a = some s → s.Ok
  pairing : Pairing k.peerOf
  /-- One end of every link is local. -/
  mixed : ∀ a s p q, k.heap a = some s → s.peer = some p → k.heap p = some q →
    s.kind ≠ .localSocket → q.kind = .localSocket
  /-- A local socket with a transport is linked to a remote one, if it is linked. -/
  bound : ∀ a s p q, k.heap a = some s → s.peer = some p → k.heap p = some q →
    s.kind = .localSocket → s.transport ≠ none → q.kind = .remoteSocket

/-- **The invariant of the socket graph**: the links, and the lists over them. -/
structure Graph (k : SockTable) : Prop extends Links k where
  list : Listing k.localSocketList fun a => k.At a Asocket.IsOpen
  closing : Listing k.localSocketClosingList fun a => k.At a Asocket.IsClosing
  trackers : Listing k.deviceTrackerList fun a => k.At a Asocket.IsTracker
  id_bound : ∀ a s, k.heap a = some s → s.kind = .localSocket →
    0 < s.id ∧ s.id < k.localSocketNextId
  id_inj : ∀ a b s s', k.heap a = some s → k.heap b = some s' → s.kind = .localSocket →
    s'.kind = .localSocket → s.id = s'.id → a = b
  next_pos : 0 < k.localSocketNextId

variable {k : SockTable} {a b p : Addr} {s : Asocket} {s' q : Asocket} {k' : SockTable}
  {f : Asocket → Asocket} {P : Asocket → Prop}

theorem peerOf_of_some (h : k.heap a = some s) : k.peerOf a = s.peer := by
  simp [peerOf, h]

theorem Links.joins (h : k.Links) (hs : k.heap a = some s) (hp : s.peer = some p)
    (hq : k.heap p = some q) : s.Joins q :=
  ⟨h.mixed a s p q hs hp hq, h.bound a s p q hs hp hq⟩

theorem Links.of_joins (hfresh : ∀ a, k.brk ≤ a → k.heap a = none)
    (hok : ∀ a s, k.heap a = some s → s.Ok) (hpairing : Pairing k.peerOf)
    (hjoins : ∀ a s p q, k.heap a = some s → s.peer = some p → k.heap p = some q → s.Joins q) :
    k.Links where
  fresh := hfresh
  ok := hok
  pairing := hpairing
  mixed a s p q hs hp hq := (hjoins a s p q hs hp hq).1
  bound a s p q hs hp hq := (hjoins a s p q hs hp hq).2

/-! ### Changes that leave the lists alone -/

/-- The second table has the same lists over the same sockets as the first. -/
structure SameRoles (k k' : SockTable) : Prop where
  cells : ∀ a, (k'.heap a).map Asocket.role = (k.heap a).map Asocket.role
  brk : k'.brk = k.brk
  list : k'.localSocketList = k.localSocketList
  closing : k'.localSocketClosingList = k.localSocketClosingList
  nextId : k'.localSocketNextId = k.localSocketNextId
  trackers : k'.deviceTrackerList = k.deviceTrackerList

theorem SameRoles.trans {k'' : SockTable} (h : SameRoles k k') (h' : SameRoles k' k'') :
    SameRoles k k'' where
  cells a := (h'.cells a).trans (h.cells a)
  brk := h'.brk.trans h.brk
  list := h'.list.trans h.list
  closing := h'.closing.trans h.closing
  nextId := h'.nextId.trans h.nextId
  trackers := h'.trackers.trans h.trackers

theorem SameRoles.fresh (h : SameRoles k k') (hk : k.Graph) (ha : k'.brk ≤ a) :
    k'.heap a = none := by
  have := h.cells a
  rwa [hk.fresh a (h.brk ▸ ha), map_none, map_eq_none_iff] at this

theorem SameRoles.upd (hf : ∀ s, k.heap a = some s → (f s).role = s.role) :
    SameRoles k (k.upd a f) where
  cells b := by
    by_cases hb : b = a
    · subst hb
      cases hs : k.heap b with
      | none => simp [SockTable.upd, hs]
      | some s => rw [upd_heap_self hs, map_some, hf s hs, map_some]
    · rw [upd_heap_of_ne hb]
  brk := rfl
  list := rfl
  closing := rfl
  nextId := rfl
  trackers := rfl

/-- The socket a cell held before the change. -/
theorem SameRoles.origin (h : SameRoles k k') (hs' : k'.heap a = some s') :
    ∃ s, k.heap a = some s ∧ s'.kind = s.kind ∧ s'.id = s.id ∧ s'.closing = s.closing := by
  have hc := h.cells a
  rw [hs', map_some] at hc
  obtain ⟨s, hs, hrole⟩ := map_eq_some_iff.mp hc.symm
  simp only [Asocket.role, Prod.mk.injEq] at hrole
  exact ⟨s, hs, hrole.1.symm, hrole.2.1.symm, hrole.2.2.symm⟩

/-- What a list is about is the same before and after. -/
theorem SameRoles.at_iff (h : SameRoles k k')
    (P : SocketKind × ℕ × Bool → Prop) : k'.At a (P ·.role) ↔ k.At a (P ·.role) := by
  have hc := h.cells a
  cases hk : k.heap a <;> cases hk' : k'.heap a <;> simp [At, hk, hk'] at hc ⊢
  rw [hc]

theorem SameRoles.isOpen_iff (h : SameRoles k k') :
    k'.At a Asocket.IsOpen ↔ k.At a Asocket.IsOpen :=
  h.at_iff fun r => r.1 = .localSocket ∧ r.2.2 = false

theorem SameRoles.isTracker_iff (h : SameRoles k k') :
    k'.At a Asocket.IsTracker ↔ k.At a Asocket.IsTracker :=
  h.at_iff (·.1 = .deviceTracker)

/-- A change that leaves the lists alone has to keep the links. -/
theorem Graph.of_sameRoles (h : k.Graph) (hk : SameRoles k k') (hlinks : k'.Links) : k'.Graph where
  toLinks := hlinks
  list := hk.list ▸ h.list.congr fun _ => hk.isOpen_iff.symm
  closing := hk.closing ▸ h.closing.congr fun _ =>
    (hk.at_iff fun r => r.1 = .localSocket ∧ r.2.2 = true).symm
  trackers := hk.trackers ▸ h.trackers.congr fun _ => hk.isTracker_iff.symm
  id_bound a s hs hkind := by
    obtain ⟨s', hs', h1, h2, -⟩ := hk.origin hs
    rw [h2, hk.nextId]
    exact h.id_bound a s' hs' (h1 ▸ hkind)
  id_inj a b s s' hs hs' hkind hkind' hid := by
    obtain ⟨r, hr, h1, h2, -⟩ := hk.origin hs
    obtain ⟨r', hr', h1', h2', -⟩ := hk.origin hs'
    exact h.id_inj a b r r' hr hr' (h1 ▸ hkind) (h1' ▸ hkind') (by rw [← h2, ← h2', hid])
  next_pos := hk.nextId ▸ h.next_pos

/-! ### Writing to a socket -/

theorem peerOf_upd_of_ne (h : b ≠ a) : (k.upd a f).peerOf b = k.peerOf b := by
  rw [peerOf, peerOf, upd_heap_of_ne h]

theorem peerOf_upd_self (h : k.heap a = some s) :
    (k.upd a f).peerOf a = (f s).peer := peerOf_of_some (upd_heap_self h f)

/-- A cell after a write is the one written to or one that was there before. -/
theorem heap_upd_cases (h : k.heap a = some s)
    (hb : (k.upd a f).heap b = some s') : b = a ∧ s' = f s ∨ b ≠ a ∧ k.heap b = some s' := by
  by_cases hba : b = a
  · subst hba
    rw [upd_heap_self h] at hb
    exact Or.inl ⟨rfl, (some.inj hb).symm⟩
  · rw [upd_heap_of_ne hba] at hb
    exact Or.inr ⟨hba, hb⟩

theorem at_upd (h : k.heap a = some s) :
    (k.upd a f).At b P ↔ k.At b P ∧ b ≠ a ∨ b = a ∧ P (f s) := by
  by_cases hba : b = a
  · subst hba
    simp [At, upd_heap_self h]
  · simp [At, upd_heap_of_ne hba, hba]

/-- A write that does not touch the links keeps them. -/
theorem Links.upd (h : k.Links) (hs : k.heap a = some s)
    (hkind : (f s).kind = s.kind) (hpeer : (f s).peer = s.peer) (hok : (f s).Ok)
    (htransport : s.kind = .localSocket → s.peer ≠ none → (f s).transport = s.transport) :
    (k.upd a f).Links := by
  have horigin : ∀ b s', (k.upd a f).heap b = some s' → ∃ r, k.heap b = some r ∧
      s'.kind = r.kind ∧ s'.peer = r.peer ∧
      (r.kind = .localSocket → r.peer ≠ none → s'.transport = r.transport) := by
    intro b s' hb
    rcases heap_upd_cases hs hb with ⟨rfl, rfl⟩ | ⟨-, hb⟩
    · exact ⟨s, hs, hkind, hpeer, htransport⟩
    · exact ⟨s', hb, rfl, rfl, fun _ _ => rfl⟩
  have hpeerOf : (k.upd a f).peerOf = k.peerOf := by
    funext b
    by_cases hb : b = a
    · rw [hb, peerOf_upd_self hs, hpeer, peerOf_of_some hs]
    · exact peerOf_upd_of_ne hb
  refine .of_joins (fun b hb => ?_) (fun b s' hb => ?_) (hpeerOf ▸ h.pairing) ?_
  · have hba : b ≠ a := by
      rintro rfl
      exact absurd ((h.fresh b hb).symm.trans hs) (by simp)
    rw [upd_heap_of_ne hba]
    exact h.fresh b hb
  · rcases heap_upd_cases hs hb with ⟨-, rfl⟩ | ⟨-, hb⟩
    · exact hok
    · exact h.ok b s' hb
  · intro b s' p q hb hp hq
    obtain ⟨r, hr, h1, h2, h3⟩ := horigin b s' hb
    obtain ⟨r', hr', h1', -, -⟩ := horigin p q hq
    have hrp : r.peer = some p := h2 ▸ hp
    obtain ⟨hmixed, hbound⟩ := h.joins hr hrp hr'
    rw [Asocket.Joins, h1, h1']
    refine ⟨hmixed, fun hlocal ht => hbound hlocal ?_⟩
    rwa [← h3 hlocal (by rw [hrp]; simp)]

/-- **A write that touches neither links nor lists keeps the graph.** -/
theorem Graph.upd (h : k.Graph) (hs : k.heap a = some s)
    (hrole : (f s).role = s.role) (hpeer : (f s).peer = s.peer) (hok : (f s).Ok)
    (htransport : s.kind = .localSocket → s.peer ≠ none → (f s).transport = s.transport) :
    (k.upd a f).Graph := by
  refine h.of_sameRoles (SameRoles.upd fun r hr => ?_)
    (h.toLinks.upd hs (congrArg Prod.fst hrole) hpeer hok htransport)
  obtain rfl : s = r := some.inj (hs.symm.trans hr)
  exact hrole

/-! ### Joining and parting sockets -/

/-- Clear the pointers of two sockets. -/
def unlink (k : SockTable) (a p : Addr) : SockTable :=
  (k.upd p ({ · with peer := none })).upd a ({ · with peer := none })

/-- Point two sockets at each other. -/
def link (k : SockTable) (a p : Addr) : SockTable :=
  (k.upd a ({ · with peer := some p })).upd p ({ · with peer := some a })

/-- A cell after parting two sockets. -/
theorem heap_unlink_cases (hb : (k.unlink a p).heap b = some s') :
    ∃ r, k.heap b = some r ∧ (s' = { r with peer := none } ∧ (b = a ∨ b = p) ∨
      s' = r ∧ b ≠ a ∧ b ≠ p) := by
  unfold unlink upd at hb
  by_cases hba : b = a
  · subst hba
    by_cases hbp : b = p
    · subst hbp
      cases hr : k.heap b <;> simp [hr] at hb
      exact ⟨_, rfl, Or.inl ⟨hb.symm, Or.inl rfl⟩⟩
    · cases hr : k.heap b <;> simp [hr, hbp] at hb
      exact ⟨_, rfl, Or.inl ⟨hb.symm, Or.inl rfl⟩⟩
  · by_cases hbp : b = p
    · subst hbp
      cases hr : k.heap b <;> simp [hr, hba] at hb
      exact ⟨_, rfl, Or.inl ⟨hb.symm, Or.inr rfl⟩⟩
    · simp only [update_of_ne hba, update_of_ne hbp] at hb
      exact ⟨s', hb, Or.inr ⟨rfl, hba, hbp⟩⟩

theorem SameRoles.unlink : SameRoles k (k.unlink a p) := by
  have h : SameRoles k (k.upd p ({ · with peer := none })) := .upd fun _ _ => rfl
  exact h.trans (.upd fun _ _ => rfl)

/-- Unlinking two sockets takes the peer from both of them, and from nothing else. -/
theorem peerOf_unlink : (k.unlink a p).peerOf =
    Function.update (Function.update k.peerOf p none) a none := by
  funext b
  by_cases hba : b = a
  · subst hba
    cases hs : (k.unlink b p).heap b with
    | none => simp [peerOf, hs]
    | some s' =>
      obtain ⟨r, -, ⟨rfl, -⟩ | ⟨-, h, -⟩⟩ := heap_unlink_cases hs
      · simp [peerOf, hs]
      · exact absurd rfl h
  · by_cases hbp : b = p
    · subst hbp
      rw [unlink, peerOf_upd_of_ne hba, update_of_ne hba, update_self]
      cases hr : k.heap b with
      | none => simp [peerOf, upd, hr]
      | some r => exact peerOf_upd_self hr
    · rw [unlink, peerOf_upd_of_ne hba, peerOf_upd_of_ne hbp, update_of_ne hba,
        update_of_ne hbp]

/-- **Parting two sockets keeps the graph.** -/
theorem Graph.unlink (h : k.Graph) (hap : k.peerOf a = some p) : (k.unlink a p).Graph := by
  -- A link that is left over was there before, between the same two sockets.
  have hkeep : ∀ b s' c q, (k.unlink a p).heap b = some s' → s'.peer = some c →
      (k.unlink a p).heap c = some q → k.heap b = some s' ∧ ∃ q', k.heap c = some q' ∧
        q.kind = q'.kind := by
    intro b s' c q hb hc hq
    obtain ⟨r, hr, ⟨rfl, -⟩ | ⟨rfl, -, -⟩⟩ := heap_unlink_cases hb
    · exact absurd hc (by simp)
    · obtain ⟨q', hq', ⟨rfl, -⟩ | ⟨rfl, -, -⟩⟩ := heap_unlink_cases hq
      · exact ⟨hr, q', hq', rfl⟩
      · exact ⟨hr, q, hq', rfl⟩
  refine h.of_sameRoles SameRoles.unlink (.of_joins (fun _ => SameRoles.unlink.fresh h) ?_
    (peerOf_unlink ▸ h.pairing.unlink hap) ?_)
  · intro b s' hb
    obtain ⟨r, hr, ⟨rfl, -⟩ | ⟨rfl, -, -⟩⟩ := heap_unlink_cases hb
    · exact (h.ok b r hr).detach
    · exact h.ok b s' hr
  · intro b s' c q hb hc hq
    obtain ⟨hb', q', hq', hqk⟩ := hkeep b s' c q hb hc hq
    rw [Asocket.Joins, hqk]
    exact h.joins hb' hc hq'

/-- A cell after joining two sockets. -/
theorem heap_link_cases (hap : a ≠ p) (ha : k.heap a = some s)
    (hp : k.heap p = some q) (hb : (k.link a p).heap b = some s') :
    b = a ∧ s' = { s with peer := some p } ∨ b = p ∧ s' = { q with peer := some a } ∨
      b ≠ a ∧ b ≠ p ∧ k.heap b = some s' := by
  have hp' : (k.upd a ({ · with peer := some p })).heap p = some q := by
    rw [upd_heap_of_ne hap.symm, hp]
  rcases heap_upd_cases hp' hb with ⟨rfl, rfl⟩ | ⟨hbp, hb⟩
  · exact Or.inr (Or.inl ⟨rfl, rfl⟩)
  · rcases heap_upd_cases ha hb with ⟨rfl, rfl⟩ | ⟨hba, hb⟩
    · exact Or.inl ⟨rfl, rfl⟩
    · exact Or.inr (Or.inr ⟨hba, hbp, hb⟩)

theorem SameRoles.link : SameRoles k (k.link a p) := by
  have h : SameRoles k (k.upd a ({ · with peer := some p })) := .upd fun _ _ => rfl
  exact h.trans (.upd fun _ _ => rfl)

theorem peerOf_link (hap : a ≠ p) (ha : k.heap a = some s)
    (hp : k.heap p = some q) : (k.link a p).peerOf =
      Function.update (Function.update k.peerOf a (some p)) p (some a) := by
  have hp' : (k.upd a ({ · with peer := some p })).heap p = some q := by
    rw [upd_heap_of_ne hap.symm, hp]
  funext b
  by_cases hbp : b = p
  · subst hbp
    rw [link, peerOf_upd_self hp', update_self]
  · rw [link, peerOf_upd_of_ne hbp, update_of_ne hbp]
    by_cases hba : b = a
    · subst hba
      rw [peerOf_upd_self ha, update_self]
    · rw [peerOf_upd_of_ne hba, update_of_ne hba]

/-- **Joining two sockets that are alone keeps the graph**, provided that one of them
is local and that a local one with a transport gets a remote peer. -/
theorem Graph.link (h : k.Graph) (hap : a ≠ p) (ha : k.heap a = some s) (hp : k.heap p = some q)
    (hs : s.peer = none) (hq : q.peer = none) (hsc : s.closing = false) (hqc : q.closing = false)
    (hmixed : s.kind = .localSocket ∨ q.kind = .localSocket)
    (hsb : s.kind = .localSocket → s.transport ≠ none → q.kind = .remoteSocket)
    (hqb : q.kind = .localSocket → q.transport ≠ none → s.kind = .remoteSocket) :
    (k.link a p).Graph := by
  have hpair := h.pairing.link hap ((peerOf_of_some ha).trans hs) ((peerOf_of_some hp).trans hq)
  rw [← peerOf_link hap ha hp] at hpair
  -- The other links join other sockets, as before.
  have hkeep : ∀ b r c r', b ≠ a → b ≠ p → k.heap b = some r → r.peer = some c →
      (k.link a p).heap c = some r' → k.heap c = some r' := by
    intro b r c r' hba hbp hb hc hr'
    have hbc : k.peerOf b = some c := (peerOf_of_some hb).trans hc
    have hca : c ≠ a := fun hca =>
      h.pairing.not_target ((peerOf_of_some ha).trans hs) b (hca ▸ hbc)
    have hcp : c ≠ p := fun hcp =>
      h.pairing.not_target ((peerOf_of_some hp).trans hq) b (hcp ▸ hbc)
    rcases heap_link_cases hap ha hp hr' with ⟨h1, -⟩ | ⟨h1, -⟩ | ⟨-, -, h1⟩
    · exact absurd h1 hca
    · exact absurd h1 hcp
    · exact h1
  have ha' : (k.link a p).heap a = some { s with peer := some p } := by
    rw [SockTable.link, upd_heap_of_ne hap, upd_heap_self ha]
  have hp' : (k.link a p).heap p = some { q with peer := some a } := by
    rw [SockTable.link, upd_heap_self (by rw [upd_heap_of_ne hap.symm, hp])]
  refine h.of_sameRoles SameRoles.link (.of_joins (fun _ => SameRoles.link.fresh h) ?_ hpair ?_)
  · intro b r hb
    rcases heap_link_cases hap ha hp hb with ⟨-, rfl⟩ | ⟨-, rfl⟩ | ⟨-, -, hb⟩
    · exact (h.ok a s ha).attach hsc p
    · exact (h.ok p q hp).attach hqc a
    · exact h.ok b r hb
  · intro b r c r' hb hc hr'
    rcases heap_link_cases hap ha hp hb with ⟨-, rfl⟩ | ⟨-, rfl⟩ | ⟨hba, hbp, hb⟩
    · obtain rfl := some.inj hc
      obtain rfl := some.inj (hp'.symm.trans hr')
      exact ⟨hmixed.resolve_left, hsb⟩
    · obtain rfl := some.inj hc
      obtain rfl := some.inj (ha'.symm.trans hr')
      exact ⟨hmixed.resolve_right, hqb⟩
    · exact h.joins hb hc (hkeep b r c r' hba hbp hb hc hr')

/-! ### Making sockets -/

theorem alloc_heap_self : (k.alloc s).heap k.brk = some s := update_self _ _ _

theorem alloc_heap_of_ne (h : b ≠ k.brk) : (k.alloc s).heap b = k.heap b :=
  update_of_ne h _ _

/-- A cell after making a socket. -/
theorem heap_alloc_cases (hb : (k.alloc s).heap b = some s') :
    b = k.brk ∧ s' = s ∨ b ≠ k.brk ∧ k.heap b = some s' := by
  by_cases h : b = k.brk
  · subst h
    exact Or.inl ⟨rfl, (some.inj (alloc_heap_self.symm.trans hb)).symm⟩
  · exact Or.inr ⟨h, (alloc_heap_of_ne h).symm.trans hb⟩

theorem Graph.heap_brk (h : k.Graph) : k.heap k.brk = none := h.fresh _ le_rfl

theorem Graph.lt_brk (h : k.Graph) (ha : k.heap a = some s) : a < k.brk := by
  by_contra hge
  exact absurd ((h.fresh a (not_lt.mp hge)).symm.trans ha) (by simp)

theorem Graph.ne_brk (h : k.Graph) (ha : k.heap a = some s) : a ≠ k.brk := (h.lt_brk ha).ne

theorem Graph.peerOf_alloc (h : k.Graph) (hs : s.peer = none) : (k.alloc s).peerOf = k.peerOf := by
  funext b
  by_cases hb : b = k.brk
  · rw [hb, peerOf_of_some alloc_heap_self, hs, peerOf, h.heap_brk, bind_none]
  · rw [peerOf, peerOf, alloc_heap_of_ne hb]

/-- Making a socket that is alone keeps the links. -/
theorem Graph.links_alloc (h : k.Graph) (hok : s.Ok) (hs : s.peer = none) : (k.alloc s).Links := by
  have hlink : ∀ a r p q, (k.alloc s).heap a = some r → r.peer = some p →
      (k.alloc s).heap p = some q → k.heap a = some r ∧ k.heap p = some q := by
    intro a r p q ha hp hq
    rcases heap_alloc_cases ha with ⟨-, rfl⟩ | ⟨-, ha'⟩
    · exact absurd (hs.symm.trans hp) (by simp)
    · rcases heap_alloc_cases hq with ⟨rfl, rfl⟩ | ⟨-, hq'⟩
      · have hnone : k.peerOf k.brk = none := by rw [peerOf, h.heap_brk, bind_none]
        exact absurd ((peerOf_of_some ha').trans hp) (h.pairing.not_target hnone a)
      · exact ⟨ha', hq'⟩
  refine .of_joins (fun a ha => ?_) (fun a s' ha => ?_) ((h.peerOf_alloc hs).symm ▸ h.pairing) ?_
  · rw [alloc_heap_of_ne (Nat.ne_of_gt ha)]
    exact h.fresh a (Nat.le_of_succ_le ha)
  · rcases heap_alloc_cases ha with ⟨-, rfl⟩ | ⟨-, ha⟩
    · exact hok
    · exact h.ok a s' ha
  · intro a r p q ha hp hq
    obtain ⟨ha, hq⟩ := hlink a r p q ha hp hq
    exact h.joins ha hp hq

theorem Graph.at_alloc (h : k.Graph) : (k.alloc s).At b P ↔ k.At b P ∨ b = k.brk ∧ P s := by
  by_cases hb : b = k.brk
  · subst hb
    simp [At, alloc_heap_self, h.heap_brk]
  · simp [At, alloc_heap_of_ne hb, hb]

theorem Graph.not_at_brk (h : k.Graph) : ¬k.At k.brk P := by
  simp [At, h.heap_brk]

/-- Making a socket that is not local. -/
theorem Graph.alloc_of_not_local (h : k.Graph) (hok : s.Ok) (hs : s.peer = none)
    (hkind : s.kind ≠ .localSocket) {trackers : List Addr}
    (htrackers : Listing trackers fun a => (k.alloc s).At a Asocket.IsTracker) :
    ({ k.alloc s with deviceTrackerList := trackers } : SockTable).Graph := by
  have hlinks := h.links_alloc hok hs
  have hold : ∀ {b s'}, (k.alloc s).heap b = some s' → s'.kind = .localSocket →
      k.heap b = some s' := by
    intro b s' hb hk
    rcases heap_alloc_cases hb with ⟨-, rfl⟩ | ⟨-, hb'⟩
    · exact absurd hk hkind
    · exact hb'
  exact {
    toLinks := ⟨hlinks.fresh, hlinks.ok, hlinks.pairing, hlinks.mixed, hlinks.bound⟩
    list := h.list.congr fun b =>
      (by simp [h.at_alloc, Asocket.IsOpen, hkind] : _ ↔ (k.alloc s).At b Asocket.IsOpen)
    closing := h.closing.congr fun b =>
      (by simp [h.at_alloc, Asocket.IsClosing, hkind] : _ ↔ (k.alloc s).At b Asocket.IsClosing)
    trackers := htrackers
    id_bound := fun b r hr h1 => h.id_bound b r (hold hr h1) h1
    id_inj := fun b c r r' hr hr' h1 h1' => h.id_inj b c r r' (hold hr h1) (hold hr' h1') h1 h1'
    next_pos := h.next_pos }

/-- Making a socket that is neither local nor a tracker. -/
theorem Graph.alloc_plain (h : k.Graph) (hok : s.Ok) (hs : s.peer = none)
    (hkind : s.kind ≠ .localSocket) (hkind' : s.kind ≠ .deviceTracker) : (k.alloc s).Graph :=
  h.alloc_of_not_local hok hs hkind <|
    h.trackers.congr fun b => by simp [h.at_alloc, Asocket.IsTracker, hkind']

/-- Making a device tracker. -/
theorem Graph.alloc_tracker (h : k.Graph) (hok : s.Ok) (hs : s.peer = none)
    (hkind : s.kind = .deviceTracker) :
    ({ k.alloc s with deviceTrackerList := k.brk :: k.deviceTrackerList } : SockTable).Graph :=
  h.alloc_of_not_local hok hs (by simp [hkind]) <| h.trackers.cons h.not_at_brk fun b => by
    simp [h.at_alloc, Asocket.IsTracker, hkind]

/-- The table after `create_local_socket`. -/
def withLocal (k : SockTable) (s : Asocket) : SockTable :=
  { k.alloc s with
    localSocketNextId := k.localSocketNextId + 1
    localSocketList := k.localSocketList ++ [k.brk] }

/-- **Making a local socket with the next id keeps the graph.** -/
theorem Graph.withLocal (h : k.Graph) (hok : s.Ok) (hs : s.peer = none)
    (hopen : s.IsOpen) (hid : s.id = k.localSocketNextId) : (k.withLocal s).Graph := by
  have hlinks := h.links_alloc hok hs
  have hnext := h.next_pos
  exact {
    toLinks := ⟨hlinks.fresh, hlinks.ok, hlinks.pairing, hlinks.mixed, hlinks.bound⟩
    list := h.list.concat h.not_at_brk fun b =>
      (by simp [h.at_alloc, hopen] : (k.alloc s).At b Asocket.IsOpen ↔ _)
    closing := h.closing.congr fun b =>
      (by simp [h.at_alloc, Asocket.IsClosing, hopen.2] :
        _ ↔ (k.alloc s).At b Asocket.IsClosing)
    trackers := h.trackers.congr fun b =>
      (by simp [h.at_alloc, Asocket.IsTracker, hopen.1] :
        _ ↔ (k.alloc s).At b Asocket.IsTracker)
    id_bound := by
      intro b r hr h1
      show 0 < r.id ∧ r.id < k.localSocketNextId + 1
      rcases heap_alloc_cases hr with ⟨-, rfl⟩ | ⟨-, hr'⟩
      · omega
      · have := h.id_bound b r hr' h1
        omega
    id_inj := by
      intro b c r r' hr hr' h1 h1' hrr
      rcases heap_alloc_cases hr with ⟨rfl, rfl⟩ | ⟨-, hb⟩ <;>
        rcases heap_alloc_cases hr' with ⟨rfl, rfl⟩ | ⟨-, hc⟩
      · rfl
      · have := h.id_bound c r' hc h1'
        omega
      · have := h.id_bound b r hb h1
        omega
      · exact h.id_inj b c r r' hb hc h1 h1' hrr
    next_pos := Nat.succ_pos _ }

end SockTable

end AdbBridge
