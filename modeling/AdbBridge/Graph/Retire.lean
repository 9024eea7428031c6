import AdbBridge.Graph.Table

/-!
# Closing, seen from the tables

What `close` does to the tables, without the events and packets it causes: the two
sockets of a link are parted and then retired one after the other, where a socket that
is retired goes to the closing list if it has data left to write and is deleted
otherwise. `SockTable.close` is that function; it keeps the graph, and
`AdbBridge.close_sk` says that it is what the code does.
-/

namespace AdbBridge

open Option Function

/-- Whether a local socket has data left to write when it is closed. -/
def Asocket.lingers (s : Asocket) : Bool :=
  !(s.closing || s.hasWriteError || s.packetQueue.empty)

/-- A local socket that has been put on the closing list. -/
def Asocket.toClosing (s : Asocket) : Asocket :=
  { s with notify := false, closing := true, fde := { s.fde with read := false } }

/-- A socket that lingers is in order on the closing list. -/
theorem Asocket.Ok.toClosing {s : Asocket} (h : s.Ok) (hkind : s.kind = .localSocket)
    (hpeer : s.peer = none) (hl : s.lingers = true) : s.toClosing.Ok where
  closing _ := by
    simp only [lingers, Bool.not_eq_true', Bool.or_eq_false_iff] at hl
    refine ⟨hkind, hpeer, fun hq => ?_, hl.1.2, rfl⟩
    exact absurd (s.packetQueue.empty_iff.mpr hq) (by simp [hl.2])
  write := h.write
  remote := h.remote

namespace SockTable

/-- Put a local socket on the closing list. -/
def linger (k : SockTable) (a : Addr) : SockTable :=
  let k := (k.upd a Asocket.toClosing).removeSocket a
  { k with localSocketClosingList := k.localSocketClosingList ++ [a] }

/-- Close a socket that is alone. -/
def retire (k : SockTable) (a : Addr) : SockTable :=
  match k.heap a with
  | none => k
  | some s =>
    match s.kind with
    | .localSocket => if s.lingers then k.linger a else (k.removeSocket a).free a
    | .deviceTracker => (k.deviceTrackerRemove a).free a
    | _ => k.free a

/-- Close a socket and its peer. -/
def close (k : SockTable) (a : Addr) : SockTable :=
  match k.peerOf a with
  | none => k.retire a
  | some p => ((k.unlink a p).retire p).retire a

variable {k : SockTable} {a b p : Addr} {s : Asocket} {P : Asocket → Prop} {s' : Asocket}

/-! ### Deleting a socket that is alone -/

theorem at_free : (k.free a).At b P ↔ k.At b P ∧ b ≠ a := by
  by_cases hb : b = a
  · subst hb
    simp [At]
  · simp [At, free_heap_of_ne hb, hb]

theorem heap_of_free (h : (k.free a).heap b = some s') : k.heap b = some s' := by
  by_cases hb : b = a
  · subst hb
    exact absurd h (by simp)
  · rwa [free_heap_of_ne hb] at h

theorem peerOf_free (ha : k.peerOf a = none) : (k.free a).peerOf = k.peerOf := by
  funext b
  by_cases hb : b = a
  · subst hb
    rw [ha, peerOf, free_heap_self, bind_none]
  · rw [peerOf, peerOf, free_heap_of_ne hb]

theorem Links.free (h : k.Links) (ha : k.peerOf a = none) : (k.free a).Links where
  fresh b hb := by
    by_cases hba : b = a
    · rw [hba, free_heap_self]
    · rw [free_heap_of_ne hba]
      exact h.fresh b hb
  ok b s' hb := h.ok b s' (heap_of_free hb)
  pairing := (peerOf_free ha).symm ▸ h.pairing
  mixed b r c q hb hc hq := h.mixed b r c q (heap_of_free hb) hc (heap_of_free hq)
  bound b r c q hb hc hq := h.bound b r c q (heap_of_free hb) hc (heap_of_free hq)

/-- A socket without the property does not count. -/
theorem at_and_ne_iff (hs : k.heap a = some s) (hP : ¬P s) : k.At b P ↔ k.At b P ∧ b ≠ a := by
  rw [iff_self_and]
  rintro ⟨r, hr, hPr⟩ rfl
  exact hP (some.inj (hs.symm.trans hr) ▸ hPr)

/-- Deleting a socket that is alone keeps the graph, once it is off the lists. -/
theorem Graph.of_free (h : k.Graph) (ha : k.peerOf a = none) {k' : SockTable}
    (hheap : k'.heap = (k.free a).heap) (hbrk : k'.brk = k.brk)
    (hnext : k'.localSocketNextId = k.localSocketNextId)
    (hlist : Listing k'.localSocketList fun b => k.At b Asocket.IsOpen ∧ b ≠ a)
    (hclosing : Listing k'.localSocketClosingList fun b => k.At b Asocket.IsClosing ∧ b ≠ a)
    (htrackers : Listing k'.deviceTrackerList fun b => k.At b Asocket.IsTracker ∧ b ≠ a) :
    k'.Graph := by
  have hat : ∀ {b P}, k'.At b P ↔ k.At b P ∧ b ≠ a := by
    intro b P
    rw [← at_free, At, At, hheap]
  have hpeerOf : k'.peerOf = (k.free a).peerOf := by
    funext b
    rw [peerOf, peerOf, hheap]
  have hlinks := h.toLinks.free ha
  have hcell : ∀ {b r}, k'.heap b = some r → (k.free a).heap b = some r := fun hb => hheap ▸ hb
  exact {
    fresh := fun b hb => hheap ▸ hlinks.fresh b (hbrk ▸ hb)
    ok := fun b r hb => hlinks.ok b r (hcell hb)
    pairing := hpeerOf ▸ hlinks.pairing
    mixed := fun b r c q hb hc hq => hlinks.mixed b r c q (hcell hb) hc (hcell hq)
    bound := fun b r c q hb hc hq => hlinks.bound b r c q (hcell hb) hc (hcell hq)
    list := hlist.congr fun b => hat.symm
    closing := hclosing.congr fun b => hat.symm
    trackers := htrackers.congr fun b => hat.symm
    id_bound := fun b r hr => hnext ▸ h.id_bound b r (heap_of_free (hcell hr))
    id_inj := fun b c r r' hr hr' =>
      h.id_inj b c r r' (heap_of_free (hcell hr)) (heap_of_free (hcell hr'))
    next_pos := hnext ▸ h.next_pos }

/-- Putting a local socket that is alone on the closing list keeps the graph. -/
theorem Graph.linger (h : k.Graph) (hs : k.heap a = some s) (ha : s.peer = none)
    (hkind : s.kind = .localSocket) (hl : s.lingers = true) : (k.linger a).Graph := by
  have hlinks : (k.upd a Asocket.toClosing).Links :=
    h.toLinks.upd hs rfl rfl ((h.ok a s hs).toClosing hkind ha hl) fun _ _ => rfl
  have hat : ∀ {b P}, (k.linger a).At b P ↔ k.At b P ∧ b ≠ a ∨ b = a ∧ P s.toClosing :=
    at_upd (k := k) hs
  have htracker : ¬s.IsTracker := by simp [Asocket.IsTracker, hkind]
  have hrole : ∀ {b r}, (k.linger a).heap b = some r → ∃ r', k.heap b = some r' ∧
      r.kind = r'.kind ∧ r.id = r'.id := by
    intro b r hb
    rcases heap_upd_cases hs hb with ⟨rfl, rfl⟩ | ⟨-, hb⟩
    · exact ⟨s, hs, rfl, rfl⟩
    · exact ⟨r, hb, rfl, rfl⟩
  exact {
    toLinks := ⟨hlinks.fresh, hlinks.ok, hlinks.pairing, hlinks.mixed, hlinks.bound⟩
    list := h.list.filter_ne fun b => by
      rw [hat]
      simp [Asocket.IsOpen, Asocket.toClosing]
    closing := (h.closing.filter_ne (a := a) fun b => Iff.rfl).concat (by simp) fun b => by
      rw [hat]
      simp [Asocket.IsClosing, Asocket.toClosing, hkind]
    trackers := h.trackers.congr fun b => by
      rw [hat]
      simpa [Asocket.IsTracker, Asocket.toClosing, hkind] using at_and_ne_iff hs htracker
    id_bound := fun b r hb h1 => by
      obtain ⟨r', hr', hk, hid⟩ := hrole hb
      exact hid ▸ h.id_bound b r' hr' (hk ▸ h1)
    id_inj := fun b c r r' hb hc h1 h1' hrr => by
      obtain ⟨q, hq, hk, hid⟩ := hrole hb
      obtain ⟨q', hq', hk', hid'⟩ := hrole hc
      exact h.id_inj b c q q' hq hq' (hk ▸ h1) (hk' ▸ h1') (by rw [← hid, ← hid', hrr])
    next_pos := h.next_pos }

/-! ### Retiring and closing -/

theorem retire_of_none (hs : k.heap a = none) : k.retire a = k := by
  simp [SockTable.retire, hs]

theorem retire_of_lingers (hs : k.heap a = some s) (hkind : s.kind = .localSocket)
    (hl : s.lingers = true) : k.retire a = k.linger a := by
  simp [SockTable.retire, hs, hkind, hl]

theorem retire_of_local (hs : k.heap a = some s) (hkind : s.kind = .localSocket)
    (hl : s.lingers = false) : k.retire a = (k.removeSocket a).free a := by
  simp [SockTable.retire, hs, hkind, hl]

theorem retire_of_tracker (hs : k.heap a = some s) (hkind : s.kind = .deviceTracker) :
    k.retire a = (k.deviceTrackerRemove a).free a := by
  simp [SockTable.retire, hs, hkind]

theorem retire_of_plain (hs : k.heap a = some s) (hkind : s.kind ≠ .localSocket)
    (hkind' : s.kind ≠ .deviceTracker) : k.retire a = k.free a := by
  cases h : s.kind <;> simp_all [SockTable.retire]

/-- **Retiring a socket that is alone keeps the graph.** -/
theorem Graph.retire (h : k.Graph) (ha : k.peerOf a = none) : (k.retire a).Graph := by
  cases hs : k.heap a with
  | none => rwa [retire_of_none hs]
  | some s =>
    have hs' : s.peer = none := (peerOf_of_some hs).symm.trans ha
    by_cases hkind : s.kind = .localSocket
    · cases hl : s.lingers with
      | true => exact retire_of_lingers hs hkind hl ▸ h.linger hs hs' hkind hl
      | false =>
        have htracker : ¬s.IsTracker := by simp [Asocket.IsTracker, hkind]
        rw [retire_of_local hs hkind hl]
        exact h.of_free ha rfl rfl rfl (h.list.filter_ne fun _ => Iff.rfl)
          (h.closing.filter_ne fun _ => Iff.rfl)
          (h.trackers.congr fun _ => at_and_ne_iff hs htracker)
    · have hlist := h.list.congr fun b =>
        at_and_ne_iff (b := b) hs (P := Asocket.IsOpen) fun ho => hkind ho.1
      have hclosing := h.closing.congr fun b =>
        at_and_ne_iff (b := b) hs (P := Asocket.IsClosing) fun ho => hkind ho.1
      by_cases hkind' : s.kind = .deviceTracker
      · rw [retire_of_tracker hs hkind']
        exact h.of_free ha rfl rfl rfl hlist hclosing (h.trackers.erase fun _ => Iff.rfl)
      · rw [retire_of_plain hs hkind hkind']
        exact h.of_free ha rfl rfl rfl hlist hclosing
          (h.trackers.congr fun _ => at_and_ne_iff hs hkind')

/-- Retiring a socket leaves the others alone. -/
theorem retire_heap_of_ne (hb : b ≠ a) : (k.retire a).heap b = k.heap b := by
  cases hs : k.heap a with
  | none => rw [retire_of_none hs]
  | some s =>
    by_cases hkind : s.kind = .localSocket
    · cases hl : s.lingers with
      | true => rw [retire_of_lingers hs hkind hl]; exact upd_heap_of_ne hb _
      | false => rw [retire_of_local hs hkind hl]; exact free_heap_of_ne hb
    · by_cases hkind' : s.kind = .deviceTracker
      · rw [retire_of_tracker hs hkind']; exact free_heap_of_ne hb
      · rw [retire_of_plain hs hkind hkind']; exact free_heap_of_ne hb

/-- What is left of a socket that is retired. -/
theorem retire_heap_self : (k.retire a).heap a = (k.heap a).bind fun s =>
    if s.kind = .localSocket ∧ s.lingers = true then some s.toClosing else none := by
  cases hs : k.heap a with
  | none => rw [retire_of_none hs, hs, bind_none]
  | some s =>
    rw [bind_some]
    by_cases hkind : s.kind = .localSocket
    · cases hl : s.lingers with
      | true => rw [retire_of_lingers hs hkind hl, if_pos ⟨hkind, rfl⟩]; exact upd_heap_self hs _
      | false =>
        rw [retire_of_local hs hkind hl, if_neg (by simp)]
        exact free_heap_self
    · rw [if_neg (fun h => hkind h.1)]
      by_cases hkind' : s.kind = .deviceTracker
      · rw [retire_of_tracker hs hkind']; exact free_heap_self
      · rw [retire_of_plain hs hkind hkind']; exact free_heap_self

/-- **Closing a socket and its peer keeps the graph.** -/
theorem Graph.close (h : k.Graph) : (k.close a).Graph := by
  unfold SockTable.close
  cases hp : k.peerOf a with
  | none => exact h.retire hp
  | some p =>
    have hap : a ≠ p := h.pairing.ne hp
    have hunlink := h.unlink hp
    have hp' : (k.unlink a p).peerOf p = none := by
      rw [peerOf_unlink, update_of_ne hap.symm, update_self]
    have ha' : ((k.unlink a p).retire p).peerOf a = none := by
      rw [peerOf, retire_heap_of_ne hap, ← peerOf, peerOf_unlink, update_self]
    exact (hunlink.retire hp').retire ha'

/-- Closing a socket leaves all others but its peer alone. -/
theorem close_heap_of_ne (hb : b ≠ a) (hp : k.peerOf a ≠ some b) :
    (k.close a).heap b = k.heap b := by
  unfold SockTable.close
  cases hpa : k.peerOf a with
  | none => exact retire_heap_of_ne hb
  | some p =>
    have hbp : b ≠ p := fun h => hp (hpa.trans (by rw [h]))
    rw [retire_heap_of_ne hb, retire_heap_of_ne hbp, SockTable.unlink, upd_heap_of_ne hb,
      upd_heap_of_ne hbp]

/-- What is left of a socket and its peer after closing: nothing, or a local socket on
the closing list. -/
theorem Graph.close_heap_of_closed (h : k.Graph) (hb : b = a ∨ k.peerOf a = some b) :
    (k.close a).heap b = (k.heap b).bind fun s =>
      if s.kind = .localSocket ∧ s.lingers = true then some { s with peer := none }.toClosing
      else none := by
  unfold SockTable.close
  cases hpa : k.peerOf a with
  | none =>
    obtain rfl : b = a := hb.resolve_right (by simp [hpa])
    rw [retire_heap_self]
    cases hs : k.heap b with
    | none => rfl
    | some s =>
      have hpeer : s.peer = none := (peerOf_of_some hs).symm.trans hpa
      have hs' : ({ s with peer := none } : Asocket) = s := by rw [← hpeer]
      rw [bind_some, bind_some, hs']
  | some p =>
    have hap : a ≠ p := h.pairing.ne hpa
    have hunlink : ∀ c, c = a ∨ c = p → (k.unlink a p).heap c =
        (k.heap c).map ({ · with peer := none }) := by
      rintro c (rfl | rfl)
      · rw [SockTable.unlink]
        simp [SockTable.upd, hap]
      · rw [SockTable.unlink, upd_heap_of_ne hap.symm]
        simp [SockTable.upd]
    rcases hb with rfl | hb
    · rw [retire_heap_self, retire_heap_of_ne hap, hunlink b (Or.inl rfl)]
      cases k.heap b <;> rfl
    · obtain rfl : p = b := some.inj (hpa.symm.trans hb)
      rw [retire_heap_of_ne hap.symm, retire_heap_self, hunlink p (Or.inr rfl)]
      cases k.heap p <;> rfl

/-- A socket that survives a close. -/
theorem Graph.heap_close_cases (h : k.Graph) (hb : (k.close a).heap b = some s') :
    b ≠ a ∧ k.peerOf a ≠ some b ∧ k.heap b = some s' ∨
      (b = a ∨ k.peerOf a = some b) ∧ ∃ s, k.heap b = some s ∧ s.kind = .localSocket ∧
        s.lingers = true ∧ s' = { s with peer := none }.toClosing := by
  by_cases hclosed : b = a ∨ k.peerOf a = some b
  · rw [h.close_heap_of_closed hclosed] at hb
    obtain ⟨s, hs, hif⟩ := bind_eq_some_iff.mp hb
    split at hif
    · rename_i hl
      exact Or.inr ⟨hclosed, s, hs, hl.1, hl.2, (some.inj hif).symm⟩
    · exact absurd hif (by simp)
  · rw [not_or] at hclosed
    rw [close_heap_of_ne hclosed.1 hclosed.2] at hb
    exact Or.inl ⟨hclosed.1, hclosed.2, hb⟩

end SockTable

end AdbBridge
