import AdbBridge.Listeners.Forward
import AdbBridge.Security.Open

/-!
# Reverse forwards at both ends

An `adb reverse` request is a service the host opens on a device. The device carries it
out with `handle_forward_request`, on its own list of listeners; the host reads the same
string with `UpdateReverseConfig`, and remembers in `reverse_forwards_` what the device
may open from now on. The two tables are keyed differently. The host's key is the name
the request asks for, the device's is the name the listener was bound to, and the host
does not learn whether the request succeeded.

`reverseEnds` runs both ends on the same requests, and `covered_iff` says which requests
keep the host's table in step: those that overwrite or erase no value a listener still
needs, and, under `norebind`, install no listener the host has not heard of.
-/

namespace AdbBridge

open List

/-! ### What the two ends do -/

/-- What the host makes of a well-formed request. -/
def hostForwards (forwards : AList fun _ : Bytes => Bytes) :
    ForwardRequest → AList fun _ : Bytes => Bytes
  | .killforward name => forwards.erase name
  | .forward noRebind name connectTo =>
    if noRebind && decide (name ∈ forwards) then forwards else forwards.insert name connectTo

/-- What the host remembers of a request that it sends to the device. -/
theorem reverseConfig_eq {service : Bytes} {request : ForwardRequest}
    (h : parseForwardRequest service = some (.ok request))
    (forwards : AList fun _ : Bytes => Bytes) :
    reverseConfig forwards (ascii "reverse:" ++ service) =
      some (hostForwards forwards request) := by
  unfold reverseConfig
  rw [consumePrefix_append]
  cases request with
  | killforward name =>
    obtain ⟨rfl, hcontains⟩ := eq_of_parse_killforward h
    have hother : consumePrefix (ascii "killforward:" ++ name) (ascii "forward:") = none := rfl
    simp only [hother, consumePrefix_append, hcontains, Bool.false_eq_true, if_false, hostForwards]
  | forward noRebind name connectTo =>
    obtain ⟨rest, hrest, hflag, htake, -⟩ := eq_of_parse_forward h
    have hcontains : (name ++ 59 :: connectTo).contains (59 : UInt8) = true := by simp
    have hdrop : (name ++ 59 :: connectTo).drop (name.length + 1) = connectTo := by simp
    simp only [hrest, hflag, htake, hcontains, hdrop, if_true, hostForwards]
    split <;> rfl

/-- What is known of every listener of a device: it was installed for a transport by a
well-formed request. -/
def Alistener.Plain (l : Alistener) : Prop :=
  l.transport.isSome ∧ l.connectTo.head? ≠ some 42 ∧ 0 ∉ l.connectTo

theorem Alistener.Plain.isSmartSocket {l : Alistener} (h : l.Plain) : l.isSmartSocket = false :=
  beq_eq_false_iff_ne.mpr fun heq => h.2.1 (heq ▸ rfl)

/-- What a device makes of a well-formed request. -/
def deviceListeners (w : World) (t : TransportId) : ForwardRequest → List Alistener
  | .killforward name =>
    match w.net.named name with
    | none => w.net.listenerList
    | some l => w.net.listenerList.filter (·.id != l.id)
  | .forward noRebind name connectTo =>
    match w.net.named name with
    | some l =>
      if noRebind then w.net.listenerList
      else w.net.listenerList.map fun x =>
        if x.id == l.id then { x with connectTo := connectTo, transport := some t } else x
    | none =>
      match w.listen name with
      | .error _ => w.net.listenerList
      | .ok resolved => w.net.listenerList ++
        [{ id := w.net.nextListener, localName := resolvedName name resolved,
           connectTo := connectTo, transport := some t }]

section Device

variable {w : World} {t : TransportId} {a : Addr} {service : Bytes}

/-- The listeners of the device after a request, as long as their names are plain. -/
theorem listenerList_runForwardRequest (h : ∀ l ∈ w.net.listenerList, l.Plain)
    (request : ForwardRequest) :
    (runForwardRequest w t request).1.net.listenerList = deviceListeners w t request := by
  cases request with
  | killforward name =>
    simp only [runForwardRequest, Net.removeListener, deviceListeners, Net.named]
    cases w.net.listenerList.find? (·.localName == name) with
    | none => rfl
    | some l => exact Net.eraseListener_listenerList
  | forward noRebind name connectTo =>
    simp only [runForwardRequest, installListener, deviceListeners, Net.named]
    cases hfind : w.net.listenerList.find? (·.localName == name) with
    | none => cases w.listen name <;> rfl
    | some l =>
      have hl := h l (List.mem_of_find?_eq_some hfind)
      have htransport : l.transport.isNone = false := by simpa using hl.1
      simp only [hl.isSmartSocket, htransport, Bool.false_eq_true, if_false]
      cases noRebind with
      | true => rfl
      | false => exact Net.rebindListener_listenerList connectTo

theorem listenerList_removeAllListeners (h : ∀ l ∈ w.net.listenerList, l.Plain) :
    w.net.removeAllListeners.listenerList = [] := by
  rw [Net.removeAllListeners, Net.foldl_eraseListener_listenerList, filter_eq_nil_iff]
  intro l hl
  rw [Bool.not_eq_true', Bool.not_eq_false, any_eq_true]
  exact ⟨l, mem_filter.mpr ⟨hl, by simpa using (h l hl).2.1⟩, beq_self_eq_true _⟩

end Device

/-! ### Both ends together -/

/-- A device and the transport that stands for it on the host. -/
structure ReverseEnds where
  host : Atransport
  device : World

/-- A request of one of the four kinds, as a C string can hold it. -/
def WellFormed (service : Bytes) : Prop :=
  0 ∉ service ∧ (service = ascii "killforward-all" ∨
    ∃ request, parseForwardRequest service = some (.ok request))

/-- **Reverse forwards at both ends.** The host feeds the service it opens to
`UpdateReverseConfig`; the device carries out what follows `reverse:`, for its only
transport. -/
def reverseEnds (t : TransportId) (a : Addr) : Machine ReverseEnds Bytes where
  init s := s.host.reverseForwards = ∅ ∧ s.device.net.listenerList = [] ∧
    s.device.cfg.adbHost = false
  enabled _ service := WellFormed service
  step s service :=
    { host := (s.host.updateReverseConfig (ascii "reverse:" ++ service)).getD s.host
      device := (handleForwardRequest s.device (cString service []) (.ok t) a).1 }

/-- What the host promises a device: where a listener leads, the host lets it go. The
payload of the `A_OPEN` the device sends for a connection to the listener is the
listener's destination with a NUL. -/
def Covered (s : ReverseEnds) : Prop :=
  ∀ l ∈ s.device.net.listenerList, l.isSmartSocket = false →
    l.connectTo ∈ s.host.reverseValues ∧
      ∀ beyond, s.host.isReverseConfigured (cString (l.connectTo ++ [0]) beyond) = true

/-- A value of `reverse_forwards_` that is there for one name only. -/
def Atransport.OnlyFor (x : Atransport) (name value : Bytes) : Prop :=
  x.reverseForwards.lookup name = some value ∧
    ∀ name' ≠ name, x.reverseForwards.lookup name' ≠ some value

/-- Every listener that leads to an address is the one a name belongs to. -/
def Net.OnlyNamed (n : Net) (name connectTo : Bytes) : Prop :=
  ∀ l ∈ n.listenerList, l.connectTo = connectTo → (n.named name).any (·.id == l.id)

/-- **The requests that keep the promise.** What the host forgets, because it overwrites
or erases a name, must not be in use by a listener other than the one the device changes
in the same step. And where the host takes a `norebind` request to fail, because it knows
the name, it must fail, or must ask for something that is allowed anyway. -/
def ReverseEnds.Harmless (s : ReverseEnds) (service : Bytes) : Prop :=
  match parseForwardRequest service with
  | some (.ok (.killforward name)) =>
    ∀ value, s.host.OnlyFor name value → s.device.net.OnlyNamed name value
  | some (.ok (.forward noRebind name connectTo)) =>
    if noRebind && decide (name ∈ s.host.reverseForwards) then
      (s.device.net.named name).isSome ∨ (∃ e, s.device.listen name = .error e) ∨
        connectTo ∈ s.host.reverseValues
    else ∀ value, s.host.OnlyFor name value → value ≠ connectTo →
      s.device.net.OnlyNamed name value
  | _ => True

/-! ### The values of the host's table -/

section Values

variable {x : Atransport} {forwards : AList fun _ : Bytes => Bytes} {name value v : Bytes}

theorem Atransport.mem_reverseValues :
    v ∈ x.reverseValues ↔ ∃ name, x.reverseForwards.lookup name = some v := by
  simp only [reverseValues, mem_map, Sigma.exists]
  constructor
  · rintro ⟨name, v', hmem, rfl⟩
    exact ⟨name, AList.mem_lookup_iff.mpr hmem⟩
  · rintro ⟨name, hname⟩
    exact ⟨name, v, AList.mem_lookup_iff.mp hname, rfl⟩

/-- A value that is there for some name is there for a name other than the given one,
unless it is there for that one only. -/
theorem Atransport.not_onlyFor_iff (hv : v ∈ x.reverseValues) :
    ¬x.OnlyFor name v ↔ ∃ name' ≠ name, x.reverseForwards.lookup name' = some v := by
  obtain ⟨name₀, hname₀⟩ := mem_reverseValues.mp hv
  constructor
  · intro h
    by_cases heq : name₀ = name
    · by_contra hnone
      exact h ⟨heq ▸ hname₀, fun name' hne hv' => hnone ⟨name', hne, hv'⟩⟩
    · exact ⟨name₀, heq, hname₀⟩
  · rintro ⟨name', hne, hname'⟩ h
    exact h.2 name' hne hname'

theorem mem_reverseValues_erase (hv : v ∈ x.reverseValues) :
    v ∈ { x with reverseForwards := x.reverseForwards.erase name }.reverseValues ↔
      ¬x.OnlyFor name v := by
  rw [Atransport.not_onlyFor_iff hv, Atransport.mem_reverseValues]
  refine exists_congr fun name' => ?_
  by_cases heq : name' = name
  · subst heq
    simp [AList.lookup_erase]
  · simp [heq, AList.lookup_erase_ne heq]

theorem mem_reverseValues_insert (hv : v ∈ x.reverseValues) :
    v ∈ { x with reverseForwards := x.reverseForwards.insert name value }.reverseValues ↔
      value = v ∨ ¬x.OnlyFor name v := by
  rw [Atransport.not_onlyFor_iff hv, Atransport.mem_reverseValues]
  constructor
  · rintro ⟨name', hname'⟩
    by_cases heq : name' = name
    · rw [heq, AList.lookup_insert] at hname'
      exact Or.inl (Option.some.inj hname')
    · exact Or.inr ⟨name', heq, by rwa [AList.lookup_insert_ne heq] at hname'⟩
  · rintro (rfl | ⟨name', hne, hname'⟩)
    · exact ⟨name, AList.lookup_insert _⟩
    · exact ⟨name', by rwa [AList.lookup_insert_ne hne]⟩

theorem self_mem_reverseValues_insert :
    value ∈ { x with reverseForwards := x.reverseForwards.insert name value }.reverseValues :=
  Atransport.mem_reverseValues.mpr ⟨name, AList.lookup_insert _⟩

end Values

/-! ### One request -/

theorem takeWhile_of_not_mem {s : Bytes} (h : 0 ∉ s) (rest : Bytes) :
    (s ++ 0 :: rest).takeWhile (· != 0) = s := by
  have hall : ∀ b ∈ s, (b != 0) = true := fun b hb => by
    simpa using fun hz : b = 0 => h (hz ▸ hb)
  rw [takeWhile_append_of_pos hall]
  simp

section Step

variable {t : TransportId} {a : Addr} {s : ReverseEnds} {service : Bytes}
  {request : ForwardRequest}

theorem step_killforwardAll : (reverseEnds t a).step s (ascii "killforward-all") =
    { host := { s.host with reverseForwards := ∅ }
      device := (handleForwardRequest s.device (ascii "killforward-all") (.ok t) a).1 } := rfl

/-- A request other than `killforward-all`. -/
theorem step_request (hnul : 0 ∉ service)
    (h : parseForwardRequest service = some (.ok request)) : (reverseEnds t a).step s service =
      { host := { s.host with reverseForwards := hostForwards s.host.reverseForwards request }
        device := (handleForwardRequest s.device service (.ok t) a).1 } := by
  have hstring : cString service [] = service := by
    rw [cString, append_nil, takeWhile_of_not_mem hnul]
  simp only [reverseEnds, Atransport.updateReverseConfig, reverseConfig_eq h, hstring]
  rfl

/-- A request without NUL keeps the names of the listeners plain. -/
theorem plain_deviceListeners {w : World} (hplain : ∀ l ∈ w.net.listenerList, l.Plain)
    (hnul : 0 ∉ service) (h : parseForwardRequest service = some (.ok request)) :
    ∀ l ∈ deviceListeners w t request, l.Plain := by
  cases request with
  | killforward name =>
    simp only [deviceListeners]
    split
    · exact hplain
    · exact fun l hl => hplain l (filter_sublist.subset hl)
  | forward noRebind name connectTo =>
    obtain ⟨rest, hrest, hflag, -, hstar⟩ := eq_of_parse_forward h
    -- The destination is part of the request, and so has no NUL either.
    have hpart : 0 ∉ connectTo := fun hmem => hnul <| by
      rw [eq_append_of_consumePrefix hrest]
      refine mem_append_right _ ?_
      unfold consumeFlag at hflag
      split at hflag
      · rename_i rest' hrest'
        rw [eq_append_of_consumePrefix hrest', (Prod.mk.inj hflag).2]
        simp [hmem]
      · rw [(Prod.mk.inj hflag).2]
        simp [hmem]
    simp only [deviceListeners]
    split
    · split
      · exact hplain
      · intro l hl
        obtain ⟨x, hx, rfl⟩ := mem_map.mp hl
        split
        · exact ⟨rfl, hstar, hpart⟩
        · exact hplain x hx
    · split
      · exact hplain
      · intro l hl
        rcases mem_append.mp hl with hl | hl
        · exact hplain l hl
        · rw [mem_singleton.mp hl]
          exact ⟨rfl, hstar, hpart⟩

theorem listenerList_step_request (hplain : ∀ l ∈ s.device.net.listenerList, l.Plain)
    (hnul : 0 ∉ service) (h : parseForwardRequest service = some (.ok request)) :
    ((reverseEnds t a).step s service).device.net.listenerList =
      deviceListeners s.device t request := by
  rw [step_request hnul h, net_handleForwardRequest h, listenerList_runForwardRequest hplain]

theorem listenerList_step_killforwardAll (hplain : ∀ l ∈ s.device.net.listenerList, l.Plain) :
    ((reverseEnds t a).step s (ascii "killforward-all")).device.net.listenerList = [] := by
  rw [step_killforwardAll, net_handleForwardRequest_killforwardAll,
    listenerList_removeAllListeners hplain]

/-- Every listener of the device was installed by a well-formed request. -/
theorem plain_of_reach (h : (reverseEnds t a).Reach s) :
    ∀ l ∈ s.device.net.listenerList, l.Plain := by
  refine h.inv (P := fun s => ∀ l ∈ s.device.net.listenerList, l.Plain) ?_ ?_
  · rintro s ⟨-, hnil, -⟩ l hl
    simp [hnil] at hl
  · rintro s service - hplain ⟨hnul, rfl | ⟨request, hrequest⟩⟩
    · rw [listenerList_step_killforwardAll hplain]
      simp
    · rw [listenerList_step_request hplain hnul hrequest]
      exact plain_deviceListeners hplain hnul hrequest

theorem covered_iff_mem (hplain : ∀ l ∈ s.device.net.listenerList, l.Plain) :
    Covered s ↔ ∀ l ∈ s.device.net.listenerList, l.connectTo ∈ s.host.reverseValues := by
  refine forall₂_congr fun l hl => ⟨fun h => (h (hplain l hl).isSmartSocket).1, fun h _ => ⟨h, ?_⟩⟩
  intro beyond
  rw [cString_of_mem (by simp), takeWhile_of_not_mem (hplain l hl).2.2,
    Atransport.isReverseConfigured_iff]
  exact h

section Listeners

variable {name connectTo : Bytes} {noRebind : Bool}
  (h : ∀ l ∈ s.device.net.listenerList, l.connectTo ∈ s.host.reverseValues) {l : Alistener}

include h

/-- A request to remove a forward. -/
theorem covered_killforward_iff :
    (∀ l ∈ deviceListeners s.device t (.killforward name), l.connectTo ∈
      { s.host with reverseForwards := s.host.reverseForwards.erase name }.reverseValues) ↔
      ∀ value, s.host.OnlyFor name value → s.device.net.OnlyNamed name value := by
  have hmem : ∀ l, l ∈ deviceListeners s.device t (.killforward name) ↔
      l ∈ s.device.net.listenerList ∧ (s.device.net.named name).any (·.id == l.id) = false := by
    intro l
    simp only [deviceListeners]
    cases s.device.net.named name with
    | none => simp
    | some l' => simp [mem_filter, eq_comm (a := l.id)]
  constructor
  · intro hcov value honly l hl heq
    by_contra hnamed
    have hvalue := hcov l ((hmem l).mpr ⟨hl, Bool.eq_false_iff.mpr hnamed⟩)
    exact (mem_reverseValues_erase (h l hl)).mp hvalue (heq ▸ honly)
  · intro hcond l hl
    obtain ⟨hl, hnamed⟩ := (hmem l).mp hl
    refine (mem_reverseValues_erase (h l hl)).mpr fun honly => ?_
    exact Bool.eq_false_iff.mp hnamed (hcond _ honly l hl rfl)

omit h in
/-- The listeners a request for a forward leaves alone. -/
theorem mem_deviceListeners_forward (hl : l ∈ s.device.net.listenerList)
    (hnamed : (s.device.net.named name).any (·.id == l.id) = false) :
    l ∈ deviceListeners s.device t (.forward noRebind name connectTo) := by
  simp only [deviceListeners]
  cases hfind : s.device.net.named name with
  | none =>
    cases s.device.listen name with
    | error e => exact hl
    | ok resolved => exact mem_append_left _ hl
  | some l' =>
    rw [hfind, Option.any_some, beq_eq_false_iff_ne] at hnamed
    cases noRebind with
    | true => exact hl
    | false => exact mem_map.mpr ⟨l, hl, by rw [if_neg (by simpa using Ne.symm hnamed)]⟩

omit h in
/-- The listeners there are after a request for a forward. -/
theorem of_mem_deviceListeners_forward
    (hl : l ∈ deviceListeners s.device t (.forward noRebind name connectTo)) :
    l.connectTo = connectTo ∨ l ∈ s.device.net.listenerList ∧
      (noRebind = false → (s.device.net.named name).any (·.id == l.id) = false) := by
  simp only [deviceListeners] at hl
  cases hfind : s.device.net.named name with
  | none =>
    rw [hfind] at hl
    cases hlisten : s.device.listen name with
    | error e =>
      rw [hlisten] at hl
      exact Or.inr ⟨hl, fun _ => rfl⟩
    | ok resolved =>
      rw [hlisten] at hl
      rcases mem_append.mp hl with hl | hl
      · exact Or.inr ⟨hl, fun _ => rfl⟩
      · exact Or.inl (by rw [mem_singleton.mp hl])
  | some l' =>
    rw [hfind] at hl
    cases noRebind with
    | true => exact Or.inr ⟨hl, by simp⟩
    | false =>
      obtain ⟨x, hx, rfl⟩ := mem_map.mp hl
      split
      · exact Or.inl rfl
      · rename_i hne
        exact Or.inr ⟨hx, fun _ => beq_eq_false_iff_ne.mpr fun heq => hne (beq_iff_eq.mpr heq.symm)⟩

/-- A request for a forward that the host takes down. -/
theorem covered_forward_iff (hnew : (noRebind && decide (name ∈ s.host.reverseForwards)) = false) :
    (∀ l ∈ deviceListeners s.device t (.forward noRebind name connectTo), l.connectTo ∈
      { s.host with
        reverseForwards := s.host.reverseForwards.insert name connectTo }.reverseValues) ↔
      ∀ value, s.host.OnlyFor name value → value ≠ connectTo →
        s.device.net.OnlyNamed name value := by
  constructor
  · rintro hcov value honly hne l hl rfl
    by_contra hnamed
    have hvalue := hcov l (mem_deviceListeners_forward hl (Bool.eq_false_iff.mpr hnamed))
    rcases (mem_reverseValues_insert (h l hl)).mp hvalue with heq | hnot
    · exact hne heq.symm
    · exact hnot honly
  · intro hcond l hl
    rcases of_mem_deviceListeners_forward hl with heq | ⟨hl, hnamed⟩
    · exact heq ▸ self_mem_reverseValues_insert
    · rw [mem_reverseValues_insert (h l hl), or_iff_not_imp_left]
      intro hne honly
      have hknown : name ∈ s.host.reverseForwards :=
        AList.lookup_isSome.mp (by rw [honly.1]; rfl)
      have hrebind : noRebind = false := by simpa [hknown] using hnew
      exact Bool.eq_false_iff.mp (hnamed hrebind) (hcond _ honly (Ne.symm hne) l hl rfl)

/-- A request the host takes to fail. -/
theorem covered_norebind_iff :
    (∀ l ∈ deviceListeners s.device t (.forward true name connectTo),
      l.connectTo ∈ s.host.reverseValues) ↔
      (s.device.net.named name).isSome ∨ (∃ e, s.device.listen name = .error e) ∨
        connectTo ∈ s.host.reverseValues := by
  simp only [deviceListeners]
  cases s.device.net.named name with
  | some l => simpa using h
  | none =>
    cases s.device.listen name with
    | error e => simpa using h
    | ok resolved =>
      simp only [forall_mem_append, forall_mem_singleton, Option.isSome_none]
      simpa using fun _ => h

end Listeners

/-- **A request keeps the promise exactly if it is harmless.** -/
theorem covered_step_iff (hr : (reverseEnds t a).Reach s) (hs : Covered s)
    (hservice : WellFormed service) :
    Covered ((reverseEnds t a).step s service) ↔ s.Harmless service := by
  have hplain := plain_of_reach hr
  have hplain' := plain_of_reach (Machine.Reach.step hr hservice)
  have hmem := (covered_iff_mem hplain).mp hs
  rw [covered_iff_mem hplain']
  obtain ⟨hnul, rfl | ⟨request, hrequest⟩⟩ := hservice
  · have hparse : parseForwardRequest (ascii "killforward-all") = none := by decide +kernel
    rw [listenerList_step_killforwardAll hplain, ReverseEnds.Harmless, hparse]
    simp
  · rw [listenerList_step_request hplain hnul hrequest, step_request hnul hrequest,
      ReverseEnds.Harmless, hrequest]
    cases request with
    | killforward name => exact covered_killforward_iff hmem
    | forward noRebind name connectTo =>
      dsimp only [hostForwards]
      cases hnew : noRebind && decide (name ∈ s.host.reverseForwards) with
      | false =>
        simp only [Bool.false_eq_true, if_false]
        exact covered_forward_iff hmem hnew
      | true =>
        obtain ⟨rfl, -⟩ := Bool.and_eq_true_iff.mp hnew
        simp only [if_true]
        exact covered_norebind_iff hmem

end Step

/-! ### Runs -/

/-- **When the host's table covers the device's listeners**: along a run, as long as every
request is harmless where it is made, and no longer. -/
theorem covered_iff {t : TransportId} {a : Addr} {s : ReverseEnds} (hs : (reverseEnds t a).init s)
    {services : List Bytes} (hl : (reverseEnds t a).Legal s services) :
    (∀ before, before <+: services → Covered ((reverseEnds t a).run s before)) ↔
      (reverseEnds t a).Meets ReverseEnds.Harmless s services := by
  have hcov : Covered s := fun l hl => by simp [hs.2.1] at hl
  exact Machine.forall_prefix_iff (fun _ _ hr hs hservice => covered_step_iff hr hs hservice)
    (.init hs) hcov hl

/-- A device that has just been connected, with what binding a socket will come to. -/
def freshEnds (listen : ℕ → Except Bytes ℕ) : ReverseEnds where
  host := {}
  device := { cfg := { adbHost := false }, io := { sys := { listen := listen } } }

/-- A forward of a port that is named, and its removal. -/
theorem covered_namedPort :
    Covered ((reverseEnds 1 0).run (freshEnds fun _ => .ok 1) [ascii "forward:tcp:1;tcp:5"]) ∧
      Covered ((reverseEnds 1 0).run (freshEnds fun _ => .ok 1)
        [ascii "forward:tcp:1;tcp:5", ascii "killforward:tcp:1"]) := by
  have hforward : parseForwardRequest (ascii "forward:tcp:1;tcp:5") =
    some (.ok (.forward false (ascii "tcp:1") (ascii "tcp:5"))) := by decide +kernel
  have hkill : parseForwardRequest (ascii "killforward:tcp:1") =
    some (.ok (.killforward (ascii "tcp:1"))) := by decide +kernel
  have hlegal : (reverseEnds 1 0).Legal (freshEnds fun _ => .ok 1)
      [ascii "forward:tcp:1;tcp:5", ascii "killforward:tcp:1"] :=
    ⟨⟨by decide +kernel, Or.inr ⟨_, hforward⟩⟩, ⟨by decide +kernel, Or.inr ⟨_, hkill⟩⟩, trivial⟩
  have hcovered := (covered_iff ⟨rfl, rfl, rfl⟩ hlegal).mpr ⟨?_, ?_, trivial⟩
  · exact ⟨hcovered _ ⟨_, rfl⟩, hcovered _ prefix_rfl⟩
  · rw [ReverseEnds.Harmless, hforward]
    exact fun value honly => absurd honly.1 (by simp [freshEnds])
  · rw [ReverseEnds.Harmless, hkill]
    rintro value - l hl -
    revert l hl
    decide +kernel

/-- **The host forgets a destination that is in use**: when two ports are asked for by
`tcp:0`, when such a port is given up by that name, and when it takes a request to fail
that succeeds. -/
theorem not_covered :
    ¬Covered ((reverseEnds 1 0).run (freshEnds fun n => .ok (1000 + n))
      [ascii "forward:tcp:0;tcp:5", ascii "forward:tcp:0;tcp:6"]) ∧
    ¬Covered ((reverseEnds 1 0).run (freshEnds fun n => .ok (1000 + n))
      [ascii "forward:tcp:0;tcp:5", ascii "killforward:tcp:0"]) ∧
    ¬Covered ((reverseEnds 1 0).run
      (freshEnds fun n => if n = 0 then .error (ascii "Address already in use") else .ok 1)
      [ascii "forward:tcp:1;tcp:5", ascii "forward:norebind:tcp:1;tcp:6"]) := by
  refine ⟨fun h => ?_, fun h => ?_, fun h => ?_⟩
  · exact absurd (h ⟨0, ascii "tcp:1000", ascii "tcp:5", some 1⟩ (by decide +kernel)
      (by decide +kernel)).1 (by decide +kernel)
  · exact absurd (h ⟨0, ascii "tcp:1000", ascii "tcp:5", some 1⟩ (by decide +kernel)
      (by decide +kernel)).1 (by decide +kernel)
  · exact absurd (h ⟨0, ascii "tcp:1", ascii "tcp:6", some 1⟩ (by decide +kernel)
      (by decide +kernel)).1 (by decide +kernel)

end AdbBridge
