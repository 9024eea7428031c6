import AdbBridge.Transport.Lifecycle

/-!
# The choice of one transport

`acquire_one_transport` looks for the transport that a client means: the one with an id, with a
serial, or of a type. It goes through the list and gives up at the second match. What it finds does
not depend on the order of the list (`AdbBridge.searchLoop_unique`).

A client that needs a transport in use gets none in one of four states. That list of states is not
the complement of `ConnectionStateIsOnline`: a detached device is handed out. So a client gets the
only match if it is online, and nothing otherwise, exactly if the only match is not in one of the
forgotten states (`AdbBridge.selectsOnline_iff`).
-/

namespace AdbBridge

open List Option

/-! ### The only match -/

variable {w : World} {sel : TransportSelector}

/-- A transport that may be chosen. -/
def usable (w : World) (sel : TransportSelector) (t : TransportId) : Bool :=
  (w.transport t).connectionState != .kCsNoPerm && sel.isMatch t

/-- It is the only one in the list. -/
def Only (w : World) (sel : TransportSelector) (t : TransportId) : Prop :=
  t ∈ w.net.transportList ∧ usable w sel t = true ∧
    ∀ t' ∈ w.net.transportList, usable w sel t' = true → t' = t

/-- There are two of them at least. -/
def Several (w : World) (sel : TransportSelector) : Prop :=
  ∃ t ∈ w.net.transportList, ∃ t' ∈ w.net.transportList, t ≠ t' ∧ usable w sel t = true ∧
    usable w sel t' = true

/-- A round of the loop: what is not usable is passed over, but for the text. -/
theorem searchLoop_cons (t : TransportId) (ts : List TransportId) (s : Search) :
    ∃ error, searchLoop w sel (t :: ts) s =
      if usable w sel t then
        match sel.ambiguous with
        | none => { s with result := some t }
        | some msg =>
          if s.result.isSome then { result := none, error := msg, isAmbiguous := true }
          else searchLoop w sel ts { s with result := some t }
      else searchLoop w sel ts { s with error := error } := by
  unfold usable
  by_cases hperm : (w.transport t).connectionState = .kCsNoPerm
  · refine ⟨w.cfg.usbNoPermissionsLongHelpText, ?_⟩
    rw [searchLoop.eq_def]
    simp [hperm]
  · refine ⟨s.error, ?_⟩
    rewrite [searchLoop, if_neg hperm, bne_iff_ne.mpr hperm, Bool.true_and]
    rfl

/-- The element of a list with one element. -/
def single? {α : Type*} : List α → Option α
  | [a] => some a
  | _ => none

/-- With an id, the first match is taken. -/
theorem searchLoop_first (h : sel.ambiguous = none) (ts : List TransportId) (s : Search) :
    (searchLoop w sel ts s).result = (ts.find? (usable w sel)).or s.result ∧
      (searchLoop w sel ts s).isAmbiguous = s.isAmbiguous := by
  induction ts generalizing s with
  | nil => exact ⟨rfl, rfl⟩
  | cons t ts ih =>
    obtain ⟨error, hcons⟩ := searchLoop_cons t ts s
    rw [hcons, h]
    by_cases ht : usable w sel t = true
    · rw [if_pos ht, List.find?_cons_of_pos ht]
      exact ⟨rfl, rfl⟩
    · rw [if_neg ht, List.find?_cons_of_neg ht]
      exact ih _

/-- **The order of the list makes no difference**: the result is the only match, and the choice is
ambiguous if there are more. -/
theorem searchLoop_unique {msg : Bytes} (h : sel.ambiguous = some msg) (ts : List TransportId)
    (s : Search) :
    (searchLoop w sel ts s).result = single? (s.result.toList ++ ts.filter (usable w sel)) ∧
      (searchLoop w sel ts s).isAmbiguous =
        (s.isAmbiguous || decide (2 ≤ (s.result.toList ++ ts.filter (usable w sel)).length)) := by
  induction ts generalizing s with
  | nil =>
    rcases s with ⟨_ | r, error, amb⟩
    · exact ⟨rfl, (Bool.or_false amb).symm⟩
    · exact ⟨rfl, (Bool.or_false amb).symm⟩
  | cons t ts ih =>
    obtain ⟨error, hcons⟩ := searchLoop_cons t ts s
    rw [hcons, h]
    by_cases ht : usable w sel t = true
    · rw [if_pos ht, filter_cons_of_pos ht]
      rcases s with ⟨_ | r, error, amb⟩
      · exact ih ⟨some t, error, amb⟩
      · -- The second match.
        refine ⟨rfl, ?_⟩
        simp
    · rw [if_neg ht, filter_cons_of_neg ht]
      exact ih ⟨s.result, error, s.isAmbiguous⟩

/-- The only match is the one in the list of matches. -/
theorem only_iff (hnodup : w.net.transportList.Nodup) (t : TransportId) :
    Only w sel t ↔ w.net.transportList.filter (usable w sel) = [t] := by
  have hnodup' : (w.net.transportList.filter (usable w sel)).Nodup := hnodup.filter _
  have hmem : ∀ t', t' ∈ w.net.transportList.filter (usable w sel) ↔
      t' ∈ w.net.transportList ∧ usable w sel t' = true := fun t' => mem_filter
  constructor
  · rintro ⟨ht, husable, hall⟩
    have hmemt := (hmem t).mpr ⟨ht, husable⟩
    have hallt : ∀ t' ∈ w.net.transportList.filter (usable w sel), t' = t := fun t' ht' =>
      hall t' ((hmem t').mp ht').1 ((hmem t').mp ht').2
    generalize w.net.transportList.filter (usable w sel) = cs at hnodup' hmemt hallt
    match cs, hnodup', hmemt, hallt with
    | [t'], _, _, hallt => rw [hallt t' mem_cons_self]
    | t₁ :: t₂ :: _, hnodup', _, hallt =>
      have h12 : t₁ = t₂ := (hallt t₁ (by simp)).trans (hallt t₂ (by simp)).symm
      exact absurd h12 (by simp at hnodup'; tauto)
  · intro heq
    rw [heq] at hmem
    obtain ⟨ht, husable⟩ := (hmem t).mp mem_cons_self
    exact ⟨ht, husable, fun t' ht' husable' =>
      mem_singleton.mp ((hmem t').mpr ⟨ht', husable'⟩)⟩

theorem single?_eq_some {α : Type*} {l : List α} {a : α} : single? l = some a ↔ l = [a] := by
  match l with
  | [] => simp [single?]
  | [b] => simp [single?]
  | b :: c :: l => simp [single?]

/-- There are several matches if the list of matches is longer. -/
theorem several_iff (hnodup : w.net.transportList.Nodup) :
    Several w sel ↔ 2 ≤ (w.net.transportList.filter (usable w sel)).length := by
  have hnodup' : (w.net.transportList.filter (usable w sel)).Nodup := hnodup.filter _
  have hmem : ∀ t', t' ∈ w.net.transportList.filter (usable w sel) ↔
      t' ∈ w.net.transportList ∧ usable w sel t' = true := fun t' => mem_filter
  constructor
  · rintro ⟨t, ht, t', ht', hne, husable, husable'⟩
    have h1 := (hmem t).mpr ⟨ht, husable⟩
    have h2 := (hmem t').mpr ⟨ht', husable'⟩
    generalize w.net.transportList.filter (usable w sel) = cs at h1 h2
    match cs, h1, h2 with
    | [t₁], h1, h2 =>
      exact absurd ((mem_singleton.mp h1).trans (mem_singleton.mp h2).symm) hne
    | _ :: _ :: _, _, _ => simp
  · intro hlen
    match hcs : w.net.transportList.filter (usable w sel), hlen with
    | t₁ :: t₂ :: cs, _ =>
      rw [hcs] at hmem hnodup'
      obtain ⟨ht₁, husable₁⟩ := (hmem t₁).mp (by simp)
      obtain ⟨ht₂, husable₂⟩ := (hmem t₂).mp (by simp)
      exact ⟨t₁, ht₁, t₂, ht₂, by simp at hnodup'; tauto, husable₁, husable₂⟩

/-! ### What a client gets -/

section Acquire

variable (w : World) (type : TransportType) (serial : Option Bytes) (transportId : TransportId)

/-- Either a second match is an error, or there is none. -/
theorem selectorOf_cases :
    let sel := selectorOf w type serial transportId
    (transportId = 0 ∧ ∃ msg, sel.ambiguous = some msg) ∨
      (sel.ambiguous = none ∧ ∀ t t', sel.isMatch t = true → sel.isMatch t' = true → t = t') := by
  unfold selectorOf
  by_cases hid : transportId ≠ 0
  · rw [if_pos hid]
    refine .inr ⟨rfl, fun t t' ht ht' => ?_⟩
    simp only [beq_iff_eq] at ht ht'
    rw [ht, ht']
  · rw [if_neg hid]
    have hzero : transportId = 0 := not_not.mp hid
    cases serial with
    | some s => exact .inl ⟨hzero, _, rfl⟩
    | none =>
      cases type with
      | kTransportHost => exact .inr ⟨rfl, fun t t' ht => absurd ht Bool.false_ne_true⟩
      | kTransportUsb | kTransportLocal | kTransportAny => exact .inl ⟨hzero, _, rfl⟩

variable {w}

/-- **The search finds the only match**, and says if there are several. -/
theorem searchLoop_selectorOf (hnodup : w.net.transportList.Nodup) :
    let sel := selectorOf w type serial transportId
    let found := searchLoop w sel w.net.transportList { error := sel.notFound }
    (∀ t, found.result = some t ↔ Only w sel t) ∧
      (found.isAmbiguous = true ↔ transportId = 0 ∧ Several w sel) := by
  intro sel found
  rcases selectorOf_cases w type serial transportId with ⟨hzero, msg, hambiguous⟩ | ⟨hnone, hunique⟩
  · obtain ⟨hresult, hamb⟩ := searchLoop_unique hambiguous w.net.transportList
      { error := sel.notFound }
    refine ⟨fun t => ?_, ?_⟩
    · rw [only_iff hnodup, ← single?_eq_some]
      exact Eq.congr_left hresult
    · rw [several_iff hnodup, and_iff_right hzero]
      exact (Eq.congr_left hamb).trans decide_eq_true_iff
  · obtain ⟨hresult, hamb⟩ := searchLoop_first hnone w.net.transportList { error := sel.notFound }
    have husable : ∀ t, usable w sel t = true → sel.isMatch t = true := fun t ht =>
      (Bool.and_eq_true_iff.mp ht).2
    refine ⟨fun t => ?_, ?_⟩
    · rw [show found.result = _ from hresult, or_none]
      constructor
      · intro hfind
        have ht := List.find?_some hfind
        exact ⟨List.mem_of_find?_eq_some hfind, ht, fun t' _ ht' =>
          hunique t' t (husable t' ht') (husable t ht)⟩
      · rintro ⟨ht, husable', hall⟩
        obtain ⟨t', hfind⟩ := isSome_iff_exists.mp
          (List.find?_isSome.mpr ⟨t, ht, husable'⟩)
        rw [hfind, hall t' (List.mem_of_find?_eq_some hfind) (List.find?_some hfind)]
    · refine iff_of_false (fun htrue => ?_) ?_
      · exact Bool.false_ne_true (hamb.symm.trans htrue)
      · rintro ⟨-, t, -, t', -, hne, ht, ht'⟩
        exact hne (hunique t t' (husable t ht) (husable t' ht'))

variable (w)

/-- **A client gets the only match if it is online, and nothing otherwise**, and is told whether
several transports match. -/
def SelectsOnline : Prop :=
  let sel := selectorOf w type serial transportId
  let found := acquireOneTransport w type serial transportId false
  (∀ t, found.result = some t ↔
    Only w sel t ∧ connectionStateIsOnline (w.transport t).connectionState = true) ∧
    (found.isAmbiguous = true ↔ transportId = 0 ∧ Several w sel)

variable {w}

/-- What is done with the match: the states that are refused, and what is left of the search. -/
theorem acquireOneTransport_result :
    let sel := selectorOf w type serial transportId
    let found := searchLoop w sel w.net.transportList { error := sel.notFound }
    (acquireOneTransport w type serial transportId false).isAmbiguous = found.isAmbiguous ∧
      ∀ t, (acquireOneTransport w type serial transportId false).result = some t ↔
        found.result = some t ∧
          inactiveMessage w.cfg (w.transport t).connectionState = none := by
  intro sel found
  rw [acquireOneTransport]
  cases hresult : found.result with
  | none =>
    simp only [found, sel] at hresult
    refine ⟨rfl, fun t => iff_of_false ?_ (by simp)⟩
    simp [hresult]
  | some t' =>
    cases hmessage : inactiveMessage w.cfg (w.transport t').connectionState with
    | none =>
      simp only [hmessage]
      refine ⟨rfl, fun t => ⟨fun h => ⟨h, ?_⟩, And.left⟩⟩
      rw [← some.inj h]
      exact hmessage
    | some error =>
      simp only [hmessage]
      refine ⟨rfl, fun t => iff_of_false (by simp) ?_⟩
      rintro ⟨heq, hnone⟩
      rw [← some.inj heq, hmessage] at hnone
      cases hnone

/-- The states that are neither refused nor online. -/
theorem inactiveMessage_eq_none_iff {cfg : Config} {state : ConnectionState}
    (h : state ≠ .kCsNoPerm) :
    inactiveMessage cfg state = none ↔
      connectionStateIsOnline state = true ∨ state = .kCsDetached ∨ state = .kCsAny := by
  cases state <;> simp_all [inactiveMessage, connectionStateIsOnline]

/-- **A client gets exactly the only match that is online, if the only match is neither detached nor
in the state `kCsAny`.** -/
theorem selectsOnline_iff (hnodup : w.net.transportList.Nodup) :
    SelectsOnline w type serial transportId ↔
      ∀ t, Only w (selectorOf w type serial transportId) t →
        (w.transport t).connectionState ≠ .kCsDetached ∧
          (w.transport t).connectionState ≠ .kCsAny := by
  obtain ⟨hsearch, hsearchAmb⟩ := searchLoop_selectorOf type serial transportId hnodup
  obtain ⟨hamb, hresult⟩ := acquireOneTransport_result (w := w) type serial transportId
  have hstate : ∀ t, Only w (selectorOf w type serial transportId) t →
      (w.transport t).connectionState ≠ .kCsNoPerm := by
    rintro t ⟨-, husable, -⟩
    simpa using (Bool.and_eq_true_iff.mp husable).1
  have hfound : ∀ t, (acquireOneTransport w type serial transportId false).result = some t ↔
      Only w (selectorOf w type serial transportId) t ∧
        inactiveMessage w.cfg (w.transport t).connectionState = none := fun t => by
    rw [hresult, hsearch]
  constructor
  · rintro ⟨hexact, -⟩ t ht
    have hnot : ¬ connectionStateIsOnline (w.transport t).connectionState = true →
        ¬ ((w.transport t).connectionState = .kCsDetached ∨
          (w.transport t).connectionState = .kCsAny) := by
      intro hoffline hforgotten
      have hnone : inactiveMessage w.cfg (w.transport t).connectionState = none :=
        (inactiveMessage_eq_none_iff (hstate t ht)).mpr (.inr hforgotten)
      exact hoffline ((hexact t).mp ((hfound t).mpr ⟨ht, hnone⟩)).2
    constructor
    · intro hdetached
      exact hnot (by rw [hdetached]; decide) (.inl hdetached)
    · intro hany
      exact hnot (by rw [hany]; decide) (.inr hany)
  · intro hforgotten
    refine ⟨fun t => ?_, by rw [hamb]; exact hsearchAmb⟩
    rw [hfound]
    refine and_congr_right fun ht => ?_
    rw [inactiveMessage_eq_none_iff (hstate t ht)]
    exact or_iff_left fun h => h.elim (hforgotten t ht).1 (hforgotten t ht).2

end Acquire

/-- A server with two transports: a device that is online, and one that is detached. -/
def withDetached : World where
  net :=
    { transports := fun t =>
        if t = 1 then { type := .kTransportLocal, connectionState := .kCsDevice }
        else { type := .kTransportUsb, connectionState := .kCsDetached }
      transportList := [1, 2] }

theorem selectsOnline_withDetached : SelectsOnline withDetached .kTransportLocal none 0 := by
  refine (selectsOnline_iff _ _ _ (by decide)).mpr fun t ht => ?_
  have hmem : t ∈ [1, 2] := ht.1
  revert ht
  fin_cases hmem
  · exact fun _ => ⟨by decide, by decide⟩
  · exact fun ht => absurd ht.2.1 (by decide)

/-- **The detached device is handed out to a client that needs one in use.** -/
theorem not_selectsOnline_withDetached :
    withDetached.net.transportList.Nodup ∧ ¬ SelectsOnline withDetached .kTransportUsb none 0 := by
  refine ⟨by decide, fun h => ?_⟩
  have hresult : (acquireOneTransport withDetached .kTransportUsb none 0 false).result = some 2 := by
    decide
  exact absurd ((h.1 2).mp hresult).2 (by decide)

end AdbBridge
