import AdbBridge.Graph.Requests

/-!
# What a forward request comes to

`handle_forward_request` takes a service string apart, calls one of the functions of the
listener table and answers. Here the strings it accepts are put together again, and what
it does to the table is read off: nothing, one call of `runForwardRequest`, or the
removal of all listeners.
-/

namespace AdbBridge

open List Option

/-! ### Splitting a request -/

theorem head?_splitAt (d : UInt8) (s : Bytes) :
    (splitAt d s).head? = some (s.takeWhile (· != d)) := by
  unfold splitAt
  induction s with
  | nil => rfl
  | cons b s ih =>
    rw [splitOn_cons_eq_if_modifyHead]
    by_cases hb : b = d
    · simp [hb]
    · rw [if_neg (by simpa using hb), List.head?_modifyHead, ih,
        takeWhile_cons_of_pos (by simpa using hb)]
      rfl

variable {d : UInt8}

theorem splitAt_eq_singleton {s l : Bytes} (h : splitAt d s = [l]) :
    s = l ∧ s.contains d = false := by
  have hs : s = l := by
    have hjoin : [d].intercalate (s.splitOn d) = s := intercalate_splitOn d
    rw [← hjoin, ← splitAt, h]
    simp
  have hhead := head?_splitAt d s
  rw [h, List.head?_cons, some.injEq, ← hs] at hhead
  refine ⟨hs, Bool.eq_false_iff.mpr fun hd => ?_⟩
  have hall := takeWhile_eq_self_iff.mp hhead.symm d (by simpa using hd)
  simp at hall

theorem splitAt_eq_pair {s l r : Bytes} (h : splitAt d s = [l, r]) :
    s = l ++ d :: r ∧ s.takeWhile (· != d) = l := by
  have hhead := head?_splitAt d s
  rw [h, List.head?_cons, some.injEq] at hhead
  refine ⟨?_, hhead.symm⟩
  have hjoin : [d].intercalate (s.splitOn d) = s := intercalate_splitOn d
  rw [← hjoin, ← splitAt, h]
  simp [List.intercalate]

/-- The rest of a string after the start it was found to have. -/
theorem eq_append_of_consumePrefix {s pre rest : Bytes} (h : consumePrefix s pre = some rest) :
    s = pre ++ rest := by
  obtain ⟨pre', hs, hpre⟩ := List.dropPrefix?_eq_some_iff.mp h
  rw [hs, eq_of_beq hpre]

@[simp]
theorem consumePrefix_append (pre rest : Bytes) : consumePrefix (pre ++ rest) pre = some rest :=
  List.dropPrefix?_append_of_beq rest (beq_self_eq_true pre)

/-- What a well-formed request for a forward looks like. -/
theorem eq_of_parse_forward {service name connectTo : Bytes} {noRebind : Bool}
    (h : parseForwardRequest service = some (.ok (.forward noRebind name connectTo))) :
    ∃ rest, consumePrefix service (ascii "forward:") = some rest ∧
      consumeFlag rest (ascii "norebind:") = (noRebind, name ++ 59 :: connectTo) ∧
      (name ++ 59 :: connectTo).takeWhile (· != 59) = name ∧ connectTo.head? ≠ some 42 := by
  unfold parseForwardRequest at h
  split at h
  · split at h
    · split at h <;> simp at h
    · simp at h
  · split at h
    · simp at h
    · rename_i rest hrest
      refine ⟨rest, hrest, ?_⟩
      rcases hflag : consumeFlag rest (ascii "norebind:") with ⟨flag, body⟩
      rw [hflag] at h
      dsimp only at h
      split at h
      · rename_i l r hsplit
        obtain ⟨hbody, htake⟩ := splitAt_eq_pair hsplit
        split at h
        · simp at h
        · rename_i hgood
          simp only [some.injEq, Except.ok.injEq, ForwardRequest.forward.injEq] at h
          obtain ⟨rfl, rfl, rfl⟩ := h
          simp only [Bool.or_eq_true, not_or, beq_iff_eq] at hgood
          exact ⟨by rw [hbody], hbody ▸ htake, hgood.2⟩
      · simp at h

/-- What a well-formed request to remove a forward looks like. -/
theorem eq_of_parse_killforward {service name : Bytes}
    (h : parseForwardRequest service = some (.ok (.killforward name))) :
    service = ascii "killforward:" ++ name ∧ name.contains 59 = false := by
  unfold parseForwardRequest at h
  split at h
  · rename_i rest hrest
    split at h
    · rename_i l hsplit
      obtain ⟨rfl, hcontains⟩ := splitAt_eq_singleton hsplit
      split at h
      · simp at h
      · simp only [some.injEq, Except.ok.injEq, ForwardRequest.killforward.injEq] at h
        subst h
        exact ⟨eq_append_of_consumePrefix hrest, hcontains⟩
    · simp at h
  · split at h
    · simp at h
    · dsimp only at h
      split at h
      · split at h <;> simp at h
      · simp at h

/-! ### Requests and the table -/

/-- The listener a request for a name is about. -/
def Net.named (n : Net) (name : Bytes) : Option Alistener :=
  n.listenerList.find? (·.localName == name)

theorem Net.foldl_eraseListener_listenerList (ls : List Alistener) (n : Net) :
    (ls.foldl eraseListener n).listenerList =
      n.listenerList.filter fun l => !ls.any (·.id == l.id) := by
  induction ls generalizing n with
  | nil => simp
  | cons x ls ih =>
    rw [foldl_cons, ih, eraseListener_listenerList, List.filter_filter]
    refine filter_congr fun l _ => ?_
    rw [any_cons, Bool.not_or, Bool.and_comm, bne_comm]
    rfl

section Requests

variable {w : World} {t : TransportId} {a : Addr} {service : Bytes}

theorem net_sendStatusOkay : (sendStatusOkay w a).net = w.net := by
  unfold sendStatusOkay
  split <;> rfl

/-- A request that can be parsed changes the tables as the request alone does. -/
theorem net_handleForwardRequest {request : ForwardRequest}
    (h : parseForwardRequest service = some (.ok request)) :
    (handleForwardRequest w service (.ok t) a).1.net = (runForwardRequest w t request).1.net := by
  have hother : ∀ s, parseForwardRequest s = none → service ≠ s := by
    rintro s hs rfl
    simp [hs] at h
  have hlist := hother (ascii "list-forward") (by decide +kernel)
  have hall := hother (ascii "killforward-all") (by decide +kernel)
  unfold handleForwardRequest
  rw [if_neg (by simpa using hlist), if_neg (by simpa using hall), h]
  dsimp only
  rcases runForwardRequest w t request with ⟨w', _ | resolved⟩
  · rfl
  · dsimp only
    split
    · exact net_sendStatusOkay
    · exact net_sendStatusOkay

theorem net_handleForwardRequest_killforwardAll {acquired : Except Bytes TransportId} :
    (handleForwardRequest w (ascii "killforward-all") acquired a).1.net =
      w.net.removeAllListeners := net_sendStatusOkay

/-- The call a request makes, if it is well formed and finds a transport. -/
def forwardCall (service : Bytes) (acquired : Except Bytes TransportId) :
    Option (TransportId × ForwardRequest) :=
  match parseForwardRequest service, acquired with
  | some (.ok request), .ok t => some (t, request)
  | _, _ => none

/-- **What a request does to the table.** -/
theorem net_handleForwardRequest_eq (acquired : Except Bytes TransportId) :
    (handleForwardRequest w service acquired a).1.net =
      match forwardCall service acquired with
      | some (t, request) => (runForwardRequest w t request).1.net
      | none => if service = ascii "killforward-all" then w.net.removeAllListeners else w.net := by
  by_cases hall : service = ascii "killforward-all"
  · subst hall
    rw [net_handleForwardRequest_killforwardAll]
    rfl
  · unfold forwardCall
    cases hparse : parseForwardRequest service with
    | none =>
      simp only [handleForwardRequest, hparse, hall, beq_iff_eq, if_false]
      repeat' split
      all_goals rfl
    | some request =>
      have hlist : service ≠ ascii "list-forward" := by
        rintro rfl
        exact absurd hparse (by decide +kernel +revert)
      rcases acquired with e | t
      · simp only [handleForwardRequest, hparse, hall, hlist, beq_iff_eq, if_false]
        rfl
      · rcases request with e | request
        · simp only [handleForwardRequest, hparse, hall, hlist, beq_iff_eq, if_false]
          rfl
        · exact net_handleForwardRequest hparse

end Requests

end AdbBridge
