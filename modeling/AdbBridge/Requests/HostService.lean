import AdbBridge.Sockets.Smart

/-!
# Which serial and which command

A request for a device begins with its serial, and a serial may have colons in it: a prefix, an
address in brackets, a port. `parse_host_service` decides where the serial ends. What it returns
is always the request cut at a colon, and each form of a serial is found again in front of any
command, unless the command begins like a port (`AdbBridge.parseHostService_correct`).
-/

namespace AdbBridge

open List Option

/-! ### The parser in parts -/

/-- Where the next colon is. -/
def colonFrom (full : Bytes) (n : ℕ) : Option ℕ := (full.drop n).findIdx? (· == 58)

/-- The serial and the command, once the boundary is found. -/
def finishAt (full : Bytes) (n : ℕ) : Option (Bytes × Bytes) :=
  if n = 0 || (full.drop n).isEmpty then none else some ((full.take n).dropLast, full.drop n)

/-- Behind the address and its colon. -/
def addressEnd (full : Bytes) (n : ℕ) : Option ℕ :=
  match if (full.drop n).head? == some 91 then (full.drop n).findIdx? (· == 93) else none with
  | some ipv6End =>
    if (full.drop (n + ipv6End + 1)).head? == some 58 then some (n + ipv6End + 2) else none
  | none => (colonFrom full n).map (n + · + 1)

/-- Behind the port, if there is one. -/
def portEnd (full : Bytes) (n : ℕ) : Option (Bytes × Bytes) :=
  match colonFrom full n with
  | none => finishAt full n
  | some next =>
    if ((full.drop n).take next).all isDigit then finishAt full (n + next + 1) else finishAt full n

theorem parseHostService_eq (full : Bytes) :
    parseHostService full =
      if full.isEmpty then none
      else match hostServicePrefixes.find? (startsWith full) with
        | some pre =>
          match colonFrom full pre.length with
          | none => none
          | some offset => finishAt full (pre.length + offset + 1)
        | none =>
          match hostServiceStart full with
          | none => none
          | some n =>
            match addressEnd full n with
            | none => none
            | some n => portEnd full n := rfl

/-! ### What is returned is the request cut at a colon -/

variable {full s c : Bytes} {n : ℕ}

/-- The byte before the boundary is a colon. -/
def AfterColon (full : Bytes) (n : ℕ) : Prop := ∃ front, full.take n = front ++ [58]

theorem afterColon_of_head? (h : (full.drop n).head? = some 58) : AfterColon full (n + 1) := by
  refine ⟨full.take n, ?_⟩
  rw [List.head?_drop] at h
  rw [take_add_one, h]
  rfl

theorem AfterColon.of_colonFrom {offset : ℕ} (h : colonFrom full n = some offset) :
    AfterColon full (n + offset + 1) := by
  refine afterColon_of_head? ?_
  obtain ⟨hlt, hcolon, -⟩ := List.findIdx?_eq_some_iff_getElem.mp h
  rw [← drop_drop, List.head?_drop, List.getElem?_eq_getElem hlt]
  exact congrArg some (by simpa using hcolon)

/-- **The boundary behind a colon cuts the request.** -/
theorem AfterColon.finishAt (h : AfterColon full n) (hfinish : finishAt full n = some (s, c)) :
    s ++ [58] ++ c = full ∧ c ≠ [] := by
  obtain ⟨front, hfront⟩ := h
  rw [AdbBridge.finishAt] at hfinish
  split_ifs at hfinish with hempty
  obtain ⟨rfl, rfl⟩ := Prod.mk.inj (some.inj hfinish)
  constructor
  · rw [hfront, dropLast_concat, ← hfront, take_append_drop]
  · intro hnil
    simp [hnil] at hempty

theorem AfterColon.portEnd (h : AfterColon full n) (hport : portEnd full n = some (s, c)) :
    s ++ [58] ++ c = full ∧ c ≠ [] := by
  rw [AdbBridge.portEnd] at hport
  split at hport
  · exact h.finishAt hport
  · rename_i next hnext
    split at hport
    · exact (AfterColon.of_colonFrom hnext).finishAt hport
    · exact h.finishAt hport

theorem afterColon_addressEnd {m : ℕ} (h : addressEnd full n = some m) : AfterColon full m := by
  rw [addressEnd] at h
  split at h
  · split at h
    · rename_i hcolon
      obtain rfl := some.inj h
      exact afterColon_of_head? (by simpa using hcolon)
    · exact absurd h (by simp)
  · obtain ⟨offset, hoffset, rfl⟩ := map_eq_some_iff.mp h
    exact AfterColon.of_colonFrom hoffset

/-- **The serial, a colon and the command are the request.** -/
theorem parseHostService_sound (h : parseHostService full = some (s, c)) :
    s ++ [58] ++ c = full ∧ c ≠ [] := by
  rw [parseHostService_eq] at h
  split at h
  · exact absurd h (by simp)
  split at h
  · split at h
    · exact absurd h (by simp)
    · rename_i offset hoffset
      exact (AfterColon.of_colonFrom hoffset).finishAt h
  · split at h
    · exact absurd h (by simp)
    split at h
    · exact absurd h (by simp)
    · rename_i haddress
      exact (afterColon_addressEnd haddress).portEnd h

/-! ### The forms of a serial -/

/-- The words that stand before a colon of their own. -/
def prefixWords : List Bytes :=
  [ascii "usb", ascii "product", ascii "model", ascii "device", ascii "localfilesystem"]

/-- The words that begin an address. -/
def addressWords : List Bytes := [ascii "tcp", ascii "udp", ascii "vsock"]

/-- The protocols that are ignored. -/
def protocols : List Bytes := [[], ascii "tcp:", ascii "udp:"]

/-- An address: a host, an IPv6 literal in brackets, or the context of a virtual socket. -/
inductive IsAddress : Bytes → Prop
  | host (a : Bytes) (hne : a ≠ []) (hcolon : 58 ∉ a) (hbracket : a.head? ≠ some 91)
      (hword : a ∉ prefixWords ++ addressWords) : IsAddress a
  | bracketed (x : Bytes) (hx : 93 ∉ x) : IsAddress ([91] ++ x ++ [93])
  | vsock (cid : Bytes) (hcid : cid.all isDigit) : IsAddress (ascii "vsock:" ++ cid)

/-- The command begins like a port. -/
def BeginsWithPort (c : Bytes) : Prop :=
  ∃ port rest, c = port ++ [58] ++ rest ∧ port.all isDigit

/-- **The serials that are found in front of a command.** -/
inductive IsSerial (c : Bytes) : Bytes → Prop
  | named (p name : Bytes) (hp : p ∈ hostServicePrefixes) (hname : 58 ∉ name) :
      IsSerial c (p ++ name)
  | withPort (q a digits : Bytes) (hq : q ∈ protocols) (ha : IsAddress a) (hne : digits ≠ [])
      (hdigits : digits.all isDigit) : IsSerial c (q ++ a ++ [58] ++ digits)
  | withoutPort (q a : Bytes) (hq : q ∈ protocols) (ha : IsAddress a) (hc : ¬ BeginsWithPort c) :
      IsSerial c (q ++ a)

/-! ### Finding a colon -/

variable {u v : Bytes} {w p : Bytes}

theorem findIdx?_append_cons {b : UInt8} (h : b ∉ u) :
    (u ++ b :: v).findIdx? (· == b) = some u.length := by
  have hnone : u.findIdx? (· == b) = none := by
    rw [List.findIdx?_eq_none_iff]
    intro x hx
    exact beq_false_of_ne fun heq => h (heq ▸ hx)
  rw [List.findIdx?_append, hnone, List.findIdx?_cons]
  simp

theorem colonFrom_append (h : 58 ∉ u) :
    colonFrom (s ++ (u ++ 58 :: v)) s.length = some u.length := by
  rw [colonFrom, drop_left]
  exact findIdx?_append_cons h

theorem colonFrom_eq_none (h : 58 ∉ c) : colonFrom (s ++ c) s.length = none := by
  rw [colonFrom, drop_left, List.findIdx?_eq_none_iff]
  intro x hx
  exact beq_false_of_ne fun heq => h (heq ▸ hx)

theorem not_mem_of_all_isDigit (h : u.all isDigit) : 58 ∉ u := by
  intro hmem
  exact absurd (List.all_eq_true.mp h 58 hmem) (by decide)

/-- A word and its colon begin the request exactly when the word is the first one. -/
theorem startsWith_word (hu : 58 ∉ u) (hw : 58 ∉ w) :
    startsWith (u ++ 58 :: v) (w ++ [58]) = (u == w) := by
  rw [startsWith]
  induction u generalizing w with
  | nil =>
    cases w with
    | nil => simp
    | cons b w =>
      have hb : b ≠ 58 := fun heq => hw (heq ▸ mem_cons_self)
      simp [isPrefixOf_cons_cons, hb]
  | cons a u ih =>
    have ha : a ≠ 58 := fun heq => hu (heq ▸ mem_cons_self)
    cases w with
    | nil => simp [isPrefixOf_cons_cons, ha.symm]
    | cons b w =>
      have htail := ih (fun h => hu (mem_cons_of_mem _ h))
        (fun h => hw (mem_cons_of_mem _ h))
      rw [cons_append, cons_append, isPrefixOf_cons_cons, htail, cons_beq_cons,
        Bool.beq_comm]

/-- Nothing that begins with a bracket begins with a word. -/
theorem startsWith_bracket (hw : w.head? ≠ some 91) : startsWith (91 :: v) (w ++ [58]) = false := by
  rw [startsWith]
  cases w with
  | nil => simp [isPrefixOf_cons_cons]
  | cons b w =>
    have hb : b ≠ 91 := fun heq => hw (by rw [heq, List.head?_cons])
    simp [isPrefixOf_cons_cons, hb]

/-! ### The end of the serial -/

/-- The boundary behind the serial's colon gives the serial and the command. -/
theorem finishAt_append (hc : c ≠ []) : finishAt (s ++ 58 :: c) (s.length + 1) = some (s, c) := by
  have hfull : s ++ 58 :: c = (s ++ [58]) ++ c := by simp
  have hlength : s.length + 1 = (s ++ [58]).length := by simp
  rw [finishAt, hfull, hlength, drop_left, take_left, dropLast_concat]
  simp [hc]

/-- **A port is taken into the serial.** -/
theorem portEnd_digits (hdigits : u.all isDigit) (hc : c ≠ []) :
    portEnd (s ++ 58 :: (u ++ 58 :: c)) (s.length + 1) = some (s ++ 58 :: u, c) := by
  have hfull : s ++ 58 :: (u ++ 58 :: c) = (s ++ [58]) ++ (u ++ 58 :: c) := by simp
  have hlength : s.length + 1 = (s ++ [58]).length := by simp
  have hcolon : colonFrom (s ++ 58 :: (u ++ 58 :: c)) (s.length + 1) = some u.length := by
    rw [hfull, hlength]
    exact colonFrom_append (not_mem_of_all_isDigit hdigits)
  have hport : ((s ++ 58 :: (u ++ 58 :: c)).drop (s.length + 1)).take u.length = u := by
    rw [hfull, hlength, drop_left, take_left]
  have hend : s.length + 1 + u.length + 1 = (s ++ 58 :: u).length + 1 := by
    rw [length_append, length_cons]
    omega
  have hcut : s ++ 58 :: (u ++ 58 :: c) = (s ++ 58 :: u) ++ 58 :: c := by simp
  simp only [portEnd, hcolon, hport, hdigits, if_true]
  rw [hend, hcut]
  exact finishAt_append hc

/-- **What does not begin like a port is the command.** -/
theorem portEnd_command (hport : ¬ BeginsWithPort c) (hc : c ≠ []) :
    portEnd (s ++ 58 :: c) (s.length + 1) = some (s, c) := by
  have hfull : s ++ 58 :: c = (s ++ [58]) ++ c := by simp
  have hlength : s.length + 1 = (s ++ [58]).length := by simp
  by_cases hcolon : 58 ∈ c
  · obtain ⟨port, rest, rfl, hfirst⟩ := eq_append_cons_of_mem hcolon
    have hdigits : port.all isDigit = false := by
      by_contra h
      exact hport ⟨port, rest, by simp, by simpa using h⟩
    have hnext : colonFrom (s ++ 58 :: (port ++ 58 :: rest)) (s.length + 1) = some port.length := by
      rw [hfull, hlength]
      exact colonFrom_append hfirst
    have htake :
        ((s ++ 58 :: (port ++ 58 :: rest)).drop (s.length + 1)).take port.length = port := by
      rw [hfull, hlength, drop_left, take_left]
    simp only [portEnd, hnext, htake, hdigits, Bool.false_eq_true, if_false]
    exact finishAt_append hc
  · have hnext : colonFrom (s ++ 58 :: c) (s.length + 1) = none := by
      rw [hfull, hlength]
      exact colonFrom_eq_none hcolon
    simp only [portEnd, hnext]
    exact finishAt_append hc

/-! ### The beginning of the serial -/

theorem hostServicePrefixes_eq : hostServicePrefixes = prefixWords.map (· ++ [58]) := by decide

theorem not_colon_mem_prefixWords : ∀ w ∈ prefixWords, 58 ∉ w := by decide

/-- A first word that is none of the five is not taken for one. -/
theorem find?_word_none (hu : 58 ∉ u) (hword : u ∉ prefixWords) :
    hostServicePrefixes.find? (startsWith (u ++ 58 :: v)) = none := by
  rw [hostServicePrefixes_eq, List.find?_eq_none]
  intro p hp
  obtain ⟨w, hw, rfl⟩ := List.mem_map.mp hp
  rw [startsWith_word hu (not_colon_mem_prefixWords w hw), beq_iff_eq]
  rintro rfl
  exact hword hw

theorem find?_bracket_none : hostServicePrefixes.find? (startsWith (91 :: v)) = none := by
  rw [hostServicePrefixes_eq, List.find?_eq_none]
  intro p hp
  obtain ⟨w, hw, rfl⟩ := List.mem_map.mp hp
  have hhead : ∀ w ∈ prefixWords, w.head? ≠ some 91 := by decide
  rw [startsWith_bracket (hhead w hw)]
  exact Bool.false_ne_true

/-- A prefix is found again in front of anything. -/
theorem find?_marked (hp : p ∈ hostServicePrefixes) :
    hostServicePrefixes.find? (startsWith (p ++ v)) = some p := by
  rw [hostServicePrefixes_eq] at hp ⊢
  obtain ⟨w, hw, rfl⟩ := List.mem_map.mp hp
  have hfull : w ++ [58] ++ v = w ++ 58 :: v := by simp
  have htest : prefixWords.find? (startsWith (w ++ 58 :: v) ∘ (· ++ [58])) =
      prefixWords.find? (w == ·) :=
    List.find?_congr fun w' hw' =>
      startsWith_word (not_colon_mem_prefixWords w hw) (not_colon_mem_prefixWords w' hw')
  have hfind : ∀ w ∈ prefixWords, prefixWords.find? (w == ·) = some w := by decide
  rw [hfull, List.find?_map, htest, hfind w hw]
  rfl

/-- What the parser asks of the address before it looks for its end. -/
structure Unmarked (b : Bytes) : Prop where
  noPrefix : hostServicePrefixes.find? (startsWith b) = none
  noTcp : startsWith b (ascii "tcp:") = false
  noUdp : startsWith b (ascii "udp:") = false

theorem unmarked_word (hu : 58 ∉ u) (hword : u ∉ prefixWords) (htcp : u ≠ ascii "tcp")
    (hudp : u ≠ ascii "udp") : Unmarked (u ++ 58 :: v) where
  noPrefix := find?_word_none hu hword
  noTcp := (startsWith_word hu (by decide : 58 ∉ ascii "tcp")).trans (beq_false_of_ne htcp)
  noUdp := (startsWith_word hu (by decide : 58 ∉ ascii "udp")).trans (beq_false_of_ne hudp)

theorem unmarked_bracket : Unmarked (91 :: v) where
  noPrefix := find?_bracket_none
  noTcp := startsWith_bracket (by decide : (ascii "tcp").head? ≠ some 91)
  noUdp := startsWith_bracket (by decide : (ascii "udp").head? ≠ some 91)

variable {q b : Bytes}

/-- A protocol is none of the five prefixes. -/
theorem Unmarked.find?_protocol (h : Unmarked b) (hq : q ∈ protocols) :
    hostServicePrefixes.find? (startsWith (q ++ b)) = none := by
  rw [protocols, mem_cons, mem_cons, mem_singleton] at hq
  rcases hq with rfl | rfl | rfl
  · exact h.noPrefix
  · exact find?_word_none (u := ascii "tcp") (by decide) (by decide)
  · exact find?_word_none (u := ascii "udp") (by decide) (by decide)

/-- The protocol is skipped, and so is the mark of a virtual socket. -/
theorem Unmarked.hostServiceStart (h : Unmarked b) (hq : q ∈ protocols) (hb : b ≠ []) :
    hostServiceStart (q ++ b) =
      some (if startsWith b (ascii "vsock:") then q.length + 6 else q.length) := by
  rw [protocols, mem_cons, mem_cons, mem_singleton] at hq
  have hempty : b.isEmpty = false := by simpa using hb
  rcases hq with rfl | rfl | rfl
  · simp [AdbBridge.hostServiceStart, h.noTcp, h.noUdp, hempty]
  · have hstart : startsWith (ascii "tcp:" ++ b) (ascii "tcp:") = true := by simp [startsWith]
    have hdrop : (ascii "tcp:" ++ b).drop 4 = b := rfl
    simp only [AdbBridge.hostServiceStart, hstart, Bool.true_or, if_true, hdrop, hempty,
      Bool.false_eq_true, if_false]
    rfl
  · have hstart : startsWith (ascii "udp:" ++ b) (ascii "udp:") = true := by simp [startsWith]
    have hdrop : (ascii "udp:" ++ b).drop 4 = b := rfl
    simp only [AdbBridge.hostServiceStart, hstart, Bool.or_true, if_true, hdrop, hempty,
      Bool.false_eq_true, if_false]
    rfl

/-- What is left to do for an address with no mark of its own. -/
theorem Unmarked.parseHostService (h : Unmarked b) (hq : q ∈ protocols) (hb : b ≠ []) :
    parseHostService (q ++ b) =
      match addressEnd (q ++ b)
          (if startsWith b (ascii "vsock:") then q.length + 6 else q.length) with
      | none => none
      | some n => portEnd (q ++ b) n := by
  have hempty : (q ++ b).isEmpty = false := by simp [hb]
  simp only [parseHostService_eq, hempty, h.find?_protocol hq, h.hostServiceStart hq hb,
    Bool.false_eq_true, if_false]

/-! ### The end of the address -/

/-- Without a bracket the address ends at the next colon. -/
theorem addressEnd_colon (hu : 58 ∉ u) (hhead : (u ++ 58 :: v).head? ≠ some 91) :
    addressEnd (s ++ (u ++ 58 :: v)) s.length = some (s.length + u.length + 1) := by
  have htest : ((u ++ 58 :: v).head? == some 91) = false := beq_false_of_ne hhead
  rw [addressEnd, drop_left, htest, colonFrom_append hu]
  rfl

/-- Colons between brackets are part of the address. -/
theorem addressEnd_bracket {x : Bytes} (hx : 93 ∉ x) :
    addressEnd (s ++ (91 :: x ++ 93 :: 58 :: v)) s.length =
      some (s.length + (x.length + 2) + 1) := by
  have hmem : 93 ∉ 91 :: x := by simpa using hx
  have hclose : (91 :: x ++ 93 :: 58 :: v).findIdx? (· == 93) = some (x.length + 1) :=
    findIdx?_append_cons hmem
  have hrest : (s ++ (91 :: x ++ 93 :: 58 :: v)).drop (s.length + (x.length + 1) + 1) =
      58 :: v := by
    have hfull : s ++ (91 :: x ++ 93 :: 58 :: v) = (s ++ (91 :: x ++ [93])) ++ 58 :: v := by simp
    rw [hfull]
    exact drop_left' (by simp; omega)
  have htest : ((91 :: x ++ 93 :: 58 :: v).head? == some 91) = true := rfl
  rw [addressEnd, drop_left, htest]
  simp only [if_true, hclose, hrest, List.head?_cons, beq_self_eq_true]
  rfl

variable {a rest : Bytes}

/-- **Every address is found**, and what follows its colon is a port or the command. -/
theorem IsAddress.parseHostService (ha : IsAddress a) (hq : q ∈ protocols) :
    parseHostService ((q ++ a) ++ 58 :: rest) =
      portEnd ((q ++ a) ++ 58 :: rest) ((q ++ a).length + 1) := by
  rw [append_assoc, length_append]
  cases ha with
  | host _ hne hcolon hbracket hword =>
    rw [mem_append, not_or] at hword
    obtain ⟨hfirst, hother⟩ := hword
    have hunmarked : Unmarked (a ++ 58 :: rest) :=
      unmarked_word hcolon hfirst (fun h => hother (h ▸ by decide))
        (fun h => hother (h ▸ by decide))
    have hvsock : startsWith (a ++ 58 :: rest) (ascii "vsock:") = false :=
      (startsWith_word hcolon (by decide : 58 ∉ ascii "vsock")).trans
        (beq_false_of_ne fun h => hother (h ▸ by decide))
    have hhead : (a ++ 58 :: rest).head? ≠ some 91 := by
      rwa [List.head?_append_of_ne_nil _ hne]
    rw [hunmarked.parseHostService hq (by simp), hvsock]
    simp only [Bool.false_eq_true, if_false, addressEnd_colon hcolon hhead]
  | bracketed x hx =>
    have hfull : [91] ++ x ++ [93] ++ 58 :: rest = 91 :: x ++ 93 :: 58 :: rest := by simp
    have hvsock : startsWith (91 :: x ++ 93 :: 58 :: rest) (ascii "vsock:") = false :=
      startsWith_bracket (by decide : (ascii "vsock").head? ≠ some 91)
    have hunmarked : Unmarked (91 :: x ++ 93 :: 58 :: rest) := unmarked_bracket
    have hlength : ([91] ++ x ++ [93]).length = x.length + 2 := by simp
    rw [hfull, hlength, hunmarked.parseHostService hq (by simp), hvsock]
    simp only [Bool.false_eq_true, if_false, addressEnd_bracket hx]
  | vsock cid hcid =>
    have hcolon : 58 ∉ cid := not_mem_of_all_isDigit hcid
    have hvsock : startsWith (ascii "vsock:" ++ cid ++ 58 :: rest) (ascii "vsock:") = true := by
      simp [startsWith]
    have hunmarked : Unmarked (ascii "vsock:" ++ cid ++ 58 :: rest) :=
      unmarked_word (u := ascii "vsock") (by decide) (by decide) (by decide) (by decide)
    have hhead : (cid ++ 58 :: rest).head? ≠ some 91 := by
      -- A digit, or the colon itself.
      cases cid with
      | nil => simp
      | cons d cid =>
        intro h
        rw [all_cons, some.inj h] at hcid
        exact absurd hcid (by simp [isDigit])
    have hfull : q ++ (ascii "vsock:" ++ cid ++ 58 :: rest) =
        (q ++ ascii "vsock:") ++ (cid ++ 58 :: rest) := by simp
    have hstart : q.length + 6 = (q ++ ascii "vsock:").length := by
      rw [length_append]
      rfl
    have haddress : addressEnd (q ++ (ascii "vsock:" ++ cid ++ 58 :: rest)) (q.length + 6) =
        some ((q ++ ascii "vsock:").length + cid.length + 1) := by
      rw [hfull, hstart]
      exact addressEnd_colon hcolon hhead
    have hend : (q ++ ascii "vsock:").length + cid.length + 1 =
        q.length + (ascii "vsock:" ++ cid).length + 1 := by
      rw [length_append, length_append]
      omega
    rw [hunmarked.parseHostService hq (by simp), hvsock]
    simp only [if_true, haddress, hend]

/-! ### Every serial is found in front of its command -/

/-- Behind one of the known beginnings, a name without colon is the serial. -/
theorem parseHostService_named {name : Bytes} (hp : p ∈ hostServicePrefixes) (hname : 58 ∉ name)
    (hc : c ≠ []) : parseHostService ((p ++ name) ++ 58 :: c) = some (p ++ name, c) := by
  have hempty : ((p ++ name) ++ 58 :: c).isEmpty = false := by simp
  have hfind : hostServicePrefixes.find? (startsWith ((p ++ name) ++ 58 :: c)) = some p := by
    rw [append_assoc]
    exact find?_marked hp
  have hcolon : colonFrom ((p ++ name) ++ 58 :: c) p.length = some name.length := by
    rw [append_assoc]
    exact colonFrom_append hname
  have hend : p.length + name.length + 1 = (p ++ name).length + 1 := by rw [length_append]
  simp only [parseHostService_eq, hempty, Bool.false_eq_true, if_false, hfind, hcolon, hend]
  exact finishAt_append hc

theorem IsSerial.parseHostService (h : IsSerial c s) (hc : c ≠ []) :
    parseHostService (s ++ 58 :: c) = some (s, c) := by
  cases h with
  | named p name hp hname => exact parseHostService_named hp hname hc
  | withPort q a digits hq ha _ hdigits =>
    have hfull : q ++ a ++ [58] ++ digits ++ 58 :: c = (q ++ a) ++ 58 :: (digits ++ 58 :: c) := by
      simp
    have hserial : q ++ a ++ [58] ++ digits = (q ++ a) ++ 58 :: digits := by simp
    rw [hfull, ha.parseHostService hq, portEnd_digits hdigits hc, hserial]
  | withoutPort q a hq ha hport => rw [ha.parseHostService hq, portEnd_command hport hc]

/-- **Splitting a request for a device.** What `parse_host_service` returns is the request cut at
a colon, with a command behind it; and every serial is found in front of every command. -/
theorem parseHostService_correct :
    (∀ full s c, parseHostService full = some (s, c) → s ++ [58] ++ c = full ∧ c ≠ []) ∧
      ∀ s c, c ≠ [] → IsSerial c s → parseHostService (s ++ [58] ++ c) = some (s, c) := by
  constructor
  · intro full s c h
    exact parseHostService_sound h
  · intro s c hc hs
    rw [append_assoc]
    exact hs.parseHostService hc

/-- An IPv6 address with a port, in front of a command that has a colon itself. -/
theorem parseHostService_correct_bracketed :
    parseHostService (ascii "[::1]:5555" ++ [58] ++ ascii "shell:ls") =
      some (ascii "[::1]:5555", ascii "shell:ls") :=
  parseHostService_correct.2 _ _ (by decide)
    (.withPort [] (ascii "[::1]") (ascii "5555") (by decide) (.bracketed (ascii "::1") (by decide))
      (by decide) (by decide))

end AdbBridge
