import AdbBridge.Types.CLibrary

/-!
# Socket specifications

A listener is asked for by a *socket specification*: `tcp:` with a port, or with a host and a
port, `vsock:` with a port, `acceptfd:` with a descriptor, or the kind and the name of a local
socket. `socket_spec_listen` takes it apart and has the system bind a socket; of `tcp:` and
`vsock:` it reports the port the socket is bound to, of the others none.

One port has many specifications: `tcp:5`, `tcp:05`, `tcp:0x5`, `tcp:localhost:5`, `tcp:[::1]:5`
and `vsock:5`. A listener keeps the name it was asked for exactly if that name is *plain*
(`resolvedName_eq_self_iff`).
-/

namespace AdbBridge

open List

/-- `android::base::ParseInt` of an `int`: blanks, then a number in base 16 behind `0x`, or one in
base 10 with or without a sign, up to the end of the C string. -/
def parseInt (s : Bytes) : Option ℤ :=
  let s := (s.takeWhile (· != 0)).dropWhile isSpace
  let value : Option ℤ :=
    if skip0x s ≠ s then (hexValue (skip0x s)).map Int.ofNat
    else
      let (negative, digits) := takeSign s
      if digits = [] ∨ digits.all isDigit = false then none
      else some (if negative then -digitsValue digits else digitsValue digits)
  value.filter fun v => -2 ^ 31 ≤ v ∧ v < 2 ^ 31

/-- The port of `ParseNetAddress`: `sscanf` with `%d`, which leaves alone what follows the
digits. -/
def scanPort (s : Bytes) : Option ℕ :=
  let (negative, rest) := takeSign ((s.takeWhile (· != 0)).dropWhile isSpace)
  let port := digitsValue (rest.takeWhile isDigit)
  if negative ∨ port = 0 ∨ 65535 < port then none else some port

/-- The host of an address and the text of its port, where `ParseNetAddress` sees them; `none` for
a bracket that is not closed. -/
def splitNetAddress (address : Bytes) : Option (Bytes × Option Bytes) :=
  let colons := address.count 58
  if address.head? = some 91 then
    match find address (ascii "]:"), rfindString address (ascii "]:") with
    | some first, some last => some ((address.drop 1).take (first - 1),
      some (address.drop (last + 2)))
    | _, _ => none
  else if address.count 46 = 0 ∧ 2 ≤ colons ∧ colons ≤ 7 then some (address, none)
  else if colons ≤ 1 then
    some (address.takeWhile (· != 58),
      if colons = 0 then none else some ((address.dropWhile (· != 58)).drop 1))
  else some ([], none)

/-- `android::base::ParseNetAddress`: the host, and the port or the one to take where the address
has none. -/
def parseNetAddress (address : Bytes) (port : ℕ) : Except Bytes (Bytes × ℕ) :=
  let text := address.takeWhile (· != 0)
  match splitNetAddress address with
  | none => .error (ascii "bad IPv6 address '" ++ text ++ ascii "'")
  | some (host, portStr) =>
    if host = [] then .error (ascii "no host in '" ++ text ++ ascii "'")
    else
      match portStr with
      | none => .ok (host, port)
      | some s =>
        match scanPort s with
        | some port => .ok (host, port)
        | none => .error (ascii "bad port number '" ++ s.takeWhile (· != 0) ++ ascii "' in '" ++
            text ++ ascii "'")

/-- `DEFAULT_ADB_LOCAL_TRANSPORT_PORT`. -/
def defaultAdbLocalTransportPort : ℕ := 5555

/-- `parse_tcp_socket_spec`, of what follows `tcp:`. -/
def parseTcpSocketSpec (rest : Bytes) : Except Bytes (Bytes × ℕ) :=
  match parseInt rest with
  | some port =>
    if port < 0 ∨ 65535 < port then
      .error (ascii "bad port number '" ++ ascii (toString port) ++ ascii "'")
    else .ok ([], port.toNat)
  | none => parseNetAddress rest defaultAdbLocalTransportPort

/-- The port of a socket that the system has bound: the one asked for or, for `0`, the one the
system has picked, which is not `0`. -/
def boundPort (port : ℕ) (picked : Except Bytes ℕ) : Except Bytes ℕ :=
  picked.map fun picked => if port = 0 then max 1 picked else port

/-- `socket_spec_listen` for `tcp:`. -/
def listenTcp (rest : Bytes) (picked : Except Bytes ℕ) : Except Bytes ℕ :=
  match parseTcpSocketSpec rest with
  | .error e => .error e
  | .ok (hostname, port) =>
    if hostname = [] ∨ hostname = ascii "localhost" ∨ hostname = ascii "::1" then
      boundPort port picked
    else .error (ascii "listening on specified hostname currently unsupported")

/-- `socket_spec_listen` for `vsock:`. -/
def listenVsock (spec : Bytes) (picked : Except Bytes ℕ) : Except Bytes ℕ :=
  match splitAt 58 spec with
  | [_, fragment] =>
    match parseInt fragment with
    | none => .error (ascii "could not parse vsock port")
    | some port =>
      if port < 0 then .error (ascii "vsock port was negative.") else boundPort port.toNat picked
  | _ => .error (ascii "given vsock server socket string was invalid")

/-- `kLocalSocketTypes` on Linux, and which of them are available. -/
def kLocalSocketTypes (adbHost : Bool) : List (Bytes × Bool) :=
  [(ascii "local:", true), (ascii "localreserved:", !adbHost), (ascii "localabstract:", true),
    (ascii "localfilesystem:", true)]

/-- `socket_spec_listen` on Linux: what went wrong, or the port it reports, `0` for none. What the
system makes of a well-formed specification is `picked`: an error, or a socket, on a port that the
system picks where it is left to. -/
def socketSpecListen (adbHost : Bool) (spec : Bytes) (picked : Except Bytes ℕ) : Except Bytes ℕ :=
  if startsWith spec (ascii "tcp:") then listenTcp (spec.drop 4) picked
  else if startsWith spec (ascii "vsock:") then listenVsock spec picked
  else
    match consumePrefix spec (ascii "acceptfd:") with
    | some fd =>
      match parseUint 32 fd with
      | some (n, []) => if n < 2 ^ 31 then picked.map fun _ => 0 else .error (ascii "invalid fd")
      | _ => .error (ascii "invalid fd")
    | none =>
      match (kLocalSocketTypes adbHost).find? fun type => startsWith spec type.1 with
      | none => .error (ascii "unknown socket specification:" ++ spec)
      | some (_, true) => picked.map fun _ => 0
      | some (_, false) =>
        .error (ascii "attempted to listen on unavailable socket type: " ++ spec)

/-- The name of a listener after binding: a port that was reported takes the place of the name
asked for. -/
def resolvedName (localName : Bytes) (resolved : ℕ) : Bytes :=
  if resolved = 0 then localName else ascii "tcp:" ++ decimal resolved

/-- A *plain* name: `tcp:` and a port other than `0`, written the way `%d` prints it, or a name
for which no port is reported. -/
def PlainName (name : Bytes) : Prop :=
  let port := digitsValue (name.drop 4)
  (port ≠ 0 ∧ name = ascii "tcp:" ++ decimal port) ∨
    (startsWith name (ascii "tcp:") = false ∧ startsWith name (ascii "vsock:") = false)

instance (name : Bytes) : Decidable (PlainName name) := by
  unfold PlainName
  infer_instance

/-! ### The port that is reported -/

section Ports

variable {adbHost : Bool} {name : Bytes} {picked : Except Bytes ℕ} {resolved : ℕ} {port : ℕ}

/-- The digits of a number are read back as the number. -/
theorem parseInt_decimal (n : ℕ) :
    parseInt (decimal n) = if n < 2 ^ 31 then some (n : ℤ) else none := by
  have hhex : ∀ b ∈ decimal n, (unhexDigit b).isSome := fun b hb =>
    isSome_unhexDigit (isDigit_of_mem_decimal hb)
  have htext : (decimal n).takeWhile (· != 0) = decimal n :=
    takeWhile_bne_of_notMem fun hzero => (unhexDigit_ne (hhex 0 hzero)).1 rfl
  have hspace : (decimal n).dropWhile isSpace = decimal n := by
    rw [dropWhile_eq_self_iff]
    intro hlen
    simp [(unhexDigit_ne (hhex _ (getElem_mem hlen))).2.1]
  have hdigits : ¬(decimal n = [] ∨ (decimal n).all isDigit = false) := by
    rw [not_or, Bool.not_eq_false, all_eq_true]
    exact ⟨decimal_ne_nil n, fun b hb => isDigit_of_mem_decimal hb⟩
  simp only [parseInt, htext, hspace, skip0x_of_digits hhex, takeSign_of_digits hhex]
  rw [if_neg (not_not_intro rfl), if_neg hdigits, digitsValue_decimal]
  rw [Option.filter_some, if_neg Bool.false_ne_true]
  refine if_congr ?_ rfl rfl
  rw [decide_eq_true_eq]
  omega

theorem eq_of_map_eq_ok {f : ℕ → ℕ} (h : picked.map f = .ok resolved) : ∃ n, f n = resolved := by
  cases picked with
  | error e => exact nomatch h
  | ok n => exact ⟨n, Except.ok.inj h⟩

theorem boundPort_ne_zero (h : boundPort port picked = .ok resolved) : resolved ≠ 0 := by
  obtain ⟨n, rfl⟩ := eq_of_map_eq_ok h
  split <;> omega

theorem listenTcp_ne_zero {rest : Bytes} (h : listenTcp rest picked = .ok resolved) :
    resolved ≠ 0 := by
  unfold listenTcp at h
  repeat' split at h
  · exact nomatch h
  · exact boundPort_ne_zero h
  · exact nomatch h

theorem listenVsock_ne_zero {spec : Bytes} (h : listenVsock spec picked = .ok resolved) :
    resolved ≠ 0 := by
  unfold listenVsock at h
  repeat' split at h
  · exact nomatch h
  · exact nomatch h
  · exact boundPort_ne_zero h
  · exact nomatch h

/-- A number without a colon is taken for a host. -/
theorem parseNetAddress_decimal (n port : ℕ) :
    parseNetAddress (decimal n) port = .ok (decimal n, port) := by
  have hhead : (decimal n).head? ≠ some 91 := fun h =>
    notMem_decimal (by decide) n (List.mem_of_mem_head? h)
  have hcolon : 58 ∉ decimal n := notMem_decimal (by decide) n
  have hsplit : splitNetAddress (decimal n) = some (decimal n, none) := by
    simp [splitNetAddress, hhead, count_eq_zero.mpr hcolon, takeWhile_bne_of_notMem hcolon]
  simp only [parseNetAddress, hsplit, if_neg (decimal_ne_nil n)]

/-- A port written the way it is printed is the port that is bound. -/
theorem listenTcp_decimal (hport : port ≠ 0)
    (h : listenTcp (decimal port) picked = .ok resolved) : resolved = port := by
  rw [listenTcp, parseTcpSocketSpec, parseInt_decimal] at h
  by_cases hsmall : port < 2 ^ 31
  · rw [if_pos hsmall] at h
    dsimp only at h
    by_cases hrange : (port : ℤ) < 0 ∨ 65535 < (port : ℤ)
    · rw [if_pos hrange] at h
      exact nomatch h
    · rw [if_neg hrange] at h
      obtain ⟨n, rfl⟩ := eq_of_map_eq_ok h
      exact if_neg hport
  · rw [if_neg hsmall] at h
    simp only [parseNetAddress_decimal] at h
    -- No host that a socket is bound for is a number.
    rw [if_neg] at h
    · exact nomatch h
    · rintro (hnil | hhost | hhost)
      · exact decimal_ne_nil port hnil
      · exact notMem_decimal (b := 108) (by decide) port (hhost ▸ by decide)
      · exact notMem_decimal (b := 58) (by decide) port (hhost ▸ by decide)

/-- A port is reported of `tcp:` and of `vsock:`, and of nothing else. -/
theorem resolved_eq_zero_iff (h : socketSpecListen adbHost name picked = .ok resolved) :
    resolved = 0 ↔
      startsWith name (ascii "tcp:") = false ∧ startsWith name (ascii "vsock:") = false := by
  unfold socketSpecListen at h
  split at h
  next htcp => simp [htcp, listenTcp_ne_zero h]
  next htcp =>
    split at h
    next hvsock => simp [hvsock, listenVsock_ne_zero h]
    next hvsock =>
      have hzero : resolved = 0 := by
        repeat' split at h
        all_goals first
          | exact (eq_of_map_eq_ok h).choose_spec.symm
          | exact nomatch h
      simp [hzero, htcp, hvsock]

/-- **Which names a listener keeps.** -/
theorem resolvedName_eq_self_iff (h : socketSpecListen adbHost name picked = .ok resolved) :
    resolvedName name resolved = name ↔ PlainName name := by
  unfold PlainName resolvedName
  by_cases hzero : resolved = 0
  · rw [if_pos hzero]
    exact iff_of_true rfl (.inr ((resolved_eq_zero_iff h).mp hzero))
  · rw [if_neg hzero, or_iff_left (mt (resolved_eq_zero_iff h).mpr hzero)]
    constructor
    · rintro rfl
      have hdrop : (ascii "tcp:" ++ decimal resolved).drop 4 = decimal resolved := rfl
      rw [hdrop, digitsValue_decimal]
      exact ⟨hzero, rfl⟩
    · rintro ⟨hport, hname⟩
      have htcp : startsWith name (ascii "tcp:") = true :=
        List.isPrefixOf_iff_prefix.mpr ⟨_, hname.symm⟩
      have hdrop : name.drop 4 = decimal (digitsValue (name.drop 4)) := by
        nth_rewrite 1 [hname]
        exact drop_left' rfl
      rw [socketSpecListen, if_pos htcp, hdrop] at h
      rw [listenTcp_decimal hport h, ← hname]

example : ["tcp:5", "tcp:05", "tcp:0x5", "tcp:localhost:5", "tcp:[::1]:5", "vsock:5"].map
    (fun spec => (socketSpecListen true (ascii spec) (.ok 4321)).toOption) =
      List.replicate 6 (some 5) := by decide +kernel

end Ports

end AdbBridge
