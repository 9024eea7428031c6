import AdbBridge.Server

/-!
# The framing of requests

A client sends four hexadecimal digits and as many bytes, in any number of pieces. The
smart socket appends each piece to its buffer until the announced length is there, and
then takes everything behind the digits for the request: with what follows the request,
if it came in the same piece.

`framing` is what the smart socket makes of its buffer, and `actsOn` the request it
acts on when it is given one piece after the other. `actsOn_iff` says that this is the
announced part of the stream exactly if a piece ends where the request does.
-/

namespace AdbBridge

open List

/-! ### One buffer -/

/-- What a smart socket makes of its buffer. -/
inductive Framing
  /-- The request is not complete. -/
  | incomplete
  /-- The length is not acceptable. -/
  | bad
  /-- The request is there, and the buffer has been terminated behind it. -/
  | complete (buf : Bytes)
  deriving DecidableEq, Repr

/-- The first part of `smart_socket_enqueue`. -/
def framing (buf : Bytes) : Framing :=
  if buf.length < 4 then .incomplete
  else
    let len := unhex (buf.take 4)
    if len = 0 ∨ maxPayload < len then .bad
    else if buf.length < len + 4 then .incomplete
    else .complete (buf.set (len + 4) 0)

section Buffer

variable {w : World} {a : Addr} {s : Asocket} {data buf : Bytes} {n : ℕ}

/-- **What enqueueing does.** Everything behind the four digits is the request. -/
theorem smartSocketEnqueue_eq (hs : w.sk.heap a = some s) :
    smartSocketEnqueue w a data =
      let w' := w.upd a ({ · with smartSocketData := s.smartSocketData ++ data })
      match framing (s.smartSocketData ++ data) with
      | .incomplete => (w', 0)
      | .bad => smartSocketFail w' a
      | .complete buf =>
        smartSocketRequest (w'.upd a ({ · with smartSocketData := buf })) a (buf.drop 4) := by
  simp only [smartSocketEnqueue, hs, framing]
  split
  · rfl
  · split
    · rfl
    · split <;> rfl

/-- A buffer that is too short for its request. -/
theorem framing_of_short (hn : 0 < n) (hmax : n ≤ maxPayload)
    (hlen : 4 ≤ buf.length → unhex (buf.take 4) = n) (hshort : buf.length < n + 4) :
    framing buf = .incomplete := by
  unfold framing
  split
  · rfl
  · rename_i hfour
    rw [hlen (not_lt.mp hfour)]
    have hgood : ¬(n = 0 ∨ maxPayload < n) := by omega
    simp only [hgood, if_false, hshort, if_true]

/-- A buffer that holds its request. -/
theorem framing_of_long (hn : 0 < n) (hmax : n ≤ maxPayload) (hlen : unhex (buf.take 4) = n)
    (hlong : n + 4 ≤ buf.length) : framing buf = .complete (buf.set (n + 4) 0) := by
  have hfour : ¬buf.length < 4 := by omega
  have hgood : ¬(n = 0 ∨ maxPayload < n) := by omega
  have hshort : ¬buf.length < n + 4 := by omega
  simp only [framing, hfour, hlen, hgood, hshort, if_false]

end Buffer

/-! ### One piece after the other -/

/-- The request a smart socket acts on, as it is given one piece after the other. -/
def actsOn (w : World) (a : Addr) : List Bytes → Option Bytes
  | [] => none
  | data :: pieces =>
    match w.sk.heap a with
    | none => none
    | some s =>
      match framing (s.smartSocketData ++ data) with
      | .incomplete => actsOn (smartSocketEnqueue w a data).1 a pieces
      | .bad => none
      | .complete buf => some (buf.drop 4)

section Pieces

variable {w : World} {a : Addr} {s : Asocket} {n : ℕ}

/-- The smart socket acts once the pieces up to some `k` are long enough, on all of
them. -/
theorem exists_actsOn_eq (hn : 0 < n) (hmax : n ≤ maxPayload) (pieces : List Bytes)
    (hs : w.sk.heap a = some s) (hshort : s.smartSocketData.length < n + 4)
    (hlen : unhex ((s.smartSocketData ++ pieces.flatten).take 4) = n)
    (hlong : n + 4 ≤ (s.smartSocketData ++ pieces.flatten).length) :
    ∃ k, (s.smartSocketData ++ (pieces.take k).flatten).length < n + 4 ∧
      n + 4 ≤ (s.smartSocketData ++ (pieces.take (k + 1)).flatten).length ∧
        actsOn w a pieces =
          some (((s.smartSocketData ++ (pieces.take (k + 1)).flatten).set (n + 4) 0).drop 4) := by
  -- The buffer grows by one piece at a time; what it starts with does not change.
  induction pieces generalizing w s with
  | nil =>
    rw [flatten_nil, append_nil] at hlong
    omega
  | cons data pieces ih =>
    have hstream : s.smartSocketData ++ (data :: pieces).flatten =
        (s.smartSocketData ++ data) ++ pieces.flatten := by simp
    rw [hstream] at hlen hlong
    have htake : 4 ≤ (s.smartSocketData ++ data).length →
        unhex ((s.smartSocketData ++ data).take 4) = n := by
      intro hfour
      rwa [take_append_of_le_length hfour] at hlen
    by_cases hdone : n + 4 ≤ (s.smartSocketData ++ data).length
    · refine ⟨0, by simpa using hshort, by simpa using hdone, ?_⟩
      simp only [actsOn, hs, framing_of_long hn hmax (htake (by omega)) hdone]
      simp
    · have hwait := framing_of_short hn hmax htake (not_le.mp hdone)
      have hworld : (smartSocketEnqueue w a data).1 =
          w.upd a ({ · with smartSocketData := s.smartSocketData ++ data }) := by
        rw [smartSocketEnqueue_eq hs]
        simp only [hwait]
      have hs' : (smartSocketEnqueue w a data).1.sk.heap a =
          some { s with smartSocketData := s.smartSocketData ++ data } := by
        rw [hworld]
        exact SockTable.upd_heap_self hs _
      obtain ⟨k, hbefore, hafter, hacts⟩ := ih hs' (not_le.mp hdone) hlen hlong
      refine ⟨k + 1, by simpa using hbefore, by simpa using hafter, ?_⟩
      simp only [actsOn, hs, hwait]
      rw [hacts]
      simp

/-- The pieces up to a later one are at least as long. -/
theorem length_take_mono (pieces : List Bytes) {j k : ℕ} (h : j ≤ k) :
    (pieces.take j).flatten.length ≤ (pieces.take k).flatten.length := by
  have hprefix : (pieces.take j).flatten <+: (pieces.take k).flatten := by
    obtain ⟨rest, hrest⟩ := take_prefix_take_left h (l := pieces)
    exact ⟨rest.flatten, by rw [← hrest, flatten_append]⟩
  exact hprefix.length_le

/-- **The framing of requests.** A smart socket that has not read anything acts on the
bytes that its client has announced exactly if a piece ends where they do. Four bytes
are digits if their value is below `16 ^ 4`: `unhex` makes `0xffffffff` of all others. -/
theorem actsOn_iff (hs : w.sk.heap a = some s) (hempty : s.smartSocketData = [])
    (pieces : List Bytes) (hn : 0 < n) (hmax : n < 16 ^ 4)
    (hlen : unhex (pieces.flatten.take 4) = n) (hlong : n + 4 ≤ pieces.flatten.length) :
    actsOn w a pieces = some ((pieces.flatten.drop 4).take n) ↔
      ∃ k, (pieces.take k).flatten.length = n + 4 := by
  have hmax' : n ≤ maxPayload := by
    have : 16 ^ 4 ≤ maxPayload := by decide
    omega
  obtain ⟨k, hbefore, hafter, hacts⟩ := exists_actsOn_eq hn hmax' pieces hs
    (by rw [hempty]; exact Nat.succ_pos _) (by rwa [hempty]) (by rwa [hempty])
  rw [hempty, nil_append] at hbefore hafter hacts
  rw [hacts, Option.some.injEq]
  constructor
  · intro heq
    refine ⟨k + 1, ?_⟩
    have hlength := congrArg List.length heq
    simp only [length_drop, length_set, length_take] at hlength
    omega
  · rintro ⟨j, hj⟩
    -- No earlier piece is long enough, and no later one as short.
    have hjk : k + 1 ≤ j := by
      by_contra hlt
      have hmono := length_take_mono pieces (show j ≤ k by omega)
      omega
    have hexact : (pieces.take (k + 1)).flatten.length = n + 4 := by
      have hmono := length_take_mono pieces hjk
      omega
    obtain ⟨rest, hrest⟩ : (pieces.take (k + 1)).flatten <+: pieces.flatten := by
      refine ⟨(pieces.drop (k + 1)).flatten, ?_⟩
      rw [← flatten_append, take_append_drop]
    rw [set_eq_of_length_le hexact.le, ← hrest,
      drop_append_of_le_length (by omega), take_left' (by simp [hexact])]

/-- A server with a smart socket that has not read anything. -/
def smartWorld : World := (createSmartSocket (initialWorld {} {})).1

theorem actsOn_iff_split :
    actsOn smartWorld 0 [ascii "00", ascii "0chost:", ascii "version", ascii "0000"] =
      some (ascii "host:version") := by
  have hacts := (actsOn_iff (w := smartWorld) (a := 0) (n := 12) rfl rfl
    [ascii "00", ascii "0chost:", ascii "version", ascii "0000"] (by decide) (by decide)
    (by decide +kernel) (by decide +kernel)).mpr ⟨3, by decide +kernel⟩
  exact hacts.trans (by decide +kernel)

/-- The same stream in one piece: the start of the next request is taken for the end of
this one, and no service has such a name. -/
theorem actsOn_pipelined :
    actsOn smartWorld 0 [ascii "000chost:version0000"] =
        some (ascii "host:version" ++ 0 :: ascii "000") ∧
      ascii "host:version" ++ 0 :: ascii "000" ≠
        (([ascii "000chost:version0000"] : List Bytes).flatten.drop 4).take 12 := by
  decide +kernel

end Pieces

end AdbBridge
