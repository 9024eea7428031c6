import AdbBridge.Sockets.Enqueue

/-!
# Messages that begin with their length

A string goes over a socket behind its length, in four hexadecimal digits. Three functions write
such messages: `SendProtocolString`, for requests and replies; `device_tracker_send`, for the list
of devices; and `process_list_msg`, for the list of processes of a device. Each prints the length
with a format that gives *at least* four digits. The first sends all of them, the other two the
first four; and none keeps the length below the first that takes five digits.

So a message can be read back exactly if it is not longer than `0xffff` (`lengths_iff`). What is
read by `ReadProtocolString` does not depend on how the stream is cut into pieces.
-/

namespace AdbBridge

open List Option

/-! ### Hexadecimal digits -/

/-- What `"%x"` prints. -/
def hexDigits (n : ℕ) : Bytes := ascii (String.ofList (Nat.toDigits 16 n))

/-- What `"%04x"` prints. -/
def hexPadded (n : ℕ) : Bytes := List.replicate (4 - (hexDigits n).length) 48 ++ hexDigits n

/-- The value of a string of hexadecimal digits. -/
def hexValue (s : Bytes) : Option ℕ := (s.mapM unhexDigit).map (List.foldl (16 * · + ·) 0)

theorem hexLength_eq (n : ℕ) : hexLength n = (hexPadded n).take 4 := rfl

variable {c : UInt8} {v n d len : ℕ} {s : Bytes} {pieces : List Bytes}

theorem unhexDigit_lt (h : unhexDigit c = some d) : d < 16 := by
  simp only [unhexDigit, UInt8.le_iff_toNat_le] at h
  split_ifs at h with h1 h2 h3
  · obtain rfl := some.inj h
    have := h1.2
    simp at this
    omega
  · obtain rfl := some.inj h
    have := h2.2
    simp at this
    omega
  · obtain rfl := some.inj h
    have := h3.2
    simp at this
    omega

/-- A digit that is printed is read back. -/
theorem unhexDigit_digitChar (hd : d < 16) :
    unhexDigit (UInt8.ofNat (Nat.digitChar d).toNat) = some d := by
  interval_cases d <;> rfl

/-- One more digit at the end. -/
theorem hexValue_concat (hs : hexValue s = some v)
    (hc : unhexDigit c = some d) : hexValue (s ++ [c]) = some (16 * v + d) := by
  obtain ⟨ds, hds, rfl⟩ := map_eq_some_iff.mp hs
  simp [hexValue, mapM_append, hds, hc]

/-- One more digit at the front. -/
theorem hexValue_zero_cons (s : Bytes) : hexValue (48 :: s) = hexValue s := by
  rw [hexValue, hexValue, mapM_cons, show unhexDigit 48 = some 0 from rfl]
  cases s.mapM unhexDigit with
  | none => rfl
  | some ds => rfl

theorem hexValue_replicate (k : ℕ) (s : Bytes) :
    hexValue (List.replicate k 48 ++ s) = hexValue s := by
  induction k with
  | zero => rfl
  | succ k ih => rw [replicate_succ, cons_append, hexValue_zero_cons, ih]

theorem hexDigits_of_lt (h : n < 16) : hexDigits n = [UInt8.ofNat (Nat.digitChar n).toNat] := by
  simp [hexDigits, ascii, Nat.toDigits_of_lt_base h]

theorem hexDigits_of_le (h : 16 ≤ n) :
    hexDigits n = hexDigits (n / 16) ++ [UInt8.ofNat (Nat.digitChar (n % 16)).toNat] := by
  simp [hexDigits, ascii, Nat.toDigits_of_base_le (by decide : 1 < 16) h]

/-- **What is printed has the value it was printed for.** -/
theorem hexValue_hexDigits (n : ℕ) : hexValue (hexDigits n) = some n := by
  induction n using Nat.strong_induction_on with
  | _ n ih =>
    rcases lt_or_ge n 16 with hn | hn
    · rw [hexDigits_of_lt hn]
      simp [hexValue, unhexDigit_digitChar hn]
    · rw [hexDigits_of_le hn,
        hexValue_concat (ih (n / 16) (by omega)) (unhexDigit_digitChar (by omega))]
      rw [Nat.div_add_mod]

theorem hexValue_hexPadded (n : ℕ) : hexValue (hexPadded n) = some n := by
  rw [hexPadded, hexValue_replicate, hexValue_hexDigits]

/-- The last digit and the ones before it. -/
theorem exists_of_hexValue_concat (h : hexValue (s ++ [c]) = some v) :
    ∃ u d, hexValue s = some u ∧ unhexDigit c = some d ∧ v = 16 * u + d := by
  rw [hexValue, mapM_append] at h
  cases hs : s.mapM unhexDigit with
  | none => simp [hs] at h
  | some ds =>
    cases hc : unhexDigit c with
    | none => simp [hs, hc] at h
    | some d =>
      refine ⟨_, d, by rw [hexValue, hs, map_some], rfl, ?_⟩
      simp only [hs, hc, mapM_cons, mapM_nil, Option.pure_def, bind_eq_bind,
        bind_some, map_some, foldl_append, foldl_cons, foldl_nil,
        some.injEq] at h
      exact h.symm

/-- The value is bounded by the number of digits. -/
theorem hexValue_lt (h : hexValue s = some v) : v < 16 ^ s.length := by
  induction s using List.reverseRecOn generalizing v with
  | nil =>
    obtain rfl : 0 = v := by simpa [hexValue] using h
    simp
  | append_singleton s c ih =>
    obtain ⟨u, d, hu, hd, rfl⟩ := exists_of_hexValue_concat h
    have hu := ih hu
    have hd := unhexDigit_lt hd
    rw [length_append, length_singleton, pow_succ]
    omega

/-- A string has a value if all its bytes are digits. -/
theorem isSome_hexValue_iff : (hexValue s).isSome ↔ ∀ c ∈ s, (unhexDigit c).isSome := by
  induction s using List.reverseRecOn with
  | nil => simp [hexValue]
  | append_singleton s c ih =>
    constructor
    · intro h
      obtain ⟨v, hv⟩ := isSome_iff_exists.mp h
      obtain ⟨u, d, hu, hd, -⟩ := exists_of_hexValue_concat hv
      intro c' hc'
      rcases mem_append.mp hc' with hmem | hmem
      · exact ih.mp (by rw [hu]; rfl) c' hmem
      · rw [mem_singleton.mp hmem, hd]
        rfl
    · intro h
      obtain ⟨u, hu⟩ := isSome_iff_exists.mp
        (ih.mpr fun c' hc' => h c' (mem_append_left _ hc'))
      obtain ⟨d, hd⟩ := isSome_iff_exists.mp (h c (by simp))
      rw [hexValue_concat hu hd]
      rfl

/-- The length that is printed, as it is read from its first four bytes. -/
theorem exists_hexValue_take (n : ℕ) (s : Bytes) :
    ∃ v, hexValue ((hexPadded n ++ s).take 4) = some v ∧ v < 16 ^ 4 := by
  have hlen : 4 ≤ (hexPadded n).length := by
    rw [hexPadded, length_append, length_replicate]
    omega
  rw [take_append_of_le_length hlen]
  have hall := isSome_hexValue_iff.mp (by rw [hexValue_hexPadded n]; rfl)
  obtain ⟨v, hv⟩ := isSome_iff_exists.mp
    (isSome_hexValue_iff.mpr fun c hc => hall c (mem_of_mem_take hc))
  refine ⟨v, hv, (hexValue_lt hv).trans_le ?_⟩
  exact Nat.pow_le_pow_right (by decide) (by simp)

/-- A length with at most four digits takes four bytes. -/
theorem length_hexPadded (h : n ≤ 0xffff) : (hexPadded n).length = 4 := by
  have hlen : (hexDigits n).length ≤ 4 := by
    rw [hexDigits, ascii, length_map, String.toList_ofList]
    exact (Nat.length_toDigits_le_iff (by decide) (by decide)).mpr (by omega)
  rw [hexPadded, length_append, length_replicate]
  omega

/-- **A message**: four digits, and as many bytes as they say. -/
def Framed (msg : Bytes) : Prop :=
  4 ≤ msg.length ∧ hexValue (msg.take 4) = some (msg.drop 4).length

/-- The four bytes `snprintf` leaves of a length, and a body of that length. -/
theorem framed_hexLength_iff (s : Bytes) :
    Framed (hexLength s.length ++ s) ↔ s.length ≤ 0xffff := by
  have hfour : (hexLength s.length).length = 4 := by
    rw [hexLength_eq, length_take, hexPadded, length_append, length_replicate]
    omega
  have htake : (hexLength s.length ++ s).take 4 = hexLength s.length := by
    rw [← hfour, take_left]
  have hdrop : (hexLength s.length ++ s).drop 4 = s := by
    rw [← hfour, drop_left]
  rw [Framed, htake, hdrop, length_append, hfour]
  constructor
  · rintro ⟨-, hv⟩
    have hlt := hexValue_lt hv
    rw [hfour] at hlt
    omega
  · intro hle
    refine ⟨by omega, ?_⟩
    rw [hexLength_eq, ← length_hexPadded hle, take_length, hexValue_hexPadded]

/-! ### Reading and writing all of it -/

/-- What a call of `adb_write` came to. -/
inductive WriteOutcome
  /-- So many of the bytes have been written. -/
  | wrote (n : ℕ)
  /-- `EAGAIN`. -/
  | again
  | failed
  deriving DecidableEq, Repr

/-- `WriteFdExactly`, with what each `adb_write` comes to: the bytes that have been written, and
what is returned, if it has come to that. -/
def writeFdExactly : Bytes → List WriteOutcome → Bytes × Option Bool
  | [], _ => ([], some true)
  | _ :: _, [] => ([], none)
  | b :: rest, .wrote n :: outcomes =>
    let (written, result) := writeFdExactly ((b :: rest).drop n) outcomes
    ((b :: rest).take n ++ written, result)
  | b :: rest, .again :: outcomes => writeFdExactly (b :: rest) outcomes
  | _ :: _, .failed :: _ => ([], some false)

/-- `ReadFdExactly` from a stream that comes in pieces. One `adb_read` does not read over the end of
a piece, and a piece without bytes is the end of the stream. -/
def readFdExactly : ℕ → List Bytes → Option (Bytes × List Bytes)
  | 0, pieces => some ([], pieces)
  | _ + 1, [] => none
  | _ + 1, [] :: _ => none
  | len + 1, (b :: piece) :: pieces =>
    if len + 1 < (b :: piece).length then
      some ((b :: piece).take (len + 1), (b :: piece).drop (len + 1) :: pieces)
    else
      (readFdExactly (len + 1 - (b :: piece).length) pieces).map fun (read, left) =>
        ((b :: piece) ++ read, left)

/-- A stream that has not ended. -/
def Flows (pieces : List Bytes) : Prop := ∀ piece ∈ pieces, piece ≠ []

/-- Once it returns `true`, everything has been written. -/
theorem written_of_writeFdExactly (data : Bytes) (outcomes : List WriteOutcome)
    (h : (writeFdExactly data outcomes).2 = some true) :
    (writeFdExactly data outcomes).1 = data := by
  induction outcomes generalizing data with
  | nil =>
    cases data with
    | nil => simp [writeFdExactly]
    | cons b rest => simp [writeFdExactly] at h
  | cons o outcomes ih =>
    cases data with
    | nil => simp [writeFdExactly]
    | cons b rest =>
      cases o with
      | wrote n =>
        simp only [writeFdExactly] at h ⊢
        rw [ih _ h, take_append_drop]
      | again =>
        exact ih _ h
      | failed => simp [writeFdExactly] at h

/-- **How the stream is cut does not matter.** -/
theorem readFdExactly_flows (hflow : Flows pieces) (hlen : len ≤ pieces.flatten.length) :
    ∃ left, readFdExactly len pieces = some (pieces.flatten.take len, left) ∧
      left.flatten = pieces.flatten.drop len ∧ Flows left := by
  induction pieces generalizing len with
  | nil =>
    obtain rfl : len = 0 := by simpa using hlen
    exact ⟨[], by simp [readFdExactly], by simp, hflow⟩
  | cons piece pieces ih =>
    cases len with
    | zero => exact ⟨piece :: pieces, by simp [readFdExactly], by simp, hflow⟩
    | succ len =>
      obtain ⟨b, piece, rfl⟩ : ∃ b rest, piece = b :: rest :=
        exists_cons_of_ne_nil (hflow piece mem_cons_self)
      have hrest : Flows pieces := fun q hq => hflow q (mem_cons_of_mem _ hq)
      rw [readFdExactly, flatten_cons]
      split_ifs with hlong
      · refine ⟨(b :: piece).drop (len + 1) :: pieces, ?_, ?_, ?_⟩
        · rw [take_append_of_le_length hlong.le]
        · rw [flatten_cons, drop_append_of_le_length hlong.le]
        · intro q hq
          rcases mem_cons.mp hq with rfl | hq
          · exact fun hnil => absurd (drop_eq_nil_iff.mp hnil) (by omega)
          · exact hrest q hq
      · rw [flatten_cons, length_append] at hlen
        have hshort : len + 1 - (b :: piece).length ≤ pieces.flatten.length := by omega
        obtain ⟨left, hread, hleft, hflow'⟩ := ih hrest hshort
        refine ⟨left, ?_, ?_, hflow'⟩
        · rw [hread, map_some, take_append, take_of_length_le (not_lt.mp hlong)]
        · rw [hleft, drop_append, drop_eq_nil_of_le (not_lt.mp hlong), nil_append]

/-- Of a stream, exactly what is asked for is taken. -/
theorem readFdExactly_append (hflow : Flows pieces) {data later : Bytes}
    (hpieces : pieces.flatten = data ++ later) :
    ∃ left, readFdExactly data.length pieces = some (data, left) ∧ left.flatten = later ∧
      Flows left := by
  have hlen : data.length ≤ pieces.flatten.length := by
    rw [hpieces, length_append]
    omega
  obtain ⟨left, hread, hleft, hflow'⟩ := readFdExactly_flows hflow hlen
  refine ⟨left, ?_, ?_, hflow'⟩
  · rw [hread, hpieces, take_left]
  · rw [hleft, hpieces, drop_left]

/-- Nothing is read of a stream that is at its end. -/
theorem readFdExactly_nil (hn : n ≠ 0) (hflow : Flows pieces)
    (hpieces : pieces.flatten = []) : readFdExactly n pieces = none := by
  obtain ⟨n, rfl⟩ := Nat.exists_eq_succ_of_ne_zero hn
  cases pieces with
  | nil => rfl
  | cons piece pieces =>
    exact absurd (append_eq_nil_iff.mp hpieces).1 (hflow piece mem_cons_self)

/-! ### Protocol strings -/

/-- `isspace`. -/
def isSpace (c : UInt8) : Bool := c == 32 || (9 ≤ c && c ≤ 13)

/-- The sign of a number, and what follows it. -/
def takeSign : Bytes → Bool × Bytes
  | 45 :: rest => (true, rest)
  | 43 :: rest => (false, rest)
  | s => (false, s)

/-- Skip a `0x` that has a digit behind it. -/
def skip0x : Bytes → Bytes
  | 48 :: x :: d :: rest =>
    if (x = 120 ∨ x = 88) ∧ (unhexDigit d).isSome then d :: rest else 48 :: x :: d :: rest
  | s => s

/-- `strtoul` in base 16, of a buffer with at most four characters before its terminator: blanks,
a sign, `0x` and digits, each of them optional. -/
def strtoul16 (buf : Bytes) : ℕ :=
  let (negative, s) := takeSign ((buf.takeWhile (· != 0)).dropWhile isSpace)
  let value := (hexValue ((skip0x s).takeWhile fun c => (unhexDigit c).isSome)).getD 0
  if negative then (2 ^ 64 - value) % 2 ^ 64 else value

/-- What `SendProtocolString` writes, and `none` for `EMSGSIZE`. The length is an
`unsigned int`. -/
def protocolString (s : Bytes) : Option Bytes :=
  let length := s.length % 2 ^ 32
  if maxPayload - 4 < length then none else some (hexPadded length ++ s)

/-- `SendProtocolString`, with what each `adb_write` comes to. -/
def sendProtocolString (s : Bytes) (outcomes : List WriteOutcome) : Bytes × Option Bool :=
  match protocolString s with
  | none => ([], some false)
  | some str => writeFdExactly str outcomes

/-- How `ReadProtocolString` fails: with a text, or with an exception where the length is longer
than any string, as that of `-001` is. -/
inductive ReadFault
  | text (error : String)
  | lengthError

/-- `ReadProtocolString`: the string and what is left of the stream, or the error. -/
def readProtocolString (pieces : List Bytes) : Except ReadFault (Bytes × List Bytes) :=
  match readFdExactly 4 pieces with
  | none => .error (.text "protocol fault (couldn't read status length)")
  | some (buf, pieces) =>
    if 2 ^ 63 ≤ strtoul16 buf then .error .lengthError
    else
      match readFdExactly (strtoul16 buf) pieces with
      | none => .error (.text "protocol fault (couldn't read status message)")
      | some (s, pieces) => .ok (s, pieces)

/-- What a digit is not. -/
theorem unhexDigit_ne (h : (unhexDigit c).isSome) :
    c ≠ 0 ∧ isSpace c = false ∧ c ≠ 45 ∧ c ≠ 43 ∧ c ≠ 120 ∧ c ≠ 88 := by
  refine ⟨?_, ?_, ?_, ?_, ?_, ?_⟩
  · rintro rfl
    cases h
  · by_contra hspace
    simp only [isSpace, Bool.not_eq_false, Bool.or_eq_true, beq_iff_eq, Bool.and_eq_true,
      decide_eq_true_eq] at hspace
    rcases hspace with rfl | ⟨hlo, hhi⟩
    · cases h
    · have hsmall : c.toNat ≤ 13 := hhi
      have hnone : unhexDigit c = none := by
        simp only [unhexDigit, UInt8.le_iff_toNat_le]
        rw [if_neg, if_neg, if_neg]
        all_goals
          rintro ⟨hlow, -⟩
          simp at hlow
          omega
      rw [hnone] at h
      cases h
  all_goals
    rintro rfl
    cases h

theorem takeSign_of_digits (h : ∀ c ∈ s, (unhexDigit c).isSome) : takeSign s = (false, s) := by
  rw [takeSign.eq_def]
  split
  · exact absurd rfl (unhexDigit_ne (h 45 mem_cons_self)).2.2.1
  · exact absurd rfl (unhexDigit_ne (h 43 mem_cons_self)).2.2.2.1
  · rfl

theorem skip0x_of_digits (h : ∀ c ∈ s, (unhexDigit c).isSome) : skip0x s = s := by
  rw [skip0x.eq_def]
  split
  · rename_i x d rest
    obtain ⟨-, -, -, -, hx, hX⟩ := unhexDigit_ne (h x (by simp))
    rw [if_neg (by simp [hx, hX])]
  · rfl

/-- The digits that were printed are read as their value. -/
theorem strtoul16_of_hexValue {buf : Bytes} (h : hexValue buf = some v) : strtoul16 buf = v := by
  have hall := isSome_hexValue_iff.mp (by rw [h]; rfl)
  have hzero : buf.takeWhile (· != 0) = buf :=
    takeWhile_eq_self_iff.mpr fun c hc => by simpa using (unhexDigit_ne (hall c hc)).1
  have hspace : buf.dropWhile isSpace = buf := by
    cases buf with
    | nil => rfl
    | cons c rest =>
      simp [(unhexDigit_ne (hall c mem_cons_self)).2.1]
  have hdigits : buf.takeWhile (fun c => (unhexDigit c).isSome) = buf :=
    takeWhile_eq_self_iff.mpr hall
  simp only [strtoul16, hzero, hspace, takeSign_of_digits hall, skip0x_of_digits hall, hdigits, h,
    getD_some, Bool.false_eq_true, if_false]

/-- What is read has the length that was asked for. -/
theorem length_of_readFdExactly {left : List Bytes} {read : Bytes}
    (h : readFdExactly len pieces = some (read, left)) : read.length = len := by
  induction pieces generalizing len read left with
  | nil =>
    cases len with
    | zero =>
      obtain ⟨rfl, -⟩ : read = [] ∧ _ := by simpa [readFdExactly, eq_comm] using h
      rfl
    | succ len => simp [readFdExactly] at h
  | cons piece pieces ih =>
    cases len with
    | zero =>
      obtain ⟨rfl, -⟩ : read = [] ∧ _ := by simpa [readFdExactly, eq_comm] using h
      rfl
    | succ len =>
      cases piece with
      | nil => simp [readFdExactly] at h
      | cons b piece =>
        rw [readFdExactly] at h
        split_ifs at h with hlong
        · obtain ⟨rfl, -⟩ := Prod.mk.inj (some.inj h)
          rw [length_take, Nat.min_eq_left hlong.le]
        · obtain ⟨⟨read', left'⟩, hread, heq⟩ := map_eq_some_iff.mp h
          obtain ⟨rfl, -⟩ := Prod.mk.inj heq
          rw [length_append, ih hread]
          omega

section Strings

variable {s written rest : Bytes} {outcomes : List WriteOutcome} {pieces : List Bytes}

/-- What has been written once `SendProtocolString` returns `true`. -/
theorem written_of_sendProtocolString (hsend : sendProtocolString s outcomes = (written,
    some true)) :
    written = hexPadded (s.length % 2 ^ 32) ++ s := by
  by_cases hlong : maxPayload - 4 < s.length % 2 ^ 32
  · simp only [sendProtocolString, protocolString, hlong, if_true] at hsend
    cases hsend
  · simp only [sendProtocolString, protocolString, hlong, if_false] at hsend
    have hresult := written_of_writeFdExactly _ outcomes (by rw [hsend])
    rw [hsend] at hresult
    exact hresult

/-- **A protocol string is read back** exactly if its length has four digits. -/
theorem readProtocolString_iff (hsend : sendProtocolString s outcomes = (written, some true))
    (hflow : Flows pieces) (hstream : pieces.flatten = written ++ rest) :
    (∃ left, readProtocolString pieces = .ok (s, left) ∧ left.flatten = rest) ↔
      s.length ≤ 0xffff := by
  have hwritten := written_of_sendProtocolString hsend
  rw [hwritten, append_assoc] at hstream
  obtain ⟨v, hv, hlt⟩ := exists_hexValue_take (s.length % 2 ^ 32) (s ++ rest)
  have hfour : 4 ≤ pieces.flatten.length := by
    rw [hstream, length_append, hexPadded, length_append, length_replicate]
    omega
  obtain ⟨left, hread, hleft, hflow'⟩ := readFdExactly_flows hflow hfour
  have hstrtoul : strtoul16 (pieces.flatten.take 4) = v := by
    rw [hstream]
    exact strtoul16_of_hexValue hv
  have hsize : ¬2 ^ 63 ≤ v := by omega
  constructor
  · -- whatever has been read has a length of four digits
    rintro ⟨left', hok, -⟩
    simp only [readProtocolString, hread, hstrtoul, if_neg hsize] at hok
    cases hbody : readFdExactly v left with
    | none => simp [hbody] at hok
    | some result =>
      simp only [hbody, Except.ok.injEq, Prod.mk.injEq] at hok
      obtain ⟨rfl, -⟩ := hok
      rw [length_of_readFdExactly hbody]
      omega
  · intro hle
    have hmod : s.length % 2 ^ 32 = s.length := Nat.mod_eq_of_lt (by omega)
    rw [hmod] at hstream hv
    have hdigits := length_hexPadded hle
    have htake : (hexPadded s.length ++ (s ++ rest)).take 4 = hexPadded s.length := by
      rw [← hdigits, take_left]
    have hdrop : (hexPadded s.length ++ (s ++ rest)).drop 4 = s ++ rest := by
      rw [← hdigits, drop_left]
    obtain rfl : s.length = v := by
      rw [htake, hexValue_hexPadded] at hv
      exact some.inj hv
    rw [hstream, hdrop] at hleft
    obtain ⟨left', hbody, hrest, -⟩ := readFdExactly_flows hflow'
      (show s.length ≤ left.flatten.length by rw [hleft]; simp)
    refine ⟨left', ?_, ?_⟩
    · simp only [readProtocolString, hread, hstrtoul, if_neg hsize, hbody, hleft, take_left]
    · rw [hrest, hleft, drop_left]

end Strings

/-! ### Lists of devices -/

/-- The message `device_tracker_send` makes of the list of devices. -/
def deviceTrackerMessage (w : World) (o : TrackerOutputType) : Bytes :=
  hexLength (listTransports w o).length ++ listTransports w o

/-! ### Lists of processes -/

/-- What a process has told about itself. -/
structure ProcessInfo where
  pid : ℕ
  debuggable : Bool
  profileable : Bool := false
  architecture : Bytes := []
  waitingForDebugger : Bool := false
  userId : ℕ := 0
  processName : Bytes := []
  packageNames : List Bytes := []
  uid : ℤ := 0
  deriving DecidableEq, Repr

inductive TrackerKind
  | kJdwp
  | kApp
  deriving DecidableEq, Repr

/-- The binary form of a list of processes. -/
abbrev AppProcesses := List ProcessInfo → Bytes

/-- The loop of `jdwp_process_list`. -/
def jdwpProcessList (bufferlen : ℕ) : List ProcessInfo → Bytes → Bytes
  | [], temp => temp
  | proc :: procs, temp =>
    if proc.debuggable then
      let next := decimal proc.pid ++ [10]
      if bufferlen < temp.length + next.length then temp
      else jdwpProcessList bufferlen procs (temp ++ next)
    else jdwpProcessList bufferlen procs temp

/-- The loop of `app_process_list`. -/
def appProcessList (proto : AppProcesses) (bufferlen : ℕ) :
    List ProcessInfo → List ProcessInfo → List ProcessInfo → Bytes
  | [], _, output => proto output
  | proc :: procs, temp, output =>
    if proc.debuggable || proc.profileable then
      let temp := temp ++ [proc]
      if bufferlen < (proto temp).length then proto output
      else appProcessList proto bufferlen procs temp temp
    else appProcessList proto bufferlen procs temp output

/-- `process_list`. -/
def processList (proto : AppProcesses) (procs : List ProcessInfo) (kind : TrackerKind)
    (bufferlen : ℕ) : Bytes :=
  match kind with
  | .kJdwp => jdwpProcessList bufferlen procs []
  | .kApp => appProcessList proto bufferlen procs [] []

/-- `process_list_msg`; `none` is the `LOG(FATAL)`. -/
def processListMsg (proto : AppProcesses) (procs : List ProcessInfo) (kind : TrackerKind)
    (bufferlen : ℕ) : Option Bytes :=
  if bufferlen < 4 then none
  else
    let list := processList proto procs kind (bufferlen - 4)
    some (hexLength list.length ++ list)

/-- The size of the buffer of a tracker: `get_max_payload`, with what the transport of the socket
and that of its peer allow, if they have one. -/
def trackerPayload (transport peer : Option ℕ) : ℕ :=
  let size := maxPayload
  let size := match transport with
    | some m => min size m
    | none => size
  match peer with
  | some m => min size m
  | none => size

/-- The initial message of `jdwp_tracker_ready`. -/
def jdwpTrackerReady (proto : AppProcesses) (procs : List ProcessInfo) (kind : TrackerKind)
    (transport peer : Option ℕ) : Option Bytes :=
  processListMsg proto procs kind (trackerPayload transport peer)

/-! ### Lengths with four digits -/

/-- **Which messages can be decoded.** A protocol string that has been sent is read back, and no
byte more, exactly if its length has at most four digits, whatever the pieces are in which it
arrives. The same holds of the messages with the list of devices and with the list of
processes. -/
theorem lengths_iff {s written rest : Bytes} {outcomes : List WriteOutcome} {pieces : List Bytes}
    (hsend : sendProtocolString s outcomes = (written, some true)) (hflow : Flows pieces)
    (hstream : pieces.flatten = written ++ rest) (w : World) (o : TrackerOutputType)
    (proto : AppProcesses) (procs : List ProcessInfo) (kind : TrackerKind)
    {transport peer : Option ℕ} {msg : Bytes}
    (hmsg : jdwpTrackerReady proto procs kind transport peer = some msg) :
    ((∃ left, readProtocolString pieces = .ok (s, left) ∧ left.flatten = rest) ↔
        s.length ≤ 0xffff) ∧
      (Framed (deviceTrackerMessage w o) ↔ (listTransports w o).length ≤ 0xffff) ∧
      (Framed msg ↔
        (processList proto procs kind (trackerPayload transport peer - 4)).length ≤ 0xffff) := by
  refine ⟨readProtocolString_iff hsend hflow hstream, framed_hexLength_iff _, ?_⟩
  rw [jdwpTrackerReady, processListMsg] at hmsg
  split_ifs at hmsg
  obtain rfl := some.inj hmsg
  exact framed_hexLength_iff _

/-- A serialization for a list of processes that is not looked at. -/
def noProcesses : AppProcesses := fun _ => []

/-- One byte, in two pieces; a list without devices and one without processes. -/
theorem lengths_iff_short :
    ((∃ left, readProtocolString [[48, 48], [48, 49, 97]] = .ok ([97], left) ∧
        left.flatten = []) ↔ ([97] : Bytes).length ≤ 0xffff) ∧
      (Framed (deviceTrackerMessage {} .shortText) ↔
        (listTransports {} .shortText).length ≤ 0xffff) ∧
      (Framed [48, 48, 48, 48] ↔
        (processList noProcesses [] .kJdwp (trackerPayload none none - 4)).length ≤ 0xffff) :=
  lengths_iff (show sendProtocolString [97] [.wrote 5] = ([48, 48, 48, 49, 97],
    some true) by decide)
    (show ∀ piece ∈ [[48, 48], [48, 49, 97]], piece ≠ [] by decide) rfl _ _ noProcesses [] .kJdwp
    rfl

/-- A list of processes that all have the same short id. -/
theorem jdwpProcessList_replicate (bufferlen n : ℕ) (temp : Bytes)
    (h : temp.length + 2 * n ≤ bufferlen) :
    (jdwpProcessList bufferlen (List.replicate n ⟨1, true, false, [], false, 0, [], [], 0⟩)
      temp).length = temp.length + 2 * n := by
  induction n generalizing temp with
  | zero => rfl
  | succ n ih =>
    have hnext : (decimal 1 ++ [10]).length = 2 := by decide
    rw [replicate_succ, jdwpProcessList]
    dsimp only
    rw [if_pos rfl, hnext, if_neg (by omega), ih _ (by rw [length_append, hnext]; omega),
      length_append, hnext]
    omega

/-- A single `adb_write` that takes everything. -/
theorem writeFdExactly_once (data : Bytes) :
    writeFdExactly data [.wrote data.length] = (data, some true) := by
  cases data with
  | nil => rfl
  | cons b rest => simp [writeFdExactly]

/-- A string of 65536 bytes is sent and not read back. Nor can the list of devices be decoded
if it is as long as that, nor a list of as many processes as make it as long. -/
theorem long_messages_undecodable :
    let s : Bytes := List.replicate 0x10000 97
    let written := hexPadded 0x10000 ++ s
    let w : World := { cfg := { listTransports := fun _ _ => s } }
    let procs : List ProcessInfo :=
      List.replicate 0x8000 ⟨1, true, false, [], false, 0, [], [], 0⟩
    (sendProtocolString s [.wrote written.length] = (written, some true) ∧
        ¬∃ left, readProtocolString [written] = .ok (s, left) ∧ left.flatten = []) ∧
      ¬Framed (deviceTrackerMessage w .shortText) ∧
      ∃ msg, jdwpTrackerReady noProcesses procs .kJdwp none none = some msg ∧ ¬Framed msg := by
  intro s written w procs
  have hlen : s.length = 0x10000 := length_replicate
  have hsend : sendProtocolString s [.wrote written.length] = (written, some true) := by
    have hstring : protocolString s = some written := by
      rw [protocolString, hlen]
      rfl
    rw [sendProtocolString, hstring]
    exact writeFdExactly_once written
  have hflow : Flows [written] := by
    intro piece hpiece
    rw [mem_singleton.mp hpiece]
    exact append_ne_nil_of_right_ne_nil _ (ne_nil_of_length_pos (by rw [hlen]; decide))
  refine ⟨⟨hsend, ?_⟩, ?_, ?_⟩
  · rw [readProtocolString_iff hsend hflow (by simp), hlen]
    decide
  · rw [deviceTrackerMessage, framed_hexLength_iff, show listTransports w .shortText = s from rfl,
      hlen]
    decide
  · have hready : jdwpTrackerReady noProcesses procs .kJdwp none none = some
        (hexLength (processList noProcesses procs .kJdwp (trackerPayload none none - 4)).length ++
          processList noProcesses procs .kJdwp (trackerPayload none none - 4)) := by
      rw [jdwpTrackerReady, processListMsg, if_neg (by decide)]
    refine ⟨_, hready, ?_⟩
    have hprocs : (processList noProcesses procs .kJdwp (trackerPayload none none - 4)).length =
        0x10000 :=
      (jdwpProcessList_replicate (trackerPayload none none - 4) 0x8000 [] (by decide)).trans rfl
    rw [framed_hexLength_iff, hprocs]
    decide

end AdbBridge
