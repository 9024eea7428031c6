import AdbBridge.Lib.Machine

/-!
# Byte strings

Payloads, service names and everything a client or a device sends are strings of
bytes; the C strings among them end at their first NUL. This file has the string
helpers of `libbase` and `adb_utils.h` the model uses, on lists of bytes.

The one helper that is not a function of the view it is given is `cString`: a
`const char*` made from a `string_view` has no length, so the scan goes on into
whatever memory follows the view. The model makes that memory an argument.
-/

namespace AdbBridge

/-- A string of bytes. -/
abbrev Bytes := List UInt8

/-- The bytes of an ASCII literal. -/
def ascii (s : String) : Bytes := s.toList.map fun c => UInt8.ofNat c.toNat

/-- `android::base::StartsWith`. -/
def startsWith (s pre : Bytes) : Bool := pre.isPrefixOf s

/-- `android::base::ConsumePrefix`: the rest of the string after the prefix, if the
string has it. -/
def consumePrefix (s pre : Bytes) : Option Bytes := s.dropPrefix? pre

/-- `ConsumePrefix` of a prefix that is optional: whether it was there, and the string
without it. -/
def consumeFlag (s pre : Bytes) : Bool × Bytes :=
  match consumePrefix s pre with
  | some rest => (true, rest)
  | none => (false, s)

/-- `android::base::Split` with a single delimiter. There is always one piece. -/
def splitAt (d : UInt8) (s : Bytes) : List Bytes := s.splitOn d

/-- `StripTrailingNulls`. -/
def stripTrailingNulls (s : Bytes) : Bytes := s.rdropWhile (· == 0)

variable {d : UInt8} {s : Bytes}

theorem takeWhile_bne_of_notMem (h : d ∉ s) : s.takeWhile (· != d) = s :=
  List.takeWhile_eq_self_iff.mpr fun _ hb => bne_iff_ne.mpr fun heq => h (heq ▸ hb)

/-- What comes before the first `d`. -/
theorem takeWhile_bne_append_cons (h : d ∉ s) (rest : Bytes) :
    (s ++ d :: rest).takeWhile (· != d) = s := by
  have hall : ∀ b ∈ s, (b != d) = true := fun _ hb => bne_iff_ne.mpr fun heq => h (heq ▸ hb)
  rw [List.takeWhile_append_of_pos hall]
  simp

/-- The C string that starts at the beginning of `view`, when the memory after the
view holds `beyond` and then a NUL: everything up to the first NUL. -/
def cString (view beyond : Bytes) : Bytes := (view ++ beyond ++ [0]).takeWhile (· != 0)

/-- How many bytes the scan for the NUL looks at, the NUL included. -/
def cStringExtent (view beyond : Bytes) : ℕ := (cString view beyond).length + 1

/-- The digit test of `std::from_chars` and `isdigit`. -/
def isDigit (c : UInt8) : Bool := 48 ≤ c && c ≤ 57

/-- `ParseUint` with a `remaining` argument: the value of the longest run of decimal
digits and the rest. It fails when there is no digit or the value does not fit into
`w` bits. -/
def parseUint (w : ℕ) (s : Bytes) : Option (ℕ × Bytes) :=
  let digits := s.takeWhile isDigit
  let value := digits.foldl (fun n c => 10 * n + (c.toNat - 48)) 0
  if digits.isEmpty ∨ 2 ^ w ≤ value then none else some (value, s.drop digits.length)

/-- One hexadecimal digit, as the `switch` of `unhex` reads it. -/
def unhexDigit (c : UInt8) : Option ℕ :=
  if 48 ≤ c ∧ c ≤ 57 then some (c.toNat - 48)
  else if 97 ≤ c ∧ c ≤ 102 then some (c.toNat - 97 + 10)
  else if 65 ≤ c ∧ c ≤ 70 then some (c.toNat - 65 + 10)
  else none

/-- `unhex`: the value of the digits, or `0xffffffff` at the first byte that is
none. -/
def unhex (s : Bytes) : ℕ :=
  match s.mapM unhexDigit with
  | some ds => ds.foldl (fun n d => 16 * n + d) 0
  | none => 0xffffffff

/-- The decimal digits of a number, as `%d` prints them. -/
def decimal (n : ℕ) : Bytes := ascii (toString n)

/-- The four bytes of a `uint32_t` on a little-endian machine. -/
def bytesOfUint32 (n : ℕ) : Bytes :=
  [UInt8.ofNat n, UInt8.ofNat (n / 2 ^ 8), UInt8.ofNat (n / 2 ^ 16), UInt8.ofNat (n / 2 ^ 24)]

/-- The `int32_t` with the same bits as a `uint32_t`. -/
def int32OfUint32 (n : ℕ) : ℤ := if n < 2 ^ 31 then (n : ℤ) else (n : ℤ) - 2 ^ 32

/-- The `int32_t` that four bytes hold on a little-endian machine. -/
def int32OfBytes : Bytes → Option ℤ
  | [b0, b1, b2, b3] =>
    some (int32OfUint32
      (b0.toNat + 2 ^ 8 * b1.toNat + 2 ^ 16 * b2.toNat + 2 ^ 24 * b3.toNat))
  | _ => none

/-! ### Reading and writing an acknowledgement -/

@[simp]
theorem length_bytesOfUint32 (n : ℕ) : (bytesOfUint32 n).length = 4 := rfl

end AdbBridge
