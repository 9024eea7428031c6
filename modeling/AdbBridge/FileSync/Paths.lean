import AdbBridge.Types.Bytes

/-!
# Paths

`Basename` of `libbase` works on the bytes of a path, from its end. It copies its result into a
buffer of `PATH_MAX` bytes, and returns the empty string where it does not fit.
-/

namespace AdbBridge

/-- The separator of paths on a POSIX host. -/
def slash : UInt8 := 47

/-- `PATH_MAX`, which is also `MAXPATHLEN`. -/
def pathMax : ℕ := 4096

/-- Slashes at the end are stripped, but never the first byte. -/
def stripSlashes (p : Bytes) : Bytes :=
  if p.rdropWhile (· == slash) = [] then p.take 1 else p.rdropWhile (· == slash)

/-- What `_basename_r` finds before it looks at the size of the buffer. -/
def basenameOf (p : Bytes) : Bytes :=
  if p = [] then ascii "."
  else if stripSlashes p = [slash] then [slash]
  else (stripSlashes p).rtakeWhile (· != slash)

/-- `android::base::Basename`. -/
def basename (p : Bytes) : Bytes := if (basenameOf p).length < pathMax then basenameOf p else []

end AdbBridge
