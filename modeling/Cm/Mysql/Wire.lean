import Mathlib.Algebra.Group.Int
import Mathlib.Algebra.Group.Nat.Basic
import Mathlib.Data.List.Basic

/-!
# Byte slices, Go integers and the protocol's integer encodings

A Go `[]byte` is a `List UInt8`, an index or slice bound out of range returns `none`, and
`goInt` is the wrap-around of Go's 64-bit `int`. The helpers of package `mysql` that are not
under src/ (`LengthEncodedInt`, `LengthEnodedString`, `PutLengthEncodedInt`, ...) follow the
protocol encodings they are named after, and `encoding/binary`'s little-endian reads.
-/

namespace Cm.Mysql

/-- A Go `[]byte`. A nil and an empty slice are the same list; where the code tells them
apart the model uses an `Option`. -/
abbrev Bytes := List UInt8

/-- `b[lo:]`, which panics past the end of `b`. -/
def sliceFrom (b : Bytes) (lo : Nat) : Option Bytes :=
  if lo ≤ b.length then some (b.drop lo) else none

/-- `b[i]`, which panics past the end of `b`. -/
def byteAt (b : Bytes) (i : Nat) : Option UInt8 := b.get? i

/-- `b[lo:hi]` with an `int` upper bound, which panics unless `lo ≤ hi ≤ len(b)`. Go allows
`hi` up to `cap(b)`; `Parse` only slices so after checking `hi ≤ len(b)`. -/
def sliceRange (b : Bytes) (lo : Nat) (hi : Int) : Option Bytes :=
  if lo ≤ hi ∧ hi ≤ b.length then some ((b.drop lo).take (hi.toNat - lo)) else none

/-- The value of `x` as a Go `int`, after wrap-around. -/
def goInt (x : Int) : Int := x.bmod (2 ^ 64)

@[simp] theorem sliceFrom_zero (b : Bytes) : sliceFrom b 0 = some b := by
  simp [sliceFrom]

@[simp] theorem sliceFrom_cons_succ (x : UInt8) (b : Bytes) (k : Nat) :
    sliceFrom (x :: b) (k + 1) = sliceFrom b k := by
  simp [sliceFrom]

theorem sliceFrom_append_of_le (a b : Bytes) {k : Nat} (h : a.length ≤ k) :
    sliceFrom (a ++ b) k = sliceFrom b (k - a.length) := by
  obtain ⟨j, rfl⟩ := Nat.exists_eq_add_of_le h
  simp [sliceFrom, List.drop_append]

@[simp] theorem byteAt_cons_zero (x : UInt8) (b : Bytes) : byteAt (x :: b) 0 = some x := rfl

@[simp] theorem byteAt_cons_succ (x : UInt8) (b : Bytes) (k : Nat) :
    byteAt (x :: b) (k + 1) = byteAt b k := rfl

theorem byteAt_append_of_le (a b : Bytes) {k : Nat} (h : a.length ≤ k) :
    byteAt (a ++ b) k = byteAt b (k - a.length) := by
  simp [byteAt, List.getElem?_append_right h]

theorem goInt_eq (x : Int) : goInt x =
    if x % 18446744073709551616 < 9223372036854775808 then x % 18446744073709551616
    else x % 18446744073709551616 - 18446744073709551616 := rfl

/-- `pos + int(L)` for a position `pos` and a 64-bit unsigned `L`: the sum wraps, to a value
below `pos`, exactly when it reaches `2 ^ 63`. -/
theorem goInt_add_goInt {a L : Nat} (ha : a < 2 ^ 63) (hL : L < 2 ^ 64) :
    goInt (a + goInt L) = if a + L < 2 ^ 63 then (a + L : Int) else a + L - 2 ^ 64 := by
  rw [goInt_eq, goInt_eq]
  split_ifs <;> omega

/-! ## Fixed-width little-endian integers -/

/-- The `w` low-order bytes of `n`, least significant first. -/
def leBytes : Nat → Nat → Bytes
  | 0, _ => []
  | w + 1, n => UInt8.ofNat n :: leBytes w (n / 256)

/-- The number whose bytes, least significant first, are `b`. -/
def leValue : Bytes → Nat
  | [] => 0
  | x :: b => x.toNat + 256 * leValue b

/-- `binary.LittleEndian.UintN(b)` for `N = 8 * w`, which panics on fewer than `w` bytes. -/
def readLE (w : Nat) (b : Bytes) : Option Nat :=
  if w ≤ b.length then some (leValue (b.take w)) else none

/-- `binary.LittleEndian.Uint16`. -/
def littleEndianUint16 (b : Bytes) : Option UInt16 := (readLE 2 b).map UInt16.ofNat

/-- `binary.LittleEndian.Uint32`. -/
def littleEndianUint32 (b : Bytes) : Option UInt32 := (readLE 4 b).map UInt32.ofNat

/-- `Uint16ToBytes(n)`: `byte(n), byte(n >> 8)`. -/
def uint16ToBytes (n : UInt16) : Bytes := leBytes 2 n.toNat

/-- `Uint32ToBytes(n)`. -/
def uint32ToBytes (n : UInt32) : Bytes := leBytes 4 n.toNat

/-- `Uint64ToBytes(n)`: eight bytes, whatever the value. -/
def uint64ToBytes (n : UInt64) : Bytes := leBytes 8 n.toNat

@[simp] theorem toNat_byte_ofNat (n : Nat) : (UInt8.ofNat n).toNat = n % 256 := by
  simp [UInt8.toNat, UInt8.ofNat]

@[simp] theorem length_leBytes (w n : Nat) : (leBytes w n).length = w := by
  induction w generalizing n with
  | zero => rfl
  | succ w inductionHypothesis => simp [leBytes, inductionHypothesis]

theorem leValue_leBytes (w n : Nat) : leValue (leBytes w n) = n % 256 ^ w := by
  induction w generalizing n with
  | zero => simp [leBytes, leValue, Nat.mod_one]
  | succ w inductionHypothesis =>
    rw [leBytes, leValue, inductionHypothesis, toNat_byte_ofNat, Nat.pow_succ', Nat.mod_mul]

@[simp] theorem readLE_leBytes_append (w n : Nat) (rest : Bytes) :
    readLE w (leBytes w n ++ rest) = some (n % 256 ^ w) := by
  simp [readLE, List.take_left' (length_leBytes w n), leValue_leBytes]

@[simp] theorem uint16_ofNat_toNat (n : UInt16) : UInt16.ofNat n.toNat = n :=
  UInt16.eq_of_toBitVec_eq (by simp [UInt16.ofNat, UInt16.toNat])

@[simp] theorem uint32_ofNat_toNat (n : UInt32) : UInt32.ofNat n.toNat = n :=
  UInt32.eq_of_toBitVec_eq (by simp [UInt32.ofNat, UInt32.toNat])

@[simp] theorem uint64_ofNat_toNat (n : UInt64) : UInt64.ofNat n.toNat = n :=
  UInt64.eq_of_toBitVec_eq (by simp [UInt64.ofNat, UInt64.toNat])

@[simp] theorem toNat_uint64_ofNat (n : Nat) : (UInt64.ofNat n).toNat = n % 2 ^ 64 := by
  simp [UInt64.ofNat, UInt64.toNat]

@[simp] theorem littleEndianUint16_append (n : UInt16) (rest : Bytes) :
    littleEndianUint16 (uint16ToBytes n ++ rest) = some n := by
  simp [littleEndianUint16, uint16ToBytes, Nat.mod_eq_of_lt n.toNat_lt_size]

@[simp] theorem littleEndianUint32_append (n : UInt32) (rest : Bytes) :
    littleEndianUint32 (uint32ToBytes n ++ rest) = some n := by
  simp [littleEndianUint32, uint32ToBytes, Nat.mod_eq_of_lt n.toNat_lt_size]

@[simp] theorem length_uint16ToBytes (n : UInt16) : (uint16ToBytes n).length = 2 :=
  length_leBytes _ _

@[simp] theorem length_uint32ToBytes (n : UInt32) : (uint32ToBytes n).length = 4 :=
  length_leBytes _ _

@[simp] theorem length_uint64ToBytes (n : UInt64) : (uint64ToBytes n).length = 8 :=
  length_leBytes _ _

/-! ## Length-encoded integers and strings -/

/-- The errors `Parse` returns: `io.EOF` from the length-encoded string helpers, and
`ErrMalformPacket`. -/
inductive MysqlError
  | eof
  | errMalformPacket
  deriving DecidableEq, Repr

/-- `LengthEncodedInt(b)`: the value, whether it is the NULL marker `0xfb`, and the number of
bytes read. It indexes the bytes it reads without a check. -/
def lengthEncodedInt : Bytes → Option (UInt64 × Bool × Nat)
  | [] => none
  | x :: b =>
    if x = 0xfb then some (0, true, 1)
    else if x = 0xfc then (readLE 2 b).map fun v => (UInt64.ofNat v, false, 3)
    else if x = 0xfd then (readLE 3 b).map fun v => (UInt64.ofNat v, false, 4)
    else if x = 0xfe then (readLE 8 b).map fun v => (UInt64.ofNat v, false, 9)
    else some (UInt64.ofNat x.toNat, false, 1)

/-- `PutLengthEncodedInt(n)`: one byte up to 250, else a marker and 2, 3 or 8 bytes. -/
def putLengthEncodedInt (n : UInt64) : Bytes :=
  if n.toNat ≤ 250 then [UInt8.ofNat n.toNat]
  else if n.toNat ≤ 0xffff then 0xfc :: leBytes 2 n.toNat
  else if n.toNat ≤ 0xffffff then 0xfd :: leBytes 3 n.toNat
  else 0xfe :: leBytes 8 n.toNat

/-- `LengthEnodedString(b)`: the string, the NULL flag, the bytes read, and `io.EOF` when the
string runs past the end of `b`. -/
def lengthEnodedString (b : Bytes) : Option (Bytes × Bool × Nat × Option MysqlError) :=
  (lengthEncodedInt b).map fun (num, isNull, n) =>
    if num.toNat < 1 then ([], isNull, n, none)
    else if n + num.toNat ≤ b.length then ((b.drop n).take num.toNat, false, n + num.toNat, none)
    else ([], false, n + num.toNat, some .eof)

/-- `SkipLengthEnodedString(b)`: `LengthEnodedString` without the string. -/
def skipLengthEnodedString (b : Bytes) : Option (Nat × Option MysqlError) :=
  (lengthEnodedString b).map fun (_, _, n, err) => (n, err)

/-- `PutLengthEncodedStringWithAlloc(b, alloc)`: the length, then the bytes. -/
def putLengthEncodedStringWithAlloc (b : Bytes) : Bytes :=
  putLengthEncodedInt (UInt64.ofNat b.length) ++ b

theorem lengthEncodedInt_length {b : Bytes} {v : UInt64} {isNull : Bool} {n : Nat}
    (h : lengthEncodedInt b = some (v, isNull, n)) : 0 < n ∧ n ≤ b.length := by
  match b with
  | [] => simp [lengthEncodedInt] at h
  | x :: b =>
    simp only [lengthEncodedInt, readLE] at h
    split_ifs at h <;> simp at h <;> simp [← h.2.2] <;> omega

theorem ofNat_byte_eq_iff (k : Nat) (x : UInt8) : UInt8.ofNat k = x ↔ k % 256 = x.toNat :=
  ⟨fun h => by rw [← h, toNat_byte_ofNat], fun h => UInt8.toNat.inj (by rw [toNat_byte_ofNat, h])⟩

theorem lengthEncodedInt_put_append (n : UInt64) (rest : Bytes) :
    lengthEncodedInt (putLengthEncodedInt n ++ rest) =
      some (n, false, (putLengthEncodedInt n).length) := by
  have hn := n.toNat_lt_size
  unfold putLengthEncodedInt
  split_ifs with h₁ h₂ h₃
  · have hb : n.toNat % 256 = n.toNat := Nat.mod_eq_of_lt (by omega)
    simp [lengthEncodedInt, ofNat_byte_eq_iff, hb, UInt8.size, show n.toNat ≠ 251 by omega,
      show n.toNat ≠ 252 by omega, show n.toNat ≠ 253 by omega, show n.toNat ≠ 254 by omega]
  · simp [lengthEncodedInt, Nat.mod_eq_of_lt (show n.toNat < 65536 by omega)]
  · simp [lengthEncodedInt, Nat.mod_eq_of_lt (show n.toNat < 16777216 by omega)]
  · simp [lengthEncodedInt, Nat.mod_eq_of_lt (show n.toNat < 18446744073709551616 from hn)]

theorem lengthEnodedString_put_append (b rest : Bytes) (h : b.length < 2 ^ 64) :
    lengthEnodedString (putLengthEncodedStringWithAlloc b ++ rest) =
      some (b, false, (putLengthEncodedStringWithAlloc b).length, none) := by
  simp only [lengthEnodedString, putLengthEncodedStringWithAlloc, List.append_assoc,
    lengthEncodedInt_put_append, Option.map_some', toNat_uint64_ofNat, Nat.mod_eq_of_lt h]
  rcases b with _ | ⟨x, b⟩
  · simp
  · simp [List.drop_left', List.take_left']

theorem skipLengthEnodedString_put_append (b rest : Bytes) (h : b.length < 2 ^ 64) :
    skipLengthEnodedString (putLengthEncodedStringWithAlloc b ++ rest) =
      some ((putLengthEncodedStringWithAlloc b).length, none) := by
  simp [skipLengthEnodedString, lengthEnodedString_put_append b rest h]

end Cm.Mysql
