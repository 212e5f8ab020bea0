import Mathlib.Tactic

/-!
# Numbers as bytes, and reading from a stream

Little-endian numbers of a fixed width, and `readExact`, which takes a number of bytes off the front
of a stream or fails.  Writing a number that does not fit keeps its lowest bytes
(`fromLeBytes_toLeBytes`).
-/

namespace Bytes

/-- The lowest `width` bytes of a number, lowest first. -/
def toLeBytes : (width n : ℕ) → List UInt8
  | 0, _ => []
  | width + 1, n => UInt8.ofNat n :: toLeBytes width (n / 256)

def fromLeBytes : List UInt8 → ℕ
  | [] => 0
  | b :: bytes => b.toNat + 256 * fromLeBytes bytes

@[simp] lemma length_toLeBytes (width n : ℕ) : (toLeBytes width n).length = width := by
  induction width generalizing n with
  | zero => rfl
  | succ width ih => simp [toLeBytes, ih]

lemma fromLeBytes_toLeBytes (width n : ℕ) : fromLeBytes (toLeBytes width n) = n % 256 ^ width := by
  induction width generalizing n with
  | zero => simp [toLeBytes, fromLeBytes, Nat.mod_one]
  | succ width ih =>
    have hbyte : (UInt8.ofNat n).toNat = n % 256 := UInt8.toNat_ofNat'
    rw [toLeBytes, fromLeBytes, ih, hbyte, pow_succ', Nat.mod_mul]

/-- The first `n` bytes of a stream and what is left of it. -/
def readExact (n : ℕ) (stream : List UInt8) : Option (List UInt8 × List UInt8) :=
  if n ≤ stream.length then some (stream.take n, stream.drop n) else none

lemma readExact_append {n : ℕ} {bytes : List UInt8} (h : bytes.length = n) (rest : List UInt8) :
    readExact n (bytes ++ rest) = some (bytes, rest) := by
  subst h
  simp [readExact]

/-- Reading less than what was written leaves the remainder in the stream. -/
lemma readExact_of_le {n : ℕ} {bytes : List UInt8} (h : n ≤ bytes.length) (rest : List UInt8) :
    readExact n (bytes ++ rest) = some (bytes.take n, bytes.drop n ++ rest) := by
  rw [readExact, if_pos (by rw [List.length_append]; omega), List.take_append_of_le_length h,
    List.drop_append_of_le_length h]

end Bytes
