import Mathlib.Algebra.Ring.Nat
import Mathlib.Data.List.Basic

-- Numbers as bytes with the lowest first.
namespace Milo.Lib.LittleEndian

def toBytes : ℕ → ℕ → List UInt8
  | 0, _ => []
  | n + 1, value => UInt8.ofNat value :: toBytes n (value / 256)

def ofBytes : List UInt8 → ℕ
  | [] => 0
  | byte :: bytes => byte.toNat + 256 * ofBytes bytes

@[simp] theorem length_toBytes (n value : ℕ) : (toBytes n value).length = n := by
  induction n generalizing value with
  | zero => rfl
  | succ n ih => rw [toBytes, List.length_cons, ih]

-- Of a value that is too large its low bytes are kept.
theorem ofBytes_toBytes (n value : ℕ) : ofBytes (toBytes n value) = value % 256 ^ n := by
  induction n generalizing value with
  | zero => rw [toBytes, ofBytes, Nat.pow_zero, Nat.mod_one]
  | succ n ih =>
      rw [toBytes, ofBytes, ih, Nat.pow_succ', Nat.mod_mul]
      rfl

end Milo.Lib.LittleEndian
