import Mathlib.Data.List.Basic
import Mathlib.Tactic.Ring

/-! Bytes, 32-bit words, and the little-endian form in which every record of
the repository stores its integers. -/

namespace Homescope

abbrev Byte := BitVec 8
abbrev Word := BitVec 32

/-- An erased flash word. -/
def erased : Word := BitVec.allOnes 32

/-- The low `n` bytes of a number, least significant first. -/
def toLeBytes : Nat → Nat → List Byte
  | 0, _ => []
  | n + 1, x => BitVec.ofNat 8 x :: toLeBytes n (x / 256)

def fromLeBytes : List Byte → Nat
  | [] => 0
  | b :: bs => b.toNat + 256 * fromLeBytes bs

@[simp] theorem toLeBytes_length (n x : Nat) : (toLeBytes n x).length = n := by
  induction n generalizing x with
  | zero => rfl
  | succ n ih => simp [toLeBytes, ih]

theorem toLeBytes_add (n k x : Nat) :
    toLeBytes (n + k) x = toLeBytes n x ++ toLeBytes k (x / 256 ^ n) := by
  induction n generalizing x with
  | zero => simp [toLeBytes]
  | succ n ih =>
    rw [Nat.succ_add, toLeBytes, ih, toLeBytes, List.cons_append, Nat.div_div_eq_div_mul,
      Nat.pow_succ']

theorem fromLeBytes_toLeBytes (n x : Nat) : fromLeBytes (toLeBytes n x) = x % 256 ^ n := by
  induction n generalizing x with
  | zero => simp [toLeBytes, fromLeBytes, Nat.mod_one]
  | succ n ih =>
    simp only [toLeBytes, fromLeBytes, BitVec.toNat_ofNat, ih]
    change x % 256 + 256 * (x / 256 % 256 ^ n) = _
    rw [Nat.pow_succ', Nat.mod_mul]

theorem toLeBytes_fromLeBytes (bs : List Byte) : toLeBytes bs.length (fromLeBytes bs) = bs := by
  induction bs with
  | nil => rfl
  | cons b bs ih =>
    have hb : b.toNat < 256 := b.isLt
    have hlow : BitVec.ofNat 8 (b.toNat + 256 * fromLeBytes bs) = b := by
      apply BitVec.eq_of_toNat_eq
      rw [BitVec.toNat_ofNat]
      omega
    have hhigh : (b.toNat + 256 * fromLeBytes bs) / 256 = fromLeBytes bs := by omega
    simp only [List.length_cons, toLeBytes, fromLeBytes, hlow, hhigh, ih]

theorem fromLeBytes_append (bs cs : List Byte) :
    fromLeBytes (bs ++ cs) = fromLeBytes bs + 256 ^ bs.length * fromLeBytes cs := by
  induction bs with
  | nil => simp [fromLeBytes]
  | cons b bs ih =>
    simp only [List.cons_append, fromLeBytes, ih, List.length_cons, Nat.pow_succ']
    ring

theorem fromLeBytes_lt (bs : List Byte) : fromLeBytes bs < 256 ^ bs.length := by
  induction bs with
  | nil => simp [fromLeBytes]
  | cons b bs ih =>
    have hb : b.toNat < 256 := b.isLt
    simp only [fromLeBytes, List.length_cons, Nat.pow_succ']
    omega

/-- A `w`-bit integer survives its little-endian form. -/
theorem ofNat_fromLeBytes_toLeBytes {w n : Nat} (h : w = 8 * n) (x : BitVec w) :
    BitVec.ofNat w (fromLeBytes (toLeBytes n x.toNat)) = x := by
  have hp : 256 ^ n = 2 ^ w := by rw [h, Nat.pow_mul]
  apply BitVec.eq_of_toNat_eq
  rw [fromLeBytes_toLeBytes, BitVec.toNat_ofNat, hp, Nat.mod_mod, Nat.mod_eq_of_lt x.isLt]

/-- Bytes survive being read as an integer. -/
theorem toLeBytes_ofNat_fromLeBytes {w n : Nat} (h : w = 8 * n) {bs : List Byte}
    (hb : bs.length = n) : toLeBytes n (BitVec.ofNat w (fromLeBytes bs)).toNat = bs := by
  have hp : 256 ^ n = 2 ^ w := by rw [h, Nat.pow_mul]
  have hlt := fromLeBytes_lt bs
  rw [hb, hp] at hlt
  rw [BitVec.toNat_ofNat, Nat.mod_eq_of_lt hlt, ← hb, toLeBytes_fromLeBytes]

theorem toLeBytes_inj {n x y : Nat} (hx : x < 256 ^ n) (hy : y < 256 ^ n)
    (h : toLeBytes n x = toLeBytes n y) : x = y := by
  have hh := congrArg fromLeBytes h
  rwa [fromLeBytes_toLeBytes, fromLeBytes_toLeBytes, Nat.mod_eq_of_lt hx,
    Nat.mod_eq_of_lt hy] at hh

end Homescope
