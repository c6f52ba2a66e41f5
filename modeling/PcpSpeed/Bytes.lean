import Mathlib.Data.List.Nodup
import Mathlib.Logic.Function.Basic
import Mathlib.Tactic.NormNum
import Mathlib.Tactic.Tauto
import Mathlib.Tactic.Ring
import Mathlib.Tactic.PushNeg
import Mathlib.Tactic.SplitIfs

/-! Go byte slices, read in place the way `mmvdump` reads a mapped MMV file.
A slice's length fits Go's `int`, so `uint64(len(data))` is exact. A record at an
offset is the run of bytes from there that `(*T)(unsafe.Pointer(&data[offset]))`
points at, and its fields are little-endian words of that run: writer and reader
share a host, and the host order of every supported one is little-endian. -/
namespace PcpSpeed

/-- A Go `[]byte`: its bytes, whose count fits a signed 64-bit `int`. -/
structure Bytes where
  bytes : List UInt8
  len_lt : bytes.length < 2 ^ 63

namespace Bytes

/-- `len(data)`. -/
def len (data : Bytes) : Nat := data.bytes.length

/-- `uint64(len(data))`. -/
def len64 (data : Bytes) : BitVec 64 := BitVec.ofNat 64 data.len

theorem len_lt_two_pow (data : Bytes) : data.len < 2 ^ 63 := data.len_lt

@[simp] theorem toNat_len64 (data : Bytes) : data.len64.toNat = data.len := by
  have := data.len_lt_two_pow
  simp only [len64, BitVec.toNat_ofNat]
  omega

/-- The `length` bytes from `offset`: what a record pointer made from
`&data[offset]` points at. -/
def view (data : Bytes) (offset length : Nat) : List UInt8 :=
  (data.bytes.drop offset).take length

theorem length_view (data : Bytes) {offset length : Nat} (inside : offset + length ≤ data.len) :
    (data.view offset length).length = length := by
  simp only [view, List.length_take, List.length_drop, len] at inside ⊢
  omega

/-- A view within the first `n` bytes depends on those bytes alone. -/
theorem view_eq_of_take_eq {data data' : Bytes} {n offset length : Nat}
    (same : data'.bytes.take n = data.bytes.take n) (inside : offset + length ≤ n) :
    data'.view offset length = data.view offset length := by
  have first : ∀ d : Bytes, d.view offset length = ((d.bytes.take n).drop offset).take length := by
    intro d
    rw [view, List.drop_take, List.take_take, Nat.min_eq_left (by omega)]
  rw [first, first, same]

end Bytes

/-- The natural number stored little-endian in `bytes`. -/
def leNat : List UInt8 → Nat
  | [] => 0
  | b :: bs => b.toNat + 256 * leNat bs

/-- The `n` little-endian bytes of `x`, bits above `8 * n` dropped. -/
def leBytes : Nat → Nat → List UInt8
  | 0, _ => []
  | n + 1, x => UInt8.ofNat (x % 256) :: leBytes n (x / 256)

/-- The `size` bytes of a record's field at `offset`. -/
def field (record : List UInt8) (offset size : Nat) : List UInt8 :=
  (record.drop offset).take size

/-- A 32-bit field (`int32`, `uint32`), as its bits. -/
def word32 (record : List UInt8) (offset : Nat) : BitVec 32 :=
  BitVec.ofNat 32 (leNat (field record offset 4))

/-- A 64-bit field (`int64`, `uint64`), as its bits. -/
def word64 (record : List UInt8) (offset : Nat) : BitVec 64 :=
  BitVec.ofNat 64 (leNat (field record offset 8))

@[simp] theorem leNat_nil : leNat [] = 0 := rfl

@[simp] theorem leNat_cons (b : UInt8) (bs : List UInt8) : leNat (b :: bs) = b.toNat + 256 * leNat bs :=
  rfl

@[simp] theorem leBytes_zero (x : Nat) : leBytes 0 x = [] := rfl

@[simp] theorem leBytes_succ (n x : Nat) :
    leBytes (n + 1) x = UInt8.ofNat (x % 256) :: leBytes n (x / 256) := rfl

@[simp] theorem length_leBytes (n x : Nat) : (leBytes n x).length = n := by
  induction n generalizing x <;> simp [*]

private theorem toNat_ofNat_mod (x : Nat) : (UInt8.ofNat (x % 256)).toNat = x % 256 := by
  simp [UInt8.toNat, UInt8.ofNat]

theorem leNat_leBytes (n x : Nat) : leNat (leBytes n x) = x % 256 ^ n := by
  induction n generalizing x with
  | zero => simp [Nat.mod_one]
  | succ n ih => rw [leBytes_succ, leNat_cons, ih, toNat_ofNat_mod, Nat.pow_succ', Nat.mod_mul]

theorem take_leBytes (m n x : Nat) : (leBytes (m + n) x).take m = leBytes m x := by
  induction m generalizing x with
  | zero => rfl
  | succ m ih => rw [Nat.succ_add, leBytes_succ, leBytes_succ, List.take_succ_cons, ih]

private theorem leBytes_mod (n x : Nat) : leBytes n (x % 256 ^ n) = leBytes n x := by
  induction n generalizing x with
  | zero => rfl
  | succ n ih =>
    have low : x % 256 ^ (n + 1) % 256 = x % 256 := by
      rw [Nat.pow_succ', Nat.mod_mul_right_mod]
    have high : x % 256 ^ (n + 1) / 256 = x / 256 % 256 ^ n := by
      rw [Nat.pow_succ', Nat.mod_mul_right_div_self]
    rw [leBytes_succ, leBytes_succ, low, high, ih]

/-- Two numbers have the same `n` little-endian bytes exactly when they agree
below `256 ^ n`. -/
theorem leBytes_eq_iff {n x y : Nat} : leBytes n x = leBytes n y ↔ x % 256 ^ n = y % 256 ^ n := by
  constructor
  · intro same
    rw [← leNat_leBytes, same, leNat_leBytes]
  · intro same
    rw [← leBytes_mod n x, same, leBytes_mod]

end PcpSpeed
