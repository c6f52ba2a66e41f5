import PcpSpeed.Bytes

/-! The value side of `speed`'s metric model: Go's dynamically typed values, the
open `int32` enumeration `MetricType`, its compatibility check `IsCompatible`,
and `WriteVal`, which narrows an accepted value to the type's width and hands it
to one of the buffer's fixed-width writers. The writers' byte order is the one
thing taken from outside the sources (`PrimWrite.bytes`). -/
namespace PcpSpeed

/-- A Go `interface{}` value as `IsCompatible`, `WriteVal` and `FixedVal` see it:
its dynamic type and its bits. Floats are carried as their IEEE-754 bits; no
modelled function computes with them, and none compares two of them. Values of
every other dynamic type are `other`, named by their type. -/
inductive GoValue where
  | int (v : BitVec 64)
  | int32 (v : BitVec 32)
  | int64 (v : BitVec 64)
  | uint (v : BitVec 64)
  | uint32 (v : BitVec 32)
  | uint64 (v : BitVec 64)
  | float32 (bits : BitVec 32)
  | float64 (bits : BitVec 64)
  | string (s : String)
  | other (goType : String)
  deriving DecidableEq, Repr

/-- The integer an integer-kinded value stands for: signed kinds read their bits
in two's complement, unsigned kinds as a natural number. -/
def GoValue.intValue : GoValue → Option Int
  | .int v => some v.toInt
  | .int32 v => some v.toInt
  | .int64 v => some v.toInt
  | .uint v => some (v.toNat : Int)
  | .uint32 v => some (v.toNat : Int)
  | .uint64 v => some (v.toNat : Int)
  | _ => none

/-- `math.MaxInt32`. -/
def maxInt32 : Int := 2147483647

/-- `math.MinInt32`. -/
def minInt32 : Int := -2147483648

/-- `math.MaxInt64`. -/
def maxInt64 : Int := 9223372036854775807

/-- `math.MaxUint32`. -/
def maxUint32 : Nat := 4294967295

namespace Speed

/-- `MetricType`, a Go `int32`: the constants below name some of its values. -/
structure MetricType where
  code : BitVec 32
  deriving DecidableEq, Repr

namespace MetricType

def noSupportType : MetricType := ⟨BitVec.ofInt 32 (-1)⟩
def int32Type : MetricType := ⟨0⟩
def uint32Type : MetricType := ⟨1⟩
def int64Type : MetricType := ⟨2⟩
def uint64Type : MetricType := ⟨3⟩
def floatType : MetricType := ⟨4⟩
def doubleType : MetricType := ⟨5⟩
def stringType : MetricType := ⟨6⟩
def aggregateType : MetricType := ⟨7⟩
def aggregateStaticType : MetricType := ⟨8⟩
def eventType : MetricType := ⟨9⟩
def highresEventType : MetricType := ⟨10⟩
def unknownType : MetricType := ⟨255⟩

/-- `MetricType.IsCompatible`. For an `int` the cases are tried in order; the
third compares `uint32(v)`, the fourth `int64(v)`. -/
def isCompatible (m : MetricType) : GoValue → Bool
  | .int v =>
    if v.toInt < 0 then m == int32Type || m == int64Type
    else if v.toInt ≤ maxInt32 then
      m == int32Type || m == int64Type || m == uint32Type || m == uint64Type
    else if (v.setWidth 32).toNat ≤ maxUint32 then m == int64Type || m == uint32Type || m == uint64Type
    else if v.toInt ≤ maxInt64 then m == int64Type || m == uint64Type
    else false
  | .int32 _ => m == int32Type
  | .int64 _ => m == int64Type
  | .uint v => if v.toNat > maxUint32 then m == uint64Type else m == uint32Type || m == uint64Type
  | .uint32 _ => m == uint32Type
  | .uint64 _ => m == uint64Type
  | _ => false

/-- `IsCompatible` accepts integer values only, and only for the four integer
types: no float, string or other value, and no other type. -/
theorem isCompatible_integer {m : MetricType} {v : GoValue} (accepted : m.isCompatible v = true) :
    v.intValue.isSome ∧ (m = int32Type ∨ m = uint32Type ∨ m = int64Type ∨ m = uint64Type) := by
  cases v with
  | int v =>
    refine ⟨rfl, ?_⟩
    simp only [isCompatible] at accepted
    split_ifs at accepted <;> simp only [Bool.or_eq_true, beq_iff_eq, or_assoc] at accepted <;>
      rcases accepted with rfl | rfl | rfl | rfl <;> decide
  | uint v =>
    refine ⟨rfl, ?_⟩
    simp only [isCompatible] at accepted
    split_ifs at accepted <;> simp only [Bool.or_eq_true, beq_iff_eq, or_assoc] at accepted <;>
      rcases accepted with rfl | rfl <;> decide
  | int32 | int64 | uint32 | uint64 =>
    simp only [isCompatible, beq_iff_eq] at accepted
    subst accepted
    exact ⟨rfl, by decide⟩
  | float32 | float64 | string | other => cases accepted

/-- `DoubleType` takes no `float64`. -/
example : doubleType.isCompatible (.float64 0) = false := rfl

end MetricType

/-- A call of one of `bytebuffer.Buffer`'s fixed-width writers, with the bits it
is given. -/
inductive PrimWrite where
  | writeInt32 (v : BitVec 32)
  | writeUint32 (v : BitVec 32)
  | writeInt64 (v : BitVec 64)
  | writeUint64 (v : BitVec 64)
  deriving DecidableEq, Repr

namespace PrimWrite

/-- The number of bytes the writer puts down. -/
def width : PrimWrite → Nat
  | .writeInt32 _ | .writeUint32 _ => 4
  | .writeInt64 _ | .writeUint64 _ => 8

/-- Modelled from the spec: the bytes a `bytebuffer` writer puts down. The buffer
package is not among the sources; the spec (§4.A) has it write "host-native
little-endian". -/
def bytes : PrimWrite → List UInt8
  | .writeInt32 v | .writeUint32 v => leBytes 4 v.toNat
  | .writeInt64 v | .writeUint64 v => leBytes 8 v.toNat

@[simp] theorem length_bytes (p : PrimWrite) : p.bytes.length = p.width := by
  cases p <;> simp [bytes, width]

end PrimWrite

/-- `MetricType.WriteVal`: the writer calls it makes on the buffer, in order. -/
def MetricType.writeVal (m : MetricType) : GoValue → List PrimWrite
  | .int v =>
    if m = .int32Type then [.writeInt32 (v.setWidth 32)]
    else if m = .int64Type then [.writeInt64 v]
    else if m = .uint32Type then [.writeUint32 (v.setWidth 32)]
    else if m = .uint64Type then [.writeUint64 v]
    else []
  | .int32 v => [.writeInt32 v]
  | .int64 v => [.writeInt64 v]
  | .uint v =>
    if m = .uint32Type then [.writeUint32 (v.setWidth 32)]
    else if m = .uint64Type then [.writeUint64 v]
    else []
  | .uint32 v => [.writeUint32 v]
  | .uint64 v => [.writeUint64 v]
  | _ => []

/-- `MetricSemantics`, a Go `int32`. -/
structure MetricSemantics where
  code : BitVec 32
  deriving DecidableEq, Repr

def MetricSemantics.noSemantics : MetricSemantics := ⟨0⟩
def MetricSemantics.counterSemantics : MetricSemantics := ⟨1⟩
def MetricSemantics.instantSemantics : MetricSemantics := ⟨2⟩
def MetricSemantics.discreteSemantics : MetricSemantics := ⟨3⟩

end Speed

end PcpSpeed
