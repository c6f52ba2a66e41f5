import PcpSpeed.Speed.Types

/-! `speed`'s units and their 32-bit PMAPI words. Each unit family is a run of
`iota` constants that sets its dimension's exponent to one and counts the scale
up in the dimension's nibble; the examples below read every constant back into
the six PMAPI fields. -/
namespace PcpSpeed.Speed

/-- `SpaceUnit`: `ByteUnit SpaceUnit = 1<<28 | iota<<16` and the constants after it. -/
def spaceUnit (iota : Nat) : BitVec 32 := 1 <<< 28 ||| BitVec.ofNat 32 iota <<< 16

def byteUnit : BitVec 32 := spaceUnit 0
def kilobyteUnit : BitVec 32 := spaceUnit 1
def megabyteUnit : BitVec 32 := spaceUnit 2
def gigabyteUnit : BitVec 32 := spaceUnit 3
def terabyteUnit : BitVec 32 := spaceUnit 4
def petabyteUnit : BitVec 32 := spaceUnit 5
def exabyteUnit : BitVec 32 := spaceUnit 6

/-- `TimeUnit`: `NanosecondUnit TimeUnit = 1<<24 | iota<<12` and the constants after it. -/
def timeUnit (iota : Nat) : BitVec 32 := 1 <<< 24 ||| BitVec.ofNat 32 iota <<< 12

def nanosecondUnit : BitVec 32 := timeUnit 0
def microsecondUnit : BitVec 32 := timeUnit 1
def millisecondUnit : BitVec 32 := timeUnit 2
def secondUnit : BitVec 32 := timeUnit 3
def minuteUnit : BitVec 32 := timeUnit 4
def hourUnit : BitVec 32 := timeUnit 5

/-- `CountUnit`: `OneUnit CountUnit = 1<<20 | iota<<8`, its only constant. -/
def countUnit (iota : Nat) : BitVec 32 := 1 <<< 20 ||| BitVec.ofNat 32 iota <<< 8

def oneUnit : BitVec 32 := countUnit 0

/-- `MetricUnit`: a value of one of the three unit types, by its dynamic type. -/
inductive MetricUnit where
  | space (s : BitVec 32)
  | time (t : BitVec 32)
  | count (c : BitVec 32)
  deriving DecidableEq, Repr

/-- `PMAPI`, the same `uint32(...)` conversion for each unit type. -/
def MetricUnit.pmapi : MetricUnit → BitVec 32
  | space s => s
  | time t => t
  | count c => c

/-- The six fields of a PMAPI word, high nibble first: the space, time and count
exponents, then their scales. -/
structure PmUnits where
  dimSpace : Nat
  dimTime : Nat
  dimCount : Nat
  scaleSpace : Nat
  scaleTime : Nat
  scaleCount : Nat
  deriving DecidableEq, Repr

def nibble (word : BitVec 32) (shift : Nat) : Nat := (word.toNat >>> shift) % 16

def pmUnits (word : BitVec 32) : PmUnits :=
  ⟨nibble word 28, nibble word 24, nibble word 20, nibble word 16, nibble word 12, nibble word 8⟩

/-- The low byte, which no field uses. -/
def padding (word : BitVec 32) : Nat := word.toNat % 256

/-- The space units set the space exponent at bit 28 and count their scale in
bits 16-19, not the bits 0-3 and 13-16 the comment on `SpaceUnit.PMAPI` names. -/
example : ∀ i < 7, pmUnits (spaceUnit i) = ⟨1, 0, 0, i, 0, 0⟩ ∧ padding (spaceUnit i) = 0 := by
  decide

/-- The time units set the time exponent at bit 24 and count their scale in bits
12-15, not the bits 4-7 and 17-20 the comment on `TimeUnit` names. -/
example : ∀ i < 6, pmUnits (timeUnit i) = ⟨0, 1, 0, 0, i, 0⟩ ∧ padding (timeUnit i) = 0 := by
  decide

example : pmUnits oneUnit = ⟨0, 0, 1, 0, 0, 0⟩ ∧ padding oneUnit = 0 := by
  decide

end PcpSpeed.Speed
