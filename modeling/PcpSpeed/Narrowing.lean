import PcpSpeed.Mmvdump.Format

/-! Narrowing between `speed`'s writer and `mmvdump`'s reader. `WriteVal` puts
an accepted value down with the writer of its type's width, and `FixedVal`
reads a payload word back per the same type tag. The round trip keeps the
number exactly when it lies in the type's range (`lossless_iff_inRange`), and
`IsCompatible` accepts every value in range (`isCompatible_of_inRange`). It also
accepts two ranges it should not: a negative `int` below `math.MinInt32` for
`Int32Type`, whose bound the first case never checks, and an `int` above
`math.MaxUint32` for `Uint32Type`, because the third case compares
`uint32(v)`, always at most `math.MaxUint32` (`isCompatible_int_iff`). The `uint`
case, which compares `v` itself, has no such gap. -/
namespace PcpSpeed.Narrowing
open Speed Speed.MetricType Mmvdump

/-- The bytes of a type's payload: four for the 32-bit integer types, eight for
the 64-bit ones. -/
def payloadWidth (t : MetricType) : Nat :=
  if t = int32Type ∨ t = uint32Type then 4 else if t = int64Type ∨ t = uint64Type then 8 else 0

/-- The low bytes of the little-endian payload word `data` are the write's. -/
def HeldBy (p : PrimWrite) (data : BitVec 64) : Prop :=
  (leBytes 8 data.toNat).take p.width = p.bytes

/-- `WriteVal` makes one write of the type's width, and `FixedVal` reads the
same number back from every payload word holding it. -/
def Lossless (t : MetricType) (v : GoValue) : Prop :=
  ∃ p, t.writeVal v = [p] ∧ p.width = payloadWidth t ∧
    ∀ data, HeldBy p data → ∃ w, fixedVal data t = .ok w ∧ w.intValue = v.intValue

/-- The integers an integer type's payload represents. -/
def InRange (t : MetricType) (n : Int) : Prop :=
  t = int32Type ∧ minInt32 ≤ n ∧ n ≤ maxInt32 ∨ t = uint32Type ∧ 0 ≤ n ∧ n ≤ maxUint32 ∨
    t = int64Type ∧ -maxInt64 - 1 ≤ n ∧ n ≤ maxInt64 ∨ t = uint64Type ∧ 0 ≤ n ∧ n < 2 ^ 64

@[simp] theorem inRange_int32Type {n : Int} : InRange int32Type n ↔ minInt32 ≤ n ∧ n ≤ maxInt32 := by
  simp [InRange, int32Type, uint32Type, int64Type, uint64Type]

@[simp] theorem inRange_uint32Type {n : Int} : InRange uint32Type n ↔ 0 ≤ n ∧ n ≤ maxUint32 := by
  simp [InRange, int32Type, uint32Type, int64Type, uint64Type]

@[simp] theorem inRange_int64Type {n : Int} :
    InRange int64Type n ↔ -maxInt64 - 1 ≤ n ∧ n ≤ maxInt64 := by
  simp [InRange, int32Type, uint32Type, int64Type, uint64Type]

@[simp] theorem inRange_uint64Type {n : Int} : InRange uint64Type n ↔ 0 ≤ n ∧ n < 2 ^ 64 := by
  simp [InRange, int32Type, uint32Type, int64Type, uint64Type]

private theorem toInt_spec64 (v : BitVec 64) : v.toNat < 2 ^ 64 ∧
    (v.toNat < 2 ^ 63 ∧ v.toInt = v.toNat ∨ 2 ^ 63 ≤ v.toNat ∧ v.toInt = v.toNat - 2 ^ 64) := by
  have := v.isLt
  rw [BitVec.toInt_eq_toNat_cond]; split <;> omega

private theorem toInt_spec32 (v : BitVec 32) : v.toNat < 2 ^ 32 ∧
    (v.toNat < 2 ^ 31 ∧ v.toInt = v.toNat ∨ 2 ^ 31 ≤ v.toNat ∧ v.toInt = v.toNat - 2 ^ 32) := by
  have := v.isLt
  rw [BitVec.toInt_eq_toNat_cond]; split <;> omega

/-! ## Payload words holding a write -/

theorem heldBy_four {p : PrimWrite} {x : BitVec 32} (width : p.width = 4)
    (bytes : p.bytes = leBytes 4 x.toNat) (data : BitVec 64) : HeldBy p data ↔ data.setWidth 32 = x := by
  have := x.isLt
  rw [HeldBy, width, bytes, show 8 = 4 + 4 from rfl, take_leBytes, leBytes_eq_iff, BitVec.toNat_eq,
    BitVec.toNat_setWidth]
  omega

theorem heldBy_eight {p : PrimWrite} {x : BitVec 64} (width : p.width = 8)
    (bytes : p.bytes = leBytes 8 x.toNat) (data : BitVec 64) : HeldBy p data ↔ data = x := by
  have := x.isLt
  rw [HeldBy, width, bytes, List.take_of_length_le (by simp), leBytes_eq_iff, BitVec.toNat_eq]
  omega

/-- The type whose writer `p` is: `WriteVal` calls `WriteInt32` for `Int32Type`
and so on. -/
def writeType : PrimWrite → MetricType
  | .writeInt32 _ => int32Type
  | .writeUint32 _ => uint32Type
  | .writeInt64 _ => int64Type
  | .writeUint64 _ => uint64Type

/-- What `FixedVal` returns, for the write's type, from a payload word that
holds the write. -/
def readBack : PrimWrite → GoValue
  | .writeInt32 x => .int32 x
  | .writeUint32 x => .uint32 x
  | .writeInt64 x => .int64 x
  | .writeUint64 x => .uint64 x

private theorem setWidth_setWidth32 (x : BitVec 32) : (x.setWidth 64).setWidth 32 = x := by
  have := x.isLt
  rw [BitVec.toNat_eq, BitVec.toNat_setWidth, BitVec.toNat_setWidth]
  omega

theorem width_writeType (p : PrimWrite) : p.width = payloadWidth (writeType p) := by
  cases p <;> rfl

/-- Every payload word holding a write reads back, per the write's type, as the
value written. -/
theorem fixedVal_of_heldBy {p : PrimWrite} {data : BitVec 64} (holds : HeldBy p data) :
    fixedVal data (writeType p) = .ok (readBack p) := by
  cases p with
  | writeInt32 x | writeUint32 x =>
    simp only [writeType, readBack, fixedVal_int32Type, fixedVal_uint32Type,
      (heldBy_four (by rfl) (by rfl) data).mp holds]
  | writeInt64 x | writeUint64 x =>
    simp only [writeType, readBack, fixedVal_int64Type, fixedVal_uint64Type,
      (heldBy_eight (by rfl) (by rfl) data).mp holds]

theorem exists_heldBy (p : PrimWrite) : ∃ data, HeldBy p data := by
  cases p with
  | writeInt32 x | writeUint32 x =>
    exact ⟨x.setWidth 64, (heldBy_four (by rfl) (by rfl) _).mpr (setWidth_setWidth32 x)⟩
  | writeInt64 x | writeUint64 x => exact ⟨x, (heldBy_eight (by rfl) (by rfl) x).mpr rfl⟩

/-- When `WriteVal` makes the one write `p`, narrowing is lossless exactly when
the value is the number that write reads back as. -/
theorem lossless_iff_readBack_eq {v : GoValue} {p : PrimWrite}
    (write : (writeType p).writeVal v = [p]) :
    Lossless (writeType p) v ↔ v.intValue = (readBack p).intValue := by
  constructor
  · rintro ⟨p', same, -, readsBack⟩
    obtain rfl : p = p' := List.head_eq_of_cons_eq (write.symm.trans same)
    obtain ⟨data, holds⟩ := exists_heldBy p
    obtain ⟨w, fixed, value⟩ := readsBack data holds
    rw [fixedVal_of_heldBy holds, Except.ok.injEq] at fixed
    rw [fixed, value]
  · intro value
    exact ⟨p, write, width_writeType p,
      fun data holds => ⟨readBack p, fixedVal_of_heldBy holds, value.symm⟩⟩

/-! ## What `IsCompatible` accepts -/

/-- The values of dynamic type `int` that `IsCompatible` accepts: for
`Int32Type` every one up to `math.MaxInt32`, however negative, and for
`Uint32Type` every non-negative one, however large. -/
theorem isCompatible_int_iff {t : MetricType} {v : BitVec 64} :
    t.isCompatible (.int v) = true ↔
      t = int32Type ∧ v.toInt ≤ maxInt32 ∨ t = int64Type ∨
        (t = uint32Type ∨ t = uint64Type) ∧ 0 ≤ v.toInt := by
  have third : (v.setWidth 32).toNat ≤ maxUint32 := by
    have := (v.setWidth 32).isLt; simp only [maxUint32]; omega
  have bound : v.toInt ≤ maxInt64 := by
    have := toInt_spec64 v; simp only [maxInt64]; omega
  simp only [isCompatible, third, bound, ite_true]
  split_ifs with neg small <;> simp only [Bool.or_eq_true, beq_iff_eq]
  · simp only [show v.toInt ≤ maxInt32 by unfold maxInt32; omega, show ¬ 0 ≤ v.toInt by omega,
      and_true, and_false, or_false]
  · simp only [small, show 0 ≤ v.toInt by omega, and_true]; tauto
  · simp only [small, show 0 ≤ v.toInt by omega, and_false, and_true, false_or, or_assoc]

theorem isCompatible_uint_iff {t : MetricType} {v : BitVec 64} :
    t.isCompatible (.uint v) = true ↔ t = uint32Type ∧ v.toNat ≤ maxUint32 ∨ t = uint64Type := by
  simp only [isCompatible]
  split_ifs with large <;> simp only [Bool.or_eq_true, beq_iff_eq]
  · simp only [show ¬ v.toNat ≤ maxUint32 by omega, and_false, false_or]
  · simp only [show v.toNat ≤ maxUint32 by omega, and_true]

/-- `IsCompatible` accepts every `int` in the range of an integer type, and
every `uint` in the range of an unsigned one. -/
theorem isCompatible_of_inRange {t : MetricType} :
    (∀ v : BitVec 64, InRange t v.toInt → t.isCompatible (.int v) = true) ∧
      ∀ v : BitVec 64, (t = uint32Type ∨ t = uint64Type) → InRange t v.toNat →
        t.isCompatible (.uint v) = true := by
  constructor
  · intro v range
    rw [isCompatible_int_iff]
    rcases range with ⟨rfl, -, high⟩ | ⟨rfl, low, -⟩ | ⟨rfl, -⟩ | ⟨rfl, low, -⟩
    · exact .inl ⟨rfl, high⟩
    · exact .inr (.inr ⟨.inl rfl, low⟩)
    · exact .inr (.inl rfl)
    · exact .inr (.inr ⟨.inr rfl, low⟩)
  · rintro v (rfl | rfl) range <;> rw [isCompatible_uint_iff]
    · simp only [inRange_uint32Type] at range
      exact .inl ⟨rfl, by omega⟩
    · exact .inr rfl

/-! ## Narrowing an accepted value -/

/-- A value `n` that narrowing reads back as `m` narrows losslessly exactly when
`n` is in range, given that `n = m` holds exactly in range. -/
private theorem lossless_iff_of_readBack {t : MetricType} {v : GoValue} {n m : Int}
    (value : v.intValue = some n) (lossless : Lossless t v ↔ v.intValue = some m)
    (agree : n = m ↔ InRange t n) : Lossless t v ↔ ∃ n, v.intValue = some n ∧ InRange t n := by
  simp only [lossless, value, Option.some.injEq, agree, exists_eq_left']

/-- For an accepted value the narrowing in `WriteVal` loses nothing exactly when
the value lies in the type's range. -/
theorem lossless_iff_inRange {t : MetricType} {v : GoValue} (compatible : t.isCompatible v = true) :
    Lossless t v ↔ ∃ n, v.intValue = some n ∧ InRange t n := by
  cases v with
  | int v =>
    have := toInt_spec64 v
    have := toInt_spec32 (v.setWidth 32)
    have := BitVec.toNat_setWidth 32 v
    rcases isCompatible_int_iff.mp compatible with ⟨rfl, -⟩ | rfl | ⟨rfl | rfl, positive⟩
    · refine lossless_iff_of_readBack rfl (lossless_iff_readBack_eq (p := .writeInt32 (v.setWidth 32)) rfl) ?_
      simp only [inRange_int32Type, minInt32, maxInt32]
      omega
    · refine lossless_iff_of_readBack rfl (lossless_iff_readBack_eq (p := .writeInt64 v) rfl) ?_
      simp only [inRange_int64Type, maxInt64, true_iff]
      omega
    · refine lossless_iff_of_readBack rfl (lossless_iff_readBack_eq (p := .writeUint32 (v.setWidth 32)) rfl) ?_
      simp only [inRange_uint32Type, maxUint32]
      omega
    · refine lossless_iff_of_readBack rfl (lossless_iff_readBack_eq (p := .writeUint64 v) rfl) ?_
      simp only [inRange_uint64Type]
      omega
  | int32 v =>
    obtain rfl : t = int32Type := by simpa [isCompatible] using compatible
    have := toInt_spec32 v
    refine lossless_iff_of_readBack rfl (lossless_iff_readBack_eq (p := .writeInt32 v) rfl) ?_
    simp only [inRange_int32Type, minInt32, maxInt32, true_iff]
    omega
  | int64 v =>
    obtain rfl : t = int64Type := by simpa [isCompatible] using compatible
    have := toInt_spec64 v
    refine lossless_iff_of_readBack rfl (lossless_iff_readBack_eq (p := .writeInt64 v) rfl) ?_
    simp only [inRange_int64Type, maxInt64, true_iff]
    omega
  | uint v =>
    have := BitVec.toNat_setWidth 32 v
    have := v.isLt
    rcases isCompatible_uint_iff.mp compatible with ⟨rfl, small⟩ | rfl
    · refine lossless_iff_of_readBack rfl (lossless_iff_readBack_eq (p := .writeUint32 (v.setWidth 32)) rfl) ?_
      simp only [inRange_uint32Type, maxUint32] at small ⊢
      omega
    · refine lossless_iff_of_readBack rfl (lossless_iff_readBack_eq (p := .writeUint64 v) rfl) ?_
      simp only [inRange_uint64Type, true_iff]
      omega
  | uint32 v =>
    obtain rfl : t = uint32Type := by simpa [isCompatible] using compatible
    have := v.isLt
    refine lossless_iff_of_readBack rfl (lossless_iff_readBack_eq (p := .writeUint32 v) rfl) ?_
    simp only [inRange_uint32Type, maxUint32, true_iff]
    omega
  | uint64 v =>
    obtain rfl : t = uint64Type := by simpa [isCompatible] using compatible
    have := v.isLt
    refine lossless_iff_of_readBack rfl (lossless_iff_readBack_eq (p := .writeUint64 v) rfl) ?_
    simp only [inRange_uint64Type, true_iff]
    omega
  | float32 | float64 | string | other => simp [isCompatible] at compatible

/-- `int(1 << 40)`, accepted for `Int64Type`, narrows losslessly: it lies in
`Int64Type`'s range. -/
theorem lossless_large_int64 :
    int64Type.isCompatible (.int (BitVec.ofNat 64 (2 ^ 40))) = true ∧
      (Lossless int64Type (.int (BitVec.ofNat 64 (2 ^ 40))) ↔
        ∃ n, (GoValue.int (BitVec.ofNat 64 (2 ^ 40))).intValue = some n ∧ InRange int64Type n) :=
  ⟨by decide, lossless_iff_inRange (by decide)⟩

/-- `IsCompatible` accepts `int(1 << 40)` for `Uint32Type`, which `WriteVal`
narrows to 0, and `int(math.MinInt32 - 1)` for `Int32Type`, which it narrows to
`math.MaxInt32`. -/
theorem isCompatible_accepts_lossy_ints :
    uint32Type.isCompatible (.int (BitVec.ofNat 64 (2 ^ 40))) = true ∧
      ¬ Lossless uint32Type (.int (BitVec.ofNat 64 (2 ^ 40))) ∧
      int32Type.isCompatible (.int (BitVec.ofInt 64 (minInt32 - 1))) = true ∧
      ¬ Lossless int32Type (.int (BitVec.ofInt 64 (minInt32 - 1))) := by
  have large : Lossless uint32Type (.int (BitVec.ofNat 64 (2 ^ 40))) ↔ _ :=
    lossless_iff_readBack_eq (p := .writeUint32 ((BitVec.ofNat 64 (2 ^ 40)).setWidth 32)) rfl
  have small : Lossless int32Type (.int (BitVec.ofInt 64 (minInt32 - 1))) ↔ _ :=
    lossless_iff_readBack_eq (p := .writeInt32 ((BitVec.ofInt 64 (minInt32 - 1)).setWidth 32)) rfl
  rw [large, small]
  decide

end PcpSpeed.Narrowing
