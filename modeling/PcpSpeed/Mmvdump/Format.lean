import PcpSpeed.Speed.Types

/-! The MMV records as `mmvdump` reads them, and its sequential readers: the
header and TOC checks, the one bounds check every record reader repeats, and
`FixedVal`. The record declarations and their sizes are not among the sources;
they are the MMV v1 layout the spec requires byte for byte. The bounds check
adds in `uint64`, so an offset within a record's length of `2^64` passes it and
then indexes past the slice: `readRecord_panics_iff` says exactly when. -/
namespace PcpSpeed.Mmvdump

/-- An error the decoder returns, with what its message is formatted from. -/
inductive DumpError where
  /-- `"file too small to contain a valid Header"`. -/
  | tooSmall
  /-- `fmt.Errorf("Bad Magic: %v", string(m))`. -/
  | badMagic (magic : List UInt8)
  /-- `fmt.Errorf("Mismatched version numbers, %v and %v", header.G1, header.G2)`. -/
  | mismatchedGenerations (g1 g2 : BitVec 64)
  /-- `"Incomplete/Partially Written <record>"`. -/
  | incomplete (record : String)
  deriving DecidableEq, Repr

/-- A run-time panic of the decoder. -/
inductive GoPanic where
  /-- `make([]*Toc, count)` with a negative `count`. -/
  | makesliceLenOutOfRange
  /-- `wg.Add(int(count))` with a negative `count`. -/
  | negativeWaitGroupCounter
  /-- `&data[offset]` with `offset ≥ len(data)`. -/
  | indexOutOfRange (index len : Nat)
  deriving DecidableEq, Repr

/-- How a sequential reader ends when it does not return a record. -/
inductive Failure where
  | error (e : DumpError)
  | panic (p : GoPanic)
  deriving DecidableEq, Repr

/-- Modelled from the spec: the record sizes of `mmvdump`, declared outside the
sources; the MMV v1 sizes (§4.G, and §6 for the 32-byte value record). -/
def headerLength : Nat := 40
def tocLength : Nat := 16
def instanceDomainLength : Nat := 32
def instanceLength : Nat := 80
def metricLength : Nat := 104
def valueLength : Nat := 32
def stringLength : Nat := 256

/-- The bytes of `"MMV"`. -/
def mmvMagic : List UInt8 := [77, 77, 86]

/-- Modelled from the spec: `Header`, declared outside the sources; the MMV v1
header, each field at its offset in the 40 bytes. -/
structure Header where
  magic : List UInt8
  version : BitVec 32
  g1 : BitVec 64
  g2 : BitVec 64
  toc : BitVec 32
  flag : BitVec 32
  process : BitVec 32
  cluster : BitVec 32
  deriving DecidableEq, Repr

def Header.ofBytes (record : List UInt8) : Header where
  magic := field record 0 4
  version := word32 record 4
  g1 := word64 record 8
  g2 := word64 record 16
  toc := word32 record 24
  flag := word32 record 28
  process := word32 record 32
  cluster := word32 record 36

/-- Modelled from the spec: `Toc`, declared outside the sources; `{type, count,
offset}` as `int32`, `int32`, `uint64`. -/
structure Toc where
  type : BitVec 32
  count : BitVec 32
  offset : BitVec 64
  deriving DecidableEq, Repr

def Toc.ofBytes (record : List UInt8) : Toc := ⟨word32 record 0, word32 record 4, word64 record 8⟩

/-- The section types `readComponents` hands to a reader, one for each `case`
of its `switch`. -/
inductive Section where
  | indoms
  | instances
  | metrics
  | values
  | strings
  deriving DecidableEq, Repr

namespace Section

/-- Modelled from the spec: the `Toc` type constants `TocIndoms = 1` to
`TocStrings = 5`, declared outside the sources (the MMV v1 TOC types, §4.G). -/
def tocType : Section → BitVec 32
  | indoms => 1
  | instances => 2
  | metrics => 3
  | values => 4
  | strings => 5

/-- Modelled from the spec: the constants of `tocType`, in `readComponents`'
`switch toc.Type` with its cases in source order. The section a TOC type
selects, if any. -/
def ofTocType (type : BitVec 32) : Option Section :=
  if type = 2 then some instances
  else if type = 1 then some indoms
  else if type = 3 then some metrics
  else if type = 4 then some values
  else if type = 5 then some strings
  else none

/-- The fixed record length `L_S` of a section. -/
def length : Section → Nat
  | indoms => instanceDomainLength
  | instances => instanceLength
  | metrics => metricLength
  | values => valueLength
  | strings => stringLength

theorem ofTocType_tocType (s : Section) : ofTocType s.tocType = some s := by
  cases s <;> decide

theorem tocType_of_ofTocType {type : BitVec 32} {s : Section} (h : ofTocType type = some s) :
    s.tocType = type := by
  unfold ofTocType at h
  repeat' split at h
  all_goals first | cases h; subst_vars; rfl | cases h

theorem length_pos (s : Section) : 0 < s.length := by
  cases s <;> decide

theorem length_le (s : Section) : s.length ≤ 256 := by
  cases s <;> decide

end Section

/-- The bounds check and pointer every record reader repeats:
`uint64(len(data)) < offset+L`, added in `uint64`, is an error naming the
record; past it `&data[offset]` panics unless `offset < len(data)`. -/
def readRecord (length : Nat) (record : String) (data : Bytes) (offset : BitVec 64) :
    Except Failure (List UInt8) :=
  if data.len64 < offset + BitVec.ofNat 64 length then .error (.error (.incomplete record))
  else if offset.toNat < data.len then .ok (data.view offset.toNat length)
  else .error (.panic (.indexOutOfRange offset.toNat data.len))

def readToc (data : Bytes) (offset : BitVec 64) : Except Failure Toc :=
  (readRecord tocLength "TOC" data offset).map Toc.ofBytes

def readInstance : Bytes → BitVec 64 → Except Failure (List UInt8) :=
  readRecord instanceLength "Instance"

def readInstanceDomain : Bytes → BitVec 64 → Except Failure (List UInt8) :=
  readRecord instanceDomainLength "InstanceDomain"

def readMetric : Bytes → BitVec 64 → Except Failure (List UInt8) :=
  readRecord metricLength "Metric"

def readValue : Bytes → BitVec 64 → Except Failure (List UInt8) :=
  readRecord valueLength "Value"

def readString : Bytes → BitVec 64 → Except Failure (List UInt8) :=
  readRecord stringLength "String"

/-- The reader `readComponents` runs, through `readX`, for each section type. -/
def Section.read : Section → Bytes → BitVec 64 → Except Failure (List UInt8)
  | indoms => readInstanceDomain
  | instances => readInstance
  | metrics => readMetric
  | values => readValue
  | strings => readString

/-- The name a section's reader puts in its error. -/
def Section.recordName : Section → String
  | indoms => "InstanceDomain"
  | instances => "Instance"
  | metrics => "Metric"
  | values => "Value"
  | strings => "String"

theorem Section.read_eq (s : Section) : s.read = readRecord s.length s.recordName := by
  cases s <;> rfl

/-- `readHeader`. Its `&data[0]` cannot panic past the length check. -/
def readHeader (data : Bytes) : Except Failure Header :=
  if data.len64 < BitVec.ofNat 64 headerLength then .error (.error .tooSmall)
  else
    let header := Header.ofBytes (data.view 0 headerLength)
    if header.magic.take 3 ≠ mmvMagic then .error (.error (.badMagic (header.magic.take 3)))
    else if header.g1 ≠ header.g2 then .error (.error (.mismatchedGenerations header.g1 header.g2))
    else .ok header

/-- Where `readTocs` reads its `i`-th entry: `HeaderLength + uint64(i)*TocLength`. -/
def tocOffset (i : Nat) : BitVec 64 :=
  BitVec.ofNat 64 headerLength + BitVec.ofNat 64 i * BitVec.ofNat 64 tocLength

/-- The loop of `readTocs` from entry `i`, `n` entries to go, returning the first
error. -/
def readTocsFrom (data : Bytes) : Nat → Nat → Except Failure (List Toc)
  | _, 0 => .ok []
  | i, n + 1 => do
    let toc ← readToc data (tocOffset i)
    let rest ← readTocsFrom data (i + 1) n
    return toc :: rest

/-- `readTocs`: `make([]*Toc, count)` panics on a negative count. -/
def readTocs (data : Bytes) (count : BitVec 32) : Except Failure (List Toc) :=
  if count.toInt < 0 then .error (.panic .makesliceLenOutOfRange)
  else readTocsFrom data 0 count.toInt.toNat

/-! ## The checks in exact arithmetic -/

theorem bind_eq_ok {ε α β : Type} {x : Except ε α} {f : α → Except ε β} {b : β} :
    x >>= f = .ok b ↔ ∃ a, x = .ok a ∧ f a = .ok b := by
  cases x <;> simp [bind, Except.bind]

theorem map_eq_ok {ε α β : Type} {x : Except ε α} {f : α → β} {b : β} :
    x.map f = .ok b ↔ ∃ a, x = .ok a ∧ f a = b := by
  cases x <;> simp [Except.map]


section Checks

variable {length : Nat} {record : String} {data : Bytes} {offset : BitVec 64}

private theorem check_iff (small : length < 2 ^ 64) :
    data.len64 < offset + BitVec.ofNat 64 length ↔ data.len < (offset.toNat + length) % 2 ^ 64 := by
  rw [BitVec.lt_def, Bytes.toNat_len64, BitVec.toNat_add, BitVec.toNat_ofNat,
    Nat.mod_eq_of_lt small]

/-- `readRecord` with its `uint64` comparison spelled out on naturals. -/
theorem readRecord_exact (small : length < 2 ^ 64) :
    readRecord length record data offset =
      if data.len < (offset.toNat + length) % 2 ^ 64 then .error (.error (.incomplete record))
      else if offset.toNat < data.len then .ok (data.view offset.toNat length)
      else .error (.panic (.indexOutOfRange offset.toNat data.len)) := by
  simp only [readRecord, check_iff small]

/-- A record is returned exactly when it lies inside the slice, in exact
arithmetic; it is then the bytes it occupies. -/
theorem readRecord_eq_ok_iff (positive : 0 < length) (small : length ≤ 2 ^ 63) {r : List UInt8} :
    readRecord length record data offset = .ok r ↔
      offset.toNat + length ≤ data.len ∧ r = data.view offset.toNat length := by
  have := data.len_lt_two_pow
  rw [readRecord_exact (by omega)]
  split
  · simp only [reduceCtorEq, false_iff, not_and]; omega
  · split
    · simp only [Except.ok.injEq]
      constructor
      · rintro rfl; exact ⟨by omega, rfl⟩
      · rintro ⟨-, rfl⟩; rfl
    · simp only [reduceCtorEq, false_iff, not_and]; omega

/-- The only error is the record's own, when the wrapped end passes the slice. -/
theorem readRecord_eq_error_iff (small : length ≤ 2 ^ 63) {e : DumpError} :
    readRecord length record data offset = .error (.error e) ↔
      e = .incomplete record ∧ data.len < (offset.toNat + length) % 2 ^ 64 := by
  rw [readRecord_exact (by omega)]
  split
  · simp only [Except.error.injEq, Failure.error.injEq]
    constructor
    · rintro rfl; exact ⟨rfl, by assumption⟩
    · rintro ⟨rfl, -⟩; rfl
  · split <;> simp_all

/-- The reader panics exactly when `offset+L` wraps past `2^64` to a value the
length check lets through. -/
theorem readRecord_panics_iff (positive : 0 < length) (small : length ≤ 2 ^ 63) :
    (∃ p, readRecord length record data offset = .error (.panic p)) ↔
      2 ^ 64 ≤ offset.toNat + length ∧ offset.toNat + length - 2 ^ 64 ≤ data.len := by
  have := data.len_lt_two_pow
  have := offset.isLt
  rw [readRecord_exact (by omega)]
  split
  · simp only [Except.error.injEq, reduceCtorEq, exists_false, false_iff, not_and, not_le]; omega
  · split
    · simp only [reduceCtorEq, exists_false, false_iff, not_and, not_le]; omega
    · simp only [Except.error.injEq, Failure.panic.injEq, exists_eq', true_iff]; omega

/-- The `i`-th TOC entry as `readTocs` finds it. -/
def tocAt (data : Bytes) (i : Nat) : Toc :=
  Toc.ofBytes (data.view (headerLength + i * tocLength) tocLength)

theorem toNat_tocOffset {i : Nat} (small : i < 2 ^ 32) :
    (tocOffset i).toNat = headerLength + i * tocLength := by
  simp only [tocOffset, headerLength, tocLength, BitVec.toNat_add, BitVec.toNat_mul,
    BitVec.toNat_ofNat]
  omega

theorem readToc_tocOffset_eq_ok_iff {i : Nat} (small : i < 2 ^ 32) {toc : Toc} :
    readToc data (tocOffset i) = .ok toc ↔
      headerLength + i * tocLength + tocLength ≤ data.len ∧ toc = tocAt data i := by
  simp only [readToc, map_eq_ok, readRecord_eq_ok_iff (by decide : 0 < tocLength) (by decide),
    toNat_tocOffset small, tocAt]
  constructor
  · rintro ⟨_, ⟨fits, rfl⟩, rfl⟩; exact ⟨fits, rfl⟩
  · rintro ⟨fits, rfl⟩; exact ⟨_, ⟨fits, rfl⟩, rfl⟩

/-- The TOC loop succeeds exactly when every entry it reads lies inside the
slice, and returns the entries in order. -/
theorem readTocsFrom_eq_ok_iff {i n : Nat} {tocs : List Toc} (small : i + n ≤ 2 ^ 32) :
    readTocsFrom data i n = .ok tocs ↔
      (∀ j, i ≤ j → j < i + n → headerLength + j * tocLength + tocLength ≤ data.len) ∧
        tocs = (List.range' i n).map (tocAt data) := by
  induction n generalizing i tocs with
  | zero =>
    simp only [readTocsFrom, Except.ok.injEq, List.range'_zero, List.map_nil]
    constructor
    · rintro rfl; exact ⟨fun j lo hi => by omega, rfl⟩
    · rintro ⟨-, rfl⟩; rfl
  | succ n ih =>
    simp only [readTocsFrom, bind_eq_ok, readToc_tocOffset_eq_ok_iff (by omega : i < 2 ^ 32),
      ih (by omega : i + 1 + n ≤ 2 ^ 32), pure, Except.pure, Except.ok.injEq, List.range'_succ,
      List.map_cons]
    constructor
    · rintro ⟨_, ⟨first, rfl⟩, _, ⟨rest, rfl⟩, rfl⟩
      exact ⟨fun j lo hi => if same : j = i then same ▸ first else rest j (by omega) (by omega), rfl⟩
    · rintro ⟨fits, rfl⟩
      exact ⟨_, ⟨fits i le_rfl (by omega), rfl⟩, _,
        ⟨fun j lo hi => fits j (by omega) (by omega), rfl⟩, rfl⟩

private theorem readToc_tocOffset_ne_panic {i : Nat} (small : i < 2 ^ 32) (p : GoPanic) :
    readToc data (tocOffset i) ≠ .error (.panic p) := by
  have := (@readRecord_panics_iff tocLength "TOC" data (tocOffset i) (by decide) (by decide)).not.mpr (by rw [toNat_tocOffset small]; simp [headerLength, tocLength]; omega)
  intro panics
  simp only [readToc, Except.map] at panics
  split at panics
  · cases panics; exact this ⟨p, by assumption⟩
  · cases panics

/-- The TOC loop never panics: its offsets stay far below `2^64`. -/
theorem readTocsFrom_ne_panic {i n : Nat} (small : i + n ≤ 2 ^ 32) (p : GoPanic) :
    readTocsFrom data i n ≠ .error (.panic p) := by
  induction n generalizing i with
  | zero => simp [readTocsFrom]
  | succ n ih =>
    simp only [readTocsFrom, bind, Except.bind]
    split
    · rename_i f first
      intro same; cases same; exact readToc_tocOffset_ne_panic (by omega) p first
    · split
      · rename_i f rest
        intro same; cases same; exact ih (by omega) rest
      · simp [pure, Except.pure]

private theorem toInt_toNat_le (count : BitVec 32) : count.toInt.toNat ≤ 2 ^ 32 := by
  have := BitVec.toInt_eq_toNat_cond count
  have := count.isLt
  split at * <;> omega

/-- `readTocs` reads the `count` entries after the header, each of which must
lie inside the slice; a negative `count` is a panic of `make`. -/
theorem readTocs_eq_ok_iff {count : BitVec 32} {tocs : List Toc} :
    readTocs data count = .ok tocs ↔
      0 ≤ count.toInt ∧ (∀ j < count.toInt.toNat, headerLength + j * tocLength + tocLength ≤ data.len) ∧
        tocs = (List.range count.toInt.toNat).map (tocAt data) := by
  unfold readTocs
  split
  · simp only [reduceCtorEq, false_iff, not_and]; omega
  · rw [readTocsFrom_eq_ok_iff (by simpa using toInt_toNat_le count), List.range_eq_range']
    simp only [Nat.zero_le, true_implies, Nat.zero_add]
    constructor
    · exact fun ok => ⟨by omega, ok⟩
    · exact fun ok => ok.2

theorem readTocs_panics_iff {count : BitVec 32} {p : GoPanic} :
    readTocs data count = .error (.panic p) ↔ count.toInt < 0 ∧ p = .makesliceLenOutOfRange := by
  unfold readTocs
  split
  · simp only [Except.error.injEq, Failure.panic.injEq]
    exact ⟨fun same => ⟨‹_›, same.symm⟩, fun ⟨_, same⟩ => same.symm⟩
  · have small : 0 + count.toInt.toNat ≤ 2 ^ 32 := by simpa using toInt_toNat_le count
    simp only [readTocsFrom_ne_panic small, false_iff, not_and]
    omega

/-- The header is returned exactly when it lies inside the slice, starts with
`"MMV"`, and has equal generations: the version and the generation's value are
not looked at. -/
theorem readHeader_eq_ok_iff {h : Header} :
    readHeader data = .ok h ↔
      headerLength ≤ data.len ∧ h = Header.ofBytes (data.view 0 headerLength) ∧
        h.magic.take 3 = mmvMagic ∧ h.g1 = h.g2 := by
  have short : data.len64 < BitVec.ofNat 64 headerLength ↔ data.len < headerLength := by
    rw [BitVec.lt_def, Bytes.toNat_len64, BitVec.toNat_ofNat]; rfl
  unfold readHeader
  simp only [short]
  split
  · simp only [reduceCtorEq, false_iff, not_and]; omega
  · split
    · simp only [reduceCtorEq, false_iff, not_and]; rintro - rfl; simp_all
    · split
      · simp only [reduceCtorEq, false_iff, not_and]; rintro - rfl; simp_all
      · simp only [Except.ok.injEq]
        constructor
        · rintro rfl; simp_all
        · rintro ⟨-, rfl, -⟩; rfl

theorem readHeader_ne_panic (p : GoPanic) : readHeader data ≠ .error (.panic p) := by
  simp only [readHeader]
  split_ifs <;> simp

/-- Every error `readHeader` returns, with the check that returns it. -/
theorem readHeader_eq_error {e : DumpError} (failed : readHeader data = .error (.error e)) :
    data.len < headerLength ∧ e = .tooSmall ∨
      headerLength ≤ data.len ∧ ∃ h, Header.ofBytes (data.view 0 headerLength) = h ∧
        (h.magic.take 3 ≠ mmvMagic ∧ e = .badMagic (h.magic.take 3) ∨
          h.magic.take 3 = mmvMagic ∧ h.g1 ≠ h.g2 ∧ e = .mismatchedGenerations h.g1 h.g2) := by
  have short : data.len64 < BitVec.ofNat 64 headerLength ↔ data.len < headerLength := by
    rw [BitVec.lt_def, Bytes.toNat_len64, BitVec.toNat_ofNat]; rfl
  unfold readHeader at failed
  simp only [short] at failed
  split at failed
  · cases failed
    exact .inl ⟨‹_›, rfl⟩
  split at failed
  · cases failed
    exact .inr ⟨by omega, _, rfl, .inl ⟨‹_›, rfl⟩⟩
  split at failed
  · cases failed
    exact .inr ⟨by omega, _, rfl, .inr ⟨not_not.mp ‹_›, ‹_›, rfl⟩⟩
  · cases failed

/-- The TOC loop's only error is the TOC's own. -/
theorem readTocsFrom_eq_error {i n : Nat} {e : DumpError} (failed : readTocsFrom data i n = .error (.error e)) :
    e = .incomplete "TOC" := by
  induction n generalizing i with
  | zero => cases failed
  | succ n ih =>
    simp only [readTocsFrom, bind, Except.bind] at failed
    split at failed
    · rename_i f first
      cases failed
      simp only [readToc, Except.map] at first
      split at first
      · cases first
        exact ((readRecord_eq_error_iff (show tocLength ≤ 2 ^ 63 by decide)).mp ‹_›).1
      · cases first
    · split at failed
      · cases failed; exact ih ‹_›
      · cases failed

/-- `readTocs` fails with the TOC's own error, and only on an entry the header
counts that runs past the slice. -/
theorem readTocs_eq_error {count : BitVec 32} {e : DumpError}
    (failed : readTocs data count = .error (.error e)) :
    0 ≤ count.toInt ∧ e = .incomplete "TOC" ∧
      ∃ j < count.toInt.toNat, data.len < headerLength + j * tocLength + tocLength := by
  have nonneg : 0 ≤ count.toInt := by
    by_contra negative
    simp [readTocs, show count.toInt < 0 by omega] at failed
  refine ⟨nonneg, ?_, ?_⟩
  · rw [readTocs, if_neg (by omega)] at failed
    exact readTocsFrom_eq_error failed
  · by_contra allFit
    push_neg at allFit
    rw [readTocs_eq_ok_iff.mpr ⟨nonneg, allFit, rfl⟩] at failed
    cases failed

end Checks

/-- `FixedVal`: the 64-bit payload word reinterpreted per type, narrowed for
32-bit types. `mmvdump.Type`, declared outside the sources, shares its tags with
`MetricType`, which stands for it here. -/
def fixedVal (data : BitVec 64) (t : Speed.MetricType) : Except String GoValue :=
  if t = .int32Type then .ok (.int32 (data.setWidth 32))
  else if t = .uint32Type then .ok (.uint32 (data.setWidth 32))
  else if t = .int64Type then .ok (.int64 data)
  else if t = .uint64Type then .ok (.uint64 data)
  else if t = .floatType then .ok (.float32 (data.setWidth 32))
  else if t = .doubleType then .ok (.float64 data)
  else .error "invalid type"

@[simp] theorem fixedVal_int32Type (data : BitVec 64) :
    fixedVal data .int32Type = .ok (.int32 (data.setWidth 32)) := rfl

@[simp] theorem fixedVal_uint32Type (data : BitVec 64) :
    fixedVal data .uint32Type = .ok (.uint32 (data.setWidth 32)) := rfl

@[simp] theorem fixedVal_int64Type (data : BitVec 64) : fixedVal data .int64Type = .ok (.int64 data) :=
  rfl

@[simp] theorem fixedVal_uint64Type (data : BitVec 64) :
    fixedVal data .uint64Type = .ok (.uint64 data) := rfl

end PcpSpeed.Mmvdump
