import PcpSpeed.Mmvdump.Dump

/-! What `Dump` reads. `readHeader` reads the first `HeaderLength` bytes,
`readTocs` the entries the header counts, and each goroutine of a `readX` only
the record at its own offset; so a run of `readComponents` over two slices whose
record readers agree at every offset the TOC names takes the same steps
(`World.run_congr`), and `Dump` returns the same on two slices that agree on a
prefix holding the header, the TOC and every record (`dump_eq_of_take_eq`). -/
namespace PcpSpeed.Mmvdump

/-- The readers of two slices agree at every offset a goroutine of
`readComponents` reads a record at. -/
def ReadsAgree (data data' : Bytes) (tocs : List Toc) : Prop :=
  ∀ t ∈ tocs.filterMap SectionTask.ofToc, ∀ o ∈ t.offsets, t.kind.read data' o = t.kind.read data o

section Congr

variable {data data' : Bytes} {tocs : List Toc} {w : World}

theorem World.step_congr (inv : WorldInv data tocs w) (agree : ReadsAgree data data' tocs) (t : Tid) :
    w.step data' t = w.step data t := by
  cases t with
  | component j => simp only [World.step, World.stepComponent, SectionTask.call_offsets]
  | record j i =>
    simp only [World.step]
    split
    · rfl
    unfold World.stepRecord
    cases at_j : w.goroutines[j]? with
    | none => rfl
    | some g =>
      have mem := List.getElem?_mem at_j
      have ok := inv.sections g mem
      cases pc : g.pc with
      | reading s =>
        rw [SectionOk, pc] at ok
        have agreeAt : ∀ r ∈ s.records,
            g.task.kind.read data' r.offset = g.task.kind.read data r.offset :=
          fun r member => agree g.task (inv.tasks ▸ List.mem_map_of_mem _ mem) r.offset
            (ok.2.offsets_eq ▸ List.mem_map_of_mem _ member)
        simp only [pc, SectionTask.call_read, ReadState.step_congr agreeAt]
      | _ => simp only [pc]

theorem World.run_congr (inv : WorldInv data tocs w) (agree : ReadsAgree data data' tocs)
    (sched : List Tid) : w.run data' sched = w.run data sched := by
  induction sched generalizing w with
  | nil => rfl
  | cons t sched ih =>
    show (w.step data' t).run data' sched = (w.step data t).run data sched
    rw [World.step_congr inv agree t]
    exact ih (inv.step t)

/-- Slices that agree on their first `n` bytes give the same reads of every
record that lies within them. -/
theorem Section.read_eq_of_take_eq {s : Section} {o : BitVec 64} {n : Nat}
    (same : data'.bytes.take n = data.bytes.take n) (long : n ≤ data.len) (long' : n ≤ data'.len)
    (fits : o.toNat + s.length ≤ n) : s.read data' o = s.read data o := by
  rw [Section.read_eq_ok_iff.mpr ⟨fits.trans long, rfl⟩,
    Section.read_eq_ok_iff.mpr ⟨fits.trans long', rfl⟩,
    Bytes.view_eq_of_take_eq same fits]

theorem readHeader_eq_of_take_eq {n : Nat} (same : data'.bytes.take n = data.bytes.take n)
    (long : n ≤ data.len) (long' : n ≤ data'.len) (within : headerLength ≤ n) :
    readHeader data' = readHeader data := by
  have notShort : ∀ d : Bytes, n ≤ d.len → ¬d.len64 < BitVec.ofNat 64 headerLength := by
    intro d long
    rw [BitVec.lt_def, Bytes.toNat_len64, BitVec.toNat_ofNat]
    simp only [headerLength] at within ⊢
    omega
  simp only [readHeader, notShort data long, notShort data' long', if_false,
    Bytes.view_eq_of_take_eq same (show 0 + headerLength ≤ n by omega)]

theorem readTocs_eq_of_take_eq {n : Nat} {count : BitVec 32} (same : data'.bytes.take n = data.bytes.take n)
    (long' : n ≤ data'.len) (read : readTocs data count = .ok tocs)
    (within : headerLength + count.toInt.toNat * tocLength ≤ n) : readTocs data' count = .ok tocs := by
  obtain ⟨nonneg, -, rfl⟩ := readTocs_eq_ok_iff.mp read
  have entry : ∀ j < count.toInt.toNat, headerLength + j * tocLength + tocLength ≤ n := fun j lt =>
    calc headerLength + j * tocLength + tocLength = headerLength + (j + 1) * tocLength := by ring
      _ ≤ headerLength + count.toInt.toNat * tocLength := by gcongr; omega
      _ ≤ n := within
  refine readTocs_eq_ok_iff.mpr ⟨nonneg, fun j lt => (entry j lt).trans long', ?_⟩
  refine List.map_congr_left fun j mem => ?_
  rw [tocAt, tocAt, Bytes.view_eq_of_take_eq same (entry j (List.mem_range.mp mem))]

end Congr

/-- **`Dump` reads nothing past the records its TOC names.** Two slices that
agree on their first `n` bytes, when those hold the header, every TOC entry the
header counts and every record of every TOC entry of a known type, give the same
outcome under every schedule: bytes after the last record, or anywhere else
outside these, change nothing. -/
theorem dump_eq_of_take_eq {data data' : Bytes} {h : Header} {tocs : List Toc} {n : Nat}
    (header : readHeader data = .ok h) (read : readTocs data h.toc = .ok tocs)
    (tocsWithin : headerLength + h.toc.toInt.toNat * tocLength ≤ n)
    (recordsWithin : ∀ t ∈ tocs.filterMap SectionTask.ofToc, ∀ i < t.count.toInt.toNat,
      t.offset.toNat + i * t.kind.length + t.kind.length ≤ n)
    (long : n ≤ data.len) (long' : n ≤ data'.len) (same : data'.bytes.take n = data.bytes.take n)
    (sched : List Tid) : dump data' sched = dump data sched := by
  have header' : readHeader data' = .ok h := by
    rw [readHeader_eq_of_take_eq same long long' (by omega), header]
  have agree : ReadsAgree data data' tocs := by
    intro t mem o offset
    have := data.len_lt_two_pow
    exact Section.read_eq_of_take_eq same long long'
      (t.end_le_of_within (by omega) (recordsWithin t mem) offset)
  rw [dump_of_readTocs header' (readTocs_eq_of_take_eq same long' read tocsWithin),
    dump_of_readTocs header read,
    World.run_congr WorldInv.init agree]

/-- `wellFormed` with a byte after its last record. -/
def wellFormedTrailing : Bytes :=
  ⟨wellFormed.bytes ++ [0xff], by set_option maxRecDepth 4000 in decide⟩

set_option maxRecDepth 20000 in
theorem wellFormedTrailing_dump :
    dump wellFormedTrailing wellFormedSchedule = dump wellFormed wellFormedSchedule :=
  @dump_eq_of_take_eq wellFormed wellFormedTrailing _ _ 184 (by rfl) (by rfl) (by decide) (by decide)
    (by decide) (by decide) (by rfl) _

end PcpSpeed.Mmvdump
