import PcpSpeed.Mmvdump.Dump

/-! Why `Dump` returns an error. Each error comes from a check of `readHeader`,
`readTocs` or a record reader that the bytes fail, whatever the schedule and
however many TOC entries share a type (`dump_error_cause`): a slice shorter
than a header, a magic other than `"MMV"`, unequal generations, a TOC entry the
header counts that runs past the slice, or a record of a TOC entry of a known
type whose end, added in `uint64`, passes the slice. The last follows from
`ErrsJustified`: every error a named result of `readComponents` holds was
assigned by a goroutine whose section has such a record, which every step
keeps, duplicate section types included. Conversely, a slice with none of these
faults, every TOC type known and every count non-negative, is accepted: under
every schedule `Dump` can still return, and what it returns is the header, the
TOC and maps (`dump_returns_ok_of_within`). -/
namespace PcpSpeed.Mmvdump

/-- A step changes the ten named results' errors only when a goroutine assigns
its `readX` error. -/
theorem World.step_errs (data : Bytes) (w : World) (t : Tid) :
    (w.step data t).errs = w.errs ∨ ∃ (j : Nat) (g : SectionGoroutine) (e : Option DumpError),
      w.goroutines[j]? = some g ∧ g.pc = .assigning e ∧
      (w.step data t).errs = Function.update w.errs g.task.kind e := by
  cases t with
  | component j =>
    simp only [World.step]
    split
    · exact .inl rfl
    unfold World.stepComponent
    split
    · exact .inl rfl
    rename_i g at_j
    split
    · split <;> exact .inl rfl
    · split <;> exact .inl rfl
    · rename_i e assigning
      split
      · exact .inl rfl
      · exact .inr ⟨j, g, e, at_j, assigning, rfl⟩
    · exact .inl rfl
  | record j i =>
    simp only [World.step]
    split
    · exact .inl rfl
    unfold World.stepRecord
    split
    · split
      · split <;> exact .inl rfl
      · exact .inl rfl
    · exact .inl rfl

section Justified

variable {data : Bytes} {tocs : List Toc} {w : World}

/-- Every error a named result of `readComponents` holds is the error of a
section goroutine's `readX`, whose records all fit or one is rejected. -/
def ErrsJustified (data : Bytes) (tocs : List Toc) (w : World) : Prop :=
  ∀ S e, w.errs S = some e →
    ∃ t ∈ tocs.filterMap SectionTask.ofToc,
      t.kind = S ∧ Settled data t ∧ (sectionResult data t).2 = some e

theorem ErrsJustified.init : ErrsJustified data tocs (World.init tocs) := by
  intro S e assigned
  cases assigned

theorem ErrsJustified.step (inv : WorldInv data tocs w) (just : ErrsJustified data tocs w) (t : Tid) :
    ErrsJustified data tocs (w.step data t) := by
  intro S e' assigned
  rcases World.step_errs data w t with same | ⟨j, g, e, at_j, assigning, updated⟩
  · exact just S e' (same ▸ assigned)
  · rw [updated] at assigned
    by_cases here : S = g.task.kind
    · subst here
      rw [Function.update_same] at assigned
      subst assigned
      have mem := List.getElem?_mem at_j
      have ok := inv.sections g mem
      rw [SectionOk, assigning] at ok
      exact ⟨g.task, inv.tasks ▸ List.mem_map_of_mem _ mem, rfl, ok.2.1, ok.2.2.symm⟩
    · rw [Function.update_noteq here] at assigned
      exact just S e' assigned

theorem ErrsJustified.run (inv : WorldInv data tocs w) (just : ErrsJustified data tocs w)
    (sched : List Tid) : ErrsJustified data tocs (w.run data sched) := by
  induction sched generalizing w with
  | nil => exact just
  | cons t sched ih => exact ih (inv.step t) (just.step inv t)

end Justified

/-- A fault in the bytes that `Dump` reports as the error `e`. -/
inductive ErrorCause (data : Bytes) : DumpError → Prop where
  /-- The slice is shorter than a header. -/
  | tooSmall (short : data.len < headerLength) : ErrorCause data .tooSmall
  /-- The header's magic is not `"MMV"`. -/
  | badMagic {h : Header} (long : headerLength ≤ data.len)
      (at_zero : Header.ofBytes (data.view 0 headerLength) = h) (bad : h.magic.take 3 ≠ mmvMagic) :
      ErrorCause data (.badMagic (h.magic.take 3))
  /-- Its generations differ. -/
  | mismatchedGenerations {h : Header} (long : headerLength ≤ data.len)
      (at_zero : Header.ofBytes (data.view 0 headerLength) = h) (magic : h.magic.take 3 = mmvMagic)
      (differ : h.g1 ≠ h.g2) : ErrorCause data (.mismatchedGenerations h.g1 h.g2)
  /-- A TOC entry the accepted header counts runs past the slice. -/
  | tocOutside {h : Header} (header : readHeader data = .ok h) (nonneg : 0 ≤ h.toc.toInt) {j : Nat}
      (counted : j < h.toc.toInt.toNat) (outside : data.len < headerLength + j * tocLength + tocLength) :
      ErrorCause data (.incomplete "TOC")
  /-- A record of a TOC entry of section type `S` ends, added in `uint64`, past the slice. -/
  | recordOutside {h : Header} {tocs : List Toc} {toc : Toc} {S : Section}
      (header : readHeader data = .ok h) (read : readTocs data h.toc = .ok tocs) (mem : toc ∈ tocs)
      (selects : Section.ofTocType toc.type = some S) {i : Nat} (counted : (i : Int) < toc.count.toInt)
      (outside : data.len < (toc.offset.toNat + i * S.length + S.length) % 2 ^ 64) :
      ErrorCause data (.incomplete S.recordName)

section Cause

variable {data : Bytes} {sched : List Tid} {h : Header} {tocs : List Toc}

theorem errorCause_of_readHeader {e : DumpError} (failed : readHeader data = .error (.error e)) :
    ErrorCause data e := by
  rcases readHeader_eq_error failed with
    ⟨short, rfl⟩ | ⟨long, h, at_zero, ⟨bad, rfl⟩ | ⟨magic, differ, rfl⟩⟩
  · exact .tooSmall short
  · exact .badMagic long at_zero bad
  · exact .mismatchedGenerations long at_zero magic differ

/-- A section goroutine whose `readX` returned an error names a record its
length check rejects. -/
theorem errorCause_of_section (header : readHeader data = .ok h) (read : readTocs data h.toc = .ok tocs)
    {t : SectionTask} (mem : t ∈ tocs.filterMap SectionTask.ofToc) (settled : Settled data t)
    {e : DumpError} (failed : (sectionResult data t).2 = some e) : ErrorCause data e := by
  obtain ⟨toc, member, selected⟩ := List.mem_filterMap.mp mem
  obtain ⟨S, selects, rfl⟩ := Option.map_eq_some'.mp selected
  rcases settled with fits | ⟨o, offset, e', rejected⟩
  · rw [sectionResult_snd_eq_none.mpr fits] at failed
    cases failed
  · obtain ⟨i, counted, at_i⟩ := mem_recordOffsets.mp offset
    dsimp only at counted at_i
    rw [Section.read_eq, readRecord_eq_error_iff (S.length_le.trans (by norm_num))] at rejected
    obtain ⟨rfl, outside⟩ := rejected
    have same : e = .incomplete S.recordName := by
      unfold sectionResult at failed
      split at failed
      · cases failed
      · exact (Option.some.inj failed).symm
    subst same
    refine .recordOutside header read member selects (show (i : Int) < toc.count.toInt by omega) ?_
    rw [at_i, Nat.mod_add_mod] at outside
    exact outside

/-- **Every error `Dump` returns has its cause in the bytes**, under every
schedule of the goroutines of `readComponents` and whatever types the TOC lists:
a header too short, with a bad magic or unequal generations, a TOC entry past
the end of the slice, or a record of a known section whose end, added in
`uint64`, passes it. -/
theorem dump_error_cause {e : DumpError} (returned : dump data sched = some (.error e)) :
    ErrorCause data e := by
  cases header : readHeader data with
  | error f =>
    cases f with
    | error e' =>
      simp only [dump, header, Option.some.injEq, DumpResult.error.injEq] at returned
      exact returned ▸ errorCause_of_readHeader header
    | panic p => simp [dump, header] at returned
  | ok h =>
    cases read : readTocs data h.toc with
    | error f =>
      cases f with
      | error e' =>
        simp only [dump, header, read, Option.some.injEq, DumpResult.error.injEq] at returned
        obtain ⟨nonneg, rfl, j, counted, outside⟩ := readTocs_eq_error read
        exact returned ▸ .tocOutside header nonneg counted outside
      | panic p => simp [dump, header, read] at returned
    | ok tocs =>
      have just : ErrsJustified data tocs ((World.init tocs).run data sched) :=
        ErrsJustified.init.run WorldInv.init sched
      rw [dump_of_readTocs header read, World.outcome] at returned
      split at returned
      · cases returned
      · split at returned
        · simp only [Option.some.injEq, report] at returned
          split at returned
          · rename_i e' first
            cases returned
            obtain ⟨S, -, assigned⟩ := List.exists_of_findSome?_eq_some first
            obtain ⟨t, mem, -, settled, failed⟩ := just S _ assigned
            exact errorCause_of_section header read mem settled failed
          · cases returned
        · cases returned

/-- The error `Dump` returns on `repeatedType` with its TOC entries run in
order names the instance record at 1000, past the 72-byte slice. -/
theorem repeatedType_error_cause :
    dump repeatedType [.component 0, .component 0, .component 0, .component 1, .record 1 0,
        .record 1 0, .component 1, .component 1] = some (.error (.incomplete "Instance")) ∧
      ErrorCause repeatedType (.incomplete "Instance") := by
  have returned : dump repeatedType [.component 0, .component 0, .component 0, .component 1,
      .record 1 0, .record 1 0, .component 1, .component 1] = some (.error (.incomplete "Instance")) := rfl
  exact ⟨returned, dump_error_cause returned⟩

/-- Under every schedule, whatever `Dump` has returned on a slice with no fault
is the header, the TOC and maps: a panic needs a negative count or a record
past the slice, an error a rejected record. -/
theorem dump_eq_ok_of_within {r : DumpResult} (header : readHeader data = .ok h)
    (read : readTocs data h.toc = .ok tocs)
    (counts : ∀ t ∈ tocs.filterMap SectionTask.ofToc, 0 ≤ t.count.toInt)
    (within : ∀ t ∈ tocs.filterMap SectionTask.ofToc, ∀ i < t.count.toInt.toNat,
      t.offset.toNat + i * t.kind.length + t.kind.length ≤ data.len)
    (returned : dump data sched = some r) : ∃ maps, r = .ok h tocs maps := by
  have fits : ∀ t ∈ tocs.filterMap SectionTask.ofToc, ∀ o ∈ t.offsets, ∃ r, t.kind.read data o = .ok r :=
    fun t mem o offset => ⟨_, Section.read_eq_ok_iff.mpr
      ⟨t.end_le_of_within (data.len_lt_two_pow.trans (by norm_num)) (within t mem) offset, rfl⟩⟩
  have inv : WorldInv data tocs ((World.init tocs).run data sched) := WorldInv.init.run sched
  have just : ErrsJustified data tocs ((World.init tocs).run data sched) :=
    ErrsJustified.init.run WorldInv.init sched
  rw [dump_of_readTocs header read, World.outcome] at returned
  split at returned
  · -- a panic needs a negative count or a record read that panics
    rename_i p panicked
    obtain ⟨t, mem, ⟨-, negative⟩ | ⟨o, offset, panics⟩⟩ := inv.panic_cause p panicked
    · exact absurd (counts t mem) (by omega)
    · obtain ⟨_, reads⟩ := fits t mem o offset
      rw [reads] at panics
      cases panics
  split at returned
  · -- an error needs a section with a rejected record
    cases returned
    have noErr : firstError ((World.init tocs).run data sched).errs = none :=
      firstError_eq_none.mpr fun S => by
        cases assigned : ((World.init tocs).run data sched).errs S with
        | none => rfl
        | some e =>
          obtain ⟨t, mem, -, -, failed⟩ := just S e assigned
          rw [sectionResult_snd_eq_none.mpr (fits t mem)] at failed
          cases failed
    exact ⟨_, by rw [report, noErr]⟩
  · cases returned

/-- **`Dump` accepts every well-formed slice.** When the header passes, the TOC
fits, and every entry has a known type, a non-negative count and all its
records inside the slice, then under every schedule `Dump` can still return,
and whatever it returns is the header, the TOC and maps: never an error, never
a panic. -/
theorem dump_returns_ok_of_within (header : readHeader data = .ok h) (read : readTocs data h.toc = .ok tocs)
    (known : ∀ toc ∈ tocs, (Section.ofTocType toc.type).isSome)
    (counts : ∀ t ∈ tocs.filterMap SectionTask.ofToc, 0 ≤ t.count.toInt)
    (within : ∀ t ∈ tocs.filterMap SectionTask.ofToc, ∀ i < t.count.toInt.toNat,
      t.offset.toNat + i * t.kind.length + t.kind.length ≤ data.len)
    (sched : List Tid) :
    (∀ r, dump data sched = some r → ∃ maps, r = .ok h tocs maps) ∧
      ∃ more maps, dump data (sched ++ more) = some (.ok h tocs maps) := by
  refine ⟨fun _ returned => dump_eq_ok_of_within header read counts within returned, ?_⟩
  obtain ⟨more, returns⟩ := exists_dump_isSome header read (unknownTocs_eq_zero known) sched
  obtain ⟨r, returned⟩ := Option.isSome_iff_exists.mp returns
  obtain ⟨maps, rfl⟩ := dump_eq_ok_of_within header read counts within returned
  exact ⟨more, maps, returned⟩

set_option maxRecDepth 20000 in
/-- `wellFormed` is accepted from its first step on. -/
theorem wellFormed_accepted :
    ∃ h tocs, (∀ r, dump wellFormed [] = some r → ∃ maps, r = .ok h tocs maps) ∧
      ∃ more maps, dump wellFormed ([] ++ more) = some (.ok h tocs maps) :=
  ⟨_, _, dump_returns_ok_of_within (by rfl) (by rfl) (by decide) (by decide) (by decide) []⟩

end Cause

end PcpSpeed.Mmvdump
