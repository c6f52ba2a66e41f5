import PcpSpeed.Mmvdump.Goroutines

/-! `readComponents` and `Dump` as an interleaving of goroutines. After
`readHeader` and `readTocs`, `readComponents` calls `wg.Add(len(tocs))` and
starts one goroutine for each TOC entry whose type its `switch` knows; each
runs its `readX`, assigns the map result and then the error result to the named
results of `readComponents`, and calls `wg.Done()`. `Dump` returns once
`wg.Wait()` does. The goroutines are all present from the start: starting one
touches no shared state, so moving the starts first changes no outcome. A
schedule is a list of goroutine ids, `World.run` takes the steps it names, and
`dump data sched` is what `Dump` has returned after them, if anything. -/
namespace PcpSpeed.Mmvdump

/-- What a goroutine of `readComponents` does next. -/
inductive SectionPc where
  /-- About to call its `readX`: `wg.Add(int(count))`, then a goroutine per record. -/
  | start
  /-- Inside `readX`, whose goroutines run until its `wg.Wait()` returns. -/
  | reading (s : ReadState)
  /-- `readX` returned and its map is assigned; its error is next, then `wg.Done()`. -/
  | assigning (err : Option DumpError)
  /-- Called `wg.Done()`. -/
  | done

def SectionPc.isDone : SectionPc → Bool
  | .done => true
  | _ => false

/-- What `readComponents` hands the goroutine it starts for a TOC entry: the
section type its `switch` chose, `toc.Offset` and `toc.Count`. -/
structure SectionTask where
  kind : Section
  offset : BitVec 64
  count : BitVec 32
  deriving DecidableEq, Repr

namespace SectionTask

/-- The goroutine the `switch` of `readComponents` starts for a TOC entry, if
its type is one of the five. -/
def ofToc (toc : Toc) : Option SectionTask :=
  (Section.ofTocType toc.type).map fun kind => ⟨kind, toc.offset, toc.count⟩

/-- The offsets its `readX` starts record goroutines at. -/
def offsets (t : SectionTask) : List (BitVec 64) :=
  recordOffsets t.offset t.kind.length t.count.toInt.toNat

end SectionTask

/-- The `readX` each `case` of the `switch` of `readComponents` calls. -/
def Section.readX : Section → Bytes → BitVec 64 → BitVec 32 → ReadCall
  | .indoms => readInstanceDomains
  | .instances => readInstances
  | .metrics => readMetrics
  | .values => readValues
  | .strings => readStrings

/-- The `readX` call a goroutine of `readComponents` makes. -/
def SectionTask.call (data : Bytes) (t : SectionTask) : ReadCall :=
  t.kind.readX data t.offset t.count

@[simp] theorem SectionTask.call_read (data : Bytes) (t : SectionTask) :
    (t.call data).read = t.kind.read data := by
  obtain ⟨kind, offset, count⟩ := t
  cases kind <;> simp only [SectionTask.call, Section.readX, readInstanceDomains, readInstances,
    readMetrics, readValues, readStrings, readRecords, Section.read]

@[simp] theorem SectionTask.call_offsets (data : Bytes) (t : SectionTask) :
    (t.call data).offsets = t.offsets := by
  obtain ⟨kind, offset, count⟩ := t
  cases kind <;> simp only [SectionTask.call, Section.readX, readInstanceDomains, readInstances,
    readMetrics, readValues, readStrings, readRecords, SectionTask.offsets, Section.length]

/-- A goroutine of `readComponents`: its task and where it is. -/
structure SectionGoroutine where
  task : SectionTask
  pc : SectionPc

/-- A running `Dump` once `readComponents` has started its goroutines: those
goroutines, the counter of its `WaitGroup`, its ten named results, and the
panic that ended the program, if one did. -/
structure World where
  goroutines : List SectionGoroutine
  wg : Nat
  maps : Section → Option RecordMap
  errs : Section → Option DumpError
  panic : Option GoPanic

/-- Who takes the next step: goroutine `j` of `readComponents`, or goroutine `i`
of the `readX` it runs. -/
inductive Tid where
  | component (j : Nat)
  | record (j i : Nat)
  deriving DecidableEq, Repr

namespace World

/-- Right after `wg.Add(len(tocs))` and the `switch` of `readComponents`. -/
def init (tocs : List Toc) : World :=
  ⟨(tocs.filterMap SectionTask.ofToc).map (⟨·, .start⟩), tocs.length, fun _ => none, fun _ => none,
    none⟩

def setPc (w : World) (j : Nat) (g : SectionGoroutine) (pc : SectionPc) : World :=
  { w with goroutines := w.goroutines.set j { g with pc } }

@[simp] theorem setPc_goroutines (w : World) (j : Nat) (g : SectionGoroutine) (pc : SectionPc) :
    (w.setPc j g pc).goroutines = w.goroutines.set j { g with pc } := rfl

@[simp] theorem setPc_wg (w : World) (j : Nat) (g : SectionGoroutine) (pc : SectionPc) :
    (w.setPc j g pc).wg = w.wg := rfl

@[simp] theorem setPc_maps (w : World) (j : Nat) (g : SectionGoroutine) (pc : SectionPc) :
    (w.setPc j g pc).maps = w.maps := rfl

@[simp] theorem setPc_errs (w : World) (j : Nat) (g : SectionGoroutine) (pc : SectionPc) :
    (w.setPc j g pc).errs = w.errs := rfl

@[simp] theorem setPc_panic (w : World) (j : Nat) (g : SectionGoroutine) (pc : SectionPc) :
    (w.setPc j g pc).panic = w.panic := rfl

/-- One step of goroutine `j` of `readComponents`. -/
def stepComponent (data : Bytes) (w : World) (j : Nat) : World :=
  match w.goroutines[j]? with
  | none => w
  | some g =>
    match g.pc with
    | .start =>
      if g.task.count.toInt < 0 then { w with panic := some .negativeWaitGroupCounter }
      else w.setPc j g (.reading (ReadState.init (g.task.call data).offsets))
    | .reading s =>
      if s.finished then
        { w.setPc j g (.assigning s.err) with
          maps := Function.update w.maps g.task.kind (if s.err.isSome then none else some s.found) }
      else w
    | .assigning e =>
      if w.wg = 0 then { w with panic := some .negativeWaitGroupCounter }
      else { w.setPc j g .done with errs := Function.update w.errs g.task.kind e, wg := w.wg - 1 }
    | .done => w

/-- One step of goroutine `i` of the `readX` that goroutine `j` runs. -/
def stepRecord (data : Bytes) (w : World) (j i : Nat) : World :=
  match w.goroutines[j]? with
  | some g =>
    match g.pc with
    | .reading s =>
      match s.step (g.task.call data).read i with
      | .ok s' => w.setPc j g (.reading s')
      | .error p => { w with panic := some p }
    | _ => w
  | none => w

/-- One step of the goroutine the scheduler picks; nothing moves after a panic.
A pick that cannot move leaves the world as it is. -/
def step (data : Bytes) (w : World) : Tid → World
  | .component j => if w.panic.isSome then w else w.stepComponent data j
  | .record j i => if w.panic.isSome then w else w.stepRecord data j i

theorem step_component {w : World} (noPanic : w.panic = none) (data : Bytes) (j : Nat) :
    w.step data (.component j) = w.stepComponent data j := by
  simp [step, noPanic]

theorem step_record {w : World} (noPanic : w.panic = none) (data : Bytes) (j i : Nat) :
    w.step data (.record j i) = w.stepRecord data j i := by
  simp [step, noPanic]

/-- The steps of a schedule, in order. -/
def run (data : Bytes) (w : World) (sched : List Tid) : World :=
  sched.foldl (step data) w

theorem run_append (data : Bytes) (w : World) (sched more : List Tid) :
    w.run data (sched ++ more) = (w.run data sched).run data more :=
  List.foldl_append _ _ _ _

end World

/-- How `Dump` ends: its header, TOC and five maps, or an error, or a panic. -/
inductive DumpResult where
  | ok (h : Header) (tocs : List Toc) (maps : Section → Option RecordMap)
  | error (e : DumpError)
  | panic (p : GoPanic)

/-- The `switch` at the end of `Dump`: the first error among `ierr`, `inerr`,
`merr`, `verr` and `serr`. -/
def firstError (errs : Section → Option DumpError) : Option DumpError :=
  [Section.instances, .indoms, .metrics, .values, .strings].findSome? errs

/-- What `Dump` returns once `readComponents` has: the first error, or the
header, the TOC and the five maps. -/
def report (h : Header) (tocs : List Toc) (maps : Section → Option RecordMap)
    (errs : Section → Option DumpError) : DumpResult :=
  match firstError errs with
  | some e => .error e
  | none => .ok h tocs maps

theorem report_eq_ok {h h' : Header} {tocs tocs' : List Toc} {maps maps' : Section → Option RecordMap}
    {errs : Section → Option DumpError} :
    report h tocs maps errs = .ok h' tocs' maps' ↔
      firstError errs = none ∧ h = h' ∧ tocs = tocs' ∧ maps = maps' := by
  unfold report
  split <;> simp_all

/-- What `Dump` has returned in this world: the panic, or, once `wg.Wait()`
returns, its results; `none` while it waits. -/
def World.outcome (h : Header) (tocs : List Toc) (w : World) : Option DumpResult :=
  match w.panic with
  | some p => some (.panic p)
  | none => if w.wg = 0 then some (report h tocs w.maps w.errs) else none

/-- `Dump` under the schedule `sched`: `none` while it has not returned. -/
def dump (data : Bytes) (sched : List Tid) : Option DumpResult :=
  match readHeader data with
  | .error (.error e) => some (.error e)
  | .error (.panic p) => some (.panic p)
  | .ok h =>
    match readTocs data h.toc with
    | .error (.error e) => some (.error e)
    | .error (.panic p) => some (.panic p)
    | .ok tocs => ((World.init tocs).run data sched).outcome h tocs

/-! ## What a section's goroutine returns -/

section Results

variable {data : Bytes}

/-- Every record of the section fits, or the length check rejects one. -/
def Settled (data : Bytes) (t : SectionTask) : Prop :=
  (∀ o ∈ t.offsets, ∃ r, t.kind.read data o = .ok r) ∨
    ∃ o ∈ t.offsets, ∃ e, t.kind.read data o = .error (.error e)

/-- A section's records, each under its offset. -/
def sectionMap (data : Bytes) (t : SectionTask) : RecordMap :=
  fun k => if k ∈ t.offsets then (t.kind.read data k).toOption else none

/-- What a section's `readX` returns, when it returns: the map of its records
when every one fits, else the section's length error. -/
def sectionResult (data : Bytes) (t : SectionTask) : Option RecordMap × Option DumpError :=
  if t.offsets.all fun o => (t.kind.read data o).isOk then (some (sectionMap data t), none)
  else (none, some (.incomplete t.kind.recordName))

theorem Section.read_eq_error {s : Section} {o : BitVec 64} {e : DumpError}
    (rejected : s.read data o = .error (.error e)) : e = .incomplete s.recordName := by
  rw [Section.read_eq, readRecord_eq_error_iff (s.length_le.trans (by norm_num))] at rejected
  exact rejected.1

/-- Once its goroutines are done, `readX` returns the section's result, whatever
the order they ran in. -/
theorem finished_result {t : SectionTask} {s : ReadState}
    (inv : ReadInv (t.kind.read data) t.offsets s) (finished : s.finished = true) :
    Settled data t ∧ (if s.err.isSome then none else some s.found, s.err) = sectionResult data t := by
  rcases inv.result finished with ⟨noErr, fits, found⟩ | ⟨e, someErr, o, mem, rejected⟩
  · have all : (t.offsets.all fun o => (t.kind.read data o).isOk) = true := by
      simp only [List.all_eq_true]
      intro o mem
      obtain ⟨r, reads⟩ := fits o mem
      simp [reads, Except.isOk, Except.toBool]
    exact ⟨.inl fits, by simp only [sectionResult, all, noErr, found, ite_true]; rfl⟩
  · have notAll : (t.offsets.all fun o => (t.kind.read data o).isOk) = false := by
      simp only [List.all_eq_false]
      exact ⟨o, mem, by simp [rejected, Except.isOk, Except.toBool]⟩
    exact ⟨.inr ⟨o, mem, e, rejected⟩,
      by simp [sectionResult, notAll, someErr, Section.read_eq_error rejected]⟩

/-- A `readX` call whose `wg.Add(int(count))` accepts its count (a negative one
panics there, in `World.stepComponent`) starts `count` record goroutines, and
under every schedule that runs them all to `wg.Done()` returns the section's
result: the map of all its records when every one fits, its length error
otherwise. -/
theorem read_returns_sectionResult {t : SectionTask} {sched : List Nat} {s : ReadState}
    (added : 0 ≤ t.count.toInt) (ran : (ReadState.init t.offsets).run (t.kind.read data) sched = .ok s)
    (finished : s.finished = true) :
    (s.records.length : Int) = t.count.toInt ∧
      (if s.err.isSome then none else some s.found, s.err) = sectionResult data t := by
  have inv := ReadInv.init.run ran
  refine ⟨?_, (finished_result inv finished).2⟩
  rw [← List.length_map s.records (·.offset), inv.offsets_eq, SectionTask.offsets, length_recordOffsets,
    Int.toNat_of_nonneg added]

/-- Two values records, the second of which runs past the end of a 48-byte
slice, read by the second goroutine first. -/
theorem values_read_in_reverse :
    0 ≤ (SectionTask.mk .values 0 2).count.toInt ∧
      ∃ s, (ReadState.init (SectionTask.offsets ⟨.values, 0, 2⟩)).run
        (Section.values.read ⟨List.replicate 48 0, by simp⟩) [1, 1, 0] = .ok s ∧ s.finished = true ∧
      (s.records.length : Int) = (SectionTask.mk .values 0 2).count.toInt ∧
      (if s.err.isSome then none else some s.found, s.err) =
        sectionResult ⟨List.replicate 48 0, by simp⟩ ⟨.values, 0, 2⟩ := by
  have ran : (ReadState.init (SectionTask.offsets ⟨.values, 0, 2⟩)).run
      (Section.values.read ⟨List.replicate 48 0, by simp⟩) [1, 1, 0] = .ok _ := rfl
  have added : 0 ≤ (SectionTask.mk .values 0 2).count.toInt := by decide
  exact ⟨added, _, ran, rfl, read_returns_sectionResult added ran rfl⟩

theorem Section.read_eq_ok_iff {s : Section} {o : BitVec 64} {r : List UInt8} :
    s.read data o = .ok r ↔ o.toNat + s.length ≤ data.len ∧ r = data.view o.toNat s.length := by
  rw [Section.read_eq, readRecord_eq_ok_iff s.length_pos (s.length_le.trans (by norm_num))]

/-- A section whose records lie, in exact arithmetic, within `n < 2^64` bytes
reads each of them within those bytes: no offset wraps. -/
theorem SectionTask.end_le_of_within {t : SectionTask} {n : Nat} (small : n < 2 ^ 64)
    (within : ∀ i < t.count.toInt.toNat, t.offset.toNat + i * t.kind.length + t.kind.length ≤ n)
    {o : BitVec 64} (mem : o ∈ t.offsets) : o.toNat + t.kind.length ≤ n := by
  obtain ⟨i, counted, at_i⟩ := mem_recordOffsets.mp mem
  have fits := within i counted
  rw [at_i, Nat.mod_eq_of_lt (by omega)]
  omega

/-- A record read panics only at an offset whose end wraps past `2^64` to a
value the length check lets through, and names that offset. -/
theorem Section.read_eq_panic {s : Section} {o : BitVec 64} {p : GoPanic}
    (panicked : s.read data o = .error (.panic p)) :
    2 ^ 64 ≤ o.toNat + s.length ∧ o.toNat + s.length - 2 ^ 64 ≤ data.len ∧
      p = .indexOutOfRange o.toNat data.len := by
  have := s.length_pos
  have := s.length_le
  rw [Section.read_eq, readRecord_exact (s.length_le.trans_lt (by norm_num))] at panicked
  split at panicked
  · cases panicked
  · split at panicked
    · cases panicked
    · cases panicked
      exact ⟨by omega, by omega, rfl⟩

theorem firstError_eq_none {errs : Section → Option DumpError} :
    firstError errs = none ↔ ∀ S, errs S = none := by
  rw [firstError, List.findSome?_eq_none_iff]
  exact ⟨fun none' S => none' S (by cases S <;> decide), fun none' S _ => none' S⟩

private theorem isOk_iff {x : Except Failure (List UInt8)} : x.isOk = true ↔ ∃ r, x = .ok r := by
  cases x <;> simp [Except.isOk, Except.toBool]

/-- A section's `readX` returns no error exactly when every record fits. -/
theorem sectionResult_snd_eq_none {t : SectionTask} :
    (sectionResult data t).2 = none ↔ ∀ o ∈ t.offsets, ∃ r, t.kind.read data o = .ok r := by
  unfold sectionResult
  split
  · rename_i all
    simp only [List.all_eq_true, isOk_iff] at all
    simpa using all
  · rename_i notAll
    simp only [List.all_eq_true, isOk_iff] at notAll
    simpa using notAll

/-- Then its map holds exactly the records at `offset + i*L` for `i` below the
count, in exact arithmetic, each the bytes it occupies inside the slice. -/
theorem sectionResult_records {t : SectionTask} (noErr : (sectionResult data t).2 = none) :
    (∀ i < t.count.toInt.toNat, t.offset.toNat + i * t.kind.length + t.kind.length ≤ data.len) ∧
      ∃ m, (sectionResult data t).1 = some m ∧
        (∀ k, (m k).isSome ↔ ∃ i < t.count.toInt.toNat, k.toNat = t.offset.toNat + i * t.kind.length) ∧
        ∀ k record, m k = some record →
          k.toNat + t.kind.length ≤ data.len ∧ record = data.view k.toNat t.kind.length := by
  have fits := sectionResult_snd_eq_none.mp noErr
  have inside : ∀ o ∈ t.offsets, o.toNat + t.kind.length ≤ data.len := fun o mem => by
    obtain ⟨r, reads⟩ := fits o mem
    exact (Section.read_eq_ok_iff.mp reads).1
  have small : data.len < 2 ^ 64 := by have := data.len_lt_two_pow; omega
  have all : (t.offsets.all fun o => (t.kind.read data o).isOk) = true := by
    simpa only [List.all_eq_true, isOk_iff] using fits
  refine ⟨fun i lt => add_mul_le_of_recordOffsets small inside i lt, sectionMap data t,
    by simp only [sectionResult, all, ite_true], fun k => ?_, fun k record found => ?_⟩
  · rw [← mem_recordOffsets_iff small inside]
    unfold sectionMap
    split
    · obtain ⟨r, reads⟩ := fits k ‹_›
      simp only [reads, Except.toOption, Option.isSome_some, true_iff]
      assumption
    · simpa
  · unfold sectionMap at found
    split at found
    · obtain ⟨r, reads⟩ := fits k ‹_›
      rw [reads] at found
      cases found
      exact Section.read_eq_ok_iff.mp reads
    · cases found

end Results

end PcpSpeed.Mmvdump
