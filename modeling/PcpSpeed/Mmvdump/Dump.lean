import PcpSpeed.Mmvdump.Interleavings

/-! What `Dump` returns, over every schedule of the goroutines of
`readComponents`. Once `readHeader` and `readTocs` succeed, `dump_returned`
reads the run's outcome off `WorldInv`: a panic `PanicCause` names, or, with
every TOC type known and every section settled, the report of the ten results.
From it: the header `Dump` accepts passed the magic and generation checks and
nothing else (`dump_ok_header`); with one TOC entry per section type, `Dump`
returns what the sequential decode does unless it panics
(`dump_eq_sequentialDump`), and its maps hold exactly the records the TOC
describes (`dump_ok_records`); a TOC entry of a type the `switch` does not know
keeps `wg.Wait()` from ever returning. -/
namespace PcpSpeed.Mmvdump

/-- Modelled from the spec: `Dump` with `readComponents` run as the sequential
decode the spec holds it to. -/
def sequentialDump (data : Bytes) : DumpResult :=
  match readHeader data with
  | .error (.error e) => .error e
  | .error (.panic p) => .panic p
  | .ok h =>
    match readTocs data h.toc with
    | .error (.error e) => .error e
    | .error (.panic p) => .panic p
    | .ok tocs =>
      let results := sequentialResults data (tocs.filterMap SectionTask.ofToc)
      report h tocs (fun S => (results S).1) fun S => (results S).2

/-- The 40 bytes of a header with magic `"MMV"`, the given version, generations
and TOC count, and zero flags, process and cluster; the slices below are built
from it and from `tocBytes`. -/
def headerBytes (version g1 g2 toc : Nat) : List UInt8 :=
  mmvMagic ++ [0] ++ leBytes 4 version ++ leBytes 8 g1 ++ leBytes 8 g2 ++ leBytes 4 toc ++ leBytes 12 0

/-- The 16 bytes of a TOC entry. -/
def tocBytes (type count offset : Nat) : List UInt8 :=
  leBytes 4 type ++ leBytes 4 count ++ leBytes 8 offset

section Outcomes

variable {data : Bytes} {sched : List Tid} {h : Header} {tocs : List Toc} {r : DumpResult}

theorem dump_of_readTocs (header : readHeader data = .ok h) (read : readTocs data h.toc = .ok tocs) :
    dump data sched = ((World.init tocs).run data sched).outcome h tocs := by
  simp only [dump, header, read]

theorem sequentialDump_of_readTocs (header : readHeader data = .ok h)
    (read : readTocs data h.toc = .ok tocs) :
    sequentialDump data =
      report h tocs (fun S => (sequentialResults data (tocs.filterMap SectionTask.ofToc) S).1)
        fun S => (sequentialResults data (tocs.filterMap SectionTask.ofToc) S).2 := by
  simp only [sequentialDump, header, read]

/-- What `Dump` can have returned once `readTocs` succeeded: a panic with a
cause `PanicCause` names, or, with no TOC type unknown and every section settled
under a count `wg.Add` accepted, the report of a world whose counter is back at
zero. -/
theorem dump_returned (header : readHeader data = .ok h) (read : readTocs data h.toc = .ok tocs)
    (returned : dump data sched = some r) :
    (∃ p, r = .panic p ∧ PanicCause data tocs p) ∨
      unknownTocs tocs = 0 ∧ (∀ t ∈ tocs.filterMap SectionTask.ofToc, 0 ≤ t.count.toInt ∧ Settled data t) ∧
        ∃ w, WorldInv data tocs w ∧ w.wg = 0 ∧ r = report h tocs w.maps w.errs := by
  have inv : WorldInv data tocs ((World.init tocs).run data sched) := WorldInv.init.run sched
  rw [dump_of_readTocs header read, World.outcome] at returned
  split at returned
  · cases returned
    exact .inl ⟨_, rfl, inv.panic_cause _ ‹_›⟩
  · split at returned
    · cases returned
      exact .inr ⟨(inv.returned ‹_›).1, inv.returned_settled ‹_›, _, inv, ‹_›, rfl⟩
    · cases returned

/-- A dump `Dump` accepts comes from the header and TOC it read and a world
whose counter is back at zero with no error assigned. -/
theorem dump_eq_ok {maps : Section → Option RecordMap}
    (ok : dump data sched = some (.ok h tocs maps)) :
    readHeader data = .ok h ∧ readTocs data h.toc = .ok tocs ∧
      ∃ w, WorldInv data tocs w ∧ w.wg = 0 ∧ firstError w.errs = none ∧ w.maps = maps := by
  cases header : readHeader data with
  | error f => cases f <;> simp [dump, header] at ok
  | ok h' =>
    cases read : readTocs data h'.toc with
    | error f => cases f <;> simp [dump, header, read] at ok
    | ok tocs' =>
      obtain ⟨p, same, -⟩ | ⟨-, -, w, inv, waited, reported⟩ := dump_returned header read ok
      · cases same
      · obtain ⟨noErr, rfl, rfl, rfl⟩ := report_eq_ok.mp reported.symm
        exact ⟨rfl, read, w, inv, waited, noErr, rfl⟩

/-- A section that cannot settle under a count `wg.Add` accepts leaves `Dump`
no way to return but a panic. -/
theorem dump_panics_of_unsettled (header : readHeader data = .ok h)
    (read : readTocs data h.toc = .ok tocs) {t : SectionTask} (mem : t ∈ tocs.filterMap SectionTask.ofToc)
    (unsettled : ¬(0 ≤ t.count.toInt ∧ Settled data t)) (returned : dump data sched = some r) :
    ∃ p, r = .panic p ∧ PanicCause data tocs p :=
  (dump_returned header read returned).resolve_right fun ⟨_, settled, _⟩ => unsettled (settled t mem)

/-- With one TOC entry, of a known type whose section cannot settle, `Dump`
returns nothing but a panic of that entry's goroutine. -/
private theorem dump_single_panics {toc : Toc} {t : SectionTask} (header : readHeader data = .ok h)
    (read : readTocs data h.toc = .ok [toc]) (task : SectionTask.ofToc toc = some t)
    (unsettled : ¬(0 ≤ t.count.toInt ∧ Settled data t)) (returned : dump data sched = some r) :
    ∃ p, r = .panic p ∧ ((p = .negativeWaitGroupCounter ∧ t.count.toInt < 0) ∨
      ∃ o ∈ t.offsets, t.kind.read data o = .error (.panic p)) := by
  have tasks : [toc].filterMap SectionTask.ofToc = [t] := by simp [task]
  obtain ⟨p, rfl, t', mem, cause⟩ :=
    dump_panics_of_unsettled header read (tasks ▸ List.mem_singleton_self t) unsettled returned
  rw [tasks, List.mem_singleton] at mem
  exact ⟨p, rfl, mem ▸ cause⟩

end Outcomes

/-! ## What `Dump` accepts -/

section Accepted

variable {data : Bytes} {sched : List Tid} {h : Header} {tocs : List Toc}
  {maps : Section → Option RecordMap}

/-- **`Dump` checks the header's length, magic and `G1 = G2`, and nothing else.**
The header of every dump `Dump` accepts lies inside the slice and passed the
magic and generation checks; and every slice of at least `HeaderLength` bytes
whose magic is `"MMV"` and whose `G1 = G2` passes `readHeader` with the header
those bytes hold, whatever its version and even with both generations zero, so
that `Dump` goes on to its TOC and sections with that header. -/
theorem dump_ok_header :
    (∀ {data : Bytes} {sched : List Tid} {h : Header} {tocs : List Toc}
        {maps : Section → Option RecordMap},
      dump data sched = some (.ok h tocs maps) →
        headerLength ≤ data.len ∧ h = Header.ofBytes (data.view 0 headerLength) ∧
          h.magic.take 3 = mmvMagic ∧ h.g1 = h.g2) ∧
      ∀ data : Bytes, headerLength ≤ data.len →
        let h := Header.ofBytes (data.view 0 headerLength)
        h.magic.take 3 = mmvMagic → h.g1 = h.g2 →
          readHeader data = .ok h ∧ ∀ tocs, readTocs data h.toc = .ok tocs →
            ∀ sched, dump data sched = ((World.init tocs).run data sched).outcome h tocs := by
  refine ⟨fun ok => readHeader_eq_ok_iff.mp (dump_eq_ok ok).1, ?_⟩
  intro data long h magic same
  have header : readHeader data = .ok h := readHeader_eq_ok_iff.mpr ⟨long, rfl, magic, same⟩
  exact ⟨header, fun tocs read sched => dump_of_readTocs header read⟩

/-- An instances entry and a values entry, one record each, laid out after the
TOC, with every record inside the slice. -/
def wellFormed : Bytes :=
  ⟨headerBytes 1 1 1 2 ++ tocBytes 2 1 72 ++ tocBytes 4 1 152 ++ List.replicate 112 0, by
    set_option maxRecDepth 4000 in decide⟩

/-- Each section goroutine of `wellFormed` in turn, run to its `wg.Done()`. -/
def wellFormedSchedule : List Tid :=
  [.component 0, .record 0 0, .record 0 0, .component 0, .component 0,
    .component 1, .record 1 0, .record 1 0, .component 1, .component 1]

/-- A header whose generation is still zero, with version 2. -/
def zeroGeneration : Bytes := ⟨headerBytes 2 0 0 0, by decide⟩

set_option maxRecDepth 20000 in
/-- `wellFormed`, accepted under its schedule, and `zeroGeneration`, whose header
passes `readHeader`. -/
theorem wellFormed_header :
    (∃ h tocs maps, dump wellFormed wellFormedSchedule = some (.ok h tocs maps) ∧
      headerLength ≤ wellFormed.len ∧ h = Header.ofBytes (wellFormed.view 0 headerLength) ∧
      h.magic.take 3 = mmvMagic ∧ h.g1 = h.g2) ∧
      readHeader zeroGeneration = .ok (Header.ofBytes (zeroGeneration.view 0 headerLength)) :=
  ⟨⟨_, _, _, rfl, dump_ok_header.1 (show dump wellFormed wellFormedSchedule = _ from rfl)⟩,
    (dump_ok_header.2 zeroGeneration (by decide) rfl rfl).1⟩

/-- `Dump` accepts `zeroGeneration`: neither the zero generation nor the unknown
version is an error. -/
theorem dump_accepts_zero_generation :
    ∃ h tocs maps, dump zeroGeneration [] = some (.ok h tocs maps) ∧ h.version = 2 ∧ h.g1 = 0 :=
  ⟨_, _, _, rfl, rfl, rfl⟩

/-- With one TOC entry per section type, a dump `Dump` accepts under any
schedule holds the `h.Toc` TOC entries read after the header, and for each
entry of a known type `S` a map whose keys are exactly `offset + i*L_S` for `i`
below the count, in exact arithmetic, each bound to the record it starts, inside
the slice. -/
theorem dump_ok_records (ok : dump data sched = some (.ok h tocs maps))
    (distinct : (tocs.map (·.type)).Nodup) :
    headerLength ≤ data.len ∧ (tocs.length : Int) = h.toc.toInt ∧
      (∀ i (lt : i < tocs.length),
        headerLength + i * tocLength + tocLength ≤ data.len ∧ tocs[i] = tocAt data i) ∧
      ∀ toc ∈ tocs, ∀ S, Section.ofTocType toc.type = some S →
        (∀ i : Nat, (i : Int) < toc.count.toInt →
          toc.offset.toNat + i * S.length + S.length ≤ data.len) ∧
        ∃ m, maps S = some m ∧
          (∀ k, (m k).isSome ↔
            ∃ i : Nat, (i : Int) < toc.count.toInt ∧ k.toNat = toc.offset.toNat + i * S.length) ∧
          ∀ k record, m k = some record →
            k.toNat + S.length ≤ data.len ∧ record = data.view k.toNat S.length := by
  obtain ⟨header, read, w, inv, waited, noErr, rfl⟩ := dump_eq_ok ok
  obtain ⟨nonneg, fits, rfl⟩ := readTocs_eq_ok_iff.mp read
  refine ⟨(readHeader_eq_ok_iff.mp header).1, by simp [Int.toNat_of_nonneg nonneg],
    fun i lt => ⟨fits i (by simpa using lt), by simp⟩, fun toc _ S selects => ?_⟩
  have kinds := distinct_of_nodup_types distinct
  have task : (⟨S, toc.offset, toc.count⟩ : SectionTask) ∈
      ((List.range h.toc.toInt.toNat).map (tocAt data)).filterMap SectionTask.ofToc :=
    List.mem_filterMap.mpr ⟨toc, ‹_›, by simp [SectionTask.ofToc, selects]⟩
  have vars := inv.returned_vars kinds waited S
  rw [sequentialResults, foldl_sequentialStep_of_mem kinds _ task] at vars
  obtain ⟨inside, m, result, keys, records⟩ :=
    sectionResult_records (by rw [← vars]; exact firstError_eq_none.mp noErr S)
  dsimp only at inside keys
  refine ⟨fun i lt => inside i (by omega), m, by rw [← result, ← vars], fun k => ?_, records⟩
  rw [keys k]
  exact exists_congr fun i => and_congr_left fun _ => by omega

set_option maxRecDepth 20000 in
theorem wellFormed_records :
    ∃ h tocs maps, dump wellFormed wellFormedSchedule = some (.ok h tocs maps) ∧
      (tocs.map (·.type)).Nodup ∧
      headerLength ≤ wellFormed.len ∧ (tocs.length : Int) = h.toc.toInt ∧
      (∀ i (lt : i < tocs.length),
        headerLength + i * tocLength + tocLength ≤ wellFormed.len ∧ tocs[i] = tocAt wellFormed i) ∧
      ∀ toc ∈ tocs, ∀ S, Section.ofTocType toc.type = some S →
        (∀ i : Nat, (i : Int) < toc.count.toInt →
          toc.offset.toNat + i * S.length + S.length ≤ wellFormed.len) ∧
        ∃ m, maps S = some m ∧
          (∀ k, (m k).isSome ↔
            ∃ i : Nat, (i : Int) < toc.count.toInt ∧ k.toNat = toc.offset.toNat + i * S.length) ∧
          ∀ k record, m k = some record →
            k.toNat + S.length ≤ wellFormed.len ∧ record = wellFormed.view k.toNat S.length :=
  ⟨_, _, _, rfl, by decide,
    dump_ok_records (show dump wellFormed wellFormedSchedule = _ from rfl) (by decide)⟩

/-- With one TOC entry per section type, every schedule under which `Dump`
returns without panicking returns what the sequential decode does. -/
theorem dump_eq_sequentialDump {r : DumpResult} (header : readHeader data = .ok h)
    (read : readTocs data h.toc = .ok tocs) (distinct : (tocs.map (·.type)).Nodup)
    (returned : dump data sched = some r) (noPanic : ∀ p, r ≠ .panic p) : r = sequentialDump data := by
  rw [sequentialDump_of_readTocs header read]
  obtain ⟨p, rfl, -⟩ | ⟨-, -, w, inv, waited, rfl⟩ := dump_returned header read returned
  · exact absurd rfl (noPanic p)
  · have vars := inv.returned_vars (distinct_of_nodup_types distinct) waited
    congr <;> funext S <;> rw [← vars S]

set_option maxRecDepth 20000 in
theorem wellFormed_sequential :
    ∃ r, dump wellFormed wellFormedSchedule = some r ∧ r = sequentialDump wellFormed :=
  ⟨_, rfl, dump_eq_sequentialDump (by rfl) (by rfl) (by decide)
    (show dump wellFormed wellFormedSchedule = _ from rfl) fun _ same => by cases same⟩

/-- Two instances entries: one with no records, and one whose record lies past
the end of the slice. -/
def repeatedType : Bytes := ⟨headerBytes 1 1 1 2 ++ tocBytes 2 0 0 ++ tocBytes 2 1 1000, by decide⟩

/-- With a section type listed twice, the outcome depends on the schedule: run
in TOC order, the goroutines leave the second entry's error, as the sequential
decode does; run in the other order, they leave the first entry's empty map and
nil error, and `Dump` succeeds. -/
theorem dump_depends_on_schedule :
    sequentialDump repeatedType = .error (.incomplete "Instance") ∧
      dump repeatedType [.component 0, .component 0, .component 0, .component 1, .record 1 0,
        .record 1 0, .component 1, .component 1] = some (.error (.incomplete "Instance")) ∧
      ∃ h tocs maps, dump repeatedType [.component 1, .record 1 0, .record 1 0, .component 1,
        .component 1, .component 0, .component 0, .component 0] = some (.ok h tocs maps) :=
  ⟨rfl, rfl, _, _, _, rfl⟩

/-- Every panic of `Dump` comes from an adversarial field: a negative TOC count
in the header, a negative count in a TOC entry of a known type, or a record
offset whose end wraps past `2^64` to a value the length check lets through. -/
theorem dump_panic_cause {p : GoPanic} (panicked : dump data sched = some (.panic p)) :
    ∃ h, readHeader data = .ok h ∧
      (h.toc.toInt < 0 ∧ p = .makesliceLenOutOfRange ∨
        ∃ tocs, readTocs data h.toc = .ok tocs ∧ ∃ t ∈ tocs.filterMap SectionTask.ofToc,
          t.count.toInt < 0 ∧ p = .negativeWaitGroupCounter ∨
            ∃ o ∈ t.offsets, 2 ^ 64 ≤ o.toNat + t.kind.length ∧
              o.toNat + t.kind.length - 2 ^ 64 ≤ data.len ∧ p = .indexOutOfRange o.toNat data.len) := by
  cases header : readHeader data with
  | error f =>
    cases f with
    | error e => simp [dump, header] at panicked
    | panic q => exact absurd header (readHeader_ne_panic q)
  | ok h =>
    refine ⟨h, rfl, ?_⟩
    cases read : readTocs data h.toc with
    | error f =>
      cases f with
      | error e => simp [dump, header, read] at panicked
      | panic q =>
        simp only [dump, header, read, Option.some.injEq, DumpResult.panic.injEq] at panicked
        exact .inl (readTocs_panics_iff.mp (panicked ▸ read))
    | ok tocs =>
      obtain ⟨q, same, t, mem, cause⟩ | ⟨-, -, w, -, -, reported⟩ := dump_returned header read panicked
      · cases same
        refine .inr ⟨tocs, rfl, t, mem, ?_⟩
        rcases cause with ⟨rfl, negative⟩ | ⟨o, member, reads⟩
        · exact .inl ⟨negative, rfl⟩
        · exact .inr ⟨o, member, Section.read_eq_panic reads⟩
      · unfold report at reported
        split at reported <;> cases reported

/-- An instances entry whose count is `-1`. -/
def negativeCount : Bytes := ⟨headerBytes 1 1 1 1 ++ tocBytes 2 (2 ^ 32 - 1) 0, by decide⟩

theorem negativeCount_panic_cause :
    ∃ h, readHeader negativeCount = .ok h ∧
      (h.toc.toInt < 0 ∧ GoPanic.negativeWaitGroupCounter = .makesliceLenOutOfRange ∨
        ∃ tocs, readTocs negativeCount h.toc = .ok tocs ∧ ∃ t ∈ tocs.filterMap SectionTask.ofToc,
          t.count.toInt < 0 ∧ GoPanic.negativeWaitGroupCounter = .negativeWaitGroupCounter ∨
            ∃ o ∈ t.offsets, 2 ^ 64 ≤ o.toNat + t.kind.length ∧
              o.toNat + t.kind.length - 2 ^ 64 ≤ negativeCount.len ∧
              GoPanic.negativeWaitGroupCounter = .indexOutOfRange o.toNat negativeCount.len) :=
  dump_panic_cause (show dump negativeCount [.component 0] = _ from rfl)

/-- A header whose TOC count is `-1`. -/
def negativeTocCount : Bytes := ⟨headerBytes 1 1 1 (2 ^ 32 - 1), by decide⟩

/-- A values entry whose one record starts at `2^64 - 1`: its end wraps to 31,
inside the 56-byte slice. -/
def wrappingOffset : Bytes := ⟨headerBytes 1 1 1 1 ++ tocBytes 4 1 (2 ^ 64 - 1), by decide⟩

/-- `Dump` panics on each: the `make` of `readTocs` on `negativeTocCount`, the
`wg.Add` of `readInstances` on `negativeCount`, and `&data[offset]` in
`readValue` on `wrappingOffset`; under no schedule does it return otherwise. -/
theorem dump_panics_on_adversarial_fields :
    (∀ sched, dump negativeTocCount sched = some (.panic .makesliceLenOutOfRange)) ∧
      (∀ sched, dump negativeCount sched = none ∨
        dump negativeCount sched = some (.panic .negativeWaitGroupCounter)) ∧
      dump negativeCount [.component 0] = some (.panic .negativeWaitGroupCounter) ∧
      (∀ sched, dump wrappingOffset sched = none ∨
        dump wrappingOffset sched = some (.panic (.indexOutOfRange (2 ^ 64 - 1) 56))) ∧
      dump wrappingOffset [.component 0, .record 0 0] =
        some (.panic (.indexOutOfRange (2 ^ 64 - 1) 56)) := by
  refine ⟨fun _ => rfl, fun sched => ?_, rfl, fun sched => ?_, rfl⟩
  · cases returned : dump negativeCount sched with
    | none => exact .inl rfl
    | some r =>
      have read : readTocs negativeCount (Header.ofBytes (negativeCount.view 0 headerLength)).toc =
          .ok [tocAt negativeCount 0] := rfl
      obtain ⟨p, rfl, ⟨rfl, -⟩ | ⟨o, mem, -⟩⟩ := dump_single_panics (t := ⟨.instances, 0, -1⟩) (by rfl)
        read (by decide) (fun settled => absurd settled.1 (by decide)) returned
      · exact .inr rfl
      · cases mem
  · cases returned : dump wrappingOffset sched with
    | none => exact .inl rfl
    | some r =>
      have read : readTocs wrappingOffset (Header.ofBytes (wrappingOffset.view 0 headerLength)).toc =
          .ok [tocAt wrappingOffset 0] := rfl
      have reads : Section.values.read wrappingOffset (-1) =
          .error (.panic (.indexOutOfRange (2 ^ 64 - 1) 56)) := rfl
      have unsettled : ¬Settled wrappingOffset ⟨.values, -1, 1⟩ := by
        rintro (fits | ⟨o, mem, e, rejected⟩)
        · obtain ⟨r, fits⟩ := fits (-1) (List.mem_singleton_self _)
          rw [reads] at fits
          cases fits
        · rw [List.mem_singleton.mp mem, reads] at rejected
          cases rejected
      obtain ⟨p, rfl, ⟨-, negative⟩ | ⟨o, mem, panics⟩⟩ := dump_single_panics (by rfl) read
        (by decide) (fun settled => unsettled settled.2) returned
      · exact absurd negative (by decide)
      · rw [List.mem_singleton.mp mem, reads] at panics
        cases panics
        exact .inr rfl

/-- A TOC entry of a type the `switch` does not know keeps `wg.Wait()` from
returning: whatever the schedule, `Dump` has not returned, or has panicked. -/
theorem dump_never_returns_on_unknown_type (header : readHeader data = .ok h)
    (read : readTocs data h.toc = .ok tocs) (unknown : ∃ toc ∈ tocs, Section.ofTocType toc.type = none)
    (sched : List Tid) : dump data sched = none ∨ ∃ p, dump data sched = some (.panic p) := by
  obtain ⟨toc, mem, none'⟩ := unknown
  have waiting : 0 < ((World.init tocs).run data sched).wg :=
    run_wg_pos (List.countP_pos_iff.mpr ⟨toc, mem, by simp [SectionTask.ofToc, none']⟩) sched
  rw [dump_of_readTocs header read, World.outcome]
  split
  · exact .inr ⟨_, rfl⟩
  · rw [if_neg (by omega)]
    exact .inl rfl

/-- The `switch` of `readComponents` knows every TOC type: no entry is left
without a goroutine. -/
theorem unknownTocs_eq_zero (known : ∀ toc ∈ tocs, (Section.ofTocType toc.type).isSome) :
    unknownTocs tocs = 0 :=
  List.countP_eq_zero.mpr fun toc mem => by
    have := known toc mem
    cases selects : Section.ofTocType toc.type with
    | none => simp [selects] at this
    | some S => simp [SectionTask.ofToc, selects]

/-- When every TOC entry has a goroutine, every schedule can be continued until
`Dump` has returned: each goroutine can be run to `wg.Done()` or to a panic. -/
theorem exists_dump_isSome (header : readHeader data = .ok h) (read : readTocs data h.toc = .ok tocs)
    (none' : unknownTocs tocs = 0) (sched : List Tid) : ∃ more, (dump data (sched ++ more)).isSome := by
  have inv : WorldInv data tocs ((World.init tocs).run data sched) := WorldInv.init.run sched
  obtain ⟨more, reached⟩ := inv.can_finish
  refine ⟨more, ?_⟩
  rw [dump_of_readTocs header read, World.run_append, World.outcome]
  split
  · rfl
  · rename_i noPanic
    rcases reached with panicked | finished
    · simp [noPanic] at panicked
    · have waited : ((World.init tocs).run data sched |>.run data more).wg = 0 := by
        rw [(inv.run more).wg_eq, none', List.countP_eq_zero.mpr fun g mem => by simp [finished g mem]]
      simp [waited]

/-- With every TOC type known, `Dump` can always still return: whatever part of
a schedule has run, some continuation of it makes `Dump` return. -/
theorem dump_can_return (header : readHeader data = .ok h) (read : readTocs data h.toc = .ok tocs)
    (known : ∀ toc ∈ tocs, (Section.ofTocType toc.type).isSome) (sched : List Tid) :
    ∃ more, (dump data (sched ++ more)).isSome :=
  exists_dump_isSome header read (unknownTocs_eq_zero known) sched

set_option maxRecDepth 20000 in
theorem wellFormed_can_return : ∃ more, (dump wellFormed ([] ++ more)).isSome :=
  dump_can_return (by rfl) (by rfl) (by decide) []

/-- A TOC entry of type 0, which no `case` of the `switch` names. -/
def unknownTocType : Bytes := ⟨headerBytes 1 1 1 1 ++ tocBytes 0 0 0, by decide⟩

theorem unknownTocType_never_returns :
    dump unknownTocType [.component 0] = none ∨ ∃ p, dump unknownTocType [.component 0] = some (.panic p) :=
  dump_never_returns_on_unknown_type (by rfl) (by rfl) ⟨_, List.mem_singleton_self _, by decide⟩ _

end Accepted

end PcpSpeed.Mmvdump
