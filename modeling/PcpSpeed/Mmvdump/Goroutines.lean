import PcpSpeed.Mmvdump.Format

/-! The goroutines one `readX` call starts. `readInstances`,
`readInstanceDomains`, `readMetrics`, `readValues` and `readStrings` share
one body (`readRecords`): a goroutine per record, each testing the shared
`err`, reading its record, and then storing the record in the map under the
mutex or the error in `err`, and calling `wg.Done()`. A step of a goroutine is
one access to that shared state. `ReadInv` holds along every interleaving
(`ReadInv.step`, `ReadInv.run`); from it, once every goroutine is done, `readX`
holds the map of all its records when every one fits, and otherwise the error
of a record that does not (`ReadInv.result`). While one is not done, some
goroutine can move (`ReadState.exists_step`). -/
namespace PcpSpeed.Mmvdump

/-- A `map[uint64]*T` of `readX`: the record each offset points at. -/
abbrev RecordMap := BitVec 64 → Option (List UInt8)

/-- The offsets `readX` hands its goroutines: `offset` advanced by the record
length in `uint64` arithmetic. -/
def recordOffsets (offset : BitVec 64) (length : Nat) : Nat → List (BitVec 64)
  | 0 => []
  | n + 1 => offset :: recordOffsets (offset + BitVec.ofNat 64 length) length n

@[simp] theorem length_recordOffsets (offset : BitVec 64) (length n : Nat) :
    (recordOffsets offset length n).length = n := by
  induction n generalizing offset <;> simp [recordOffsets, *]

/-- The `i`-th offset is `offset + i*length`, wrapped to 64 bits. -/
theorem mem_recordOffsets {offset : BitVec 64} {length n : Nat} {k : BitVec 64} :
    k ∈ recordOffsets offset length n ↔ ∃ i < n, k.toNat = (offset.toNat + i * length) % 2 ^ 64 := by
  induction n generalizing offset with
  | zero => simp [recordOffsets]
  | succ n ih =>
    have next : (offset + BitVec.ofNat 64 length).toNat = (offset.toNat + length) % 2 ^ 64 := by
      rw [BitVec.toNat_add, BitVec.toNat_ofNat, Nat.add_mod_mod]
    have := offset.isLt
    rw [recordOffsets, List.mem_cons, ih, next, BitVec.toNat_eq]
    constructor
    · rintro (same | ⟨i, lt, eq⟩)
      · exact ⟨0, by omega, by omega⟩
      · exact ⟨i + 1, by omega, by rw [eq, Nat.succ_mul]; omega⟩
    · rintro ⟨i, lt, eq⟩
      cases i with
      | zero => exact .inl (by omega)
      | succ i => exact .inr ⟨i, by omega, by rw [eq, Nat.succ_mul]; omega⟩

/-- Offsets whose records all end by `bound < 2^64` never wrap: they are
`offset + i*length` in exact arithmetic. -/
theorem mem_recordOffsets_iff {offset : BitVec 64} {length n bound : Nat} (small : bound < 2 ^ 64)
    (inside : ∀ o ∈ recordOffsets offset length n, o.toNat + length ≤ bound) {k : BitVec 64} :
    k ∈ recordOffsets offset length n ↔ ∃ i < n, k.toNat = offset.toNat + i * length := by
  induction n generalizing offset with
  | zero => simp [recordOffsets]
  | succ n ih =>
    have first : offset.toNat + length ≤ bound := inside offset (List.mem_cons_self _ _)
    have next : (offset + BitVec.ofNat 64 length).toNat = offset.toNat + length := by
      rw [BitVec.toNat_add, BitVec.toNat_ofNat]; omega
    rw [recordOffsets, List.mem_cons, ih fun o mem => inside o (List.mem_cons_of_mem _ mem), next,
      BitVec.toNat_eq]
    constructor
    · rintro (same | ⟨i, lt, eq⟩)
      · exact ⟨0, by omega, by omega⟩
      · exact ⟨i + 1, by omega, by rw [eq]; ring⟩
    · rintro ⟨i, lt, eq⟩
      cases i with
      | zero => exact .inl (by omega)
      | succ i => exact .inr ⟨i, by omega, by rw [eq]; ring⟩

/-- ... and each of the `n` records ends by `bound`, in exact arithmetic. -/
theorem add_mul_le_of_recordOffsets {offset : BitVec 64} {length n bound : Nat}
    (small : bound < 2 ^ 64) (inside : ∀ o ∈ recordOffsets offset length n, o.toNat + length ≤ bound) :
    ∀ i < n, offset.toNat + i * length + length ≤ bound := by
  intro i lt
  induction i with
  | zero =>
    obtain ⟨n, rfl⟩ : ∃ m, n = m + 1 := ⟨n - 1, by omega⟩
    simpa using inside offset (List.mem_cons_self _ _)
  | succ i ih =>
    have prev := ih (by omega)
    have exact : (BitVec.ofNat 64 (offset.toNat + (i + 1) * length)).toNat =
        offset.toNat + (i + 1) * length := by
      rw [BitVec.toNat_ofNat, Nat.mod_eq_of_lt (by rw [Nat.succ_mul]; omega)]
    have := inside _ ((mem_recordOffsets_iff small inside).mpr ⟨i + 1, lt, exact⟩)
    rwa [exact] at this

/-- What a `readX` call sets going: the reader its goroutines call, and the
offsets it starts them at. -/
structure ReadCall where
  read : BitVec 64 → Except Failure (List UInt8)
  offsets : List (BitVec 64)

/-- The body the five `readX` share, given their record reader and length: a
goroutine for each of the `count` records from `offset` on. -/
def readRecords (read : Bytes → BitVec 64 → Except Failure (List UInt8)) (length : Nat)
    (data : Bytes) (offset : BitVec 64) (count : BitVec 32) : ReadCall :=
  ⟨read data, recordOffsets offset length count.toInt.toNat⟩

def readInstances : Bytes → BitVec 64 → BitVec 32 → ReadCall :=
  readRecords readInstance instanceLength

def readInstanceDomains : Bytes → BitVec 64 → BitVec 32 → ReadCall :=
  readRecords readInstanceDomain instanceDomainLength

def readMetrics : Bytes → BitVec 64 → BitVec 32 → ReadCall :=
  readRecords readMetric metricLength

def readValues : Bytes → BitVec 64 → BitVec 32 → ReadCall :=
  readRecords readValue valueLength

def readStrings : Bytes → BitVec 64 → BitVec 32 → ReadCall :=
  readRecords readString stringLength

/-- Where a record goroutine is. -/
inductive Stage where
  /-- About to test `err == nil`. -/
  | start
  /-- Read its record; about to store it in the map under the mutex. -/
  | insert (record : List UInt8)
  /-- Read an error; about to store it in `err`. -/
  | fail (e : DumpError)
  /-- Called `wg.Done()`. -/
  | done
  deriving DecidableEq

/-- A record goroutine and the `offset` it was started with. -/
structure RecordGoroutine where
  offset : BitVec 64
  stage : Stage
  deriving DecidableEq

/-- The state a `readX` call shares with its goroutines. -/
structure ReadState where
  err : Option DumpError
  found : RecordMap
  records : List RecordGoroutine

namespace ReadState

def init (offsets : List (BitVec 64)) : ReadState :=
  ⟨none, fun _ => none, offsets.map fun offset => ⟨offset, .start⟩⟩

/-- `wg.Wait()` in `readX` returns: every goroutine has called `wg.Done()`. -/
def finished (s : ReadState) : Bool := s.records.all fun r => r.stage = .done

/-- One step of goroutine `i`, which reads with `read`; an error is a panic,
which ends the program. -/
def step (read : BitVec 64 → Except Failure (List UInt8)) (s : ReadState) (i : Nat) :
    Except GoPanic ReadState :=
  match s.records[i]? with
  | some ⟨offset, .start⟩ =>
    if s.err.isSome then .ok { s with records := s.records.set i ⟨offset, .done⟩ }
    else match read offset with
      | .ok record => .ok { s with records := s.records.set i ⟨offset, .insert record⟩ }
      | .error (.error e) => .ok { s with records := s.records.set i ⟨offset, .fail e⟩ }
      | .error (.panic p) => .error p
  | some ⟨offset, .insert record⟩ =>
    .ok { err := s.err, found := Function.update s.found offset (some record),
          records := s.records.set i ⟨offset, .done⟩ }
  | some ⟨offset, .fail e⟩ =>
    .ok { err := some e, found := s.found, records := s.records.set i ⟨offset, .done⟩ }
  | some ⟨_, .done⟩ | none => .ok s

theorem finished_iff {s : ReadState} : s.finished = true ↔ ∀ r ∈ s.records, r.stage = .done := by
  simp [finished]

/-- A goroutine's step reads only at its own record's offset. -/
theorem step_congr {read read' : BitVec 64 → Except Failure (List UInt8)} {s : ReadState}
    (agree : ∀ r ∈ s.records, read' r.offset = read r.offset) (i : Nat) :
    s.step read' i = s.step read i := by
  unfold step
  cases at_i : s.records[i]? with
  | none => rfl
  | some r =>
    obtain ⟨offset, stage⟩ := r
    cases stage <;> simp only [agree _ (List.getElem?_mem at_i)]

/-- The steps of a schedule of the goroutines; a panic ends the program. -/
def run (read : BitVec 64 → Except Failure (List UInt8)) (s : ReadState) :
    List Nat → Except GoPanic ReadState
  | [] => .ok s
  | i :: sched => s.step read i >>= fun s' => s'.run read sched

end ReadState

/-! ## The invariant -/

/-- Replacing an element by one with the same image leaves the image list. -/
theorem map_set_of_getElem? {α β : Type} {f : α → β} {l : List α} {i : Nat} {a b : α}
    (at_i : l[i]? = some a) (same : f b = f a) : (l.set i b).map f = l.map f := by
  apply List.ext_getElem?
  intro n
  rw [List.getElem?_map, List.getElem?_map, List.getElem?_set]
  split
  · subst_vars
    simp [at_i, same, (List.getElem?_eq_some_iff.mp at_i).1]
  · rfl

section Invariant

variable {read : BitVec 64 → Except Failure (List UInt8)} {offsets : List (BitVec 64)}
  {s s' : ReadState} {r : RecordGoroutine}

/-- What a goroutine's stage tells about its record and the shared state. A
finished goroutine stored its record, unless `err` was set first. -/
def RecordOk (read : BitVec 64 → Except Failure (List UInt8)) (s : ReadState) (r : RecordGoroutine) :
    Prop :=
  match r.stage with
  | .start => True
  | .insert record => read r.offset = .ok record
  | .fail e => read r.offset = .error (.error e)
  | .done => (s.err = none → ∃ record, read r.offset = .ok record ∧ s.found r.offset = some record) ∧
      ((∃ e, read r.offset = .error (.error e)) → s.err.isSome)

/-- The invariant of a `readX` call whose goroutines were started at `offsets`. -/
structure ReadInv (read : BitVec 64 → Except Failure (List UInt8)) (offsets : List (BitVec 64))
    (s : ReadState) : Prop where
  offsets_eq : s.records.map (·.offset) = offsets
  records_ok : ∀ r ∈ s.records, RecordOk read s r
  err_read : ∀ e, s.err = some e → ∃ o ∈ offsets, read o = .error (.error e)
  found_read : ∀ k record, s.found k = some record → k ∈ offsets ∧ read k = .ok record

theorem ReadInv.init : ReadInv read offsets (ReadState.init offsets) where
  offsets_eq := by simp [ReadState.init, Function.comp_def]
  records_ok := by simp [ReadState.init, RecordOk]
  err_read := by simp [ReadState.init]
  found_read := by simp [ReadState.init]

/-- `err` is only ever set, and the map only grows. -/
private def Grows (s s' : ReadState) : Prop :=
  (s.err.isSome → s'.err.isSome) ∧ (s'.err = none → s.err = none) ∧
    ∀ k record, s.found k = some record → s'.found k = some record

private theorem recordOk_grows (grows : Grows s s') (ok : RecordOk read s r) : RecordOk read s' r := by
  unfold RecordOk at ok ⊢
  split at ok
  all_goals first
    | exact ok
    | exact ⟨fun none' => (ok.1 (grows.2.1 none')).imp fun _ ⟨reads, found⟩ => ⟨reads, grows.2.2 _ _ found⟩,
        fun rejected => grows.1 (ok.2 rejected)⟩

private theorem mem_offsets (inv : ReadInv read offsets s) (mem : r ∈ s.records) : r.offset ∈ offsets :=
  inv.offsets_eq ▸ List.mem_map_of_mem _ mem

/-- A step that changes one goroutine, keeps its offset, lets the shared state
only grow, and leaves the changed goroutine consistent keeps the invariant. -/
private theorem ReadInv.set (inv : ReadInv read offsets s) {i : Nat} {offset : BitVec 64}
    {stage stage' : Stage} (at_i : s.records[i]? = some ⟨offset, stage⟩) (grows : Grows s s')
    (records : s'.records = s.records.set i ⟨offset, stage'⟩) (ok : RecordOk read s' ⟨offset, stage'⟩)
    (err_read : ∀ e, s'.err = some e → ∃ o ∈ offsets, read o = .error (.error e))
    (found_read : ∀ k record, s'.found k = some record → k ∈ offsets ∧ read k = .ok record) :
    ReadInv read offsets s' where
  offsets_eq := by rw [records, map_set_of_getElem? (b := ⟨offset, stage'⟩) at_i rfl, inv.offsets_eq]
  records_ok := by
    rw [records]
    intro r mem
    rcases List.mem_or_eq_of_mem_set mem with mem | rfl
    · exact recordOk_grows grows (inv.records_ok r mem)
    · exact ok
  err_read := err_read
  found_read := found_read

/-- Every step of every goroutine keeps the invariant. -/
theorem ReadInv.step (inv : ReadInv read offsets s) {i : Nat}
    (stepped : s.step read i = .ok s') : ReadInv read offsets s' := by
  unfold ReadState.step at stepped
  split at stepped
  · rename_i offset at_i
    split at stepped
    · cases stepped
      exact inv.set at_i ⟨id, id, fun _ _ => id⟩ rfl
        ⟨fun none' => (by simp_all), fun _ => ‹_›⟩ inv.err_read inv.found_read
    · split at stepped <;> cases stepped <;>
        exact inv.set at_i ⟨id, id, fun _ _ => id⟩ rfl ‹_› inv.err_read inv.found_read
  · rename_i offset record at_i
    cases stepped
    have reads : read offset = .ok record :=
      inv.records_ok _ (List.getElem?_mem at_i)
    refine inv.set at_i ⟨id, id, fun k found stored => ?_⟩ rfl
      ⟨fun _ => ⟨record, reads, by simp⟩, fun ⟨_, rejected⟩ => by simp_all⟩ inv.err_read ?_
    · by_cases here : k = offset
      · subst here
        have := (inv.found_read _ _ stored).2
        simp_all
      · simpa [here] using stored
    · intro k found stored
      by_cases here : k = offset
      · subst here
        simp only [Function.update_same, Option.some.injEq] at stored
        exact ⟨mem_offsets inv (List.getElem?_mem at_i), stored ▸ reads⟩
      · exact inv.found_read k found (by simpa [here] using stored)
  · rename_i offset e at_i
    cases stepped
    have reads : read offset = .error (.error e) :=
      inv.records_ok _ (List.getElem?_mem at_i)
    refine inv.set at_i ⟨fun _ => rfl, fun none' => (by cases none'), fun _ _ => id⟩ rfl
      ⟨fun none' => (by cases none'), fun _ => rfl⟩ ?_ inv.found_read
    rintro e' ⟨⟩
    exact ⟨offset, mem_offsets inv (List.getElem?_mem at_i), reads⟩
  · cases stepped; exact inv
  · cases stepped; exact inv

/-- A goroutine panics only where reading its record does. -/
theorem ReadInv.step_eq_error (inv : ReadInv read offsets s) {i : Nat} {p : GoPanic}
    (stepped : s.step read i = .error p) : ∃ o ∈ offsets, read o = .error (.panic p) := by
  unfold ReadState.step at stepped
  split at stepped
  · rename_i offset at_i
    split at stepped
    · cases stepped
    · split at stepped <;> cases stepped
      exact ⟨offset, mem_offsets inv (List.getElem?_mem at_i), ‹_›⟩
  all_goals cases stepped

/-- Every schedule keeps the invariant. -/
theorem ReadInv.run (inv : ReadInv read offsets s) {sched : List Nat}
    (ran : s.run read sched = .ok s') : ReadInv read offsets s' := by
  induction sched generalizing s with
  | nil => cases ran; exact inv
  | cons i sched ih =>
    obtain ⟨_, stepped, rest⟩ := bind_eq_ok.mp ran
    exact ih (inv.step stepped) rest

/-- Once every goroutine is done, either no error was stored and the map holds
every record, or the stored error is that of a record that does not fit. -/
theorem ReadInv.result (inv : ReadInv read offsets s) (finished : s.finished = true) :
    (s.err = none ∧ (∀ o ∈ offsets, ∃ record, read o = .ok record) ∧
        s.found = fun k => if k ∈ offsets then (read k).toOption else none) ∨
      ∃ e, s.err = some e ∧ ∃ o ∈ offsets, read o = .error (.error e) := by
  rw [ReadState.finished_iff] at finished
  cases noErr : s.err with
  | some e => exact .inr ⟨e, rfl, inv.err_read e noErr⟩
  | none =>
    have stored : ∀ o ∈ offsets, ∃ record, read o = .ok record ∧ s.found o = some record := by
      rw [← inv.offsets_eq]
      intro o mem
      obtain ⟨r, member, rfl⟩ := List.mem_map.mp mem
      have ok := inv.records_ok r member
      unfold RecordOk at ok
      rw [finished r member] at ok
      exact ok.1 noErr
    refine .inl ⟨rfl, fun o mem => (stored o mem).imp fun _ h => h.1, funext fun k => ?_⟩
    split
    · obtain ⟨record, reads, found⟩ := stored k ‹_›
      rw [found, reads]; rfl
    · cases found : s.found k with
      | none => rfl
      | some record => exact absurd (inv.found_read k record found).1 ‹_›

end Invariant

/-! ## Progress -/

/-- The steps a record goroutine has left, at most. -/
def Stage.remaining : Stage → Nat
  | .start => 2
  | .insert _ | .fail _ => 1
  | .done => 0

/-- The steps the goroutines of a `readX` call have left, at most. -/
def ReadState.remaining (s : ReadState) : Nat := (s.records.map (·.stage.remaining)).sum

/-- How a sum changes when one element of the list is replaced. -/
theorem sum_map_set {α : Type} {f : α → Nat} {l : List α} {i : Nat} {a : α} (at_i : l[i]? = some a)
    (b : α) : ((l.set i b).map f).sum + f a = (l.map f).sum + f b := by
  induction l generalizing i with
  | nil => simp at at_i
  | cons x l ih =>
    cases i with
    | zero =>
      simp only [List.getElem?_cons_zero, Option.some.injEq] at at_i
      subst at_i
      simp only [List.set_cons_zero, List.map_cons, List.sum_cons]
      omega
    | succ i =>
      have := ih (by simpa using at_i)
      simp only [List.set_cons_succ, List.map_cons, List.sum_cons]
      omega

theorem remaining_init (offsets : List (BitVec 64)) :
    (ReadState.init offsets).remaining = 2 * offsets.length := by
  induction offsets with
  | nil => rfl
  | cons o offsets ih =>
    simp only [ReadState.remaining, ReadState.init, List.map_cons, List.map_map, List.sum_cons,
      List.length_cons] at ih ⊢
    simp only [Function.comp_def] at ih ⊢
    rw [ih]
    simp only [Stage.remaining]
    omega

/-- A step that moves one goroutine to a stage with fewer steps left leaves
fewer in all. -/
private theorem remaining_lt {s s' : ReadState} {i : Nat} {offset : BitVec 64} {stage stage' : Stage}
    (at_i : s.records[i]? = some ⟨offset, stage⟩)
    (records : s'.records = s.records.set i ⟨offset, stage'⟩)
    (less : stage'.remaining < stage.remaining) : s'.remaining < s.remaining := by
  have := sum_map_set (f := (·.stage.remaining)) at_i ⟨offset, stage'⟩
  simp only [ReadState.remaining, records]
  dsimp only at this
  omega

/-- A `readX` whose goroutines are not all done has one that can move: it
panics, or it gets closer to its `wg.Done()`. -/
theorem ReadState.exists_step (read : BitVec 64 → Except Failure (List UInt8)) {s : ReadState}
    (running : s.finished = false) :
    ∃ i, (∃ p, s.step read i = .error p) ∨ ∃ s', s.step read i = .ok s' ∧ s'.remaining < s.remaining := by
  obtain ⟨⟨offset, stage⟩, mem, notDone⟩ : ∃ r ∈ s.records, r.stage ≠ .done := by
    simpa [ReadState.finished] using running
  obtain ⟨i, at_i⟩ := List.mem_iff_getElem?.mp mem
  refine ⟨i, ?_⟩
  cases stage with
  | start =>
    simp only [ReadState.step, at_i]
    split
    · exact .inr ⟨_, rfl, remaining_lt at_i rfl Nat.zero_lt_two⟩
    · split
      · exact .inr ⟨_, rfl, remaining_lt at_i rfl Nat.one_lt_two⟩
      · exact .inr ⟨_, rfl, remaining_lt at_i rfl Nat.one_lt_two⟩
      · exact .inl ⟨_, rfl⟩
  | insert record =>
    simp only [ReadState.step, at_i]
    exact .inr ⟨_, rfl, remaining_lt at_i rfl Nat.zero_lt_one⟩
  | fail e =>
    simp only [ReadState.step, at_i]
    exact .inr ⟨_, rfl, remaining_lt at_i rfl Nat.zero_lt_one⟩
  | done => exact absurd rfl notDone

end PcpSpeed.Mmvdump
