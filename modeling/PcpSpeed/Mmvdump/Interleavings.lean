import PcpSpeed.Mmvdump.Components

/-! What holds of `readComponents` along every interleaving. `WorldInv` ties
each goroutine's `pc` to what its `readX` has done, counts the `WaitGroup` of
`readComponents` as the TOC entries no goroutine was started for plus the
goroutines that have not called `wg.Done()`, and names where a panic can come
from. `WorldInv.step` keeps it over every step of every goroutine, so
`WorldInv.run` keeps it over every schedule. Two consequences follow at once:
while a TOC entry has a type the `switch` does not know, `wg.Wait()` never
returns (`run_wg_pos`), and the `wg.Done()` of a section goroutine never panics.
With one TOC entry per section type it also ties the ten named results to the
goroutines, so that once `wg.Wait()` returns they are those of the sequential
decode (`WorldInv.returned_vars`). And while a goroutine is not done, one can
move closer to its `wg.Done()` (`WorldInv.exists_step`), so some continuation of
every schedule finishes them all or panics (`WorldInv.can_finish`). -/
namespace PcpSpeed.Mmvdump

/-- The TOC entries the `switch` of `readComponents` starts no goroutine for.
`wg.Add(len(tocs))` counted them, and nothing calls `wg.Done()` for them. -/
def unknownTocs (tocs : List Toc) : Nat := tocs.countP fun toc => (SectionTask.ofToc toc).isNone

/-- What a section goroutine's `pc` tells about its section. -/
def SectionOk (data : Bytes) (g : SectionGoroutine) : Prop :=
  match g.pc with
  | .start => True
  | .reading s => 0 ≤ g.task.count.toInt ∧ ReadInv (g.task.kind.read data) g.task.offsets s
  | .assigning e => 0 ≤ g.task.count.toInt ∧ Settled data g.task ∧ e = (sectionResult data g.task).2
  | .done => 0 ≤ g.task.count.toInt ∧ Settled data g.task

@[simp] theorem sectionOk_start {data : Bytes} {t : SectionTask} : SectionOk data ⟨t, .start⟩ :=
  trivial

@[simp] theorem sectionOk_reading {data : Bytes} {t : SectionTask} {s : ReadState} :
    SectionOk data ⟨t, .reading s⟩ ↔ 0 ≤ t.count.toInt ∧ ReadInv (t.kind.read data) t.offsets s :=
  Iff.rfl

@[simp] theorem sectionOk_assigning {data : Bytes} {t : SectionTask} {e : Option DumpError} :
    SectionOk data ⟨t, .assigning e⟩ ↔
      0 ≤ t.count.toInt ∧ Settled data t ∧ e = (sectionResult data t).2 :=
  Iff.rfl

@[simp] theorem sectionOk_done {data : Bytes} {t : SectionTask} :
    SectionOk data ⟨t, .done⟩ ↔ 0 ≤ t.count.toInt ∧ Settled data t :=
  Iff.rfl

/-- Where a panic can come from: the `wg.Add` of a `readX` given a negative
count, or the element address of a record whose length check passed. -/
def PanicCause (data : Bytes) (tocs : List Toc) (p : GoPanic) : Prop :=
  ∃ t ∈ tocs.filterMap SectionTask.ofToc,
    (p = .negativeWaitGroupCounter ∧ t.count.toInt < 0) ∨
      ∃ o ∈ t.offsets, t.kind.read data o = .error (.panic p)

/-- One TOC entry of the sequential decode: its section's map and error. -/
def sequentialStep (data : Bytes) (results : Section → Option RecordMap × Option DumpError)
    (t : SectionTask) : Section → Option RecordMap × Option DumpError :=
  Function.update results t.kind (sectionResult data t)

/-- Modelled from the spec: the results of `readComponents` run as the
sequential decode the spec holds it to, which reads the TOC entries' sections
one at a time, in order, each assigning its section's map and error. -/
def sequentialResults (data : Bytes) (tasks : List SectionTask) :
    Section → Option RecordMap × Option DumpError :=
  tasks.foldl (sequentialStep data) fun _ => (none, none)

/-- The map and the error a section goroutine has assigned so far. -/
def SectionPc.vars (data : Bytes) (t : SectionTask) : SectionPc → Option RecordMap × Option DumpError
  | .start | .reading _ => (none, none)
  | .assigning _ => ((sectionResult data t).1, none)
  | .done => sectionResult data t

/-- The TOC lists each section type at most once. -/
def Distinct (tocs : List Toc) : Prop := ((tocs.filterMap SectionTask.ofToc).map (·.kind)).Nodup

/-- With one goroutine per section type, the ten named results of
`readComponents` hold what those goroutines have assigned, and `nil` for a
section no goroutine reads. -/
structure VarsOk (data : Bytes) (w : World) : Prop where
  assigned : ∀ g ∈ w.goroutines, (w.maps g.task.kind, w.errs g.task.kind) = g.pc.vars data g.task
  unassigned : ∀ S, S ∉ w.goroutines.map (·.task.kind) → w.maps S = none ∧ w.errs S = none

/-- The invariant of `readComponents` started on the TOC `tocs`. -/
structure WorldInv (data : Bytes) (tocs : List Toc) (w : World) : Prop where
  tasks : w.goroutines.map (·.task) = tocs.filterMap SectionTask.ofToc
  wg_eq : w.wg = unknownTocs tocs + w.goroutines.countP fun g => !g.pc.isDone
  sections : ∀ g ∈ w.goroutines, SectionOk data g
  panic_cause : ∀ p, w.panic = some p → PanicCause data tocs p
  vars : Distinct tocs → VarsOk data w

section Invariant

variable {data : Bytes} {tocs : List Toc} {w w' : World}

theorem WorldInv.init : WorldInv data tocs (World.init tocs) where
  tasks := by simp [World.init, Function.comp_def]
  wg_eq := by
    simp only [World.init, List.countP_map, Function.comp_def, SectionPc.isDone, Bool.not_false,
      List.countP_true, List.length_map, List.length_filterMap_eq_countP, unknownTocs]
    rw [List.length_eq_countP_add_countP fun toc => (SectionTask.ofToc toc).isNone]
    congr 2
    funext toc
    cases SectionTask.ofToc toc <;> rfl
  sections := by
    intro g mem
    obtain ⟨t, -, rfl⟩ := List.mem_map.mp mem
    trivial
  panic_cause := by simp [World.init]
  vars _ := by
    refine ⟨fun g mem => ?_, fun _ _ => ⟨rfl, rfl⟩⟩
    obtain ⟨t, -, rfl⟩ := List.mem_map.mp mem
    rfl

theorem WorldInv.nodup (inv : WorldInv data tocs w) (distinct : Distinct tocs) :
    (w.goroutines.map (·.task.kind)).Nodup := by
  rwa [Distinct, ← inv.tasks, List.map_map] at distinct

private theorem WorldInv.task_mem (inv : WorldInv data tocs w) {g : SectionGoroutine}
    (mem : g ∈ w.goroutines) : g.task ∈ tocs.filterMap SectionTask.ofToc :=
  inv.tasks ▸ List.mem_map_of_mem _ mem

/-- A goroutine that has not called `wg.Done()` keeps the counter positive. -/
theorem WorldInv.wg_pos (inv : WorldInv data tocs w) {g : SectionGoroutine} (mem : g ∈ w.goroutines)
    (running : g.pc.isDone = false) : 0 < w.wg := by
  have : 0 < w.goroutines.countP fun g => !g.pc.isDone := List.countP_pos_iff.mpr ⟨g, mem, by simpa⟩
  rw [inv.wg_eq]; omega

/-- Moving one goroutine keeps the results invariant, when the goroutine's own
section's results follow its move and no other section's change. -/
private theorem VarsOk.set (vars : VarsOk data w) (nodup : (w.goroutines.map (·.task.kind)).Nodup)
    {j : Nat} {g g' : SectionGoroutine} (at_j : w.goroutines[j]? = some g)
    (goroutines : w'.goroutines = w.goroutines.set j g') (task : g'.task = g.task)
    (own : (w'.maps g.task.kind, w'.errs g.task.kind) = g'.pc.vars data g.task)
    (others : ∀ S, S ≠ g.task.kind → w'.maps S = w.maps S ∧ w'.errs S = w.errs S) : VarsOk data w' := by
  have kinds : w'.goroutines.map (·.task.kind) = w.goroutines.map (·.task.kind) := by
    rw [goroutines, map_set_of_getElem? at_j (congrArg (·.kind) task)]
  have mem := List.getElem?_mem at_j
  constructor
  · intro g'' member
    by_cases same : g''.task.kind = g.task.kind
    · have : g'' = g' := List.inj_on_of_nodup_map (kinds ▸ nodup) member
        (goroutines ▸ List.mem_set _ _ (List.getElem?_eq_some_iff.mp at_j).1 _) (same.trans (by rw [task]))
      subst this
      rwa [task]
    · rw [goroutines] at member
      rcases List.mem_or_eq_of_mem_set member with member | rfl
      · rw [(others _ same).1, (others _ same).2]
        exact vars.assigned g'' member
      · exact absurd (by rw [task]) same
  · intro S absent
    rw [kinds] at absent
    have other : S ≠ g.task.kind := fun same => absent (same ▸ List.mem_map_of_mem _ mem)
    rw [(others S other).1, (others S other).2]
    exact vars.unassigned S absent

/-- Moving one goroutine keeps the invariant, when its new `pc` is consistent
and the counter follows its `wg.Done()`. -/
private theorem WorldInv.set (inv : WorldInv data tocs w) {j : Nat} {g g' : SectionGoroutine}
    (at_j : w.goroutines[j]? = some g) (goroutines : w'.goroutines = w.goroutines.set j g')
    (task : g'.task = g.task) (ok : SectionOk data g')
    (wg : w'.wg + (if !g.pc.isDone then 1 else 0) = w.wg + (if !g'.pc.isDone then 1 else 0))
    (panic : w'.panic = w.panic)
    (own : (w.maps g.task.kind, w.errs g.task.kind) = g.pc.vars data g.task →
      (w'.maps g.task.kind, w'.errs g.task.kind) = g'.pc.vars data g.task)
    (others : ∀ S, S ≠ g.task.kind → w'.maps S = w.maps S ∧ w'.errs S = w.errs S) :
    WorldInv data tocs w' where
  tasks := by rw [goroutines, map_set_of_getElem? at_j task, inv.tasks]
  wg_eq := by
    obtain ⟨lt, rfl⟩ := List.getElem?_eq_some_iff.mp at_j
    have moved := List.countP_set (fun g => !g.pc.isDone) w.goroutines j g' lt
    have le := List.boole_getElem_le_countP (fun g => !g.pc.isDone) w.goroutines j lt
    rw [goroutines]
    have := inv.wg_eq
    omega
  sections := by
    rw [goroutines]
    intro g'' mem
    rcases List.mem_or_eq_of_mem_set mem with mem | rfl
    · exact inv.sections _ mem
    · exact ok
  panic_cause := panic ▸ inv.panic_cause
  vars distinct := (inv.vars distinct).set (inv.nodup distinct) at_j goroutines task
    (own ((inv.vars distinct).assigned g (List.getElem?_mem at_j))) others

private theorem WorldInv.setPanic (inv : WorldInv data tocs w) {p : GoPanic}
    (cause : PanicCause data tocs p) : WorldInv data tocs { w with panic := some p } where
  tasks := inv.tasks
  wg_eq := inv.wg_eq
  sections := inv.sections
  panic_cause := by rintro _ ⟨⟩; exact cause
  vars distinct := ⟨(inv.vars distinct).assigned, (inv.vars distinct).unassigned⟩

theorem WorldInv.stepComponent (inv : WorldInv data tocs w) (j : Nat) :
    WorldInv data tocs (w.stepComponent data j) := by
  unfold World.stepComponent
  split
  · exact inv
  rename_i g at_j
  have mem := List.getElem?_mem at_j
  have ok := inv.sections g mem
  split
  · rename_i start
    split
    · exact inv.setPanic ⟨g.task, inv.task_mem mem, .inl ⟨rfl, ‹_›⟩⟩
    · exact inv.set at_j rfl rfl (sectionOk_reading.mpr ⟨by omega, by simpa using .init⟩)
        (by simp [start, SectionPc.isDone]) rfl (fun old => by rw [start] at old; exact old)
        fun _ _ => ⟨rfl, rfl⟩
  · rename_i s reading
    split
    · rw [SectionOk, reading] at ok
      have result := finished_result ok.2 ‹_›
      exact inv.set at_j rfl rfl (sectionOk_assigning.mpr ⟨ok.1, result.1, congrArg Prod.snd result.2⟩)
        (by simp [reading, SectionPc.isDone]) rfl
        (fun old => by
          simp only [reading, SectionPc.vars, Prod.mk.injEq] at old
          simp only [World.setPc_maps, World.setPc_errs, Function.update_same, SectionPc.vars,
            ← result.2]
          exact Prod.ext rfl old.2)
        fun _ other => ⟨Function.update_noteq other _ _, rfl⟩
    · exact inv
  · rename_i e assigning
    split
    · exact absurd ‹w.wg = 0› (inv.wg_pos mem (by simp [assigning, SectionPc.isDone])).ne'
    · rw [SectionOk, assigning] at ok
      exact inv.set at_j rfl rfl (sectionOk_done.mpr ⟨ok.1, ok.2.1⟩)
        (by simp [assigning, SectionPc.isDone]; omega) rfl
        (fun old => by
          simp only [assigning, SectionPc.vars, Prod.mk.injEq] at old
          simp only [World.setPc_maps, World.setPc_errs, Function.update_same, SectionPc.vars, ok.2.2]
          exact Prod.ext old.1 rfl)
        fun _ other => ⟨rfl, Function.update_noteq other _ _⟩
  · exact inv

theorem WorldInv.stepRecord (inv : WorldInv data tocs w) (j i : Nat) :
    WorldInv data tocs (w.stepRecord data j i) := by
  unfold World.stepRecord
  split
  · rename_i g at_j
    have mem := List.getElem?_mem at_j
    have ok := inv.sections g mem
    split
    · rename_i s reading
      rw [SectionOk, reading] at ok
      split
      · rename_i stepped
        rw [SectionTask.call_read] at stepped
        exact inv.set at_j rfl rfl (sectionOk_reading.mpr ⟨ok.1, ok.2.step stepped⟩)
          (by simp [reading, SectionPc.isDone]) rfl (fun old => by rw [reading] at old; exact old)
          fun _ _ => ⟨rfl, rfl⟩
      · rename_i panicked
        rw [SectionTask.call_read] at panicked
        exact inv.setPanic ⟨g.task, inv.task_mem mem, .inr (ok.2.step_eq_error panicked)⟩
    · exact inv
  · exact inv

/-- Every step of every goroutine keeps the invariant. -/
theorem WorldInv.step (inv : WorldInv data tocs w) (t : Tid) : WorldInv data tocs (w.step data t) := by
  cases t <;> simp only [World.step] <;> split
  exacts [inv, inv.stepComponent _, inv, inv.stepRecord _ _]

/-- Every schedule keeps the invariant. -/
theorem WorldInv.run (inv : WorldInv data tocs w) (sched : List Tid) :
    WorldInv data tocs (w.run data sched) := by
  induction sched generalizing w with
  | nil => exact inv
  | cons t sched ih => exact ih (inv.step t)

/-! ## When `wg.Wait()` returns -/

/-- While a TOC entry has a type the `switch` does not know, the counter of
`readComponents` stays positive, whatever the schedule. -/
theorem run_wg_pos (unknown : 0 < unknownTocs tocs) (sched : List Tid) :
    0 < ((World.init tocs).run data sched).wg := by
  rw [(WorldInv.init.run sched).wg_eq]
  omega

/-- Once the counter is back at zero, every TOC entry had a known type and every
section goroutine has called `wg.Done()`. -/
theorem WorldInv.returned (inv : WorldInv data tocs w) (waited : w.wg = 0) :
    unknownTocs tocs = 0 ∧ ∀ g ∈ w.goroutines, g.pc = .done := by
  rw [inv.wg_eq, Nat.add_eq_zero, List.countP_eq_zero] at waited
  refine ⟨waited.1, fun g mem => ?_⟩
  have running := waited.2 g mem
  cases pc : g.pc <;> simp_all [SectionPc.isDone]

/-- ... and every section was settled, under a count `wg.Add` accepted. -/
theorem WorldInv.returned_settled (inv : WorldInv data tocs w) (waited : w.wg = 0) :
    ∀ t ∈ tocs.filterMap SectionTask.ofToc, 0 ≤ t.count.toInt ∧ Settled data t := by
  rw [← inv.tasks]
  intro t mem
  obtain ⟨g, member, rfl⟩ := List.mem_map.mp mem
  have ok := inv.sections g member
  rwa [SectionOk, (inv.returned waited).2 g member] at ok

theorem foldl_sequentialStep_of_not_mem {tasks : List SectionTask} {S : Section}
    (acc : Section → Option RecordMap × Option DumpError) (absent : S ∉ tasks.map (·.kind)) :
    tasks.foldl (sequentialStep data) acc S = acc S := by
  induction tasks generalizing acc with
  | nil => rfl
  | cons t tasks ih =>
    simp only [List.map_cons, List.mem_cons, not_or] at absent
    rw [List.foldl_cons, ih _ absent.2, sequentialStep, Function.update_noteq absent.1]

theorem foldl_sequentialStep_of_mem {tasks : List SectionTask} {t : SectionTask}
    (nodup : (tasks.map (·.kind)).Nodup) (acc : Section → Option RecordMap × Option DumpError)
    (mem : t ∈ tasks) :
    tasks.foldl (sequentialStep data) acc t.kind = sectionResult data t := by
  induction tasks generalizing acc with
  | nil => cases mem
  | cons t' tasks ih =>
    rw [List.map_cons, List.nodup_cons] at nodup
    rw [List.foldl_cons]
    rcases List.mem_cons.mp mem with rfl | mem
    · rw [foldl_sequentialStep_of_not_mem _ nodup.1, sequentialStep, Function.update_same]
    · exact ih nodup.2 _ mem

/-- Distinct TOC types select distinct sections. -/
theorem distinct_of_nodup_types (nodup : (tocs.map (·.type)).Nodup) : Distinct tocs := by
  have kinds : (tocs.filterMap SectionTask.ofToc).map (·.kind) =
      (tocs.map (·.type)).filterMap Section.ofTocType := by
    rw [List.map_filterMap, List.filterMap_map]
    congr
    funext toc
    simp only [SectionTask.ofToc, Option.map_map, Function.comp_def, Option.map_id']
  rw [Distinct, kinds]
  exact nodup.filterMap fun _ _ _ first second =>
    (Section.tocType_of_ofTocType first).symm.trans (Section.tocType_of_ofTocType second)

/-- With one TOC entry per section type, the ten results are, once the counter
is back at zero, those of the sequential decode, whatever the schedule was. -/
theorem WorldInv.returned_vars (inv : WorldInv data tocs w) (distinct : Distinct tocs)
    (waited : w.wg = 0) (S : Section) :
    (w.maps S, w.errs S) = sequentialResults data (tocs.filterMap SectionTask.ofToc) S := by
  have vars := inv.vars distinct
  by_cases present : S ∈ w.goroutines.map (·.task.kind)
  · obtain ⟨g, mem, rfl⟩ := List.mem_map.mp present
    rw [vars.assigned g mem, (inv.returned waited).2 g mem, sequentialResults,
      foldl_sequentialStep_of_mem distinct _ (inv.task_mem mem)]
    rfl
  · rw [(vars.unassigned S present).1, (vars.unassigned S present).2, sequentialResults,
      foldl_sequentialStep_of_not_mem]
    rwa [← inv.tasks, List.map_map]

/-! ## Progress -/

/-- The steps a section goroutine has left, at most. -/
def SectionGoroutine.remaining (g : SectionGoroutine) : Nat :=
  match g.pc with
  | .start => 2 * g.task.offsets.length + 3
  | .reading s => s.remaining + 2
  | .assigning _ => 1
  | .done => 0

/-- The steps the section goroutines have left, at most. -/
def World.remaining (w : World) : Nat := (w.goroutines.map SectionGoroutine.remaining).sum

private theorem remaining_setPc {j : Nat} {g : SectionGoroutine} {pc : SectionPc}
    (at_j : w.goroutines[j]? = some g) (less : SectionGoroutine.remaining ⟨g.task, pc⟩ < g.remaining) :
    (w.setPc j g pc).remaining < w.remaining := by
  have := sum_map_set (f := SectionGoroutine.remaining) at_j ⟨g.task, pc⟩
  simp only [World.remaining, World.setPc_goroutines]
  omega

/-- Before a panic, while a section goroutine has not called `wg.Done()`, some
goroutine can move: it panics, or the goroutines get closer to their
`wg.Done()`. -/
theorem WorldInv.exists_step (inv : WorldInv data tocs w) (noPanic : w.panic = none)
    {g : SectionGoroutine} (mem : g ∈ w.goroutines) (running : g.pc.isDone = false) :
    ∃ t, (w.step data t).panic.isSome ∨ (w.step data t).remaining < w.remaining := by
  obtain ⟨j, at_j⟩ := List.mem_iff_getElem?.mp mem
  have wg := inv.wg_pos mem running
  cases pc : g.pc with
  | start =>
    refine ⟨.component j, ?_⟩
    simp only [World.step_component noPanic, World.stepComponent, at_j, pc, SectionTask.call_offsets]
    split
    · exact .inl rfl
    · exact .inr (remaining_setPc at_j (by simp [SectionGoroutine.remaining, pc, remaining_init]))
  | reading s =>
    cases finished : s.finished with
    | true =>
      refine ⟨.component j, .inr ?_⟩
      simp only [World.step_component noPanic, World.stepComponent, at_j, pc, finished]
      exact remaining_setPc at_j (by simp [SectionGoroutine.remaining, pc])
    | false =>
      obtain ⟨i, ⟨p, panics⟩ | ⟨s', stepped, less⟩⟩ := s.exists_step (g.task.kind.read data) finished
      · refine ⟨.record j i, .inl ?_⟩
        simp only [World.step_record noPanic, World.stepRecord, at_j, pc, SectionTask.call_read, panics]
        rfl
      · refine ⟨.record j i, .inr ?_⟩
        simp only [World.step_record noPanic, World.stepRecord, at_j, pc, SectionTask.call_read, stepped]
        exact remaining_setPc at_j (by simp only [SectionGoroutine.remaining, pc]; omega)
  | assigning e =>
    refine ⟨.component j, .inr ?_⟩
    simp only [World.step_component noPanic, World.stepComponent, at_j, pc, if_neg wg.ne']
    show (w.setPc j g .done).remaining < w.remaining
    exact remaining_setPc at_j (by simp [SectionGoroutine.remaining, pc])
  | done => simp [pc, SectionPc.isDone] at running

/-- From every world the invariant holds in, some continuation of the schedule
reaches a panic or has every section goroutine past its `wg.Done()`. -/
theorem WorldInv.can_finish (inv : WorldInv data tocs w) :
    ∃ sched, (w.run data sched).panic.isSome ∨
      ∀ g ∈ (w.run data sched).goroutines, g.pc.isDone = true := by
  obtain ⟨n, h⟩ : ∃ n, w.remaining = n := ⟨_, rfl⟩
  induction n using Nat.strong_induction_on generalizing w with
  | _ n ih =>
    cases noPanic : w.panic with
    | some p => exact ⟨[], .inl (by simp [World.run, noPanic])⟩
    | none =>
      by_cases finished : ∀ g ∈ w.goroutines, g.pc.isDone = true
      · exact ⟨[], .inr finished⟩
      · push_neg at finished
        obtain ⟨g, mem, running⟩ := finished
        obtain ⟨t, panicked | less⟩ :=
          inv.exists_step noPanic mem (by simpa using running)
        · exact ⟨[t], .inl panicked⟩
        · obtain ⟨sched, reached⟩ := ih _ (h ▸ less) (inv.step t) rfl
          exact ⟨t :: sched, reached⟩

end Invariant

end PcpSpeed.Mmvdump
