import PcpSpeed.Mmvdump.Dump

/-! What each map `Dump` returns holds, however many TOC entries share a
section type. The goroutines of one type race on one named result of
`readComponents`, but each assigns its `readX`'s map whole, so the result holds
`nil` until one of them has assigned, and then the map of the last to assign
(`MapJustified`). Once `Dump` returns, a section's map is therefore `nil` when
the TOC lists no entry of its type, and otherwise one entry's `readX` result:
all that entry's records, or `nil` when one was rejected, even with no error
reported (`dump_ok_maps`). -/
namespace PcpSpeed.Mmvdump

/-- The goroutine has returned from its `readX` and assigned its map. -/
def SectionPc.assigned : SectionPc → Bool
  | .assigning _ | .done => true
  | _ => false

section Maps

variable {data : Bytes} {tocs : List Toc} {w w' : World} {S : Section}

/-- The named result of section `S` holds `nil` while no goroutine of `S` has
assigned it, and then the whole map one that has assigned it returned. -/
def MapJustified (data : Bytes) (w : World) (S : Section) : Prop :=
  (∀ g ∈ w.goroutines, g.task.kind = S → g.pc.assigned = false) ∧ w.maps S = none ∨
    ∃ g ∈ w.goroutines, g.task.kind = S ∧ g.pc.assigned = true ∧ w.maps S = (sectionResult data g.task).1

theorem MapJustified.init (tocs : List Toc) (S : Section) : MapJustified data (World.init tocs) S := by
  refine .inl ⟨fun g mem _ => ?_, rfl⟩
  obtain ⟨t, -, rfl⟩ := List.mem_map.mp mem
  rfl

/-- Moving goroutine `j` keeps the result of `S` justified, when it stays of its
type, keeps whether it has assigned if it is of type `S`, and the result is as
it was. -/
private theorem MapJustified.set (just : MapJustified data w S) {j : Nat} {g g' : SectionGoroutine}
    (at_j : w.goroutines[j]? = some g) (goroutines : w'.goroutines = w.goroutines.set j g')
    (task : g'.task = g.task) (status : g.task.kind = S → g'.pc.assigned = g.pc.assigned)
    (maps : w'.maps S = w.maps S) : MapJustified data w' S := by
  obtain ⟨lt, rfl⟩ := List.getElem?_eq_some_iff.mp at_j
  rw [MapJustified, goroutines, maps]
  rcases just with ⟨unassigned, none⟩ | ⟨g₀, mem, kind, assigned, holds⟩
  · refine .inl ⟨fun g'' mem'' same => ?_, none⟩
    rcases List.mem_or_eq_of_mem_set mem'' with old | rfl
    · exact unassigned g'' old same
    · rw [task] at same
      rw [status same]
      exact unassigned _ (List.getElem_mem lt) same
  · obtain ⟨i, li, rfl⟩ := List.getElem_of_mem mem
    by_cases here : i = j
    · subst here
      exact .inr ⟨g', List.mem_set _ _ lt _, task ▸ kind, (status kind).trans assigned, task ▸ holds⟩
    · have inSet : i < (w.goroutines.set j g').length := by simpa using li
      refine .inr ⟨w.goroutines[i], ?_, kind, assigned, holds⟩
      rw [← List.getElem_set_ne (Ne.symm here) inSet]
      exact List.getElem_mem inSet

theorem MapJustified.stepComponent (inv : WorldInv data tocs w) (just : MapJustified data w S)
    (j : Nat) : MapJustified data (w.stepComponent data j) S := by
  unfold World.stepComponent
  split
  · exact just
  rename_i g at_j
  split
  · rename_i start
    split
    · exact just
    · exact just.set at_j rfl rfl (fun _ => by rw [start]; rfl) rfl
  · rename_i s reading
    split
    · by_cases same : S = g.task.kind
      · -- the goroutine assigns its `readX`'s map
        subst same
        have ok := inv.sections g (List.getElem?_mem at_j)
        rw [SectionOk, reading] at ok
        have result := congrArg Prod.fst (finished_result ok.2 ‹_›).2
        exact .inr ⟨_, List.mem_set _ _ (List.getElem?_eq_some_iff.mp at_j).1 _, rfl, rfl,
          (Function.update_same _ _ _).trans result⟩
      · exact just.set at_j rfl rfl (fun kind => absurd kind.symm same) (Function.update_noteq same _ _)
    · exact just
  · rename_i e assigning
    split
    · exact just
    · exact just.set at_j rfl rfl (fun _ => by rw [assigning]; rfl) rfl
  · exact just

theorem MapJustified.stepRecord (just : MapJustified data w S) (j i : Nat) :
    MapJustified data (w.stepRecord data j i) S := by
  unfold World.stepRecord
  split
  · rename_i g at_j
    split
    · rename_i s reading
      split
      · exact just.set at_j rfl rfl (fun _ => by rw [reading]; rfl) rfl
      · exact just
    · exact just
  · exact just

theorem MapJustified.step (inv : WorldInv data tocs w) (just : MapJustified data w S) (t : Tid) :
    MapJustified data (w.step data t) S := by
  cases t <;> simp only [World.step] <;> split
  exacts [just, just.stepComponent inv _, just, just.stepRecord _ _]

theorem MapJustified.run (inv : WorldInv data tocs w) (just : MapJustified data w S)
    (sched : List Tid) : MapJustified data (w.run data sched) S := by
  induction sched generalizing w with
  | nil => exact just
  | cons t sched ih => exact ih (inv.step t) (just.step inv t)

end Maps

section Returned

variable {data : Bytes} {sched : List Tid} {h : Header} {tocs : List Toc}
  {maps : Section → Option RecordMap}

/-- **Each map `Dump` returns is `nil` or one TOC entry's, whole.** Under every
schedule, and however many TOC entries share a type, when `Dump` returns its
maps, the map of a section the TOC lists no entry of is `nil`, and the map of
any other is what the `readX` of one of its entries returned: all that entry's
records, or `nil` when one of them was rejected, with no error reported. Records
of two entries are never merged. -/
theorem dump_ok_maps (ok : dump data sched = some (.ok h tocs maps)) (S : Section) :
    (∀ t ∈ tocs.filterMap SectionTask.ofToc, t.kind ≠ S) ∧ maps S = none ∨
      ∃ t ∈ tocs.filterMap SectionTask.ofToc, t.kind = S ∧ maps S = (sectionResult data t).1 := by
  obtain ⟨header, read, -⟩ := dump_eq_ok ok
  have inv : WorldInv data tocs ((World.init tocs).run data sched) := WorldInv.init.run sched
  have just : MapJustified data ((World.init tocs).run data sched) S :=
    (MapJustified.init tocs S).run WorldInv.init sched
  rw [dump_of_readTocs header read, World.outcome] at ok
  split at ok
  · cases ok
  split at ok
  · rename_i waited
    obtain ⟨-, -, -, rfl⟩ := report_eq_ok.mp (Option.some.inj ok)
    have done := (inv.returned waited).2
    rcases just with ⟨unassigned, none⟩ | ⟨g, mem, kind, -, holds⟩
    · refine .inl ⟨fun t mem kind => ?_, none⟩
      rw [← inv.tasks] at mem
      obtain ⟨g, member, rfl⟩ := List.mem_map.mp mem
      have := unassigned g member kind
      rw [done g member] at this
      cases this
    · exact .inr ⟨g.task, inv.tasks ▸ List.mem_map_of_mem _ mem, kind, holds⟩
  · cases ok

/-- On `repeatedType`, the second instances entry, whose record lies past the
slice, assigns `nil` over the first entry's empty map and then its error, which
the first entry's `nil` error overwrites: `Dump` returns no error and a `nil`
instances map. -/
theorem repeatedType_nil_map :
    ∃ h tocs maps, dump repeatedType [.component 0, .component 0, .component 1, .record 1 0,
        .record 1 0, .component 1, .component 1, .component 0] = some (.ok h tocs maps) ∧
      maps .instances = none ∧
      ((∀ t ∈ tocs.filterMap SectionTask.ofToc, t.kind ≠ .instances) ∧ maps .instances = none ∨
        ∃ t ∈ tocs.filterMap SectionTask.ofToc,
          t.kind = .instances ∧ maps .instances = (sectionResult repeatedType t).1) := by
  have ok : dump repeatedType [.component 0, .component 0, .component 1, .record 1 0,
      .record 1 0, .component 1, .component 1, .component 0] = some (.ok _ _ _) := rfl
  exact ⟨_, _, _, ok, rfl, dump_ok_maps ok .instances⟩

end Returned

end PcpSpeed.Mmvdump
