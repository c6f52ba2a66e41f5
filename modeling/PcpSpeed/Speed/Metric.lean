import PcpSpeed.Speed.Units

/-! `PCPMetric`, the metric whose value the writer publishes, as a state that
`Set` calls update in place. The abstract view is `lastAccepted`: a metric holds
the last value its type accepted, or its initial one (`setAll_val`). From it,
every metric `NewPCPMetric` returns keeps a value its type accepts, whatever
values are set afterwards, a rejected `Set` changes nothing, and an accepted one
is what `Val` returns until the next accepted one (`newPCPMetric_set_run`). -/
namespace PcpSpeed.Speed

/-- `pcpMetricDesc`. The instance domain is left out: its type is declared
outside the sources, and no modelled function reads it. -/
structure PcpMetricDesc where
  id : BitVec 32
  name : String
  t : MetricType
  sem : MetricSemantics
  u : MetricUnit
  offset : Nat
  shortDescription : String
  longDescription : String
  deriving DecidableEq, Repr

/-- `PCPMetricItemBitLength`. -/
def pcpMetricItemBitLength : Nat := 10

/-- `newpcpMetricDesc`. `getHash` is declared outside the sources, so it is a
parameter. -/
def newpcpMetricDesc (getHash : String → Nat → BitVec 32) (n : String) (t : MetricType)
    (s : MetricSemantics) (u : MetricUnit) (short long : String) : PcpMetricDesc :=
  ⟨getHash n pcpMetricItemBitLength, n, t, s, u, 0, short, long⟩

/-- `PCPMetric`: the value, its metadata and the value's memory offset. -/
structure PCPMetric where
  val : GoValue
  desc : PcpMetricDesc
  offset : Nat
  deriving DecidableEq, Repr

/-- `NewPCPMetric`. -/
def newPCPMetric (getHash : String → Nat → BitVec 32) (val : GoValue) (name : String)
    (t : MetricType) (s : MetricSemantics) (u : MetricUnit) (short long : String) :
    Except String PCPMetric :=
  if !t.isCompatible val then .error "the passed MetricType and values are incompatible"
  else .ok { val := val, desc := newpcpMetricDesc getHash name t s u short long, offset := 0 }

namespace PCPMetric

/-- `PCPMetric.Val`. -/
def Val (m : PCPMetric) : GoValue := m.val

/-- `PCPMetric.Set`, which updates the metric in place: the metric after the call
and the error it returns. -/
def set (m : PCPMetric) (val : GoValue) : PCPMetric × Option String :=
  if !m.desc.t.isCompatible val then (m, some "the value is incompatible with this metrics MetricType")
  else if val ≠ m.val then ({ m with val := val }, none)
  else (m, none)

/-- `PCPMetric.Description`. -/
def description (m : PCPMetric) : String :=
  if m.desc.longDescription.length > 0 then
    m.desc.shortDescription ++ "\n\n" ++ m.desc.longDescription
  else m.desc.shortDescription

/-- A run of `Set` calls, whatever each returns. -/
def setAll (m : PCPMetric) (vals : List GoValue) : PCPMetric :=
  vals.foldl (fun m v => (m.set v).1) m

/-- The stored value is one the metric's type accepts. -/
def Compatible (m : PCPMetric) : Prop := m.desc.t.isCompatible m.val = true

/-! ## One `Set` -/

variable {m : PCPMetric} {v : GoValue}

theorem set_of_incompatible (rejected : m.desc.t.isCompatible v = false) :
    m.set v = (m, some "the value is incompatible with this metrics MetricType") := by
  simp [set, rejected]

theorem set_of_compatible (accepted : m.desc.t.isCompatible v = true) :
    m.set v = ({ m with val := v }, none) := by
  by_cases same : v = m.val
  · subst same; simp [set, accepted]
  · simp [set, accepted, same]

@[simp] theorem set_desc : (m.set v).1.desc = m.desc := by
  cases accepted : m.desc.t.isCompatible v
  · rw [set_of_incompatible accepted]
  · rw [set_of_compatible accepted]

/-- A `Set` returns an error exactly when the type rejects the value. -/
theorem set_error_isSome : (m.set v).2.isSome = !m.desc.t.isCompatible v := by
  cases accepted : m.desc.t.isCompatible v
  · rw [set_of_incompatible accepted]; rfl
  · rw [set_of_compatible accepted]; rfl

theorem set_compatible (compatible : m.Compatible) : (m.set v).1.Compatible := by
  cases accepted : m.desc.t.isCompatible v
  · rwa [set_of_incompatible accepted]
  · rw [set_of_compatible accepted]; exact accepted

/-! ## Runs of `Set` -/

/-- The value a metric of type `t` holds after `vals` are set, starting from
`init`: the last one `t` accepts. -/
def lastAccepted (t : MetricType) (init : GoValue) (vals : List GoValue) : GoValue :=
  vals.foldl (fun held v => if t.isCompatible v then v else held) init

theorem lastAccepted_of_rejected {t : MetricType} {init : GoValue} {vals : List GoValue}
    (rejected : ∀ w ∈ vals, t.isCompatible w = false) : lastAccepted t init vals = init := by
  induction vals with
  | nil => rfl
  | cons w vals ih =>
    simp only [List.mem_cons, forall_eq_or_imp] at rejected
    simp only [lastAccepted, List.foldl_cons, rejected.1] at ih ⊢
    exact ih rejected.2

@[simp] theorem setAll_nil : m.setAll [] = m := rfl

@[simp] theorem setAll_cons (vals : List GoValue) : m.setAll (v :: vals) = (m.set v).1.setAll vals :=
  rfl

@[simp] theorem setAll_desc (vals : List GoValue) : (m.setAll vals).desc = m.desc := by
  induction vals generalizing m <;> simp [*]

/-- A run of `Set` calls leaves exactly the last accepted value. -/
theorem setAll_val (vals : List GoValue) :
    (m.setAll vals).val = lastAccepted m.desc.t m.val vals := by
  induction vals generalizing m with
  | nil => rfl
  | cons v vals ih =>
    cases accepted : m.desc.t.isCompatible v
    · simp [lastAccepted, ih, set_of_incompatible accepted, accepted]
    · simp [lastAccepted, ih, set_of_compatible accepted, accepted]

theorem setAll_compatible (compatible : m.Compatible) (vals : List GoValue) :
    (m.setAll vals).Compatible := by
  induction vals generalizing m with
  | nil => exact compatible
  | cons v vals ih => exact ih (set_compatible compatible)

end PCPMetric

/-- The metric `NewPCPMetric` returns holds the value and type it was given. -/
theorem newPCPMetric_eq_ok {getHash : String → Nat → BitVec 32} {val : GoValue} {name : String}
    {t : MetricType} {s : MetricSemantics} {u : MetricUnit} {short long : String} {m : PCPMetric}
    (created : newPCPMetric getHash val name t s u short long = .ok m) :
    m.val = val ∧ m.desc.t = t ∧ t.isCompatible val = true := by
  unfold newPCPMetric at created
  split at created
  · cases created
  · cases created
    exact ⟨rfl, rfl, by simp_all⟩

open PCPMetric in
/-- Along every run of `Set` calls on a metric from `NewPCPMetric`, the stored
value stays compatible with the type, a `Set` that returns an error leaves the
value as it was, and after a `Set` that returns nil `Val` returns its value
until a later `Set` succeeds. -/
theorem newPCPMetric_set_run {getHash : String → Nat → BitVec 32} {val : GoValue} {name : String}
    {t : MetricType} {s : MetricSemantics} {u : MetricUnit} {short long : String} {m : PCPMetric}
    (created : newPCPMetric getHash val name t s u short long = .ok m) (vals : List GoValue) :
    let m' := m.setAll vals
    t.isCompatible m'.Val = true ∧
      (∀ v e, (m'.set v).2 = some e → (m'.set v).1.Val = m'.Val) ∧
      ∀ v rest, (m'.set v).2 = none → (∀ w ∈ rest, t.isCompatible w = false) →
        ((m'.set v).1.setAll rest).Val = v := by
  obtain ⟨rfl, rfl, accepted⟩ := newPCPMetric_eq_ok created
  refine ⟨by simpa [Compatible, Val] using setAll_compatible accepted vals, fun v e failed => ?_,
    fun v rest ok rejected => ?_⟩
  · have rejected : (m.setAll vals).desc.t.isCompatible v = false := by
      simpa [failed] using (set_error_isSome (m := m.setAll vals) (v := v)).symm
    rw [set_of_incompatible rejected]
  · have accepted : (m.setAll vals).desc.t.isCompatible v = true := by
      simpa [ok] using (set_error_isSome (m := m.setAll vals) (v := v)).symm
    rw [set_of_compatible accepted]
    simp only [Val, setAll_val, setAll_desc]
    exact lastAccepted_of_rejected rejected

/-- An `Int32Type` counter, set to 5 and then to a string. -/
theorem counter_set_run :
    ∃ m, newPCPMetric (fun _ _ => 0) (.int32 0) "counter" .int32Type .counterSemantics
        (.count oneUnit) "" "" = .ok m ∧
      let m' := m.setAll [.int32 5, .string "x"]
      MetricType.int32Type.isCompatible m'.Val = true ∧
        (∀ v e, (m'.set v).2 = some e → (m'.set v).1.Val = m'.Val) ∧
        ∀ v rest, (m'.set v).2 = none → (∀ w ∈ rest, MetricType.int32Type.isCompatible w = false) →
          ((m'.set v).1.setAll rest).Val = v := by
  have created : newPCPMetric (fun _ _ => 0) (.int32 0) "counter" .int32Type .counterSemantics
      (.count oneUnit) "" "" = .ok _ := rfl
  exact ⟨_, created, newPCPMetric_set_run created _⟩

/-- **`NewPCPMetric` makes integer metrics only.** A metric it returns has one of
the four integer types, and holds an integer value after any run of `Set`: no
metric of type `FloatType`, `DoubleType` or `StringType`, and none holding a
float or a string, is ever made. -/
theorem newPCPMetric_integer {getHash : String → Nat → BitVec 32} {val : GoValue} {name : String}
    {t : MetricType} {s : MetricSemantics} {u : MetricUnit} {short long : String} {m : PCPMetric}
    (created : newPCPMetric getHash val name t s u short long = .ok m) (vals : List GoValue) :
    (t = .int32Type ∨ t = .uint32Type ∨ t = .int64Type ∨ t = .uint64Type) ∧
      (m.setAll vals).val.intValue.isSome := by
  obtain ⟨rfl, rfl, accepted⟩ := newPCPMetric_eq_ok created
  exact ⟨(MetricType.isCompatible_integer accepted).2,
    (MetricType.isCompatible_integer (PCPMetric.setAll_compatible accepted vals)).1⟩

/-- An `Int64Type` gauge, set to a `float64` and then to 7. -/
theorem gauge_integer :
    ∃ m, newPCPMetric (fun _ _ => 0) (.int64 5) "gauge" .int64Type .counterSemantics
        (.count oneUnit) "" "" = .ok m ∧
      (MetricType.int64Type = .int32Type ∨ MetricType.int64Type = .uint32Type ∨
        MetricType.int64Type = .int64Type ∨ MetricType.int64Type = .uint64Type) ∧
      (m.setAll [.float64 0, .int64 7]).val.intValue.isSome := by
  have created : newPCPMetric (fun _ _ => 0) (.int64 5) "gauge" .int64Type .counterSemantics
      (.count oneUnit) "" "" = .ok _ := rfl
  exact ⟨_, created, newPCPMetric_integer created _⟩

end PcpSpeed.Speed
