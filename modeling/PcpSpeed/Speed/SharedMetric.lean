import PcpSpeed.Speed.Metric

/-! `Set` and `Val` called from several goroutines on one `PCPMetric`. Each call
runs as the steps of its Go body: `Set` tests `IsCompatible`, compares
`val != m.val` without the lock, takes `m.Lock()`, stores, and returns through
the deferred `m.Unlock()`; `Val` takes `m.RLock()`, reads `m.val`, and returns
through the deferred `m.RUnlock()`. Each read and each write of `m.val` is one
atomic step. `RLock` waits only for a writer that holds the lock, so the model
allows more schedules than Go's writer-preferring `RWMutex`, and what holds of
all of them holds of Go's.

A ghost record keeps the calls as they are invoked, each call at the step where
it takes effect (the log), and each call that returned with what it returned,
all stamped with the number of steps taken so far. Over every schedule the log
is a linearization (`set_val_linearizable`): running its calls one after another
on the sequential metric of `Metric.lean` gives the answers the log records and
the metric the goroutines share; every call that returned is in the log with its
answer; and a call that returned before another was invoked comes first.

The `RWMutex`'s writer flag and reader count are always the goroutines that hold
it (`LockInv`), so a writer excludes every other holder (`set_val_exclusive`).
`Set`'s compare reads `m.val` outside the lock and is the one access that can
overlap a store. -/
namespace PcpSpeed.Speed

/-- A call a goroutine makes on the shared metric. -/
inductive Call where
  | set (val : GoValue)
  | val
  deriving DecidableEq, Repr

/-- What a call returns: the error of `Set`, or the value `Val` read. -/
inductive Answer where
  | set (err : Option String)
  | val (v : GoValue)
  deriving DecidableEq, Repr

/-- The call made alone, as `PCPMetric.set` and `PCPMetric.Val` model it. -/
def Call.apply (m : PCPMetric) : Call → PCPMetric × Answer
  | .set v => ((m.set v).1, .set (m.set v).2)
  | .val => (m, .val m.Val)

/-- One more call on the sequential metric, its answer after those before it. -/
def seqStep (s : PCPMetric × List Answer) (c : Call) : PCPMetric × List Answer :=
  ((c.apply s.1).1, s.2 ++ [(c.apply s.1).2])

/-- Calls made one after another from `m`: the metric they leave, and their answers. -/
def runCalls (m : PCPMetric) (calls : List Call) : PCPMetric × List Answer :=
  calls.foldl seqStep (m, [])

theorem runCalls_concat (m : PCPMetric) (calls : List Call) (c : Call) :
    runCalls m (calls ++ [c]) = seqStep (runCalls m calls) c := by
  simp only [runCalls, List.foldl_append, List.foldl_cons, List.foldl_nil]

/-- Where a call is in the body of `Set` or `Val`, with the value it carries. -/
inductive CallPc where
  /-- `Set`, at `if !m.desc.t.IsCompatible(val)`. -/
  | setCheck (val : GoValue)
  /-- `Set`, at `if val != m.val`, which reads `m.val` without the lock. -/
  | setCompare (val : GoValue)
  /-- `Set`, at `m.Lock()`. -/
  | setLock (val : GoValue)
  /-- `Set`, holding the lock, at `m.val = val`. -/
  | setStore (val : GoValue)
  /-- `Set`, after the store: the deferred `m.Unlock()` and `return nil`. -/
  | setUnlock (val : GoValue)
  /-- `Val`, at `m.RLock()`. -/
  | valLock
  /-- `Val`, holding the read lock, at `return m.val`. -/
  | valRead
  /-- `Val`, having read `v`: the deferred `m.RUnlock()` and the return. -/
  | valUnlock (v : GoValue)
  deriving DecidableEq, Repr

namespace CallPc

/-- The call being made. -/
def call : CallPc → Call
  | setCheck v | setCompare v | setLock v | setStore v | setUnlock v => .set v
  | valLock | valRead | valUnlock _ => .val

/-- What the call returns, once it has taken effect. -/
def answer? : CallPc → Option Answer
  | setUnlock _ => some (.set none)
  | valUnlock v => some (.val v)
  | _ => none

/-- The value `Set` has found compatible, from the compare to the store. -/
def checked? : CallPc → Option GoValue
  | setCompare v | setLock v | setStore v => some v
  | _ => none

/-- Holds `m`'s write lock: from `m.Lock()` to the deferred `m.Unlock()`. -/
def writing : CallPc → Bool
  | setStore _ | setUnlock _ => true
  | _ => false

/-- Holds a read lock of `m`: from `m.RLock()` to the deferred `m.RUnlock()`. -/
def reading : CallPc → Bool
  | valRead | valUnlock _ => true
  | _ => false

end CallPc

/-- Where a call starts. -/
def Call.start : Call → CallPc
  | .set v => .setCheck v
  | .val => .valLock

@[simp] theorem Call.start_call (c : Call) : c.start.call = c := by cases c <;> rfl

@[simp] theorem Call.start_answer? (c : Call) : c.start.answer? = none := by cases c <;> rfl

@[simp] theorem Call.start_checked? (c : Call) : c.start.checked? = none := by cases c <;> rfl

@[simp] theorem Call.start_writing (c : Call) : c.start.writing = false := by cases c <;> rfl

@[simp] theorem Call.start_reading (c : Call) : c.start.reading = false := by cases c <;> rfl

/-- A call in progress: the step it was invoked at, and where it is. -/
structure Running where
  inv : Nat
  pc : CallPc
  deriving DecidableEq, Repr

/-- A goroutine: the calls it has still to make, and the one it is making. -/
structure Caller where
  pending : List Call
  current : Option Running
  deriving DecidableEq, Repr

/-- A call of goroutine `caller` invoked at step `inv`, with its answer,
recorded at step `time`. -/
structure Event where
  caller : Nat
  inv : Nat
  call : Call
  answer : Answer
  time : Nat
  deriving DecidableEq, Repr

/-- A call is known by its goroutine and the step it was invoked at. -/
def Event.key (e : Event) : Nat × Nat := (e.caller, e.inv)

/-- The metric, its `RWMutex` (a writer flag and a reader count), the goroutines
calling it, and the ghost record: the step count, the calls invoked (goroutine,
step, call), the log, and the returns. -/
structure Shared where
  metric : PCPMetric
  writer : Bool
  readers : Nat
  callers : List Caller
  clock : Nat
  invoked : List (Nat × Nat × Call)
  log : List Event
  returns : List Event

namespace Shared

/-- Goroutine `j` runs the calls of `programs[j]`, in order. -/
def init (m : PCPMetric) (programs : List (List Call)) : Shared :=
  ⟨m, false, 0, programs.map (⟨·, none⟩), 0, [], [], []⟩

/-- Goroutine `j`'s call `r` takes effect now, answering `answer`. -/
def takeEffect (w : Shared) (j : Nat) (r : Running) (answer : Answer) : Shared :=
  { w with log := w.log ++ [⟨j, r.inv, r.pc.call, answer, w.clock⟩] }

/-- Goroutine `j`'s call `r` returns `answer` now. -/
def respond (w : Shared) (j : Nat) (r : Running) (answer : Answer) : Shared :=
  { w with returns := w.returns ++ [⟨j, r.inv, r.pc.call, answer, w.clock⟩] }

/-- Goroutine `j` goes on with `next`, or, with `none`, has returned. -/
def moveTo (w : Shared) (j : Nat) (c : Caller) (next : Option Running) : Shared :=
  { w with callers := w.callers.set j { c with current := next } }

/-- Goroutine `j`'s step, the clock apart. A goroutine waiting for the lock
stays where it is. -/
def stepCaller (w : Shared) (j : Nat) : Shared :=
  match w.callers[j]? with
  | none => w
  | some c =>
    match c.current with
    | none =>
      match c.pending with
      | [] => w
      | call :: rest =>
        { w with callers := w.callers.set j ⟨rest, some ⟨w.clock, call.start⟩⟩,
                 invoked := w.invoked ++ [(j, w.clock, call)] }
    | some r =>
      match r.pc with
      | .setCheck v =>
        if !w.metric.desc.t.isCompatible v then
          let e := Answer.set (some "the value is incompatible with this metrics MetricType")
          ((w.takeEffect j r e).respond j r e).moveTo j c none
        else w.moveTo j c (some { r with pc := .setCompare v })
      | .setCompare v =>
        if v ≠ w.metric.val then w.moveTo j c (some { r with pc := .setLock v })
        else ((w.takeEffect j r (.set none)).respond j r (.set none)).moveTo j c none
      | .setLock v =>
        if !w.writer && w.readers == 0 then
          { w.moveTo j c (some { r with pc := .setStore v }) with writer := true }
        else w
      | .setStore v =>
        { (w.takeEffect j r (.set none)).moveTo j c (some { r with pc := .setUnlock v }) with
          metric := { w.metric with val := v } }
      | .setUnlock _ => { (w.respond j r (.set none)).moveTo j c none with writer := false }
      | .valLock =>
        if !w.writer then { w.moveTo j c (some { r with pc := .valRead }) with readers := w.readers + 1 }
        else w
      | .valRead =>
        (w.takeEffect j r (.val w.metric.val)).moveTo j c (some { r with pc := .valUnlock w.metric.val })
      | .valUnlock v => { (w.respond j r (.val v)).moveTo j c none with readers := w.readers - 1 }

/-- One step of goroutine `j`. -/
def step (w : Shared) (j : Nat) : Shared :=
  { w.stepCaller j with clock := w.clock + 1 }

/-- The steps of a schedule, in order. -/
def run (w : Shared) (sched : List Nat) : Shared :=
  sched.foldl step w

end Shared

/-! ## The invariant -/

section Invariant

variable {m : PCPMetric} {w w' : Shared}

/-- What a goroutine's call in progress has done: it was invoked, it is in the
log exactly once it has taken effect, with the answer it will return, and a
value `Set` found compatible stays so. -/
structure RunningOk (w : Shared) (j : Nat) (r : Running) : Prop where
  invoked : (j, r.inv, r.pc.call) ∈ w.invoked
  pending : r.pc.answer? = none → (j, r.inv) ∉ w.log.map Event.key
  logged : ∀ a, r.pc.answer? = some a →
    ∃ e ∈ w.log, e.key = (j, r.inv) ∧ e.call = r.pc.call ∧ e.answer = a
  compatible : ∀ v, r.pc.checked? = some v → w.metric.desc.t.isCompatible v = true

/-- The log is a sequential run of the metric from `m`, each call in it once
and in the order of their stamps, each stamped at or after its invocation; each
return is in the log with its answer, stamped no later; and each call in
progress is as `RunningOk` says. -/
structure LinInv (m : PCPMetric) (w : Shared) : Prop where
  sequential : runCalls m (w.log.map (·.call)) = (w.metric, w.log.map (·.answer))
  keys_nodup : (w.log.map Event.key).Nodup
  sorted : (w.log.map (·.time)).Pairwise (· < ·)
  log_times : ∀ e ∈ w.log, e.inv ≤ e.time ∧ e.time < w.clock
  log_invoked : ∀ e ∈ w.log, (e.caller, e.inv, e.call) ∈ w.invoked
  invoked_before : ∀ x ∈ w.invoked, x.2.1 < w.clock
  returned : ∀ x ∈ w.returns,
    ∃ e ∈ w.log, e.key = x.key ∧ e.call = x.call ∧ e.answer = x.answer ∧ e.time ≤ x.time
  running : ∀ j c r, w.callers[j]? = some c → c.current = some r → RunningOk w j r

theorem LinInv.init (programs : List (List Call)) : LinInv m (Shared.init m programs) where
  sequential := rfl
  keys_nodup := List.nodup_nil
  sorted := List.Pairwise.nil
  log_times := by simp [Shared.init]
  log_invoked := by simp [Shared.init]
  invoked_before := by simp [Shared.init]
  returned := by simp [Shared.init]
  running j c r at_j cur := by
    simp only [Shared.init, List.getElem?_map, Option.map_eq_some'] at at_j
    obtain ⟨_, -, rfl⟩ := at_j
    cases cur

/-- A call of another goroutine keeps what it has done when goroutine `j` logs
its own call and the metric keeps its type. -/
private theorem RunningOk.frame {j k : Nat} {r : Running} (ok : RunningOk w k r) (other : k ≠ j)
    (invoked : w.invoked ⊆ w'.invoked) {l : List Event} (log : w'.log = w.log ++ l)
    (own : ∀ e ∈ l, e.caller = j) (desc : w'.metric.desc = w.metric.desc) : RunningOk w' k r where
  invoked := invoked ok.invoked
  pending fresh := by
    rw [log, List.map_append, List.mem_append, not_or]
    refine ⟨ok.pending fresh, fun mem => ?_⟩
    obtain ⟨e, mem, same⟩ := List.mem_map.mp mem
    exact other ((congrArg Prod.fst same).symm.trans (own e mem))
  logged a answered := by
    obtain ⟨e, mem, rest⟩ := ok.logged a answered
    exact ⟨e, log ▸ List.mem_append_left _ mem, rest⟩
  compatible v checked := desc ▸ ok.compatible v checked

/-- A step of goroutine `j`, whose call is `r`: it may log the call with an
answer, may record its return, and leaves the goroutine at `next`, the metric's
type as it was, and the clock one step on. Such a step keeps the invariant when
it logs only a call not yet logged, records only a return the new log holds,
and leaves `next` as `RunningOk` says. -/
theorem LinInv.move (inv : LinInv m w) {j : Nat} {c : Caller} {r : Running}
    (at_j : w.callers[j]? = some c) (cur : c.current = some r) (logged returned : Option Answer)
    {next : Option Running}
    (callers : w'.callers = w.callers.set j { c with current := next })
    (clock : w'.clock = w.clock + 1) (invoked : w'.invoked = w.invoked)
    (log : w'.log = w.log ++ logged.toList.map fun a => ⟨j, r.inv, r.pc.call, a, w.clock⟩)
    (returns : w'.returns = w.returns ++ returned.toList.map fun a => ⟨j, r.inv, r.pc.call, a, w.clock⟩)
    (desc : w'.metric.desc = w.metric.desc)
    (sequential : runCalls m (w'.log.map (·.call)) = (w'.metric, w'.log.map (·.answer)))
    (fresh : logged.isSome → r.pc.answer? = none)
    (answered : ∀ a, returned = some a → ∃ e ∈ w'.log, e.key = (j, r.inv) ∧ e.call = r.pc.call ∧ e.answer = a)
    (own : ∀ r', next = some r' → RunningOk w' j r') : LinInv m w' := by
  have ok := inv.running j c r at_j cur
  have invBefore : r.inv < w.clock := inv.invoked_before _ ok.invoked
  have newTimes : ∀ e ∈ logged.toList.map fun a => (⟨j, r.inv, r.pc.call, a, w.clock⟩ : Event),
      e.caller = j ∧ e.inv = r.inv ∧ e.call = r.pc.call ∧ e.time = w.clock := by
    intro e mem
    obtain ⟨a, -, rfl⟩ := List.mem_map.mp mem
    exact ⟨rfl, rfl, rfl, rfl⟩
  have inLog : ∀ e ∈ w'.log, e ∈ w.log ∨ e.caller = j ∧ e.inv = r.inv ∧ e.call = r.pc.call ∧ e.time = w.clock := by
    intro e mem
    rw [log, List.mem_append] at mem
    exact mem.imp id (newTimes e)
  refine ⟨sequential, ?_, ?_, ?_, ?_, ?_, ?_, ?_⟩
  · rw [log, List.map_append, List.nodup_append]
    cases logged with
    | none => exact ⟨inv.keys_nodup, List.nodup_nil, by simp⟩
    | some a =>
      have pending := ok.pending (fresh rfl)
      exact ⟨inv.keys_nodup, List.nodup_singleton _, by simpa [Event.key] using pending⟩
  · rw [log, List.map_append, List.pairwise_append]
    refine ⟨inv.sorted, ?_, ?_⟩
    · cases logged <;> simp
    · intro t old t' new
      obtain ⟨e, mem, rfl⟩ := List.mem_map.mp old
      obtain ⟨e', mem', rfl⟩ := List.mem_map.mp new
      rw [(newTimes e' mem').2.2.2]
      exact (inv.log_times e mem).2
  · intro e mem
    rcases inLog e mem with old | ⟨-, same, -, time⟩
    · have := inv.log_times e old; omega
    · omega
  · intro e mem
    rw [invoked]
    rcases inLog e mem with old | ⟨caller, same, call, -⟩
    · exact inv.log_invoked e old
    · rw [caller, same, call]; exact ok.invoked
  · intro x mem
    rw [invoked] at mem
    have := inv.invoked_before x mem; omega
  · intro x mem
    rw [returns, List.mem_append] at mem
    rcases mem with old | new
    · obtain ⟨e, mem, rest⟩ := inv.returned x old
      exact ⟨e, log ▸ List.mem_append_left _ mem, rest⟩
    · obtain ⟨a, some, rfl⟩ := List.mem_map.mp new
      obtain ⟨e, mem, key, call, answer⟩ := answered a (Option.mem_toList.mp some)
      refine ⟨e, mem, key, call, answer, ?_⟩
      rcases inLog e mem with old | ⟨-, -, -, time⟩
      · exact (inv.log_times e old).2.le
      · exact time.le
  · intro k c' r' at_k cur'
    rw [callers, List.getElem?_set] at at_k
    split at at_k
    · subst_vars
      split at at_k
      · cases at_k
        exact own r' cur'
      · cases at_k
    · have other : k ≠ j := fun same => ‹¬j = k› same.symm
      exact (inv.running k c' r' at_k cur').frame other (invoked ▸ List.Subset.refl _) log
        (fun e mem => (newTimes e mem).1) desc

theorem LinInv.tick (inv : LinInv m w) : LinInv m { w with clock := w.clock + 1 } where
  sequential := inv.sequential
  keys_nodup := inv.keys_nodup
  sorted := inv.sorted
  log_times e mem := ⟨(inv.log_times e mem).1, Nat.lt_succ_of_lt (inv.log_times e mem).2⟩
  log_invoked := inv.log_invoked
  invoked_before x mem := Nat.lt_succ_of_lt (inv.invoked_before x mem)
  returned := inv.returned
  running j c r at_j cur :=
    have ok := inv.running j c r at_j cur
    ⟨ok.invoked, ok.pending, ok.logged, ok.compatible⟩

/-- Goroutine `j` invokes its next call, stamped with the current step. -/
private theorem LinInv.invoke (inv : LinInv m w) (j : Nat) (call : Call) (rest : List Call) :
    LinInv m { w with callers := w.callers.set j ⟨rest, some ⟨w.clock, call.start⟩⟩,
                      invoked := w.invoked ++ [(j, w.clock, call)], clock := w.clock + 1 } where
  sequential := inv.sequential
  keys_nodup := inv.keys_nodup
  sorted := inv.sorted
  log_times e mem := ⟨(inv.log_times e mem).1, Nat.lt_succ_of_lt (inv.log_times e mem).2⟩
  log_invoked e mem := List.mem_append_left _ (inv.log_invoked e mem)
  invoked_before x mem := by
    rcases List.mem_append.mp mem with old | new
    · exact Nat.lt_succ_of_lt (inv.invoked_before x old)
    · rw [List.mem_singleton.mp new]; exact Nat.lt_succ_self _
  returned := inv.returned
  running k c' r at_k cur := by
    rw [List.getElem?_set] at at_k
    split at at_k
    · subst_vars
      split at at_k
      · cases at_k
        cases cur
        refine ⟨by simp, fun _ logged => ?_, by simp, by simp⟩
        obtain ⟨e, mem, same⟩ := List.mem_map.mp logged
        have := inv.log_times e mem
        have : e.inv = w.clock := congrArg Prod.snd same
        omega
      · cases at_k
    · have other : k ≠ j := fun same => ‹¬j = k› same.symm
      exact (inv.running k c' r at_k cur).frame other (List.subset_append_left _ _)
        (List.append_nil _).symm (fun _ mem => by cases mem) rfl

/-- A call that has not taken effect moves on, the log as it was. -/
private theorem RunningOk.advance {j : Nat} {r : Running} {pc : CallPc} (ok : RunningOk w j r)
    (invoked : w'.invoked = w.invoked) (log : w'.log = w.log) (call : pc.call = r.pc.call)
    (pending : r.pc.answer? = none) (still : pc.answer? = none)
    (compatible : ∀ v, pc.checked? = some v → w'.metric.desc.t.isCompatible v = true) :
    RunningOk w' j { r with pc := pc } where
  invoked := invoked ▸ call ▸ ok.invoked
  pending _ := log ▸ ok.pending pending
  logged a answered := by simp [still] at answered
  compatible := compatible

/-- A step that moves a call which has not taken effect on, logging nothing,
keeps the invariant. -/
private theorem LinInv.advance (inv : LinInv m w) {j : Nat} {c : Caller} {r : Running}
    (at_j : w.callers[j]? = some c) (cur : c.current = some r) {pc : CallPc}
    (callers : w'.callers = w.callers.set j { c with current := some { r with pc := pc } })
    (clock : w'.clock = w.clock + 1) (invoked : w'.invoked = w.invoked) (log : w'.log = w.log)
    (returns : w'.returns = w.returns) (metric : w'.metric = w.metric) (call : pc.call = r.pc.call)
    (pending : r.pc.answer? = none) (still : pc.answer? = none)
    (compatible : ∀ v, pc.checked? = some v → w.metric.desc.t.isCompatible v = true) : LinInv m w' :=
  inv.move at_j cur none none callers clock invoked (log.trans (List.append_nil _).symm)
    (returns.trans (List.append_nil _).symm) (congrArg PCPMetric.desc metric)
    (log ▸ metric ▸ inv.sequential) (fun h => by cases h) (fun _ h => by cases h)
    fun _ next => by
      cases next
      exact (inv.running j c r at_j cur).advance invoked log call pending still (metric ▸ compatible)

/-- A call takes effect with `a` and moves on to return it. -/
private theorem RunningOk.effect {j : Nat} {r : Running} {pc : CallPc} {a : Answer} (ok : RunningOk w j r)
    (invoked : w'.invoked = w.invoked) (log : w'.log = w.log ++ [⟨j, r.inv, r.pc.call, a, w.clock⟩])
    (call : pc.call = r.pc.call) (answer : pc.answer? = some a) (unchecked : pc.checked? = none) :
    RunningOk w' j { r with pc := pc } where
  invoked := invoked ▸ call ▸ ok.invoked
  pending fresh := by simp [answer] at fresh
  logged a' answered := by
    rw [answer, Option.some.injEq] at answered
    exact ⟨⟨j, r.inv, r.pc.call, a, w.clock⟩, log ▸ List.mem_append_right _ (List.mem_singleton_self _),
      rfl, call.symm, answered⟩
  compatible v checked := by simp [unchecked] at checked

/-- Logging a call whose sequential run gives `m'` and its answer keeps the log
a sequential run. -/
private theorem LinInv.sequential_log (inv : LinInv m w) {e : Event} {m' : PCPMetric}
    (applied : e.call.apply w.metric = (m', e.answer)) :
    runCalls m ((w.log ++ [e]).map (·.call)) = (m', (w.log ++ [e]).map (·.answer)) := by
  simp only [List.map_append, List.map_cons, List.map_nil]
  rw [runCalls_concat, inv.sequential]
  simp [seqStep, applied]

/-- Every step of every goroutine keeps the invariant. -/
theorem LinInv.step (inv : LinInv m w) (j : Nat) : LinInv m (w.step j) := by
  unfold Shared.step Shared.stepCaller
  split
  · exact inv.tick
  rename_i c at_j
  split
  · split
    · exact inv.tick
    · exact inv.invoke j _ _
  rename_i r cur
  have ok := inv.running j c r at_j cur
  have mem_new : ∀ {e : Event}, e ∈ w.log ++ [e] := List.mem_append_right _ (List.mem_singleton_self _)
  split
  · -- `if !m.desc.t.IsCompatible(val)`
    rename_i v pc
    split
    · rename_i incompatible
      have rejected : w.metric.desc.t.isCompatible v = false := by simpa using incompatible
      refine inv.move at_j cur (some _) (some _) rfl rfl rfl rfl rfl rfl (inv.sequential_log ?_)
        (fun _ => by rw [pc]; rfl) (fun a answered => by cases answered; exact ⟨_, mem_new, rfl, rfl, rfl⟩)
        (fun _ next => by cases next)
      simp only [pc, CallPc.call, Call.apply, PCPMetric.set_of_incompatible rejected]
      rfl
    · rename_i compatible
      have accepted : w.metric.desc.t.isCompatible v = true := by simpa using compatible
      exact inv.advance at_j cur rfl rfl rfl rfl rfl rfl (by rw [pc]; rfl) (by rw [pc]; rfl) rfl
        fun _ h => by cases h; exact accepted
  · -- `if val != m.val`
    rename_i v pc
    have accepted := ok.compatible v (by rw [pc]; rfl)
    split
    · exact inv.advance at_j cur rfl rfl rfl rfl rfl rfl (by rw [pc]; rfl) (by rw [pc]; rfl) rfl
        fun _ h => by cases h; exact accepted
    · rename_i same
      have same : v = w.metric.val := not_not.mp same
      refine inv.move at_j cur (some _) (some _) rfl rfl rfl rfl rfl rfl (inv.sequential_log ?_)
        (fun _ => by rw [pc]; rfl) (fun a answered => by cases answered; exact ⟨_, mem_new, rfl, rfl, rfl⟩)
        (fun _ next => by cases next)
      simp only [pc, CallPc.call, Call.apply]
      rw [PCPMetric.set_of_compatible accepted, same]
      rfl
  · -- `m.Lock()`
    rename_i v pc
    have accepted := ok.compatible v (by rw [pc]; rfl)
    split
    · exact inv.advance at_j cur rfl rfl rfl rfl rfl rfl (by rw [pc]; rfl) (by rw [pc]; rfl) rfl
        fun _ h => by cases h; exact accepted
    · exact inv.tick
  · -- `m.val = val`
    rename_i v pc
    have accepted := ok.compatible v (by rw [pc]; rfl)
    refine inv.move at_j cur (some _) none rfl rfl rfl rfl (List.append_nil _).symm rfl (inv.sequential_log ?_)
      (fun _ => by rw [pc]; rfl) (fun _ h => by cases h)
      fun _ next => by
        cases next
        exact ok.effect rfl rfl (by rw [pc]; rfl) rfl rfl
    simp only [pc, CallPc.call, Call.apply, PCPMetric.set_of_compatible accepted]
  · -- the deferred `m.Unlock()` and `return nil`
    rename_i v pc
    exact inv.move at_j cur none (some _) rfl rfl rfl (List.append_nil _).symm rfl rfl inv.sequential
      (fun h => by cases h) (fun a answered => by cases answered; exact ok.logged _ (by rw [pc]; rfl))
      (fun _ next => by cases next)
  · -- `m.RLock()`
    rename_i pc
    split
    · exact inv.advance at_j cur rfl rfl rfl rfl rfl rfl (by rw [pc]; rfl) (by rw [pc]; rfl) rfl
        fun _ h => by cases h
    · exact inv.tick
  · -- `return m.val`
    rename_i pc
    refine inv.move at_j cur (some _) none rfl rfl rfl rfl (List.append_nil _).symm rfl (inv.sequential_log ?_)
      (fun _ => by rw [pc]; rfl) (fun _ h => by cases h)
      fun _ next => by
        cases next
        exact ok.effect rfl rfl (by rw [pc]; rfl) rfl rfl
    simp only [pc, CallPc.call, Call.apply, PCPMetric.Val]
    rfl
  · -- the deferred `m.RUnlock()` and the return
    rename_i v pc
    exact inv.move at_j cur none (some _) rfl rfl rfl (List.append_nil _).symm rfl rfl inv.sequential
      (fun h => by cases h) (fun a answered => by cases answered; exact ok.logged _ (by rw [pc]; rfl))
      (fun _ next => by cases next)

/-- Every schedule keeps the invariant. -/
theorem LinInv.run (inv : LinInv m w) (sched : List Nat) : LinInv m (w.run sched) := by
  induction sched generalizing w with
  | nil => exact inv
  | cons j sched ih => exact ih (inv.step j)

/-- In the log, a call stamped earlier comes first. -/
theorem LinInv.index_lt (inv : LinInv m w) {i k : Nat} (li : i < w.log.length) (lk : k < w.log.length)
    (earlier : w.log[i].time < w.log[k].time) : i < k := by
  by_contra notLt
  rcases Nat.lt_or_eq_of_le (Nat.not_lt.mp notLt) with lt | rfl
  · have later := List.pairwise_iff_getElem.mp inv.sorted k i (by simpa using lk) (by simpa using li) lt
    simp only [List.getElem_map] at later
    omega
  · omega

end Invariant


/-- **Concurrent `Set` and `Val` calls on one metric are linearizable.** Whatever
calls the goroutines make and however their steps interleave, the log `L` orders
the calls that took effect so that: the calls of `L` made one after another on
the initial metric give exactly the answers `L` records, and leave the metric the
goroutines share; each call in `L` was invoked, and is in `L` once; every call
that returned is in `L` with what it returned; and a call that returned before
another was invoked comes before it in `L`. -/
theorem set_val_linearizable (m : PCPMetric) (programs : List (List Call)) (sched : List Nat) :
    let w := (Shared.init m programs).run sched
    runCalls m (w.log.map (·.call)) = (w.metric, w.log.map (·.answer)) ∧
      (∀ e ∈ w.log, (e.caller, e.inv, e.call) ∈ w.invoked) ∧ (w.log.map Event.key).Nodup ∧
      (∀ x ∈ w.returns, ∃ e ∈ w.log, e.key = x.key ∧ e.call = x.call ∧ e.answer = x.answer) ∧
      ∀ x ∈ w.returns, ∀ i k (li : i < w.log.length) (lk : k < w.log.length),
        w.log[i].key = x.key → x.time < w.log[k].inv → i < k := by
  intro w
  have inv : LinInv m w := (LinInv.init programs).run sched
  refine ⟨inv.sequential, inv.log_invoked, inv.keys_nodup, fun x returned => ?_,
    fun x returned i k li lk key invokedAfter => inv.index_lt li lk ?_⟩
  · obtain ⟨e, mem, key, call, answer, -⟩ := inv.returned x returned
    exact ⟨e, mem, key, call, answer⟩
  · obtain ⟨e, mem, key', -, -, effectBefore⟩ := inv.returned x returned
    have same : w.log[i] = e :=
      List.inj_on_of_nodup_map inv.keys_nodup (List.getElem_mem _) mem (key.trans key'.symm)
    have invokedBefore := (inv.log_times w.log[k] (List.getElem_mem _)).1
    rw [same]
    omega

/-- A `Set` invoked first, whose lock waits for a `Val` invoked later, takes
effect after it: the log puts the `Val`, which read the old value, first. -/
example :
    let m : PCPMetric := ⟨.int64 0, ⟨0, "m", .int64Type, .counterSemantics, .count oneUnit, 0, "", ""⟩, 0⟩
    let w := (Shared.init m [[.set (.int64 7)], [.val]]).run [0, 0, 0, 1, 1, 0, 1, 1, 0, 0, 0]
    w.log.map (fun e => (e.caller, e.answer)) = [(1, .val (.int64 0)), (0, .set none)] ∧
      w.metric.val = .int64 7 := by
  constructor <;> rfl

/-! ## The lock -/

/-- The goroutine holds `m`'s write lock. -/
def Caller.writing (c : Caller) : Bool := c.current.any (·.pc.writing)

/-- The goroutine holds a read lock of `m`. -/
def Caller.reading (c : Caller) : Bool := c.current.any (·.pc.reading)

section Lock

variable {w w' : Shared}

/-- The `RWMutex`'s writer flag and reader count are the goroutines that hold
it, and a writer excludes readers. -/
structure LockInv (w : Shared) : Prop where
  writers : w.callers.countP Caller.writing = if w.writer then 1 else 0
  readers : w.callers.countP Caller.reading = w.readers
  exclusive : w.writer = true → w.readers = 0

theorem LockInv.init (m : PCPMetric) (programs : List (List Call)) :
    LockInv (Shared.init m programs) where
  writers := by simp [Shared.init, List.countP_map, Function.comp_def, Caller.writing]
  readers := by simp [Shared.init, List.countP_map, Function.comp_def, Caller.reading]
  exclusive := nofun

/-- A goroutine that holds the lock is counted by it. -/
theorem LockInv.holds (lock : LockInv w) {c : Caller} (mem : c ∈ w.callers) :
    (c.writing = true → w.writer = true) ∧ (c.reading = true → 0 < w.readers) := by
  refine ⟨fun writing => ?_, fun reading => ?_⟩
  · have counted : 0 < w.callers.countP Caller.writing := List.countP_pos_iff.mpr ⟨c, mem, writing⟩
    rw [lock.writers] at counted
    cases h : w.writer <;> simp_all
  · have counted : 0 < w.callers.countP Caller.reading := List.countP_pos_iff.mpr ⟨c, mem, reading⟩
    exact lock.readers ▸ counted

/-- Goroutine `j` moving from `c` to `c'` keeps the invariant when the flag and
the count follow the locks it takes and releases. -/
private theorem LockInv.move (lock : LockInv w) {j : Nat} {c c' : Caller}
    (at_j : w.callers[j]? = some c)
    (callers : w'.callers = w.callers.set j c')
    (writer : (if w'.writer then 1 else 0) + (if c.writing then 1 else 0) =
      (if w.writer then 1 else 0) + (if c'.writing then 1 else 0))
    (readers : w'.readers + (if c.reading then 1 else 0) = w.readers + (if c'.reading then 1 else 0))
    (exclusive : w'.writer = true → w'.readers = 0) : LockInv w' := by
  obtain ⟨lt, rfl⟩ := List.getElem?_eq_some_iff.mp at_j
  refine ⟨?_, ?_, exclusive⟩
  · have moved := List.countP_set Caller.writing w.callers j c' lt
    have le := List.boole_getElem_le_countP Caller.writing w.callers j lt
    have := lock.writers
    rw [callers]
    omega
  · have moved := List.countP_set Caller.reading w.callers j c' lt
    have le := List.boole_getElem_le_countP Caller.reading w.callers j lt
    have := lock.readers
    rw [callers]
    omega

/-- The same, for goroutine `j` moving its call `r`, at `p`, to `next`. -/
private theorem LockInv.moveCall (lock : LockInv w) {j : Nat} {c : Caller}
    (at_j : w.callers[j]? = some c)
    {r : Running} (cur : c.current = some r) {p : CallPc} (pc : r.pc = p) {next : Option Running}
    (callers : w'.callers = w.callers.set j { c with current := next })
    (writer : (if w'.writer then 1 else 0) + (if p.writing then 1 else 0) =
      (if w.writer then 1 else 0) + (if next.any (·.pc.writing) then 1 else 0))
    (readers : w'.readers + (if p.reading then 1 else 0) =
      w.readers + (if next.any (·.pc.reading) then 1 else 0))
    (exclusive : w'.writer = true → w'.readers = 0) : LockInv w' :=
  lock.move at_j callers (by simpa only [Caller.writing, cur, pc, Option.any_some] using writer)
    (by simpa only [Caller.reading, cur, pc, Option.any_some] using readers) exclusive

/-- Every step of every goroutine keeps the invariant. -/
theorem LockInv.step (lock : LockInv w) (j : Nat) : LockInv (w.step j) := by
  suffices stepped : LockInv (w.stepCaller j) from
    ⟨stepped.writers, stepped.readers, stepped.exclusive⟩
  unfold Shared.stepCaller
  split
  · exact lock
  rename_i c at_j
  split
  · split
    · exact lock
    · rename_i cur _ _ _ _
      exact lock.move at_j rfl (by simp [Caller.writing, cur]) (by simp [Caller.reading, cur])
        lock.exclusive
  rename_i r cur
  obtain ⟨writerOf, readersOf⟩ := lock.holds (List.getElem?_mem at_j)
  split <;> rename_i pc
  · -- `if !m.desc.t.IsCompatible(val)`
    split <;> exact lock.moveCall at_j cur pc rfl rfl rfl lock.exclusive
  · -- `if val != m.val`
    split <;> exact lock.moveCall at_j cur pc rfl rfl rfl lock.exclusive
  · -- `m.Lock()`
    split
    · rename_i free
      obtain ⟨notWriter, noReaders⟩ : w.writer = false ∧ w.readers = 0 := by simpa using free
      exact lock.moveCall at_j cur pc rfl (by rw [notWriter]; rfl) rfl fun _ => noReaders
    · exact lock
  · -- `m.val = val`
    exact lock.moveCall at_j cur pc rfl rfl rfl lock.exclusive
  · -- the deferred `m.Unlock()`
    have held := writerOf (by simp only [Caller.writing, cur, pc, Option.any_some]; rfl)
    exact lock.moveCall at_j cur pc rfl (by rw [held]; rfl) rfl nofun
  · -- `m.RLock()`
    split
    · rename_i free
      have notWriter : w.writer = false := by simpa using free
      exact lock.moveCall at_j cur pc rfl rfl rfl fun writer =>
        absurd (writer.symm.trans notWriter) (by decide)
    · exact lock
  · -- `return m.val`
    exact lock.moveCall at_j cur pc rfl rfl rfl lock.exclusive
  · -- the deferred `m.RUnlock()`
    have held := readersOf (by simp only [Caller.reading, cur, pc, Option.any_some]; rfl)
    exact lock.moveCall at_j cur pc rfl rfl (by show w.readers - 1 + 1 = w.readers + 0; omega)
      fun writer => by have := lock.exclusive writer; omega

/-- Every schedule keeps the invariant. -/
theorem LockInv.run (lock : LockInv w) (sched : List Nat) : LockInv (w.run sched) := by
  induction sched generalizing w with
  | nil => exact lock
  | cons j sched ih => exact ih (lock.step j)

end Lock

/-- **`m`'s `RWMutex` keeps `Set`'s store apart.** Under every schedule of any
calls, at most one goroutine holds the write lock and none holds a read lock
while one does, so `Set`'s store of `m.val` overlaps neither another store nor
`Val`'s read; and each deferred `m.Unlock()` and `m.RUnlock()` finds the lock
held, so Go's fatal unlock of an unlocked `RWMutex` never happens. -/
theorem set_val_exclusive (m : PCPMetric) (programs : List (List Call)) (sched : List Nat) :
    let w := (Shared.init m programs).run sched
    w.callers.countP Caller.writing ≤ 1 ∧
      (w.callers.countP Caller.writing = 0 ∨ w.callers.countP Caller.reading = 0) ∧
      ∀ c ∈ w.callers,
        (c.writing = true → w.writer = true) ∧ (c.reading = true → 0 < w.readers) := by
  intro w
  have lock : LockInv w := (LockInv.init m programs).run sched
  refine ⟨?_, ?_, fun c mem => lock.holds mem⟩
  · rw [lock.writers]
    split <;> omega
  · rw [lock.writers, lock.readers]
    cases writer : w.writer
    · exact .inl rfl
    · exact .inr (lock.exclusive writer)

/-- `Set` compares `val != m.val` before it takes the lock, so one `Set` can
read `m.val` while another holds the write lock and is about to store it: the
two accesses race. -/
example :
    let m : PCPMetric := ⟨.int64 0, ⟨0, "m", .int64Type, .counterSemantics, .count oneUnit, 0, "", ""⟩, 0⟩
    let w := (Shared.init m [[.set (.int64 7)], [.set (.int64 8)]]).run [0, 0, 0, 0, 1, 1]
    w.callers.map (·.current.map (·.pc)) =
      [some (.setStore (.int64 7)), some (.setCompare (.int64 8))] := by
  rfl

end PcpSpeed.Speed
