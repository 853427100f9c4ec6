/-
Return probes on a kernel function.  At the entry of a call the probe takes a free
instance and its entry handler leaves data there; at the return the handler sees the data
and may change the value.  There are `maxactive` instances: a call that finds none is
missed and returns as if there were no probe.
-/
import Mathlib.Algebra.BigOperators.Fin
import Mathlib.Algebra.BigOperators.Pi
import Mathlib.Algebra.Order.BigOperators.Group.Finset
import Mathlib.Data.Fintype.BigOperators

namespace SafeTimer

universe u v w x

structure Kretprobe (Arg : Type u) (Data : Type v) (Ret : Type w) where
  entryHandler : Arg → Data
  handler : Data → Ret → Ret
  maxactive : Nat

/-- A call under way, with the data of its instance if it has one. -/
structure ProbedCall (Arg : Type u) (Data : Type v) where
  arg : Arg
  data : Option Data

/-- The calls of each task, the innermost first, and the instances in use. -/
structure ProbeState (Task : Type x) (Arg : Type u) (Data : Type v) where
  calls : Task → List (ProbedCall Arg Data)
  used : Nat
  nmissed : Nat

variable {Task : Type x} {Arg : Type u} {Data : Type v} {Ret : Type w}

def ProbeState.initial : ProbeState Task Arg Data :=
  ⟨fun _ => [], 0, 0⟩

section Counted

variable [Fintype Task] {p : Kretprobe Arg Data Ret} {s : ProbeState Task Arg Data}

def ProbeState.underWay (s : ProbeState Task Arg Data) : Nat :=
  ∑ task, (s.calls task).length

/-- Every call under way has an instance of its own. -/
structure Kretprobe.Covers (p : Kretprobe Arg Data Ret) (s : ProbeState Task Arg Data) :
    Prop where
  data_eq : ∀ task, ∀ call ∈ s.calls task, call.data = some (p.entryHandler call.arg)
  used_eq : s.used = s.underWay
  nmissed_eq : s.nmissed = 0

theorem Kretprobe.covers_initial (p : Kretprobe Arg Data Ret) :
    p.Covers (.initial : ProbeState Task Arg Data) := by
  refine ⟨?_, ?_, rfl⟩
  · intro task call hmem
    cases hmem
  · simp [ProbeState.underWay, ProbeState.initial]

/-- Where no task has more than one call, an idle task leaves a call short of their
number. -/
theorem ProbeState.underWay_lt_card (hone : ∀ task, (s.calls task).length ≤ 1) {task : Task}
    (hidle : s.calls task = []) : s.underWay < Fintype.card Task := by
  have hlt : ∑ other, (s.calls other).length < ∑ _other : Task, 1 := by
    refine Finset.sum_lt_sum (fun other _ => hone other) ⟨task, Finset.mem_univ task, ?_⟩
    rw [hidle]
    exact Nat.zero_lt_one
  simpa [ProbeState.underWay] using hlt

end Counted

variable [DecidableEq Task]

/-- The task calls the function. -/
def Kretprobe.enter (p : Kretprobe Arg Data Ret) (s : ProbeState Task Arg Data) (task : Task)
    (arg : Arg) : ProbeState Task Arg Data :=
  if s.used < p.maxactive then
    { s with
      calls := Function.update s.calls task (⟨arg, some (p.entryHandler arg)⟩ :: s.calls task)
      used := s.used + 1 }
  else
    { s with
      calls := Function.update s.calls task (⟨arg, none⟩ :: s.calls task)
      nmissed := s.nmissed + 1 }

/-- The innermost call of the task returns; the caller gets the last component. -/
def Kretprobe.leave (p : Kretprobe Arg Data Ret) (s : ProbeState Task Arg Data) (task : Task)
    (value : Ret) : Option (ProbeState Task Arg Data × Arg × Ret) :=
  match s.calls task with
  | [] => none
  | call :: rest =>
      let calls := Function.update s.calls task rest
      match call.data with
      | some data =>
          some ({ s with calls := calls, used := s.used - 1 }, call.arg, p.handler data value)
      | none => some ({ s with calls := calls }, call.arg, value)

section Covered

variable [Fintype Task] {p : Kretprobe Arg Data Ret} {s : ProbeState Task Arg Data}

/-- The calls of one task change. -/
theorem sum_length_update (calls : Task → List (ProbedCall Arg Data)) (task : Task)
    (stack : List (ProbedCall Arg Data)) :
    (∑ other, (Function.update calls task stack other).length) + (calls task).length =
      (∑ other, (calls other).length) + stack.length := by
  have hrest : ∀ other ∈ Finset.univ.erase task,
      (Function.update calls task stack other).length = (calls other).length := by
    intro other hother
    rw [Function.update_of_ne (Finset.ne_of_mem_erase hother)]
  rw [← Finset.add_sum_erase _ _ (Finset.mem_univ task),
    ← Finset.add_sum_erase _ (fun other => (calls other).length) (Finset.mem_univ task),
    Finset.sum_congr rfl hrest, Function.update_self]
  omega

/-- A call finds an instance as long as fewer than `maxactive` are under way. -/
theorem Kretprobe.Covers.enter (hs : p.Covers s) (hfew : s.underWay < p.maxactive)
    (task : Task) (arg : Arg) :
    p.Covers (p.enter s task arg) ∧ (p.enter s task arg).calls =
      Function.update s.calls task (⟨arg, some (p.entryHandler arg)⟩ :: s.calls task) := by
  have hfree : s.used < p.maxactive := by
    rw [hs.used_eq]
    exact hfew
  rw [Kretprobe.enter, if_pos hfree]
  refine ⟨⟨?_, ?_, hs.nmissed_eq⟩, rfl⟩
  · intro other call hmem
    by_cases hother : other = task
    · subst hother
      simp only [Function.update_self, List.mem_cons] at hmem
      rcases hmem with rfl | hold
      · rfl
      · exact hs.data_eq other call hold
    · simp only [Function.update_of_ne hother] at hmem
      exact hs.data_eq other call hmem
  · have hsum := sum_length_update s.calls task
      (⟨arg, some (p.entryHandler arg)⟩ :: s.calls task)
    have hused := hs.used_eq
    simp only [ProbeState.underWay, List.length_cons] at hsum hused ⊢
    omega

/-- A covered call returns what the handler makes of its own entry data. -/
theorem Kretprobe.Covers.leave (hs : p.Covers s) {task : Task} {value ret : Ret} {arg : Arg}
    {s' : ProbeState Task Arg Data} (hleave : p.leave s task value = some (s', arg, ret)) :
    p.Covers s' ∧ ret = p.handler (p.entryHandler arg) value ∧
      ∃ call rest, s.calls task = call :: rest ∧ call.arg = arg ∧
        s'.calls = Function.update s.calls task rest := by
  rw [Kretprobe.leave] at hleave
  cases hcalls : s.calls task with
  | nil =>
      rw [hcalls] at hleave
      cases hleave
  | cons call rest =>
      have hdata := hs.data_eq task call (by rw [hcalls]; exact List.mem_cons_self)
      rw [hcalls] at hleave
      simp only [hdata, Option.some.injEq, Prod.mk.injEq] at hleave
      obtain ⟨rfl, rfl, rfl⟩ := hleave
      refine ⟨⟨?_, ?_, hs.nmissed_eq⟩, rfl, call, rest, rfl, rfl, rfl⟩
      · intro other call' hmem
        by_cases hother : other = task
        · subst hother
          simp only [Function.update_self] at hmem
          exact hs.data_eq other call' (by rw [hcalls]; exact List.mem_cons_of_mem call hmem)
        · simp only [Function.update_of_ne hother] at hmem
          exact hs.data_eq other call' hmem
      · have hsum := sum_length_update s.calls task rest
        have hused := hs.used_eq
        rw [hcalls] at hsum
        simp only [ProbeState.underWay, List.length_cons] at hsum hused ⊢
        omega

end Covered

end SafeTimer
