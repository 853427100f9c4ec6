/-
Threads that read a clock and sleep.  A run is given by the values of the clock where the
thread reads it or wakes up.  The values may be as late as they like; they do not go back,
and a sleep is not cut short.
-/
import SafeTimer.EventRun
import Mathlib.Order.Defs.PartialOrder
import Mathlib.Data.List.ReduceOption

namespace SafeTimer

universe t s o r e k

/-- What a thread does with the next value of the clock; `none` is an overflow.  A
sleeping thread takes the next value when it wakes up. -/
structure ClockedThread (T : Type t) (S : Type s) (O : Type o) where
  sleepsUntil : S → Option T
  next : S → T → Option (S × O)

/-- Where the thread is, and the last value of the clock. -/
structure Clocked (T : Type t) (S : Type s) where
  control : S
  clock : T

/-- Why a value of the clock is not the next one. -/
inductive ClockStop where
  | wentBack
  | wokeEarly
  | overflow
deriving DecidableEq

section Step

variable {T : Type t} {S : Type s} {O : Type o} [LT T] [DecidableLT T]

def ClockedThread.step (thread : ClockedThread T S O) (state : Clocked T S) (now : T) :
    Except ClockStop (Clocked T S × O) :=
  if now < state.clock then .error .wentBack
  else if (thread.sleepsUntil state.control).any (now < ·) then .error .wokeEarly
  else
    match thread.next state.control now with
    | none => .error .overflow
    | some (control, output) => .ok (⟨control, now⟩, output)

/-- What a step can do. -/
theorem ClockedThread.step_eq_ok {thread : ClockedThread T S O} {state state' : Clocked T S}
    {now : T} {output : O} (hstep : thread.step state now = .ok (state', output)) :
    ¬ now < state.clock ∧ (∀ wake, thread.sleepsUntil state.control = some wake → ¬ now < wake) ∧
      thread.next state.control now = some (state'.control, output) ∧ state'.clock = now := by
  rw [step] at hstep
  split at hstep
  · cases hstep
  · rename_i hforward
    split at hstep
    · cases hstep
    · rename_i hawake
      split at hstep
      · cases hstep
      · rename_i control output hnext
        cases hstep
        refine ⟨hforward, ?_, hnext, rfl⟩
        intro wake hwake hearly
        apply hawake
        simp [hwake, hearly]

end Step

section Frontier

variable {R : Type r} {S : Type s} {E : Type e} {O : Type o} {K : Type k} [Preorder K]

/-- Outputs that lie between the frontier before and the frontier after their step come in
increasing order. -/
theorem EveryStep.outputs_increase {step : S → E → Except R (S × Option O)}
    {cond : List E → S → E → Prop} {init : S} {events : List E}
    (hevery : EveryStep step cond init events) (inv : S → Prop) (hinit : inv init)
    (frontier : S → K) (rank : O → K)
    (hstep : ∀ pre state event next output, inv state → cond pre state event →
      step state event = .ok (next, output) →
      inv next ∧ frontier state ≤ frontier next ∧
        ∀ value, output = some value → frontier state ≤ rank value ∧ rank value < frontier next)
    {final : S} {outputs : List (Option O)}
    (hrun : runEvents step init events = .ok (final, outputs)) :
    inv final ∧ (∀ value ∈ outputs.reduceOption, rank value < frontier final) ∧
      (outputs.reduceOption.map rank).Pairwise (· < ·) := by
  refine hevery.invariant (fun _ state outputs => inv state ∧
    (∀ value ∈ outputs.reduceOption, rank value < frontier state) ∧
      (outputs.reduceOption.map rank).Pairwise (· < ·)) ?_ ?_ hrun
  · exact ⟨hinit, by simp, by simp⟩
  · rintro pre state outputs event next output - ⟨hinv, hbelow, hincrease⟩ hcond hlast
    obtain ⟨hinv', hforward, houtput⟩ := hstep pre state event next output hinv hcond hlast
    rw [List.reduceOption_append]
    cases output with
    | none =>
        simp only [List.reduceOption_cons_of_none, List.reduceOption_nil, List.append_nil]
        exact ⟨hinv', fun value hmem => lt_of_lt_of_le (hbelow value hmem) hforward, hincrease⟩
    | some value =>
        obtain ⟨hlow, hhigh⟩ := houtput value rfl
        simp only [List.reduceOption_cons_of_some, List.reduceOption_nil, List.mem_append,
          List.mem_singleton, List.map_append, List.map_cons, List.map_nil]
        refine ⟨hinv', ?_, ?_⟩
        · rintro earlier (hmem | rfl)
          · exact lt_of_lt_of_le (hbelow earlier hmem) hforward
          · exact hhigh
        · refine List.pairwise_append.mpr ⟨hincrease, List.pairwise_singleton _ _, ?_⟩
          intro low hlowMem high hhighMem
          obtain ⟨earlier, hmem, rfl⟩ := List.mem_map.mp hlowMem
          rw [List.mem_singleton.mp hhighMem]
          exact lt_of_lt_of_le (hbelow earlier hmem) hlow

end Frontier

end SafeTimer
