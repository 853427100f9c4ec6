/-
A lease that is renewed by beats.  It covers the times up to `term` behind its anchor or
behind one of its beats, and a beat counts only if it comes soon after a time that the lease
covered.  So the beats of a lease never pause for long: after a pause there is no beat
any more.
-/
import SafeTimer.EventRun
import Mathlib.Algebra.Order.Monoid.Defs

namespace SafeTimer

universe u

variable {T : Type u} [LinearOrder T]

section Chain

variable [Add T] {anchor term time time' : T} {beats : List T}

/-- The time lies at most `term` behind the anchor or behind a beat. -/
def Covered (anchor : T) (beats : List T) (term time : T) : Prop :=
  ∃ t ∈ anchor :: beats, time ≤ t + term

/-- Every beat is covered by the anchor and the beats before it. -/
def Chained (anchor : T) (beats : List T) (limit : T) : Prop :=
  ∀ early beat, Occurs beats early beat → Covered anchor early limit beat

theorem Covered.of_le (hcovered : Covered anchor beats term time) (hle : time' ≤ time) :
    Covered anchor beats term time' := by
  obtain ⟨t, hmem, hcover⟩ := hcovered
  exact ⟨t, hmem, hle.trans hcover⟩

theorem chained_nil (anchor limit : T) : Chained anchor [] limit := by
  rintro early beat ⟨late, hsplit⟩
  exact absurd hsplit.symm (by simp)

theorem Chained.concat {beat : T} (hchained : Chained anchor beats term)
    (hcovered : Covered anchor beats term beat) : Chained anchor (beats ++ [beat]) term := by
  intro early beat' hoccurs
  rcases occurs_concat_iff.mp hoccurs with ⟨rfl, rfl⟩ | hold
  · exact hcovered
  · exact hchained early beat' hold

end Chain

section Order

variable [AddCommMonoid T] [IsOrderedCancelAddMonoid T] {anchor anchor' term time time' : T}
  {beats beats' : List T}

theorem Covered.mono (hcovered : Covered anchor beats term time) (hanchor : anchor ≤ anchor')
    (hbeats : beats ⊆ beats') : Covered anchor' beats' term time := by
  obtain ⟨t, hmem, hle⟩ := hcovered
  rcases List.mem_cons.mp hmem with rfl | hbeat
  · exact ⟨anchor', List.mem_cons_self, hle.trans (add_le_add_left hanchor term)⟩
  · exact ⟨t, List.mem_cons_of_mem _ (hbeats hbeat), hle⟩

/-- What comes soon after a covered time is covered by a longer lease. -/
theorem Covered.add {window : T} (hcovered : Covered anchor beats term time)
    (hsoon : time' ≤ time + window) : Covered anchor beats (term + window) time' := by
  obtain ⟨t, hmem, hle⟩ := hcovered
  refine ⟨t, hmem, ?_⟩
  calc time' ≤ time + window := hsoon
    _ ≤ t + term + window := add_le_add_left hle window
    _ = t + (term + window) := add_assoc t term window

/-- Nothing is covered long after the last beat. -/
theorem Covered.lt {bound : T} (hcovered : Covered anchor beats term time)
    (hanchor : anchor < bound) (hbeats : ∀ beat ∈ beats, beat < bound) :
    time < bound + term := by
  obtain ⟨t, hmem, hle⟩ := hcovered
  have ht : t < bound := by
    rcases List.mem_cons.mp hmem with rfl | hbeat
    · exact hanchor
    · exact hbeats t hbeat
  exact hle.trans_lt (add_lt_add_left ht term)

theorem Chained.mono (hchained : Chained anchor beats term) (hanchor : anchor ≤ anchor') :
    Chained anchor' beats term := by
  intro early beat hoccurs
  exact (hchained early beat hoccurs).mono hanchor (List.Subset.refl early)

/-- A pause of the length of the limit is the end of the beats. -/
theorem Chained.lt_of_pause {bound limit : T} (hchained : Chained anchor beats limit)
    (hanchor : anchor < bound) (hpause : ∀ beat ∈ beats, beat < bound + limit → beat < bound) :
    ∀ beat ∈ beats, beat < bound := by
  induction beats using List.reverseRecOn with
  | nil =>
      intro beat hmem
      cases hmem
  | append_singleton early last ih =>
      have hearly : ∀ beat ∈ early, beat < bound := by
        apply ih
        · exact fun early' beat hoccurs => hchained early' beat (hoccurs.append [last])
        · exact fun beat hmem => hpause beat (List.mem_append_left _ hmem)
      have hlast : last < bound + limit := (hchained early last ⟨[], rfl⟩).lt hanchor hearly
      rw [List.forall_mem_append, List.forall_mem_singleton]
      exact ⟨hearly, hpause last (by simp) hlast⟩

end Order

end SafeTimer
