/-
A server that answers requests in a loop, one datagram at a time.  A datagram that
cannot be read ends the loop; a request that is not accepted is skipped; the call that
answers a request may fail to return.  Between the datagrams the state of the server may
change for other reasons.
-/
import SafeTimer.EventRun

namespace SafeTimer

universe u v w x y z

variable {R : Type u} {S : Type v} {D : Type w} {Q : Type x} {A : Type y} {B : Type z}

/-- The parts of the loop.  `R` says why a call does not return. -/
structure RequestServer (R : Type u) (S : Type v) (D : Type w) (Q : Type x) (A : Type y)
    (B : Type z) where
  read : D → Option Q
  accepts : Q → Bool
  answer : S → Q → Except R (S × A)
  background : S → B → Except R S

/-- In the states that satisfy the invariant the calls return exactly where `Returns` says so. -/
structure RequestServer.Lawful (server : RequestServer R S D Q A B) (Inv : S → Prop)
    (Returns : S → Q → Prop) : Prop where
  returns_iff : ∀ state request, Inv state →
    (Returns state request ↔ ∃ next reply, server.answer state request = .ok (next, reply))
  answer_inv : ∀ state request next reply, Inv state →
    server.answer state request = .ok (next, reply) → Inv next
  background : ∀ state event, Inv state →
    ∃ next, server.background state event = .ok next ∧ Inv next

variable (server : RequestServer R S D Q A B)

/-- One input: a background event, or a datagram in the socket.  The flag says whether
the loop is still running, and the output is the reply with its request. -/
def RequestServer.step :
    S × Bool → B ⊕ D → Except R ((S × Bool) × Option (Q × A))
  | (state, running), .inl event =>
      match server.background state event with
      | .error fault => .error fault
      | .ok next => .ok ((next, running), none)
  | (state, false), .inr _ => .ok ((state, false), none)
  | (state, true), .inr datagram =>
      match server.read datagram with
      | none => .ok ((state, false), none)
      | some request =>
          if server.accepts request then
            match server.answer state request with
            | .error fault => .error fault
            | .ok (next, reply) => .ok ((next, true), some (request, reply))
          else .ok ((state, true), none)

/-- The request of a well-formed datagram. -/
def RequestServer.request : B ⊕ D → Option Q
  | .inl _ => none
  | .inr datagram => (server.read datagram).filter server.accepts

/-- A malformed datagram, of which the server should take no notice. -/
def RequestServer.Malformed : B ⊕ D → Prop
  | .inl _ => False
  | .inr datagram => server.request (.inr datagram : B ⊕ D) = none

/-- A datagram that ends the loop. -/
def RequestServer.Unreadable : B ⊕ D → Prop
  | .inl _ => False
  | .inr datagram => server.read datagram = none

instance : DecidablePred server.Malformed
  | .inl _ => inferInstanceAs (Decidable False)
  | .inr datagram =>
      decidable_of_iff ((server.request (.inr datagram : B ⊕ D)).isNone = true)
        Option.isNone_iff_eq_none

/-- The inputs with all malformed datagrams removed. -/
def RequestServer.withoutMalformed (inputs : List (B ⊕ D)) : List (B ⊕ D) :=
  inputs.filter fun input => ¬ server.Malformed input

/-- The replies of a run. -/
def replies (outputs : List (Option (Q × A))) : List (Q × A) :=
  outputs.filterMap id

/-- Every well-formed request is answered once, in the order of the requests, and
replies and effects are as without the malformed datagrams. -/
def RequestServer.Answers (init : S) (inputs : List (B ⊕ D)) : Prop :=
  ∃ final outputs running outputs' running',
    runEvents server.step (init, true) inputs = .ok ((final, running), outputs) ∧
    runEvents server.step (init, true) (server.withoutMalformed inputs) =
      .ok ((final, running'), outputs') ∧
    replies outputs = replies outputs' ∧
    (replies outputs).map Prod.fst = inputs.filterMap server.request

/-- Each request that the loop gets to finds the server such that the call returns. -/
def RequestServer.CallsReturn (Returns : S → Q → Prop) (init : S) (running : Bool)
    (inputs : List (B ⊕ D)) : Prop :=
  EveryStep server.step (fun _ state input => state.2 = true →
    ∀ request ∈ server.request input, Returns state.1 request) (init, running) inputs

/-- The requests that the loop gets to. -/
def RequestServer.served : List (B ⊕ D) → List Q
  | [] => []
  | .inl _ :: rest => served rest
  | .inr datagram :: rest =>
      match server.read datagram with
      | none => []
      | some request =>
          if server.accepts request then request :: served rest else served rest

variable {server}

@[simp] theorem replies_cons_some (reply : Q × A) (outputs : List (Option (Q × A))) :
    replies (some reply :: outputs) = reply :: replies outputs := rfl

theorem RequestServer.withoutMalformed_cons_of_not {input : B ⊕ D}
    (hkept : ¬ server.Malformed input) (rest : List (B ⊕ D)) :
    server.withoutMalformed (input :: rest) = input :: server.withoutMalformed rest := by
  rw [withoutMalformed, List.filter_cons_of_pos (by simpa using hkept), withoutMalformed]

theorem RequestServer.withoutMalformed_cons {input : B ⊕ D}
    (hmalformed : server.Malformed input) (rest : List (B ⊕ D)) :
    server.withoutMalformed (input :: rest) = server.withoutMalformed rest := by
  rw [withoutMalformed, List.filter_cons_of_neg (by simpa using hmalformed),
    withoutMalformed]

section Datagram

variable {datagram : D} {request : Q}

theorem RequestServer.request_unreadable (hread : server.read datagram = none) :
    server.request (.inr datagram : B ⊕ D) = none := by
  rw [RequestServer.request, hread]
  rfl

theorem RequestServer.request_accepted (hread : server.read datagram = some request)
    (haccepts : server.accepts request = true) :
    server.request (.inr datagram : B ⊕ D) = some request := by
  rw [RequestServer.request, hread]
  exact Option.filter_some_pos haccepts

theorem RequestServer.request_skipped (hread : server.read datagram = some request)
    (haccepts : server.accepts request = false) :
    server.request (.inr datagram : B ⊕ D) = none := by
  rw [RequestServer.request, hread]
  exact Option.filter_some_neg haccepts

/-- Nothing can stand wrongly behind a datagram that the loop survives. -/
theorem RequestServer.pairwise_cons_iff {input : B ⊕ D} {rest : List (B ⊕ D)}
    (hreadable : ¬ server.Unreadable input) :
    ((input :: rest).Pairwise fun earlier later =>
        server.Unreadable earlier → server.request later = none) ↔
      rest.Pairwise fun earlier later =>
        server.Unreadable earlier → server.request later = none := by
  rw [List.pairwise_cons]
  constructor
  · exact And.right
  · intro hrest
    exact ⟨fun _ _ hunreadable => absurd hunreadable hreadable, hrest⟩

end Datagram

/-- The loop gets to all requests unless one stands behind an unreadable datagram. -/
theorem RequestServer.served_eq_iff {inputs : List (B ⊕ D)} :
    server.served inputs = inputs.filterMap server.request ↔
      inputs.Pairwise fun earlier later =>
        server.Unreadable earlier → server.request later = none := by
  induction inputs with
  | nil => simp [served]
  | cons input rest ih =>
      rcases input with event | datagram
      · have hreadable : ¬ server.Unreadable (.inl event : B ⊕ D) := fun hfalse => hfalse
        rw [pairwise_cons_iff hreadable, ← ih]
        rfl
      · cases hread : server.read datagram with
        | none =>
            have hunreadable : server.Unreadable (.inr datagram : B ⊕ D) := hread
            have hserved : server.served (.inr datagram :: rest) = [] := by
              rw [served, hread]
            rw [hserved, List.filterMap_cons_none (request_unreadable hread), eq_comm,
              List.filterMap_eq_nil_iff, List.pairwise_cons]
            constructor
            · intro hnone
              refine ⟨fun later hmem _ => hnone later hmem, ?_⟩
              exact List.pairwise_of_forall_mem_list fun _ _ later hmem _ => hnone later hmem
            · intro hpairwise later hmem
              exact hpairwise.1 later hmem hunreadable
        | some request =>
            have hreadable : ¬ server.Unreadable (.inr datagram : B ⊕ D) := by
              intro hnone
              cases hread.symm.trans hnone
            rw [pairwise_cons_iff hreadable, ← ih, served, hread]
            cases haccepts : server.accepts request with
            | true =>
                rw [List.filterMap_cons_some (request_accepted hread haccepts)]
                simp only [haccepts, if_true, List.cons.injEq, true_and]
            | false =>
                rw [List.filterMap_cons_none (request_skipped hread haccepts)]
                simp only [haccepts, Bool.false_eq_true, if_false]

/-- The replies of a loop that has these inputs in front of it. -/
def RequestServer.servedFrom (server : RequestServer R S D Q A B) (running : Bool)
    (inputs : List (B ⊕ D)) : List Q :=
  if running then server.served inputs else []

/-- A malformed datagram changes nothing but, perhaps, the flag. -/
theorem RequestServer.step_malformed {datagram : D} (state : S) (running : Bool)
    (hmalformed : server.request (.inr datagram : B ⊕ D) = none) :
    ∃ running', server.step (state, running) (.inr datagram) = .ok ((state, running'), none) ∧
      ∀ rest, server.servedFrom running (.inr datagram :: rest) =
        server.servedFrom running' rest := by
  cases running with
  | false => exact ⟨false, rfl, fun _ => rfl⟩
  | true =>
      cases hread : server.read datagram with
      | none =>
          refine ⟨false, ?_, ?_⟩
          · simp only [step, hread]
          · intro rest
            simp only [servedFrom, served, hread, if_true, Bool.false_eq_true, if_false]
      | some request =>
          have haccepts : server.accepts request = false := by
            by_contra htrue
            rw [request_accepted hread (Bool.not_eq_false _ ▸ htrue)] at hmalformed
            cases hmalformed
          refine ⟨true, ?_, ?_⟩
          · simp only [step, hread, haccepts, Bool.false_eq_true, if_false]
          · intro rest
            simp only [servedFrom, served, hread, haccepts, if_true, Bool.false_eq_true,
              if_false]

/-- The request of a well-formed datagram has been read and accepted. -/
theorem RequestServer.request_eq_some {datagram : D} {request : Q}
    (hrequest : server.request (.inr datagram : B ⊕ D) = some request) :
    server.read datagram = some request ∧ server.accepts request = true := by
  rw [RequestServer.request, Option.filter_eq_some_iff] at hrequest
  exact hrequest

/-- The loop replies to the requests that it gets to. -/
theorem RequestServer.replies_eq_servedFrom {state : S} {running : Bool} {final : S × Bool}
    {inputs : List (B ⊕ D)} {outputs : List (Option (Q × A))}
    (hrun : runEvents server.step (state, running) inputs = .ok (final, outputs)) :
    (replies outputs).map Prod.fst = server.servedFrom running inputs := by
  induction inputs generalizing state running outputs with
  | nil =>
      cases hrun
      cases running <;> rfl
  | cons input rest ih =>
      obtain ⟨⟨next, running'⟩, output, tail, hstep, hrest, rfl⟩ :=
        runEvents_cons_eq_ok_iff.mp hrun
      have htail := ih hrest
      rcases input with event | datagram
      · rw [step] at hstep
        split at hstep <;> cases hstep
        exact htail
      · cases hrequest : server.request (.inr datagram : B ⊕ D) with
        | none =>
            obtain ⟨_, hmalformed, hserved⟩ := step_malformed state running hrequest
            cases hmalformed.symm.trans hstep
            rw [hserved, ← htail]
            rfl
        | some request =>
            cases running with
            | false =>
                cases hstep
                exact htail
            | true =>
                obtain ⟨hread, haccepts⟩ := request_eq_some hrequest
                simp only [step, hread, haccepts, if_true] at hstep
                split at hstep <;> cases hstep
                simpa [servedFrom, served, hread, haccepts] using htail

/-- A loop with all inputs in front of it ends in the same state and gives the same
replies as a running loop without the malformed datagrams. -/
def RequestServer.RunsAlike (server : RequestServer R S D Q A B) (init : S) (running : Bool)
    (inputs : List (B ⊕ D)) : Prop :=
  ∃ final outputs running' outputs',
    runEvents server.step (init, running) inputs = .ok ((final, running'), outputs) ∧
    runEvents server.step (init, true) (server.withoutMalformed inputs) =
      .ok ((final, true), outputs') ∧
    replies outputs = replies outputs'

section Alike

variable {init next : S} {running running' : Bool} {input : B ⊕ D} {rest : List (B ⊕ D)}

/-- Both loops take the input. -/
theorem RequestServer.RunsAlike.cons_kept {output : Option (Q × A)}
    (hkept : ¬ server.Malformed input)
    (hstep : server.step (init, running) input = .ok ((next, running), output))
    (hstep' : server.step (init, true) input = .ok ((next, true), output))
    (halike : server.RunsAlike next running rest) :
    server.RunsAlike init running (input :: rest) := by
  obtain ⟨final, outputs, last, outputs', hrun, hrun', hreplies⟩ := halike
  refine ⟨final, output :: outputs, last, output :: outputs', ?_, ?_, ?_⟩
  · exact runEvents_cons_eq_ok_iff.mpr ⟨_, _, _, hstep, hrun, rfl⟩
  · rw [withoutMalformed_cons_of_not hkept]
    exact runEvents_cons_eq_ok_iff.mpr ⟨_, _, _, hstep', hrun', rfl⟩
  · cases output with
    | none => exact hreplies
    | some reply => rw [replies_cons_some, replies_cons_some, hreplies]

/-- Only the loop with all inputs sees the datagram. -/
theorem RequestServer.RunsAlike.cons_malformed (hmalformed : server.Malformed input)
    (hstep : server.step (init, running) input = .ok ((init, running'), none))
    (halike : server.RunsAlike init running' rest) :
    server.RunsAlike init running (input :: rest) := by
  obtain ⟨final, outputs, last, outputs', hrun, hrun', hreplies⟩ := halike
  refine ⟨final, none :: outputs, last, outputs', ?_, ?_, hreplies⟩
  · exact runEvents_cons_eq_ok_iff.mpr ⟨_, _, _, hstep, hrun, rfl⟩
  · rw [withoutMalformed_cons hmalformed]
    exact hrun'

end Alike

section Rules

variable {Inv : S → Prop} {Returns : S → Q → Prop} {init : S} {running : Bool}
  {inputs : List (B ⊕ D)}

/-- A step keeps the invariant. -/
theorem RequestServer.Lawful.step (hlawful : server.Lawful Inv Returns) {state next : S × Bool}
    (hinv : Inv state.1) {input : B ⊕ D} {output : Option (Q × A)}
    (hstep : server.step state input = .ok (next, output)) : Inv next.1 := by
  obtain ⟨state, running⟩ := state
  rcases input with event | datagram
  · obtain ⟨state', hnext, hinv'⟩ := hlawful.background state event hinv
    simp only [RequestServer.step, hnext] at hstep
    cases hstep
    exact hinv'
  · cases running with
    | false =>
        cases hstep
        exact hinv
    | true =>
        simp only [RequestServer.step] at hstep
        split at hstep
        · cases hstep
          exact hinv
        · split at hstep
          · split at hstep
            · cases hstep
            · rename_i hanswer
              cases hstep
              exact hlawful.answer_inv _ _ _ _ hinv hanswer
          · cases hstep
            exact hinv

/-- A loop that gets to all requests does with them what it does without the malformed
datagrams. -/
theorem RequestServer.Lawful.runsAlike (hlawful : server.Lawful Inv Returns) (hinv : Inv init)
    (hserved : server.servedFrom running inputs = inputs.filterMap server.request)
    (hreturn : server.CallsReturn Returns init running inputs) :
    server.RunsAlike init running inputs := by
  induction inputs generalizing init running with
  | nil => exact ⟨init, [], running, [], rfl, rfl, rfl⟩
  | cons input rest ih =>
      obtain ⟨hfirst, hlater⟩ := everyStep_cons_iff.mp hreturn
      rcases input with event | datagram
      · obtain ⟨next, hnext, hinvNext⟩ := hlawful.background init event hinv
        have hstep : ∀ running, server.step (init, running) (.inl event) =
            .ok ((next, running), none) := by
          intro running
          simp only [RequestServer.step, hnext]
        have hkept : ¬ server.Malformed (.inl event : B ⊕ D) := fun hfalse => hfalse
        exact (ih hinvNext hserved (hlater _ _ (hstep running))).cons_kept hkept (hstep running)
          (hstep true)
      · cases hrequest : server.request (.inr datagram : B ⊕ D) with
        | none =>
            have hmalformed : server.Malformed (.inr datagram : B ⊕ D) := hrequest
            obtain ⟨running', hstep, hnext⟩ := step_malformed init running hrequest
            rw [List.filterMap_cons_none hrequest, hnext] at hserved
            exact (ih hinv hserved (hlater _ _ hstep)).cons_malformed hmalformed hstep
        | some request =>
            obtain ⟨hread, haccepts⟩ := request_eq_some hrequest
            have hkept : ¬ server.Malformed (.inr datagram : B ⊕ D) := by
              intro hmalformed
              cases hrequest.symm.trans hmalformed
            rw [List.filterMap_cons_some hrequest] at hserved
            cases running with
            | false => cases hserved
            | true =>
                obtain ⟨next, reply, hanswer⟩ := (hlawful.returns_iff init request hinv).mp
                  (hfirst rfl request hrequest)
                have hinvNext := hlawful.answer_inv init request next reply hinv hanswer
                have hstep : server.step (init, true) (.inr datagram) =
                    .ok ((next, true), some (request, reply)) := by
                  simp only [RequestServer.step, hread, haccepts, hanswer, if_true]
                have htail : server.servedFrom true rest = rest.filterMap server.request := by
                  simpa [servedFrom, served, hread, haccepts] using hserved
                exact (ih hinvNext htail (hlater _ _ hstep)).cons_kept hkept hstep hstep

/-- In a run that comes to its end all calls have returned. -/
theorem RequestServer.Lawful.callsReturn_of_run (hlawful : server.Lawful Inv Returns)
    (hinv : Inv init) {final : S × Bool} {outputs : List (Option (Q × A))}
    (hrun : runEvents server.step (init, running) inputs = .ok (final, outputs)) :
    server.CallsReturn Returns init running inputs := by
  intro pre input post state early hsplit hpre hrunning request hrequest
  subst hsplit
  have hstate : Inv state.1 :=
    runEvents_invariant (fun _ state _ => Inv state.1) hinv
      (fun _ _ _ _ _ _ _ hstate hstep => hlawful.step hstate hstep) hpre
  obtain ⟨next, output, tail, hstep, _⟩ := runEvents_step_of_split hrun hpre
  obtain ⟨state, _⟩ := state
  cases hrunning
  rcases input with event | datagram
  · cases hrequest
  · obtain ⟨hread, haccepts⟩ := request_eq_some hrequest
    simp only [RequestServer.step, hread, haccepts, if_true] at hstep
    split at hstep
    · cases hstep
    · rename_i next reply hanswer
      exact (hlawful.returns_iff state request hstate).mpr ⟨next, reply, hanswer⟩

/-- All requests are answered exactly when none stands behind an unreadable datagram and all
calls return. -/
theorem RequestServer.Lawful.answers_iff (hlawful : server.Lawful Inv Returns)
    (hinv : Inv init) :
    server.Answers init inputs ↔
      (inputs.Pairwise fun earlier later =>
        server.Unreadable earlier → server.request later = none) ∧
        server.CallsReturn Returns init true inputs := by
  rw [← served_eq_iff]
  constructor
  · rintro ⟨final, outputs, running, outputs', running', hrun, _, _, hrequests⟩
    refine ⟨?_, hlawful.callsReturn_of_run hinv hrun⟩
    rw [← hrequests, replies_eq_servedFrom hrun]
    rfl
  · rintro ⟨hserved, hreturn⟩
    have hservedFrom : server.servedFrom true inputs = inputs.filterMap server.request :=
      hserved
    obtain ⟨final, outputs, running, outputs', hrun, hrun', hreplies⟩ :=
      hlawful.runsAlike hinv hservedFrom hreturn
    refine ⟨final, outputs, running, outputs', true, hrun, hrun', hreplies, ?_⟩
    rw [replies_eq_servedFrom hrun, hservedFrom]

end Rules

end SafeTimer
