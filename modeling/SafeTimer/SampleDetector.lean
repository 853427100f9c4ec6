/-
The sample receivers as a whole (sample_hb/receiver.c, and test/correctness/normal-hb/
nhb_receiver.c, which reports every node that it finds in a list): the thread `hb_server`
on the datagrams that reach it, and the thread `expire_checker` by the readings of its
clock.  They share the node lists and take turns in any order.
-/
import SafeTimer.EpochOrder
import SafeTimer.ExpireChecker
import SafeTimer.PacketBounds

namespace SafeTimer

/-- The two longs of a datagram, `[flag, epoch_id]`.  A long datagram is cut off by
`recvfrom`; for a short one the loop is left. -/
def readHbMessage (bytes : List UInt8) : Option (Int64 × Int64) :=
  match readLong bytes 0, readLong bytes 8 with
  | .ok flag, .ok epoch => some (flag, epoch)
  | _, _ => none

/-- The receiver.  When `hb_server` leaves its loop, `cleanup` closes the socket and
destroys `epoch_list_ht`: then there is no table any more. -/
structure Detector (Table : Type → Type) (L : Type) where
  checker : Clocked Int64 CheckerControl
  epochListHt : Option (Table L)

inductive DetectorEvent where
  | datagram (client : InAddr) (bytes : List UInt8) (sendOk : Bool)
  | reading (now : Int64)

/-- What the receiver makes known: the reply to a request, a heartbeat that has been
entered, and a check with the nodes that it reports. -/
inductive DetectorOutput where
  | reply (baseTime : Int64)
  | heard (node : CString) (epoch : Int64)
  | checked (epoch : Int64) (reported : List CString)
deriving DecidableEq

inductive DetectorStop where
  | clock (stop : ClockStop)
  | overflow
  /-- a check finds the table destroyed -/
  | destroyed
deriving DecidableEq

section Model

variable {Table : Type → Type} {L : Type} (c : EpochClock) (ht : RemovalTable Table)
  (lib : ListLib L)

def Detector.initial : Detector Table L :=
  ⟨c.checkerStart, some ht.init⟩

/-- `hb_server` leaves its loop. -/
def Detector.endServer (d : Detector Table L) : Detector Table L :=
  { d with epochListHt := none }

/-- `hb_server` on a datagram. -/
def Detector.receive (d : Detector Table L) (client : InAddr) (bytes : List UInt8)
    (sendOk : Bool) : Except DetectorStop (Detector Table L × Option DetectorOutput) :=
  match d.epochListHt with
  | none => .ok (d, none)
  | some table =>
      match readHbMessage bytes with
      | none => .ok (d.endServer, none)
      | some (flag, epoch) =>
          if flag = 0 then
            if sendOk then .ok (d, some (.reply c.baseTime)) else .ok (d.endServer, none)
          else if flag = 1 then
            if epoch < 0 then .ok (d.endServer, none)
            else if epoch = Int64.maxValue then .error .overflow
            else
              .ok ({ d with epochListHt := some (hbServer ht lib table (inetNtop client) epoch) },
                some (.heard (inetNtop client) epoch))
          else .ok (d, none)

/-- The checker has come to an epoch. -/
def Detector.check (check : Table L → Int64 → Table L × List CString) (d : Detector Table L)
    (checker : Clocked Int64 CheckerControl) (epoch : Int64) :
    Except DetectorStop (Detector Table L × Option DetectorOutput) :=
  match d.epochListHt with
  | none => .error .destroyed
  | some table =>
      if epoch = Int64.maxValue then .error .overflow
      else
        let (table, reported) := check table epoch
        .ok (⟨checker, some table⟩, some (.checked epoch reported))

/-- One event, where `check` is the `expiration_check_for_epoch` of the program. -/
def detectorStep (check : Table L → Int64 → Table L × List CString) (d : Detector Table L) :
    DetectorEvent → Except DetectorStop (Detector Table L × Option DetectorOutput)
  | .datagram client bytes sendOk => d.receive c ht lib client bytes sendOk
  | .reading now =>
      match c.expireChecker.step d.checker now with
      | .error stop => .error (.clock stop)
      | .ok (checker, none) => .ok ({ d with checker := checker }, none)
      | .ok (checker, some epoch) => d.check check checker epoch

/-- `st_check_timeout` of sample_hb/receiver.c: the request is sent, and the reply is not
waited for. -/
def stCheckTimeout (_node : CString) : Int := 0

/-- sample_hb/receiver.c -/
def sampleReceiverStep :
    Detector Table L → DetectorEvent →
      Except DetectorStop (Detector Table L × Option DetectorOutput) :=
  detectorStep c ht lib fun table epoch =>
    expirationCheckForEpoch ht lib table epoch stCheckTimeout

/-- `expiration_check_for_epoch` of nhb_receiver.c: every node of the list is reported and
removed. -/
def nhbExpirationCheckForEpoch (table : Table L) (epoch : Int64) : Table L × List CString :=
  match ht.get table (longBytes epoch) with
  | none => (table, [])
  | some ipList =>
      let nodes := lib.iterate ipList
      let table := nodes.foldl (fun table node => removeNode ht lib table epoch node) table
      (ht.remove table (longBytes epoch), nodes)

/-- nhb_receiver.c -/
def nhbReceiverStep :
    Detector Table L → DetectorEvent →
      Except DetectorStop (Detector Table L × Option DetectorOutput) :=
  detectorStep c ht lib (nhbExpirationCheckForEpoch ht lib)

end Model

/-- Every timeout is confirmed. -/
def confirmAll (_node : CString) : Int := 1

section Variants

variable {Table : Type → Type} {L : Type} {ht : RemovalTable Table} {lib : ListLib L}

theorem foldl_checkNode_confirmAll (epoch : Int64) (nodes reported : List CString)
    (table : Table L) :
    nodes.foldl (checkNode ht lib epoch confirmAll) (table, reported) =
      (nodes.foldl (fun table node => removeNode ht lib table epoch node) table,
        reported ++ nodes) := by
  induction nodes generalizing table reported with
  | nil => simp
  | cons node rest ih =>
      have hconfirmed : confirmAll node = 1 := rfl
      rw [List.foldl_cons, checkNode, if_pos hconfirmed, ih, List.foldl_cons,
        List.append_assoc, List.singleton_append]

theorem nhbExpirationCheckForEpoch_eq (table : Table L) (epoch : Int64) :
    nhbExpirationCheckForEpoch ht lib table epoch =
      expirationCheckForEpoch ht lib table epoch confirmAll := by
  cases hget : ht.get table (longBytes epoch) with
  | none => simp only [nhbExpirationCheckForEpoch, expirationCheckForEpoch, hget]
  | some ipList =>
      simp only [nhbExpirationCheckForEpoch, expirationCheckForEpoch, hget,
        foldl_checkNode_confirmAll, List.nil_append]

end Variants

/-- What a step can do. -/
inductive DetectorStep {Table : Type → Type} {L : Type} (c : EpochClock)
    (ht : RemovalTable Table) (lib : ListLib L) (check : Table L → Int64 → Table L × List CString)
    (d : Detector Table L) :
    DetectorEvent → Detector Table L → Option DetectorOutput → Prop where
  | heard {client : InAddr} {bytes : List UInt8} {sendOk : Bool} {table : Table L}
      {epoch : Int64} (htable : d.epochListHt = some table) (hnonneg : 0 ≤ epoch)
      (hfits : epoch ≠ Int64.maxValue) :
      DetectorStep c ht lib check d (.datagram client bytes sendOk)
        { d with epochListHt := some (hbServer ht lib table (inetNtop client) epoch) }
        (some (.heard (inetNtop client) epoch))
  | reply {client : InAddr} {bytes : List UInt8} {sendOk : Bool} :
      DetectorStep c ht lib check d (.datagram client bytes sendOk) d
        (some (.reply c.baseTime))
  | ignored {client : InAddr} {bytes : List UInt8} {sendOk : Bool} :
      DetectorStep c ht lib check d (.datagram client bytes sendOk) d none
  | ended {client : InAddr} {bytes : List UInt8} {sendOk : Bool} :
      DetectorStep c ht lib check d (.datagram client bytes sendOk) d.endServer none
  | waited {now : Int64} {checker : Clocked Int64 CheckerControl}
      (hchecker : c.expireChecker.step d.checker now = .ok (checker, none)) :
      DetectorStep c ht lib check d (.reading now) { d with checker := checker } none
  | checked {now : Int64} {checker : Clocked Int64 CheckerControl} {epoch : Int64}
      {table : Table L}
      (hchecker : c.expireChecker.step d.checker now = .ok (checker, some epoch))
      (htable : d.epochListHt = some table) (hfits : epoch ≠ Int64.maxValue) :
      DetectorStep c ht lib check d (.reading now)
        ⟨checker, some (check table epoch).1⟩ (some (.checked epoch (check table epoch).2))

section Steps

variable {Table : Type → Type} {L : Type} {c : EpochClock} {ht : RemovalTable Table}
  {lib : ListLib L} {check : Table L → Int64 → Table L × List CString}
  {d d' : Detector Table L}
  {output : Option DetectorOutput}

theorem detectorStep_eq_ok {event : DetectorEvent}
    (hstep : detectorStep c ht lib check d event = .ok (d', output)) :
    DetectorStep c ht lib check d event d' output := by
  cases event with
  | datagram client bytes sendOk =>
      simp only [detectorStep, Detector.receive] at hstep
      split at hstep
      · cases hstep
        exact .ignored
      · rename_i table htable
        split at hstep
        · cases hstep
          exact .ended
        · rename_i flag epoch _
          split at hstep
          · split at hstep
            · cases hstep
              exact .reply
            · cases hstep
              exact .ended
          · split at hstep
            · split at hstep
              · cases hstep
                exact .ended
              · rename_i hnonneg
                split at hstep
                · cases hstep
                · rename_i hfits
                  cases hstep
                  exact .heard htable (Int64.not_lt.mp hnonneg) hfits
            · cases hstep
              exact .ignored
  | reading now =>
      simp only [detectorStep] at hstep
      split at hstep
      · cases hstep
      · rename_i checker hchecker
        cases hstep
        exact .waited hchecker
      · rename_i checker epoch hchecker
        simp only [Detector.check] at hstep
        split at hstep
        · cases hstep
        · rename_i table htable
          split at hstep
          · cases hstep
          · rename_i hfits
            cases hstep
            exact .checked hchecker htable hfits

end Steps

section Suspicion

def DetectorOutput.heartbeat : DetectorOutput → Option (CString × Int64)
  | .heard node epoch => some (node, epoch)
  | .reply _ | .checked .. => none

/-- The heartbeats that have been entered, in their order. -/
def heardIn (outputs : List (Option DetectorOutput)) : List (CString × Int64) :=
  outputs.filterMap fun output => output.bind DetectorOutput.heartbeat

/-- Of the heartbeats of the node for the epoch and for the one before it, the last one is
for the one before. -/
def Suspects (heard : List (CString × Int64)) (node : CString) (epoch : Int64) : Prop :=
  (heard.filter fun m => m.1 = node ∧ (m.2 + 1 = epoch ∨ m.2 = epoch)).getLast?.map
    (fun m => m.2 + 1) = some epoch

instance (heard : List (CString × Int64)) (node : CString) (epoch : Int64) :
    Decidable (Suspects heard node epoch) :=
  inferInstanceAs (Decidable (_ = _))

theorem not_suspects_nil (node : CString) (epoch : Int64) : ¬ Suspects [] node epoch := by
  simp [Suspects]

theorem suspects_concat (heard : List (CString × Int64)) (saddr node : CString)
    (e epoch : Int64) :
    Suspects (heard ++ [(saddr, e)]) node epoch ↔
      node = saddr ∧ epoch = e + 1 ∨
        Suspects heard node epoch ∧ ¬ (node = saddr ∧ epoch = e) := by
  by_cases hconcerns : saddr = node ∧ (e + 1 = epoch ∨ e = epoch)
  · have hlast : (heard ++ [(saddr, e)]).filter
        (fun m => m.1 = node ∧ (m.2 + 1 = epoch ∨ m.2 = epoch)) =
          heard.filter (fun m => m.1 = node ∧ (m.2 + 1 = epoch ∨ m.2 = epoch)) ++
            [(saddr, e)] := by
      rw [List.filter_append, List.filter_cons_of_pos (by simpa using hconcerns),
        List.filter_nil]
    rw [Suspects, hlast, List.getLast?_append, List.getLast?_singleton, Option.some_or,
      Option.map_some, Option.some_inj]
    obtain ⟨rfl, rfl | rfl⟩ := hconcerns
    · simp
    · have hne : ¬ e = e + 1 := by grind
      simp [hne, Ne.symm hne]
  · have hskip : (heard ++ [(saddr, e)]).filter
        (fun m => m.1 = node ∧ (m.2 + 1 = epoch ∨ m.2 = epoch)) =
          heard.filter (fun m => m.1 = node ∧ (m.2 + 1 = epoch ∨ m.2 = epoch)) := by
      rw [List.filter_append, List.filter_cons_of_neg (by simpa using hconcerns),
        List.filter_nil, List.append_nil]
    rw [Suspects, hskip, ← Suspects]
    constructor
    · intro hsuspects
      refine Or.inr ⟨hsuspects, ?_⟩
      rintro ⟨rfl, rfl⟩
      exact hconcerns ⟨rfl, Or.inr rfl⟩
    · rintro (⟨rfl, rfl⟩ | ⟨hsuspects, _⟩)
      · exact absurd ⟨rfl, Or.inl rfl⟩ hconcerns
      · exact hsuspects

end Suspicion

section Exactness

variable {Table : Type → Type} {L : Type} {c : EpochClock} {ht : RemovalTable Table}
  {lib : ListLib L} {d d' : Detector Table L} {outputs : List (Option DetectorOutput)}
  {output : Option DetectorOutput}

/-- The lists of the epochs that are still to be checked hold the suspects. -/
structure Detector.HoldsSuspects (c : EpochClock) (ht : RemovalTable Table) (lib : ListLib L)
    (d : Detector Table L) (outputs : List (Option DetectorOutput)) : Prop where
  punctual : c.Punctual d.checker
  lists : ∀ table ∈ d.epochListHt, ∃ sets, HoldsSets ht lib (fun _ => True) table sets ∧
    ∀ epoch : Int64, c.frontier d.checker ≤ epoch.toInt → ∀ node,
      node ∈ sets.nodes epoch ↔ Suspects (heardIn outputs) node epoch

theorem holdsSuspects_initial (c : EpochClock) (hlawful : ht.Lawful) :
    (Detector.initial c ht : Detector Table L).HoldsSuspects c ht lib [] := by
  refine ⟨EpochClock.checkerStart_punctual, ?_⟩
  rintro table ⟨⟩
  refine ⟨fun _ => none, ?_, ?_⟩
  · intro epoch _
    rw [hlawful.get_init]
    exact represents_none lib
  · intro epoch _ node
    simp [EpochSets.nodes, heardIn, not_suspects_nil]

/-- Nothing that counts has been heard. -/
theorem Detector.HoldsSuspects.keep (hholds : d.HoldsSuspects c ht lib outputs)
    (hpunctual : c.Punctual d'.checker)
    (hfrontier : c.frontier d.checker ≤ c.frontier d'.checker)
    (htable : ∀ table ∈ d'.epochListHt, table ∈ d.epochListHt)
    (hheard : output.bind DetectorOutput.heartbeat = none) :
    d'.HoldsSuspects c ht lib (outputs ++ [output]) := by
  have hsame : heardIn (outputs ++ [output]) = heardIn outputs := by
    simp [heardIn, hheard]
  refine ⟨hpunctual, ?_⟩
  intro table hmem
  obtain ⟨sets, hsets, hexact⟩ := hholds.lists table (htable table hmem)
  refine ⟨sets, hsets, ?_⟩
  intro epoch hle node
  rw [hsame]
  exact hexact epoch (Int.le_trans hfrontier hle) node

theorem Detector.HoldsSuspects.step (hpos : 0 < c.timeoutInterval) (hlawful : ht.Lawful)
    (hlib : lib.Lawful) (hholds : d.HoldsSuspects c ht lib outputs) {event : DetectorEvent}
    (hstep : nhbReceiverStep c ht lib d event = .ok (d', output)) :
    d'.HoldsSuspects c ht lib (outputs ++ [output]) ∧
      ∀ epoch reported, output = some (.checked epoch reported) →
        ∀ node, node ∈ reported ↔ Suspects (heardIn outputs) node epoch := by
  cases detectorStep_eq_ok hstep with
  | reply =>
      exact ⟨hholds.keep hholds.punctual (Int.le_refl _) (fun _ hmem => hmem) rfl, by simp⟩
  | ignored =>
      exact ⟨hholds.keep hholds.punctual (Int.le_refl _) (fun _ hmem => hmem) rfl, by simp⟩
  | ended =>
      exact ⟨hholds.keep hholds.punctual (Int.le_refl _) (fun _ hmem => by cases hmem) rfl,
        by simp⟩
  | waited hchecker =>
      obtain ⟨hpunctual, hfrontier, _⟩ := hholds.punctual.step hpos hchecker
      exact ⟨hholds.keep hpunctual hfrontier (fun _ hmem => hmem) rfl, by simp⟩
  | @heard client _ _ table e htable hnonneg hfits =>
      refine ⟨⟨hholds.punctual, ?_⟩, by simp⟩
      rintro _ ⟨⟩
      obtain ⟨sets, hsets, hexact⟩ := hholds.lists table htable
      refine ⟨_, hsets.hbServer hlawful hlib (inetNtop client) e, ?_⟩
      intro epoch hle node
      have hmore : heardIn (outputs ++ [some (.heard (inetNtop client) e)]) =
          heardIn outputs ++ [(inetNtop client, e)] := by
        simp [heardIn, DetectorOutput.heartbeat]
      rw [hmore, suspects_concat, EpochSets.mem_heartbeat, hexact epoch hle node]
  | @checked _ checker epoch table hchecker htable hfits =>
      obtain ⟨hpunctual, hfrontier, hepoch⟩ := hholds.punctual.step hpos hchecker
      obtain ⟨_, hlow, hhigh⟩ := hepoch epoch rfl
      obtain ⟨sets, hsets, hexact⟩ := hholds.lists table htable
      rw [nhbExpirationCheckForEpoch_eq]
      constructor
      · refine ⟨hpunctual, ?_⟩
        rintro _ ⟨⟩
        refine ⟨_, hsets.expirationCheck hlawful hlib epoch confirmAll, ?_⟩
        intro other hle node
        have hother : other ≠ epoch := by
          rintro rfl
          exact absurd hle (Int.not_le.mpr hhigh)
        have hconfirmed : ¬ confirmAll node ≠ 1 := fun hne => hne rfl
        have hsame : heardIn (outputs ++ [some (.checked epoch
            (expirationCheckForEpoch ht lib table epoch confirmAll).2)]) = heardIn outputs := by
          simp [heardIn, DetectorOutput.heartbeat]
        rw [hsame, EpochSets.mem_check, ← hexact other (Int.le_trans hfrontier hle) node]
        simp [hother, hconfirmed]
      · rintro _ _ ⟨⟩ node
        have hmem : node ∈ ((ht.get table (longBytes epoch)).map lib.iterate).getD [] ↔
            node ∈ sets.nodes epoch :=
          HoldsSets.mem_nodes (r := ⟨table, 1, []⟩) hsets
        rw [expirationCheck_reported, List.mem_filter, hmem, hexact epoch hlow node]
        simp [confirmAll]

end Exactness

/-- Over any run, whatever the order of datagrams and clock readings, a check of the normal
heartbeat receiver reports exactly the nodes whose last heartbeat for the epoch or the one
before it was for the one before. -/
theorem nhbReceiver_reports_suspects {Table : Type → Type} {L : Type} (c : EpochClock)
    (hpos : 0 < c.timeoutInterval) {ht : RemovalTable Table} (hlawful : ht.Lawful)
    {lib : ListLib L} (hlib : lib.Lawful) (events : List DetectorEvent) (d d' : Detector Table L)
    (outputs : List (Option DetectorOutput))
    (hrun : runEvents (nhbReceiverStep c ht lib) (.initial c ht) events = .ok (d, outputs))
    (event : DetectorEvent) (epoch : Int64) (reported : List CString)
    (hstep : nhbReceiverStep c ht lib d event = .ok (d', some (.checked epoch reported)))
    (node : CString) : node ∈ reported ↔ Suspects (heardIn outputs) node epoch := by
  have hholds : d.HoldsSuspects c ht lib outputs :=
    runEvents_invariant (fun _ d outputs => d.HoldsSuspects c ht lib outputs)
      (holdsSuspects_initial c hlawful)
      (fun _ _ _ _ _ _ _ hholds hstep => (hholds.step hpos hlawful hlib hstep).1) hrun
  exact (hholds.step hpos hlawful hlib hstep).2 epoch reported rfl node

/-- Two nodes send for epoch 1, one of them also for epoch 2; another client asks for the
base time.  At the last reading the checker has come to the end of epoch 2. -/
def nhbRun : List DetectorEvent :=
  [.reading 10000, .datagram ⟨10, 0, 0, 3⟩ (longBytes 0 ++ longBytes 0) true, .reading 10010,
    .datagram ⟨10, 0, 0, 1⟩ (longBytes 1 ++ longBytes 1) true,
    .datagram ⟨10, 0, 0, 2⟩ (longBytes 1 ++ longBytes 1) true, .reading 11000,
    .datagram ⟨10, 0, 0, 1⟩ (longBytes 1 ++ longBytes 2) true, .reading 11001, .reading 11002,
    .reading 11003]

theorem nhbReceiver_reports_suspects_nhbRun :
    let step := nhbReceiverStep ⟨10000, 1000⟩ removalEntryList valueLists
    ∃ d outputs d' reported, runEvents step (.initial ⟨10000, 1000⟩ removalEntryList) nhbRun =
        .ok (d, outputs) ∧ step d (.reading 12000) = .ok (d', some (.checked 2 reported)) ∧
      reported = [inetNtop ⟨10, 0, 0, 2⟩] ∧
      ∀ node, node ∈ reported ↔ Suspects (heardIn outputs) node 2 := by
  intro step
  have hpart : (runEvents step (.initial ⟨10000, 1000⟩ removalEntryList)
      (nhbRun ++ [.reading 12000])).map (fun result => result.2.getLast?) =
        .ok (some (some (.checked 2 [inetNtop ⟨10, 0, 0, 2⟩]))) := by decide +kernel
  obtain ⟨⟨d', all⟩, hall, hlast⟩ := exists_ok_of_map_eq hpart
  obtain ⟨d, outputs, output, hrun, hstep, rfl⟩ := runEvents_concat_eq_ok_iff.mp hall
  rw [List.getLast?_concat, Option.some_inj] at hlast
  subst hlast
  exact ⟨d, outputs, d', _, hrun, hstep, rfl, nhbReceiver_reports_suspects ⟨10000, 1000⟩
    (by decide) removalEntryList_lawful valueLists_lawful nhbRun d d' outputs hrun
    (.reading 12000) 2 _ hstep⟩

section Refinement

variable {Table : Type → Type} {L : Type} {c : EpochClock} {ht : RemovalTable Table}
  {lib : ListLib L} {stRet : CString → Int} {d d' : Detector Table L}
  {output : Option DetectorOutput}

/-- The event of the node lists behind an output. -/
def DetectorOutput.event (stRet : CString → Int) : DetectorOutput → Option EpochEvent
  | .heard node epoch => some (.heartbeat node epoch)
  | .checked _ _ => some (.check stRet)
  | .reply _ => none

/-- The nodes that it reports. -/
def DetectorOutput.reports : DetectorOutput → Option (List CString)
  | .heard _ _ => some []
  | .checked _ reported => some reported
  | .reply _ => none

def epochEvents (stRet : CString → Int) (outputs : List (Option DetectorOutput)) :
    List EpochEvent :=
  outputs.filterMap fun output => output.bind (DetectorOutput.event stRet)

def epochReports (outputs : List (Option DetectorOutput)) : List (List CString) :=
  outputs.filterMap fun output => output.bind DetectorOutput.reports

/-- The checker is not held up between its loops. -/
def Detector.RestartsInEpoch (c : EpochClock) (d : Detector Table L) : DetectorEvent → Prop
  | .datagram .. => True
  | .reading now => c.RestartsInEpoch d.checker now

instance (d : Detector Table L) :
    (event : DetectorEvent) → Decidable (d.RestartsInEpoch c event)
  | .datagram .. => isTrue trivial
  | .reading now => inferInstanceAs (Decidable (c.RestartsInEpoch d.checker now))

/-- The node lists have gone through the same heartbeats and checks, and the next check is
that of the epoch behind the `count` checked ones. -/
structure Detector.Follows (c : EpochClock) (ht : RemovalTable Table) (lib : ListLib L)
    (stRet : CString → Int) (d : Detector Table L) (outputs : List (Option DetectorOutput))
    (count : Nat) (r : EpochReceiver Table L) : Prop where
  punctual : c.Punctual d.checker
  expects : c.Expects count d.checker.clock d.checker.control
  run : runEvents (epochStep ht lib) (.initial ht) (epochEvents stRet outputs) =
    .ok (r, epochReports outputs)
  lists : ∀ table ∈ d.epochListHt, r.epochListHt = table ∧ r.nextEpoch.toInt = count + 1

variable {outputs : List (Option DetectorOutput)} {count : Nat} {r : EpochReceiver Table L}

/-- An output that is no event of the node lists. -/
theorem Detector.Follows.quiet (hfollows : d.Follows c ht lib stRet outputs count r)
    (hpunctual : c.Punctual d'.checker)
    (hexpects : c.Expects count d'.checker.clock d'.checker.control)
    (htable : ∀ table ∈ d'.epochListHt, table ∈ d.epochListHt)
    (houtput : ∀ value ∈ output, value.event stRet = none ∧ value.reports = none) :
    d'.Follows c ht lib stRet (outputs ++ [output]) count r := by
  refine ⟨hpunctual, hexpects, ?_, fun table hmem => hfollows.lists table (htable table hmem)⟩
  have hevent : output.bind (DetectorOutput.event stRet) = none := by
    cases output with
    | none => rfl
    | some value => exact (houtput value rfl).1
  have hreports : output.bind DetectorOutput.reports = none := by
    cases output with
    | none => rfl
    | some value => exact (houtput value rfl).2
  simpa [epochEvents, epochReports, hevent, hreports] using hfollows.run

/-- An output that is one. -/
theorem Detector.Follows.run_concat (hfollows : d.Follows c ht lib stRet outputs count r)
    {value : DetectorOutput} {event : EpochEvent} {reported : List CString}
    {r' : EpochReceiver Table L} (hevent : value.event stRet = some event)
    (hreports : value.reports = some reported)
    (hstep : epochStep ht lib r event = .ok (r', reported)) :
    runEvents (epochStep ht lib) (.initial ht) (epochEvents stRet (outputs ++ [some value])) =
      .ok (r', epochReports (outputs ++ [some value])) := by
  have hevents : epochEvents stRet (outputs ++ [some value]) =
      epochEvents stRet outputs ++ [event] := by
    simp [epochEvents, hevent]
  have hall : epochReports (outputs ++ [some value]) = epochReports outputs ++ [reported] := by
    simp [epochReports, hreports]
  rw [hevents, hall]
  exact runEvents_concat_eq_ok_iff.mpr ⟨r, _, reported, hfollows.run, hstep, rfl⟩

theorem Detector.Follows.step (hpos : 0 < c.timeoutInterval)
    (hfollows : d.Follows c ht lib stRet outputs count r) {event : DetectorEvent}
    (hrestart : d.RestartsInEpoch c event)
    (hstep : detectorStep c ht lib
      (fun table epoch => expirationCheckForEpoch ht lib table epoch stRet) d event =
        .ok (d', output)) :
    ∃ count r, d'.Follows c ht lib stRet (outputs ++ [output]) count r := by
  cases detectorStep_eq_ok hstep with
  | reply =>
      exact ⟨count, r, hfollows.quiet hfollows.punctual hfollows.expects (fun _ hmem => hmem)
        (by rintro value ⟨⟩; exact ⟨rfl, rfl⟩)⟩
  | ignored =>
      exact ⟨count, r, hfollows.quiet hfollows.punctual hfollows.expects (fun _ hmem => hmem)
        (by simp)⟩
  | ended =>
      exact ⟨count, r, hfollows.quiet hfollows.punctual hfollows.expects
        (fun _ hmem => by cases hmem) (by simp)⟩
  | waited hchecker =>
      obtain ⟨hpunctual, _, _⟩ := hfollows.punctual.step hpos hchecker
      rcases hfollows.expects.step hpos hfollows.punctual hrestart hchecker with
        ⟨_, hexpects⟩ | ⟨_, hsome, _⟩
      · exact ⟨count, r, hfollows.quiet hpunctual hexpects (fun _ hmem => hmem) (by simp)⟩
      · cases hsome
  | @heard client _ _ table e htable hnonneg hfits =>
      obtain ⟨rfl, hnext⟩ := hfollows.lists table htable
      have hheartbeat : epochStep ht lib r (.heartbeat (inetNtop client) e) =
          .ok ({ r with
            epochListHt := hbServer ht lib r.epochListHt (inetNtop client) e
            heard := r.heard ++ [(inetNtop client, e)] }, []) := by
        rw [epochStep, if_neg (Int64.not_lt.mpr hnonneg), if_neg hfits]
      refine ⟨count, _, hfollows.punctual, hfollows.expects,
        hfollows.run_concat rfl rfl hheartbeat, ?_⟩
      rintro _ ⟨⟩
      exact ⟨rfl, hnext⟩
  | @checked _ checker epoch table hchecker htable hfits =>
      obtain ⟨hpunctual, _, _⟩ := hfollows.punctual.step hpos hchecker
      obtain ⟨rfl, hnext⟩ := hfollows.lists table htable
      rcases hfollows.expects.step hpos hfollows.punctual hrestart hchecker with
        ⟨hnone, _⟩ | ⟨_, ⟨⟩, hvalue, hexpects⟩
      · cases hnone
      · have hsame : r.nextEpoch = epoch := Int64.toInt_inj.mp (hnext.trans hvalue.symm)
        subst hsame
        have hcheck : epochStep ht lib r (.check stRet) =
            .ok ({ r with
              epochListHt := (expirationCheckForEpoch ht lib r.epochListHt r.nextEpoch stRet).1
              nextEpoch := r.nextEpoch + 1 },
              (expirationCheckForEpoch ht lib r.epochListHt r.nextEpoch stRet).2) := by
          rw [epochStep, if_neg hfits]
        refine ⟨count + 1, _, hpunctual, hexpects, hfollows.run_concat rfl rfl hcheck, ?_⟩
        rintro _ ⟨⟩
        refine ⟨rfl, ?_⟩
        rw [toInt_add_one hfits, hnext]
        rfl

end Refinement

section Sample

variable {Table : Type → Type} {L : Type} {c : EpochClock} {ht : RemovalTable Table}
  {lib : ListLib L} {d d' : Detector Table L} {output : Option DetectorOutput}

/-- The nodes in the list of an epoch. -/
def Detector.nodes (ht : RemovalTable Table) (lib : ListLib L) (d : Detector Table L)
    (epoch : Int64) : List CString :=
  (d.epochListHt.bind fun table => (ht.get table (longBytes epoch)).map lib.iterate).getD []

/-- Every list represents a set. -/
def Detector.Sound (ht : RemovalTable Table) (lib : ListLib L) (d : Detector Table L) : Prop :=
  ∀ table ∈ d.epochListHt, ∃ sets, HoldsSets ht lib (fun _ => True) table sets

theorem Detector.Sound.step (hlawful : ht.Lawful) (hlib : lib.Lawful) (hsound : d.Sound ht lib)
    {stRet : CString → Int} {event : DetectorEvent}
    (hstep : detectorStep c ht lib
      (fun table epoch => expirationCheckForEpoch ht lib table epoch stRet) d event =
        .ok (d', output)) : d'.Sound ht lib := by
  cases detectorStep_eq_ok hstep with
  | reply | ignored | waited => exact hsound
  | ended =>
      intro table hmem
      cases hmem
  | heard htable _ _ =>
      rintro _ ⟨⟩
      obtain ⟨sets, hsets⟩ := hsound _ htable
      exact ⟨_, hsets.hbServer hlawful hlib _ _⟩
  | checked _ htable _ =>
      rintro _ ⟨⟩
      obtain ⟨sets, hsets⟩ := hsound _ htable
      exact ⟨_, hsets.expirationCheck hlawful hlib _ stRet⟩

theorem Detector.initial_sound (c : EpochClock) (hlawful : ht.Lawful) :
    (Detector.initial c ht : Detector Table L).Sound ht lib := by
  rintro table ⟨⟩
  refine ⟨fun _ => none, fun epoch _ => ?_⟩
  rw [hlawful.get_init]
  exact represents_none lib

theorem Detector.mem_nodes {table : Table L} {sets : EpochSets}
    (htable : d.epochListHt = some table) (hsets : HoldsSets ht lib (fun _ => True) table sets)
    (epoch : Int64) (node : CString) :
    node ∈ d.nodes ht lib epoch ↔ node ∈ sets.nodes epoch := by
  rw [Detector.nodes, htable]
  exact HoldsSets.mem_nodes (r := ⟨table, 1, []⟩) hsets

end Sample

/-- The sample receiver never reports a node: over any run, a check takes all the nodes of
its epoch to the next one. -/
theorem sampleReceiver_carries_everyone {Table : Type → Type} {L : Type} (c : EpochClock)
    {ht : RemovalTable Table} (hlawful : ht.Lawful) {lib : ListLib L} (hlib : lib.Lawful)
    (events : List DetectorEvent) (d d' : Detector Table L)
    (outputs : List (Option DetectorOutput))
    (hrun : runEvents (sampleReceiverStep c ht lib) (.initial c ht) events = .ok (d, outputs))
    (event : DetectorEvent) (epoch : Int64) (reported : List CString)
    (hstep : sampleReceiverStep c ht lib d event = .ok (d', some (.checked epoch reported))) :
    reported = [] ∧ d'.nodes ht lib epoch = [] ∧
      ∀ node ∈ d.nodes ht lib epoch, node ∈ d'.nodes ht lib (epoch + 1) := by
  have hsound : d.Sound ht lib :=
    runEvents_invariant (fun _ d _ => d.Sound ht lib) (Detector.initial_sound c hlawful)
      (fun _ _ _ _ _ _ _ hsound hstep => hsound.step hlawful hlib hstep) hrun
  cases detectorStep_eq_ok hstep with
  | @checked _ checker _ table hchecker htable hfits =>
      obtain ⟨sets, hsets⟩ := hsound table htable
      have hsets' := hsets.expirationCheck hlawful hlib epoch stCheckTimeout
      refine ⟨?_, ?_, ?_⟩
      · rw [expirationCheck_reported]
        simp [stCheckTimeout]
      · simp [Detector.nodes, expirationCheck_deletes hlawful]
      · intro node hmem
        have hother : epoch + 1 ≠ epoch := by grind
        rw [Detector.mem_nodes rfl hsets', EpochSets.mem_check]
        rw [Detector.mem_nodes htable hsets] at hmem
        exact ⟨hother, Or.inr ⟨rfl, hmem, by simp [stCheckTimeout]⟩⟩

theorem sampleReceiver_carries_everyone_nhbRun :
    let step := sampleReceiverStep ⟨10000, 1000⟩ removalEntryList valueLists
    ∃ d outputs d' reported, runEvents step (.initial ⟨10000, 1000⟩ removalEntryList) nhbRun =
        .ok (d, outputs) ∧ step d (.reading 12000) = .ok (d', some (.checked 2 reported)) ∧
      d.nodes removalEntryList valueLists 2 = [inetNtop ⟨10, 0, 0, 2⟩] ∧ reported = [] ∧
      inetNtop ⟨10, 0, 0, 2⟩ ∈ d'.nodes removalEntryList valueLists 3 := by
  intro step
  have hpart : (runEvents step (.initial ⟨10000, 1000⟩ removalEntryList) nhbRun).map
      (fun result => result.1.nodes removalEntryList valueLists 2) =
        .ok [inetNtop ⟨10, 0, 0, 2⟩] := by decide +kernel
  have hmore : (runEvents step (.initial ⟨10000, 1000⟩ removalEntryList)
      (nhbRun ++ [.reading 12000])).map (fun result => result.2.getLast?) =
        .ok (some (some (.checked 2 []))) := by decide +kernel
  obtain ⟨⟨d', all⟩, hall, hlast⟩ := exists_ok_of_map_eq hmore
  obtain ⟨d, outputs, output, hrun, hstep, rfl⟩ := runEvents_concat_eq_ok_iff.mp hall
  rw [List.getLast?_concat, Option.some_inj] at hlast
  subst hlast
  obtain ⟨⟨_, _⟩, hrun', hnodes⟩ := exists_ok_of_map_eq hpart
  obtain ⟨rfl, _⟩ := Prod.mk.inj (Except.ok.inj (hrun.symm.trans hrun'))
  have hcarried := sampleReceiver_carries_everyone ⟨10000, 1000⟩ removalEntryList_lawful
    valueLists_lawful nhbRun d d' outputs hrun (.reading 12000) 2 [] hstep
  refine ⟨d, outputs, d', [], hrun, hstep, hnodes, rfl, ?_⟩
  exact hcarried.2.2 _ (by rw [hnodes]; exact List.mem_singleton_self _)

section Ended

variable {Table : Type → Type} {L : Type} {c : EpochClock} {ht : RemovalTable Table}
  {lib : ListLib L} {check : Table L → Int64 → Table L × List CString}

def DetectorEvent.reading? : DetectorEvent → Option Int64
  | .datagram .. => none
  | .reading now => some now

/-- A datagram that `hb_server` takes for an error: too short, or a heartbeat with a
negative epoch. -/
def Malformed (bytes : List UInt8) : Prop :=
  readHbMessage bytes = none ∨ ∃ epoch, readHbMessage bytes = some (1, epoch) ∧ epoch < 0

theorem detectorStep_malformed {bytes : List UInt8} (hmalformed : Malformed bytes)
    (d : Detector Table L) (client : InAddr) (sendOk : Bool) :
    detectorStep c ht lib check d (.datagram client bytes sendOk) = .ok (d.endServer, none) := by
  rw [detectorStep, Detector.receive]
  cases htable : d.epochListHt with
  | none =>
      obtain ⟨checker, table⟩ := d
      simp only at htable
      subst htable
      rfl
  | some table =>
      rcases hmalformed with hshort | ⟨epoch, hread, hnegative⟩
      · simp only [hshort]
      · simp only [hread]
        rw [if_neg (by decide), if_pos trivial, if_pos hnegative]

/-- Without the table the receiver goes on until the checker comes to an epoch. -/
theorem run_without_table {events : List DetectorEvent} {checker final : Clocked Int64 CheckerControl}
    {checks : List (Option Int64)}
    (hchecker : runEvents c.expireChecker.step checker
      (events.filterMap DetectorEvent.reading?) = .ok (final, checks)) :
    runEvents (detectorStep c ht lib check) ⟨checker, none⟩ events =
      if checks.reduceOption = [] then .ok (⟨final, none⟩, List.replicate events.length none)
      else .error .destroyed := by
  induction events generalizing checker checks with
  | nil =>
      cases hchecker
      rfl
  | cons event rest ih =>
      cases event with
      | datagram client bytes sendOk =>
          have hstep : detectorStep c ht lib check ⟨checker, none⟩
              (.datagram client bytes sendOk) = .ok (⟨checker, none⟩, none) := rfl
          rw [runEvents_cons_of_step hstep, ih hchecker]
          split <;> rfl
      | reading now =>
          have hreadings : (DetectorEvent.reading now :: rest).filterMap DetectorEvent.reading? =
              now :: rest.filterMap DetectorEvent.reading? := rfl
          rw [hreadings] at hchecker
          obtain ⟨next, output, tail, hnext, hrest, rfl⟩ := runEvents_cons_eq_ok_iff.mp hchecker
          cases output with
          | none =>
              have hstep : detectorStep c ht lib check ⟨checker, none⟩ (.reading now) =
                  .ok (⟨next, none⟩, none) := by
                simp only [detectorStep, hnext]
              rw [runEvents_cons_of_step hstep, ih hrest, List.reduceOption_cons_of_none]
              split <;> rfl
          | some epoch =>
              have hstep : detectorStep c ht lib check ⟨checker, none⟩ (.reading now) =
                  .error .destroyed := by
                simp only [detectorStep, hnext, Detector.check]
              rw [runEvents, hstep, if_neg (by simp)]

end Ended

/-- One malformed datagram, from whomever it comes, ends the receiver for good: nothing is
entered, replied or checked any more, and the next epoch that the checker comes to is looked
up in the destroyed table. -/
theorem malformed_datagram_ends_detector {Table : Type → Type} {L : Type} (c : EpochClock)
    (ht : RemovalTable Table) (lib : ListLib L)
    (check : Table L → Int64 → Table L × List CString) (d : Detector Table L) (client : InAddr)
    (bytes : List UInt8) (hmalformed : Malformed bytes) (sendOk : Bool)
    (post : List DetectorEvent) (final : Clocked Int64 CheckerControl)
    (checks : List (Option Int64))
    (hchecker : runEvents c.expireChecker.step d.checker
      (post.filterMap DetectorEvent.reading?) = .ok (final, checks)) :
    runEvents (detectorStep c ht lib check) d (.datagram client bytes sendOk :: post) =
      if checks.reduceOption = [] then
        .ok (⟨final, none⟩, List.replicate (post.length + 1) none)
      else .error .destroyed := by
  have hrest : runEvents (detectorStep c ht lib check) d.endServer post =
      if checks.reduceOption = [] then .ok (⟨final, none⟩, List.replicate post.length none)
      else .error .destroyed := run_without_table hchecker
  rw [runEvents_cons_of_step (detectorStep_malformed hmalformed d client sendOk), hrest]
  split <;> rfl

theorem malformed_datagram_ends_detector_empty :
    runEvents (sampleReceiverStep ⟨10000, 1000⟩ removalEntryList valueLists)
      (.initial ⟨10000, 1000⟩ removalEntryList)
      (.datagram ⟨10, 0, 0, 9⟩ [] true :: nhbRun) = .error .destroyed := by
  have hpart : (runEvents (EpochClock.expireChecker ⟨10000, 1000⟩).step
      (EpochClock.checkerStart ⟨10000, 1000⟩) (nhbRun.filterMap DetectorEvent.reading?)).map
        (fun result => result.2.reduceOption) = .ok [1] := by decide +kernel
  obtain ⟨⟨final, checks⟩, hchecker, hchecks⟩ := exists_ok_of_map_eq hpart
  refine (malformed_datagram_ends_detector ⟨10000, 1000⟩ removalEntryList valueLists _
    (.initial ⟨10000, 1000⟩ removalEntryList) ⟨10, 0, 0, 9⟩ [] (Or.inl rfl) true nhbRun final
    checks hchecker).trans ?_
  rw [if_neg (by simp [hchecks])]

end SafeTimer
