/-
The heartbeat tables of src/st_receiver_api.c: a hash table from application ids
to pointers, and behind each pointer a hash table from node addresses to
timestamps.  The hash table library itself is a parameter.
-/
import SafeTimer.CValues
import Mathlib.Data.List.Induction
import Mathlib.Logic.Function.Basic

namespace SafeTimer

/-- The functions of include/hashtable.h that the receiver calls.  `assign` is a
store through the pointer that `ht_get` returned. -/
structure HashTable (Table : Type → Type) where
  init : {V : Type} → Table V
  get : {V : Type} → Table V → List UInt8 → Option V
  insert : {V : Type} → Table V → List UInt8 → V → Table V
  assign : {V : Type} → Table V → List UInt8 → V → Table V

/-- The library behaves as a finite map on the bytes of the keys. -/
structure HashTable.Lawful {Table : Type → Type} (ht : HashTable Table) : Prop where
  get_init : ∀ {V : Type} (key : List UInt8), ht.get (ht.init : Table V) key = none
  get_insert_self : ∀ {V : Type} (table : Table V) (key : List UInt8) (value : V),
    ht.get table key = none → ht.get (ht.insert table key value) key = some value
  get_insert_of_ne : ∀ {V : Type} (table : Table V) (key key' : List UInt8) (value : V),
    key' ≠ key → ht.get (ht.insert table key value) key' = ht.get table key'
  get_assign_self : ∀ {V : Type} (table : Table V) (key : List UInt8) (old value : V),
    ht.get table key = some old → ht.get (ht.assign table key value) key = some value
  get_assign_of_ne : ∀ {V : Type} (table : Table V) (key key' : List UInt8) (value : V),
    key' ≠ key → ht.get (ht.assign table key value) key' = ht.get table key'

variable {Table : Type → Type}

/-- The static `app_nodes_ht` and the tables allocated by `calloc`, whose
positions are the pointers stored in it. -/
structure HeartbeatTables (Table : Type → Type) where
  appNodesHt : Table Nat
  nodeStates : List (Table Int64)

/-- After `ht_init` of `app_nodes_ht`. -/
def HeartbeatTables.empty (ht : HashTable Table) : HeartbeatTables Table :=
  ⟨ht.init, []⟩

/-- The pointer to the table of an application, which is allocated and entered
when the application is new. -/
def nodeStatesPointer (ht : HashTable Table) (tables : HeartbeatTables Table)
    (appId : Int64) : Nat × HeartbeatTables Table :=
  match ht.get tables.appNodesHt (longBytes appId) with
  | none =>
      let pointer := tables.nodeStates.length
      (pointer, ⟨ht.insert tables.appNodesHt (longBytes appId) pointer,
        tables.nodeStates ++ [ht.init]⟩)
  | some pointer => (pointer, tables)

/-- What `receive_heartbeat` does to the table of the application: a new entry
starts with 0, an old one takes over the timestamp. -/
def recordNodeState (ht : HashTable Table) (table : Table Int64) (nodeIp : CString)
    (state : Int64) : Table Int64 :=
  match ht.get table nodeIp.bytes with
  | none => ht.insert table nodeIp.bytes 0
  | some nodeState =>
      if nodeState ≠ state then ht.assign table nodeIp.bytes state else table

/-- `receive_heartbeat`; `state` is the timestamp. -/
def receiveHeartbeat (ht : HashTable Table) (tables : HeartbeatTables Table)
    (appId : Int64) (nodeIp : CString) (state : Int64) :
    Except Fault (HeartbeatTables Table) :=
  let (pointer, tables) := nodeStatesPointer ht tables appId
  match tables.nodeStates[pointer]? with
  | none => .error .badPointer
  | some table =>
      .ok { tables with
        nodeStates :=
          tables.nodeStates.set pointer (recordNodeState ht table nodeIp state) }

/-- `safetimer_check`: 1 when the failure is sure, 0 when it is not. -/
def safetimerCheck (ht : HashTable Table) (tables : HeartbeatTables Table)
    (appId : Int64) (nodeIp : CString) (start : Int64) : Except Fault Int :=
  match ht.get tables.appNodesHt (longBytes appId) with
  | none => .ok 0
  | some pointer =>
      match tables.nodeStates[pointer]? with
      | none => .error .badPointer
      | some table =>
          match ht.get table nodeIp.bytes with
          | none => .ok 0
          | some stTimestamp => .ok (if stTimestamp < start then 1 else 0)

/-- One call of `receive_heartbeat`. -/
structure HeartbeatCall where
  appId : Int64
  nodeIp : CString
  state : Int64
deriving DecidableEq

/-- A sequence of calls on tables that exist already. -/
def receiveHeartbeatsFrom (ht : HashTable Table) (tables : HeartbeatTables Table)
    (calls : List HeartbeatCall) : Except Fault (HeartbeatTables Table) :=
  calls.foldlM (fun tables call =>
    receiveHeartbeat ht tables call.appId call.nodeIp call.state) tables

/-- A sequence of calls from the empty table. -/
def receiveHeartbeats (ht : HashTable Table) (calls : List HeartbeatCall) :
    Except Fault (HeartbeatTables Table) :=
  receiveHeartbeatsFrom ht (.empty ht) calls

/-- The purpose of the tables: one state for each application and node. -/
abbrev NodeStates := Int64 → CString → Option Int64

/-- The effect of a heartbeat on the states: the first of a node enters 0. -/
def NodeStates.receive (states : NodeStates) (call : HeartbeatCall) : NodeStates :=
  fun appId nodeIp =>
    if appId = call.appId ∧ nodeIp = call.nodeIp then
      some ((states appId nodeIp).elim 0 fun _ => call.state)
    else states appId nodeIp

/-- The verdict on a state. -/
def verdict (state : Option Int64) (start : Int64) : Int :=
  match state with
  | none => 0
  | some stTimestamp => if stTimestamp < start then 1 else 0

/-- The tables hold `states`: every application has a table of its own, and the
lookup through the pointer finds its nodes. -/
structure HoldsStates (ht : HashTable Table) (tables : HeartbeatTables Table)
    (states : NodeStates) : Prop where
  pointer_lt : ∀ appId pointer,
    ht.get tables.appNodesHt (longBytes appId) = some pointer →
    pointer < tables.nodeStates.length
  pointer_inj : ∀ appId appId' pointer,
    ht.get tables.appNodesHt (longBytes appId) = some pointer →
    ht.get tables.appNodesHt (longBytes appId') = some pointer → appId = appId'
  absent : ∀ appId, ht.get tables.appNodesHt (longBytes appId) = none →
    ∀ nodeIp, states appId nodeIp = none
  present : ∀ appId pointer table,
    ht.get tables.appNodesHt (longBytes appId) = some pointer →
    tables.nodeStates[pointer]? = some table →
    ∀ nodeIp, ht.get table nodeIp.bytes = states appId nodeIp

section Refinement

variable {ht : HashTable Table} {tables : HeartbeatTables Table} {states : NodeStates}

theorem HashTable.Lawful.holdsStates_empty (hlawful : ht.Lawful) :
    HoldsStates ht (.empty ht) fun _ _ => none where
  pointer_lt := by
    intro appId pointer hget
    rw [HeartbeatTables.empty, hlawful.get_init] at hget
    cases hget
  pointer_inj := by
    intro appId appId' pointer hget
    rw [HeartbeatTables.empty, hlawful.get_init] at hget
    cases hget
  absent := by
    intro appId _ nodeIp
    rfl
  present := by
    intro appId pointer table hget
    rw [HeartbeatTables.empty, hlawful.get_init] at hget
    cases hget

/-- The check answers what the states say. -/
theorem HoldsStates.safetimerCheck_eq (hholds : HoldsStates ht tables states)
    (appId : Int64) (nodeIp : CString) (start : Int64) :
    safetimerCheck ht tables appId nodeIp start =
      .ok (verdict (states appId nodeIp) start) := by
  rw [safetimerCheck]
  cases hget : ht.get tables.appNodesHt (longBytes appId) with
  | none => rw [hholds.absent appId hget nodeIp, verdict]
  | some pointer =>
      have htable := List.getElem?_eq_getElem (hholds.pointer_lt appId pointer hget)
      have hstate := hholds.present appId pointer _ hget htable nodeIp
      simp only [htable, hstate]
      cases states appId nodeIp with
      | none => rfl
      | some stTimestamp => rfl

/-- A pointer found after the insertion is the new one or was there before. -/
theorem HashTable.Lawful.pointer_of_insert (hlawful : ht.Lawful) {apps : Table Nat}
    {appId appId' : Int64} (hnew : ht.get apps (longBytes appId) = none) {fresh pointer : Nat}
    (hget : ht.get (ht.insert apps (longBytes appId) fresh) (longBytes appId') = some pointer) :
    (appId' = appId ∧ pointer = fresh) ∨ ht.get apps (longBytes appId') = some pointer := by
  by_cases heq : appId' = appId
  · rw [heq, hlawful.get_insert_self _ _ _ hnew, Option.some.injEq] at hget
    exact Or.inl ⟨heq, hget.symm⟩
  · have hne : longBytes appId' ≠ longBytes appId :=
      fun hbytes => heq (longBytes_injective hbytes)
    rw [hlawful.get_insert_of_ne _ _ _ _ hne] at hget
    exact Or.inr hget

/-- A fresh table for an application that has none. -/
theorem HoldsStates.allocate (hlawful : ht.Lawful) (hholds : HoldsStates ht tables states)
    {appId : Int64} (hnew : ht.get tables.appNodesHt (longBytes appId) = none) :
    HoldsStates ht
      ⟨ht.insert tables.appNodesHt (longBytes appId) tables.nodeStates.length,
        tables.nodeStates ++ [ht.init]⟩ states := by
  constructor
  case pointer_lt =>
    intro appId' pointer hget
    simp only [List.length_append, List.length_singleton]
    rcases hlawful.pointer_of_insert hnew hget with ⟨_, hfresh⟩ | hold
    · omega
    · exact Nat.lt_succ_of_lt (hholds.pointer_lt appId' pointer hold)
  case pointer_inj =>
    intro first second pointer hfirst hsecond
    rcases hlawful.pointer_of_insert hnew hfirst with ⟨hfirst', hfresh⟩ | hfirst'
    · rcases hlawful.pointer_of_insert hnew hsecond with ⟨hsecond', _⟩ | hsecond'
      · rw [hfirst', hsecond']
      · have hlt := hholds.pointer_lt second pointer hsecond'
        omega
    · rcases hlawful.pointer_of_insert hnew hsecond with ⟨_, hfresh⟩ | hsecond'
      · have hlt := hholds.pointer_lt first pointer hfirst'
        omega
      · exact hholds.pointer_inj first second pointer hfirst' hsecond'
  case absent =>
    intro appId' hget nodeIp
    by_cases heq : appId' = appId
    · rw [heq, hlawful.get_insert_self _ _ _ hnew] at hget
      cases hget
    · rw [hlawful.get_insert_of_ne _ _ _ _
        (fun hbytes => heq (longBytes_injective hbytes))] at hget
      exact hholds.absent appId' hget nodeIp
  case present =>
    intro appId' pointer table hget htable nodeIp
    rcases hlawful.pointer_of_insert hnew hget with ⟨heq, hfresh⟩ | hold
    · rw [hfresh, List.getElem?_concat_length, Option.some.injEq] at htable
      rw [← htable, hlawful.get_init, heq, hholds.absent appId hnew]
    · rw [List.getElem?_append_left (hholds.pointer_lt appId' pointer hold)] at htable
      exact hholds.present appId' pointer table hold htable nodeIp

/-- The application has a table afterwards, and no state has changed. -/
theorem HoldsStates.nodeStatesPointer (hlawful : ht.Lawful)
    (hholds : HoldsStates ht tables states) (appId : Int64) :
    ∃ pointer tables', nodeStatesPointer ht tables appId = (pointer, tables') ∧
      HoldsStates ht tables' states ∧
      ht.get tables'.appNodesHt (longBytes appId) = some pointer := by
  rw [SafeTimer.nodeStatesPointer]
  cases hget : ht.get tables.appNodesHt (longBytes appId) with
  | none =>
      exact ⟨_, _, rfl, hholds.allocate hlawful hget,
        hlawful.get_insert_self _ _ _ hget⟩
  | some pointer => exact ⟨pointer, tables, rfl, hholds, hget⟩

theorem get_recordNodeState (hlawful : ht.Lawful) (table : Table Int64) (nodeIp : CString)
    (state : Int64) (nodeIp' : CString) :
    ht.get (recordNodeState ht table nodeIp state) nodeIp'.bytes =
      if nodeIp' = nodeIp then
        some ((ht.get table nodeIp'.bytes).elim 0 fun _ => state)
      else ht.get table nodeIp'.bytes := by
  by_cases heq : nodeIp' = nodeIp
  · rw [if_pos heq, heq, recordNodeState]
    cases hget : ht.get table nodeIp.bytes with
    | none => exact hlawful.get_insert_self _ _ _ hget
    | some nodeState =>
        by_cases hsame : nodeState = state
        · simp [hsame, hget]
        · simp [hsame, hlawful.get_assign_self _ _ _ state hget]
  · have hne : nodeIp'.bytes ≠ nodeIp.bytes :=
      fun hbytes => heq (CString.bytes_injective hbytes)
    rw [if_neg heq, recordNodeState]
    cases hget : ht.get table nodeIp.bytes with
    | none => exact hlawful.get_insert_of_ne _ _ _ _ hne
    | some nodeState =>
        by_cases hsame : nodeState = state
        · simp [hsame]
        · simp [hsame, hlawful.get_assign_of_ne _ _ _ state hne]

/-- Only the table behind the application's pointer is written. -/
theorem HoldsStates.record (hlawful : ht.Lawful) (hholds : HoldsStates ht tables states)
    (call : HeartbeatCall) {pointer : Nat} {table : Table Int64}
    (hget : ht.get tables.appNodesHt (longBytes call.appId) = some pointer)
    (htable : tables.nodeStates[pointer]? = some table) :
    HoldsStates ht
      { tables with
        nodeStates := tables.nodeStates.set pointer
          (recordNodeState ht table call.nodeIp call.state) }
      (states.receive call) := by
  have hlt := hholds.pointer_lt call.appId pointer hget
  constructor
  case pointer_lt =>
    intro appId pointer' hget'
    rw [List.length_set]
    exact hholds.pointer_lt appId pointer' hget'
  case pointer_inj => exact hholds.pointer_inj
  case absent =>
    intro appId hnone nodeIp
    have hne : appId ≠ call.appId := by
      intro heq
      rw [heq, hget] at hnone
      cases hnone
    rw [NodeStates.receive, if_neg (fun hsame => hne hsame.1)]
    exact hholds.absent appId hnone nodeIp
  case present =>
    intro appId pointer' table' hget' htable' nodeIp
    by_cases heq : pointer' = pointer
    · subst heq
      have happ := hholds.pointer_inj appId call.appId pointer' hget' hget
      rw [List.getElem?_set_self hlt, Option.some.injEq] at htable'
      rw [← htable', get_recordNodeState hlawful, NodeStates.receive,
        hholds.present appId pointer' table hget' htable nodeIp]
      simp only [happ, true_and]
    · have hne : appId ≠ call.appId := by
        intro happ
        rw [happ, hget, Option.some.injEq] at hget'
        exact heq hget'.symm
      rw [List.getElem?_set_ne (fun h => heq h.symm)] at htable'
      rw [NodeStates.receive, if_neg (fun hsame => hne hsame.1)]
      exact hholds.present appId pointer' table' hget' htable' nodeIp

/-- One call: it follows no wild pointer and updates the states. -/
theorem HoldsStates.receiveHeartbeat (hlawful : ht.Lawful)
    (hholds : HoldsStates ht tables states) (call : HeartbeatCall) :
    ∃ tables', receiveHeartbeat ht tables call.appId call.nodeIp call.state =
        .ok tables' ∧ HoldsStates ht tables' (states.receive call) := by
  obtain ⟨pointer, tables', hpointer, hholds', hget⟩ :=
    hholds.nodeStatesPointer hlawful call.appId
  have htable := List.getElem?_eq_getElem (hholds'.pointer_lt call.appId pointer hget)
  refine ⟨_, ?_, hholds'.record hlawful call hget htable⟩
  simp only [SafeTimer.receiveHeartbeat, hpointer, htable]

/-- Any sequence of calls. -/
theorem HoldsStates.receiveHeartbeatsFrom (hlawful : ht.Lawful)
    (hholds : HoldsStates ht tables states) (calls : List HeartbeatCall) :
    ∃ tables', receiveHeartbeatsFrom ht tables calls = .ok tables' ∧
      HoldsStates ht tables' (calls.foldl NodeStates.receive states) := by
  induction calls generalizing tables states with
  | nil => exact ⟨tables, rfl, hholds⟩
  | cons call rest ih =>
      obtain ⟨next, hcall, hnext⟩ := hholds.receiveHeartbeat hlawful call
      obtain ⟨final, hrest, hfinal⟩ := ih hnext
      refine ⟨final, ?_, hfinal⟩
      rw [SafeTimer.receiveHeartbeatsFrom, List.foldlM_cons, hcall]
      exact hrest

end Refinement

/-- The timestamps of the calls for one application and node. -/
def history (calls : List HeartbeatCall) (appId : Int64) (nodeIp : CString) : List Int64 :=
  (calls.filter fun call => call.appId = appId ∧ call.nodeIp = nodeIp).map
    HeartbeatCall.state

/-- What is stored for a node after its heartbeats: 0 for the first one, the
timestamp of the last one afterwards. -/
def storedState : List Int64 → Option Int64
  | [] => none
  | [_] => some 0
  | _ :: state :: rest => some ((state :: rest).getLast (List.cons_ne_nil state rest))

theorem storedState_concat (timestamps : List Int64) (state : Int64) :
    storedState (timestamps ++ [state]) =
      some ((storedState timestamps).elim 0 fun _ => state) := by
  rcases timestamps with _ | ⟨first, _ | ⟨second, rest⟩⟩
  · rfl
  · rfl
  · simp only [List.cons_append, storedState, Option.elim_some, Option.some.injEq]
    exact List.getLast_concat (l := second :: rest)

/-- The states after a sequence of calls, by the history of each node. -/
theorem foldl_receive_eq_storedState (calls : List HeartbeatCall) (appId : Int64)
    (nodeIp : CString) :
    calls.foldl NodeStates.receive (fun _ _ => none) appId nodeIp =
      storedState (history calls appId nodeIp) := by
  induction calls using List.reverseRecOn with
  | nil => rfl
  | append_singleton calls call ih =>
      rw [List.foldl_append, List.foldl_cons, List.foldl_nil, NodeStates.receive, ih]
      by_cases hsame : appId = call.appId ∧ nodeIp = call.nodeIp
      · have hhistory : history (calls ++ [call]) appId nodeIp =
            history calls appId nodeIp ++ [call.state] := by
          simp [history, hsame]
        rw [if_pos hsame, hhistory, storedState_concat]
      · have hhistory : history (calls ++ [call]) appId nodeIp =
            history calls appId nodeIp := by
          have hother : ¬ (call.appId = appId ∧ call.nodeIp = nodeIp) :=
            fun h => hsame ⟨h.1.symm, h.2.symm⟩
          simp [history, hother]
        rw [if_neg hsame, hhistory]

theorem receiveHeartbeats_holdsStates (ht : HashTable Table) (hlawful : ht.Lawful)
    (calls : List HeartbeatCall) :
    ∃ tables, receiveHeartbeats ht calls = .ok tables ∧
      HoldsStates ht tables (calls.foldl NodeStates.receive fun _ _ => none) :=
  hlawful.holdsStates_empty.receiveHeartbeatsFrom hlawful calls

/-- The check after a sequence of calls, in terms of the node's own history. -/
theorem HoldsStates.safetimerCheck_history {ht : HashTable Table}
    {tables : HeartbeatTables Table} {calls : List HeartbeatCall}
    (hholds : HoldsStates ht tables (calls.foldl NodeStates.receive fun _ _ => none))
    (appId : Int64) (nodeIp : CString) (start : Int64) :
    safetimerCheck ht tables appId nodeIp start =
      .ok (verdict (storedState (history calls appId nodeIp)) start) := by
  rw [hholds.safetimerCheck_eq, foldl_receive_eq_storedState]

/-- The nested tables refine the flat map of states, and a node that was heard
and has fallen silent is detected: the answer is a function of the node's own
history, 0 without one, and 1 once its last timestamp lies before `start`. -/
theorem safetimerCheck_depends_on_history (ht : HashTable Table) (hlawful : ht.Lawful)
    (calls : List HeartbeatCall) (appId : Int64) (nodeIp : CString) (start : Int64)
    (hstart : 0 < start) :
    ∃ tables result, receiveHeartbeats ht calls = .ok tables ∧
      HoldsStates ht tables (calls.foldl NodeStates.receive fun _ _ => none) ∧
      safetimerCheck ht tables appId nodeIp start = .ok result ∧
      (∀ calls', history calls' appId nodeIp = history calls appId nodeIp →
        ∃ tables', receiveHeartbeats ht calls' = .ok tables' ∧
          safetimerCheck ht tables' appId nodeIp start = .ok result) ∧
      (history calls appId nodeIp = [] → result = 0) ∧
      ∀ last, (history calls appId nodeIp).getLast? = some last → last < start →
        result = 1 := by
  obtain ⟨tables, hrun, hholds⟩ := receiveHeartbeats_holdsStates ht hlawful calls
  refine ⟨tables, _, hrun, hholds, hholds.safetimerCheck_history appId nodeIp start,
    ?_, ?_, ?_⟩
  · intro calls' hhistory
    obtain ⟨tables', hrun', hholds'⟩ := receiveHeartbeats_holdsStates ht hlawful calls'
    refine ⟨tables', hrun', ?_⟩
    rw [hholds'.safetimerCheck_history, hhistory]
  · intro hempty
    rw [hempty]
    rfl
  · intro last hlast hlt
    rcases hhistory : history calls appId nodeIp with _ | ⟨first, _ | ⟨second, rest⟩⟩
    · rw [hhistory] at hlast
      cases hlast
    · exact if_pos hstart
    · rw [hhistory, List.getLast?_cons_cons, List.getLast?_eq_some_getLast
        (List.cons_ne_nil second rest), Option.some.injEq] at hlast
      rw [storedState, verdict, hlast, if_pos hlt]

/-- The hash table as a list of entries, the newest in front. -/
def entryList : HashTable fun V => List (List UInt8 × V) where
  init := []
  get := fun entries key => entries.lookup key
  insert := fun entries key value => (key, value) :: entries
  assign := fun entries key value => (key, value) :: entries

theorem entryList_lawful : entryList.Lawful where
  get_init := by
    intro V key
    rfl
  get_insert_self := by
    intro V entries key value _
    exact List.lookup_cons_self
  get_insert_of_ne := by
    intro V entries key key' value hne
    simp [entryList, List.lookup_cons, beq_false_of_ne hne]
  get_assign_self := by
    intro V entries key old value _
    exact List.lookup_cons_self
  get_assign_of_ne := by
    intro V entries key key' value hne
    simp [entryList, List.lookup_cons, beq_false_of_ne hne]

/-- Node 10 of application 7, with a heartbeat of another node between its two. -/
theorem safetimerCheck_two_nodes :
    let node : CString := ⟨[49, 48], by decide⟩
    let other : CString := ⟨[49, 49], by decide⟩
    ∃ tables result,
      receiveHeartbeats entryList [⟨7, node, 100⟩, ⟨7, other, 150⟩, ⟨7, node, 200⟩] =
        .ok tables ∧
      safetimerCheck entryList tables 7 node 201 = .ok result ∧ result = 1 := by
  intro node other
  obtain ⟨tables, result, hrun, _, hcheck, _, _, hsilent⟩ :=
    safetimerCheck_depends_on_history entryList entryList_lawful
      [⟨7, node, 100⟩, ⟨7, other, 150⟩, ⟨7, node, 200⟩] 7 node 201 (by decide)
  exact ⟨tables, result, hrun, hcheck, hsilent 200 (by decide) (by decide)⟩

/-- A verdict of 1 after the calls means that no heartbeat of the node was
received at `start` or later. -/
def NoFalseVerdict (ht : HashTable Table) (calls : List HeartbeatCall) (appId : Int64)
    (nodeIp : CString) (start : Int64) : Prop :=
  ∃ tables, receiveHeartbeats ht calls = .ok tables ∧
    (safetimerCheck ht tables appId nodeIp start = .ok 1 →
      ∀ call ∈ calls, call.appId = appId → call.nodeIp = nodeIp → call.state < start)

theorem forall_call_lt_iff {calls : List HeartbeatCall} {appId : Int64}
    {nodeIp : CString} {start : Int64} :
    (∀ call ∈ calls, call.appId = appId → call.nodeIp = nodeIp → call.state < start) ↔
      ∀ state ∈ history calls appId nodeIp, state < start := by
  simp only [history, List.forall_mem_map, List.mem_filter, decide_eq_true_eq, and_imp]

theorem history_pairwise {calls : List HeartbeatCall}
    (hclock : (calls.map HeartbeatCall.state).Pairwise (· ≤ ·)) (appId : Int64)
    (nodeIp : CString) : (history calls appId nodeIp).Pairwise (· ≤ ·) := by
  apply List.Pairwise.sublist _ hclock
  exact List.filter_sublist.map HeartbeatCall.state

/-- The last timestamp of a clock that does not go back bounds all of them. -/
theorem le_getLast_of_pairwise {timestamps : List Int64}
    (hclock : timestamps.Pairwise (· ≤ ·)) (hne : timestamps ≠ []) :
    ∀ state ∈ timestamps, state ≤ timestamps.getLast hne := by
  intro state hmem
  rw [← List.dropLast_concat_getLast hne] at hclock hmem
  rcases List.mem_append.mp hmem with hearlier | hlast
  · exact (List.pairwise_append.mp hclock).2.2 state hearlier _ (List.mem_singleton_self _)
  · rw [List.mem_singleton.mp hlast]
    exact Int64.le_refl _

theorem verdict_some_eq_one_iff {stTimestamp start : Int64} :
    verdict (some stTimestamp) start = 1 ↔ stTimestamp < start := by
  simp [verdict]

/-- The property in terms of the node's own history. -/
theorem noFalseVerdict_iff_history (ht : HashTable Table) (hlawful : ht.Lawful)
    {calls : List HeartbeatCall} {appId : Int64} {nodeIp : CString} {start : Int64} :
    NoFalseVerdict ht calls appId nodeIp start ↔
      (verdict (storedState (history calls appId nodeIp)) start = 1 →
        ∀ state ∈ history calls appId nodeIp, state < start) := by
  obtain ⟨tables, hrun, hholds⟩ := receiveHeartbeats_holdsStates ht hlawful calls
  have hcheck := hholds.safetimerCheck_history appId nodeIp start
  simp only [NoFalseVerdict, forall_call_lt_iff, hrun, Except.ok.injEq]
  constructor
  · rintro ⟨tables', rfl, hverdict⟩ hone
    apply hverdict
    rw [hcheck, hone]
  · intro hhistory
    refine ⟨tables, rfl, ?_⟩
    intro hone
    rw [hcheck, Except.ok.injEq] at hone
    exact hhistory hone

/-- The only false verdicts are those on a node that has sent one heartbeat: the
table holds 0 for it instead of the timestamp. -/
theorem noFalseVerdict_iff (ht : HashTable Table) (hlawful : ht.Lawful)
    (calls : List HeartbeatCall) (hclock : (calls.map HeartbeatCall.state).Pairwise (· ≤ ·))
    (appId : Int64) (nodeIp : CString) (start : Int64) :
    NoFalseVerdict ht calls appId nodeIp start ↔
      ¬ ∃ state, history calls appId nodeIp = [state] ∧ 0 < start ∧ start ≤ state := by
  have hordered := history_pairwise hclock appId nodeIp
  rw [noFalseVerdict_iff_history ht hlawful]
  revert hordered
  rcases history calls appId nodeIp with _ | ⟨first, _ | ⟨second, rest⟩⟩ <;> intro hordered
  · simp
  · simp only [storedState, verdict_some_eq_one_iff, List.forall_mem_singleton]
    constructor
    · rintro hverdict ⟨state, hstate, hpos, hle⟩
      cases hstate
      exact absurd (hverdict hpos) (Int64.not_lt.mpr hle)
    · intro hnone hpos
      apply Int64.not_le.mp
      exact fun hle => hnone ⟨first, rfl, hpos, hle⟩
  · -- two heartbeats or more: the last timestamp is stored
    constructor
    · rintro _ ⟨state, hstate, _⟩
      cases hstate
    · intro _ hone state hmem
      rw [storedState, verdict_some_eq_one_iff] at hone
      have hlast := le_getLast_of_pairwise hordered (List.cons_ne_nil _ _) state hmem
      exact Int64.lt_of_le_of_lt hlast hone

/-- A node that was heard twice is judged by its last heartbeat. -/
theorem noFalseVerdict_heard_twice :
    let node : CString := ⟨[49, 48], by decide⟩
    NoFalseVerdict entryList [⟨7, node, 100⟩, ⟨7, node, 200⟩] 7 node 150 := by
  intro node
  apply (noFalseVerdict_iff entryList entryList_lawful
    [⟨7, node, 100⟩, ⟨7, node, 200⟩] (by decide) 7 node 150).mpr
  rintro ⟨state, hhistory, _⟩
  cases hhistory

/-- One heartbeat at 500 is in the table, and the check from 100 on reports the
node as failed. -/
theorem first_heartbeat_false_verdict :
    ¬ ∀ (Table : Type → Type) (ht : HashTable Table), ht.Lawful →
      ∀ calls : List HeartbeatCall, (calls.map HeartbeatCall.state).Pairwise (· ≤ ·) →
        ∀ appId nodeIp start, NoFalseVerdict ht calls appId nodeIp start := by
  intro hproperty
  let node : CString := ⟨[49, 48], by decide⟩
  obtain ⟨tables, hrun, hverdict⟩ :=
    hproperty _ entryList entryList_lawful [⟨7, node, 500⟩] (by decide) 7 node 100
  cases hrun
  have hlate := hverdict (by decide) ⟨7, node, 500⟩ (by simp) rfl rfl
  exact absurd hlate (by decide)

end SafeTimer
