/-
The node lists of the sample heartbeat receiver (sample_hb/receiver.c): for every
epoch a list of the nodes that are due in it.  A heartbeat takes its node from the list
of its epoch to the next one, and the check of an epoch reports a node of its list or
carries it over.  Both run under `epoch_list_ht_lock`, so that they take turns.
-/
import SafeTimer.HeartbeatTable
import Mathlib.Data.Finset.Basic
import Mathlib.Data.Finset.Lattice.Lemmas

namespace SafeTimer

/-- The functions of list.h that the receiver calls, for lists whose `match` is
`ip_equal`.  A node stands for its value; `iterate` is what an iterator from
`LIST_HEAD` returns, also when the node just returned is removed. -/
structure ListLib (L : Type) where
  new : L
  rpush : L → CString → L
  find : L → CString → Bool
  remove : L → CString → L
  iterate : L → List CString

structure ListLib.Lawful {L : Type} (lib : ListLib L) : Prop where
  iterate_new : lib.iterate lib.new = []
  iterate_rpush : ∀ ipList node, lib.iterate (lib.rpush ipList node) = lib.iterate ipList ++ [node]
  find_iff : ∀ ipList node, lib.find ipList node = true ↔ node ∈ lib.iterate ipList
  iterate_remove : ∀ ipList node,
    lib.iterate (lib.remove ipList node) = (lib.iterate ipList).erase node

/-- The hash table with `ht_remove`. -/
structure RemovalTable (Table : Type → Type) extends HashTable Table where
  remove : {V : Type} → Table V → List UInt8 → Table V

structure RemovalTable.Lawful {Table : Type → Type} (ht : RemovalTable Table) : Prop
    extends ht.toHashTable.Lawful where
  get_remove_self : ∀ {V : Type} (table : Table V) (key : List UInt8),
    ht.get (ht.remove table key) key = none
  get_remove_of_ne : ∀ {V : Type} (table : Table V) (key key' : List UInt8),
    key' ≠ key → ht.get (ht.remove table key) key' = ht.get table key'

section Model

variable {Table : Type → Type} {L : Type} (ht : RemovalTable Table) (lib : ListLib L)

/-- `list_remove` on the list of the epoch. -/
def removeNode (table : Table L) (epoch : Int64) (node : CString) : Table L :=
  match ht.get table (longBytes epoch) with
  | none => table
  | some ipList => ht.assign table (longBytes epoch) (lib.remove ipList node)

/-- "Touch the node for the epoch" -/
def touchNode (table : Table L) (epoch : Int64) (node : CString) : Table L :=
  match ht.get table (longBytes epoch) with
  | none => table
  | some ipList => if lib.find ipList node then removeNode ht lib table epoch node else table

/-- Insert the node into the list of the epoch, which is created if need be.  The same
code stands in `hb_server` and in `expiration_check_for_epoch`. -/
def addNode (table : Table L) (epoch : Int64) (node : CString) : Table L :=
  let (table, ipList) :=
    match ht.get table (longBytes epoch) with
    | none => (ht.insert table (longBytes epoch) lib.new, lib.new)
    | some ipList => (table, ipList)
  if lib.find ipList node then table
  else ht.assign table (longBytes epoch) (lib.rpush ipList node)

/-- `hb_server` on a heartbeat. -/
def hbServer (table : Table L) (saddr : CString) (epoch : Int64) : Table L :=
  addNode ht lib (touchNode ht lib table epoch saddr) (epoch + 1) saddr

/-- The loop of `expiration_check_for_epoch` on one node of the list.  `stRet` is the
result of `st_check_timeout`. -/
def checkNode (epoch : Int64) (stRet : CString → Int) :
    Table L × List CString → CString → Table L × List CString
  | (table, reported), node =>
      if stRet node = 1 then (removeNode ht lib table epoch node, reported ++ [node])
      else (addNode ht lib table (epoch + 1) node, reported)

/-- `expiration_check_for_epoch`, with the nodes that it reports. -/
def expirationCheckForEpoch (table : Table L) (epoch : Int64) (stRet : CString → Int) :
    Table L × List CString :=
  match ht.get table (longBytes epoch) with
  | none => (table, [])
  | some ipList =>
      let (table, reported) :=
        (lib.iterate ipList).foldl (checkNode ht lib epoch stRet) (table, [])
      (ht.remove table (longBytes epoch), reported)

/-- The receiver.  `nextEpoch` is the epoch that is checked next; `heard` are the
heartbeats that have been processed, for the statement only. -/
structure EpochReceiver (Table : Type → Type) (L : Type) where
  epochListHt : Table L
  nextEpoch : Int64
  heard : List (CString × Int64)

def EpochReceiver.initial : EpochReceiver Table L :=
  ⟨ht.init, 1, []⟩

inductive EpochEvent where
  | heartbeat (saddr : CString) (epoch : Int64)
  | check (stRet : CString → Int)

/-- The server is left for a negative epoch, and `epoch ++` has to fit. -/
inductive EpochStop where
  | negativeEpoch
  | overflow
deriving DecidableEq

/-- A heartbeat or a check, with the nodes reported as timed out.  The checks come for the
epochs 1, 2, 3, ... in order, which is assumed here; how `expire_checker` picks the epochs by
the clock is modelled apart from this. -/
def epochStep (r : EpochReceiver Table L) :
    EpochEvent → Except EpochStop (EpochReceiver Table L × List CString)
  | .heartbeat saddr epoch =>
      if epoch < 0 then .error .negativeEpoch
      else if epoch = Int64.maxValue then .error .overflow
      else
        .ok ({ r with
          epochListHt := hbServer ht lib r.epochListHt saddr epoch
          heard := r.heard ++ [(saddr, epoch)] }, [])
  | .check stRet =>
      if r.nextEpoch = Int64.maxValue then .error .overflow
      else
        let (table, reported) :=
          expirationCheckForEpoch ht lib r.epochListHt r.nextEpoch stRet
        .ok ({ r with epochListHt := table, nextEpoch := r.nextEpoch + 1 }, reported)

/-- The list of an epoch, if there is one. -/
def EpochReceiver.ipList (r : EpochReceiver Table L) (epoch : Int64) :
    Option (List CString) :=
  (ht.get r.epochListHt (longBytes epoch)).map lib.iterate

/-- The nodes in the list of an epoch. -/
def EpochReceiver.nodes (r : EpochReceiver Table L) (epoch : Int64) : List CString :=
  (r.ipList ht lib epoch).getD []

end Model

/-- The purpose of the lists: a set of nodes for every epoch that has one. -/
abbrev EpochSets := Int64 → Option (Finset CString)

def EpochSets.nodes (sets : EpochSets) (epoch : Int64) : Finset CString :=
  (sets epoch).getD ∅

def EpochSets.touch (sets : EpochSets) (epoch : Int64) (node : CString) : EpochSets :=
  Function.update sets epoch ((sets epoch).map (·.erase node))

def EpochSets.add (sets : EpochSets) (epoch : Int64) (node : CString) : EpochSets :=
  Function.update sets epoch (some (insert node (sets.nodes epoch)))

def EpochSets.heartbeat (sets : EpochSets) (node : CString) (epoch : Int64) : EpochSets :=
  (sets.touch epoch node).add (epoch + 1) node

/-- The nodes enter the set of an epoch together; without any the set stays as it is. -/
def EpochSets.addAll (sets : EpochSets) (epoch : Int64) (nodes : Finset CString) :
    EpochSets :=
  if nodes = ∅ then sets
  else Function.update sets epoch (some (sets.nodes epoch ∪ nodes))

def EpochSets.check (sets : EpochSets) (epoch : Int64) (stRet : CString → Int) : EpochSets :=
  Function.update
    (sets.addAll (epoch + 1) ((sets.nodes epoch).filter fun node => stRet node ≠ 1)) epoch none

theorem EpochSets.nodes_update (sets : EpochSets) (epoch other : Int64)
    (nodes : Option (Finset CString)) :
    EpochSets.nodes (Function.update sets epoch nodes) other =
      if other = epoch then nodes.getD ∅ else sets.nodes other := by
  rw [EpochSets.nodes, Function.update_apply]
  split
  · rfl
  · rfl

section Members

variable {sets : EpochSets} {saddr node : CString} {epoch other : Int64}

theorem EpochSets.mem_touch :
    node ∈ (sets.touch epoch saddr).nodes other ↔
      node ∈ sets.nodes other ∧ ¬ (node = saddr ∧ other = epoch) := by
  rw [touch, nodes_update]
  split
  · rename_i heq
    subst heq
    have herase : ((sets other).map (·.erase saddr)).getD ∅ =
        (sets.nodes other).erase saddr := by
      rw [EpochSets.nodes]
      cases sets other <;> rfl
    rw [herase, Finset.mem_erase]
    simp only [and_true]
    exact and_comm
  · rename_i hne
    simp [hne]

theorem EpochSets.mem_add :
    node ∈ (sets.add epoch saddr).nodes other ↔
      node = saddr ∧ other = epoch ∨ node ∈ sets.nodes other := by
  rw [add, nodes_update]
  split
  · rename_i heq
    subst heq
    simp
  · rename_i hne
    simp [hne]

theorem EpochSets.mem_addAll {nodes : Finset CString} :
    node ∈ (sets.addAll epoch nodes).nodes other ↔
      node ∈ sets.nodes other ∨ other = epoch ∧ node ∈ nodes := by
  rw [addAll]
  split
  · rename_i hempty
    simp [hempty]
  · rw [nodes_update]
    split
    · rename_i heq
      subst heq
      simp
    · rename_i hne
      simp [hne]

/-- A heartbeat moves its node, and only its node, from the set of its epoch to the
next. -/
theorem EpochSets.mem_heartbeat :
    node ∈ (sets.heartbeat saddr epoch).nodes other ↔
      node = saddr ∧ other = epoch + 1 ∨
        node ∈ sets.nodes other ∧ ¬ (node = saddr ∧ other = epoch) := by
  rw [heartbeat, mem_add, mem_touch]

/-- A check moves the nodes that are not reported to the next set. -/
theorem EpochSets.mem_check {stRet : CString → Int} :
    node ∈ (sets.check epoch stRet).nodes other ↔
      other ≠ epoch ∧ (node ∈ sets.nodes other ∨
        other = epoch + 1 ∧ node ∈ sets.nodes epoch ∧ stRet node ≠ 1) := by
  rw [check, nodes_update]
  split
  · rename_i heq
    simp [heq]
  · rename_i hne
    rw [mem_addAll, Finset.mem_filter]
    simp [hne]

end Members

theorem EpochSets.addAll_empty (sets : EpochSets) (epoch : Int64) :
    sets.addAll epoch ∅ = sets :=
  if_pos rfl

theorem EpochSets.add_addAll (sets : EpochSets) (epoch : Int64) (node : CString)
    (nodes : Finset CString) :
    (sets.add epoch node).addAll epoch nodes = sets.addAll epoch (insert node nodes) := by
  have hself : (sets.add epoch node).nodes epoch = insert node (sets.nodes epoch) := by
    rw [add, EpochSets.nodes, Function.update_self, Option.getD_some]
  rw [addAll, addAll, if_neg (Finset.insert_ne_empty node nodes)]
  split
  · rename_i hempty
    rw [hempty, add, insert_empty_eq, Finset.union_comm, ← Finset.insert_eq]
  · rw [hself, add, Function.update_idem, Finset.insert_union, Finset.union_insert]

section Refinement

variable {Table : Type → Type} {L : Type} {ht : RemovalTable Table} {lib : ListLib L}

/-- A list without repetition represents the set of its nodes, and no list no set. -/
structure Represents (lib : ListLib L) (ipList : Option L) (nodes : Option (Finset CString)) :
    Prop where
  nodes_eq : (ipList.map fun ipList => (lib.iterate ipList).toFinset) = nodes
  nodup : ∀ list ∈ ipList, (lib.iterate list).Nodup

theorem represents_none (lib : ListLib L) : Represents lib none none :=
  ⟨rfl, fun _ hnone => by cases hnone⟩

section Lists

variable {ipList : L} {nodes : Option (Finset CString)}

theorem Represents.nodes_of_some (hold : Represents lib (some ipList) nodes) :
    nodes = some (lib.iterate ipList).toFinset :=
  hold.nodes_eq.symm

theorem Represents.remove (hlib : lib.Lawful) (hold : Represents lib (some ipList) nodes)
    (node : CString) :
    Represents lib (some (lib.remove ipList node)) (nodes.map (·.erase node)) := by
  have hnodup := hold.nodup ipList rfl
  constructor
  · rw [hold.nodes_of_some, Option.map_some, Option.map_some, Option.some_inj,
      hlib.iterate_remove]
    ext other
    simp [hnodup.mem_erase_iff]
  · rintro list ⟨⟩
    rw [hlib.iterate_remove]
    exact hnodup.erase node

theorem Represents.absent (hlib : lib.Lawful) (hold : Represents lib (some ipList) nodes)
    {node : CString} (hfind : ¬ lib.find ipList node = true) :
    Represents lib (some ipList) (nodes.map (·.erase node)) := by
  rw [hlib.find_iff] at hfind
  refine ⟨?_, hold.nodup⟩
  rw [hold.nodes_of_some, Option.map_some, Option.map_some, Option.some_inj,
    Finset.erase_eq_of_notMem (by simpa using hfind)]

theorem Represents.present (hlib : lib.Lawful) (hold : Represents lib (some ipList) nodes)
    {node : CString} (hfind : lib.find ipList node = true) :
    Represents lib (some ipList) (some (insert node (nodes.getD ∅))) := by
  rw [hlib.find_iff] at hfind
  refine ⟨?_, hold.nodup⟩
  rw [hold.nodes_of_some, Option.map_some, Option.getD_some, Option.some_inj,
    Finset.insert_eq_of_mem (by simpa using hfind)]

theorem Represents.rpush (hlib : lib.Lawful) (hold : Represents lib (some ipList) nodes)
    {node : CString} (hfind : ¬ lib.find ipList node = true) :
    Represents lib (some (lib.rpush ipList node)) (some (insert node (nodes.getD ∅))) := by
  rw [hlib.find_iff] at hfind
  constructor
  · rw [hold.nodes_of_some, Option.map_some, Option.getD_some, Option.some_inj,
      hlib.iterate_rpush]
    ext other
    simp
  · rintro list ⟨⟩
    rw [hlib.iterate_rpush, ← List.concat_eq_append]
    exact (hold.nodup ipList rfl).concat hfind

theorem represents_new (hlib : lib.Lawful) : Represents lib (some lib.new) (some ∅) := by
  constructor
  · rw [Option.map_some, hlib.iterate_new]
    rfl
  · rintro list ⟨⟩
    rw [hlib.iterate_new]
    exact List.nodup_nil

end Lists

/-- The lists of the selected epochs represent the sets. -/
def HoldsSets (ht : RemovalTable Table) (lib : ListLib L) (selected : Int64 → Prop)
    (table : Table L) (sets : EpochSets) : Prop :=
  ∀ epoch, selected epoch → Represents lib (ht.get table (longBytes epoch)) (sets epoch)

variable {selected : Int64 → Prop} {table table' : Table L} {sets : EpochSets}

/-- A change of one list. -/
theorem HoldsSets.update (hholds : HoldsSets ht lib selected table sets) {epoch : Int64}
    {nodes : Option (Finset CString)}
    (hframe : ∀ other, other ≠ epoch →
      ht.get table' (longBytes other) = ht.get table (longBytes other))
    (hself : selected epoch → Represents lib (ht.get table' (longBytes epoch)) nodes) :
    HoldsSets ht lib selected table' (Function.update sets epoch nodes) := by
  intro other hselected
  by_cases hother : other = epoch
  · subst hother
    rw [Function.update_self]
    exact hself hselected
  · rw [Function.update_of_ne hother, hframe other hother]
    exact hholds other hselected

theorem get_assign_of_epoch_ne (hlawful : ht.Lawful) {epoch other : Int64}
    (hne : other ≠ epoch) (value : L) :
    ht.get (ht.assign table (longBytes epoch) value) (longBytes other) =
      ht.get table (longBytes other) :=
  hlawful.get_assign_of_ne table _ _ value (longBytes_injective.ne hne)

theorem removeNode_frame (hlawful : ht.Lawful) (epoch : Int64) (node : CString) :
    ∀ other, other ≠ epoch →
      ht.get (removeNode ht lib table epoch node) (longBytes other) =
        ht.get table (longBytes other) := by
  intro other hne
  rw [removeNode]
  split
  · rfl
  · exact get_assign_of_epoch_ne hlawful hne _

theorem touchNode_frame (hlawful : ht.Lawful) (epoch : Int64) (node : CString) :
    ∀ other, other ≠ epoch →
      ht.get (touchNode ht lib table epoch node) (longBytes other) =
        ht.get table (longBytes other) := by
  intro other hne
  rw [touchNode]
  split
  · rfl
  · split
    · exact removeNode_frame hlawful epoch node other hne
    · rfl

theorem addNode_frame (hlawful : ht.Lawful) (epoch : Int64) (node : CString) :
    ∀ other, other ≠ epoch →
      ht.get (addNode ht lib table epoch node) (longBytes other) =
        ht.get table (longBytes other) := by
  intro other hne
  have hkey := longBytes_injective.ne hne
  cases hget : ht.get table (longBytes epoch) with
  | none =>
      simp only [addNode, hget]
      split
      · exact hlawful.get_insert_of_ne _ _ _ _ hkey
      · rw [get_assign_of_epoch_ne hlawful hne, hlawful.get_insert_of_ne _ _ _ _ hkey]
  | some ipList =>
      simp only [addNode, hget]
      split
      · rfl
      · exact get_assign_of_epoch_ne hlawful hne _

theorem HoldsSets.touchNode (hlawful : ht.Lawful) (hlib : lib.Lawful)
    (hholds : HoldsSets ht lib selected table sets) (epoch : Int64) (node : CString) :
    HoldsSets ht lib selected (touchNode ht lib table epoch node) (sets.touch epoch node) := by
  apply hholds.update (touchNode_frame hlawful epoch node)
  intro hselected
  have hold := hholds epoch hselected
  rw [SafeTimer.touchNode]
  cases hget : ht.get table (longBytes epoch) with
  | none =>
      rw [hget] at hold
      rw [← hold.nodes_eq]
      simp only [hget]
      exact represents_none lib
  | some ipList =>
      rw [hget] at hold
      by_cases hfind : lib.find ipList node = true
      · simp only [if_pos hfind, removeNode, hget, hlawful.get_assign_self _ _ _ _ hget]
        exact hold.remove hlib node
      · simp only [if_neg hfind, hget]
        exact hold.absent hlib hfind

theorem HoldsSets.addNode (hlawful : ht.Lawful) (hlib : lib.Lawful)
    (hholds : HoldsSets ht lib selected table sets) (epoch : Int64) (node : CString) :
    HoldsSets ht lib selected (addNode ht lib table epoch node) (sets.add epoch node) := by
  apply hholds.update (addNode_frame hlawful epoch node)
  intro hselected
  have hold := hholds epoch hselected
  cases hget : ht.get table (longBytes epoch) with
  | none =>
      rw [hget] at hold
      have hfind : ¬ lib.find lib.new node = true := by
        rw [hlib.find_iff, hlib.iterate_new]
        exact List.not_mem_nil
      have hinsert := hlawful.get_insert_self table _ lib.new hget
      simp only [SafeTimer.addNode, hget, if_neg hfind,
        hlawful.get_assign_self _ _ _ _ hinsert, EpochSets.nodes]
      rw [← hold.nodes_eq]
      exact (represents_new hlib).rpush hlib hfind
  | some ipList =>
      rw [hget] at hold
      by_cases hfind : lib.find ipList node = true
      · simp only [SafeTimer.addNode, hget, if_pos hfind]
        exact hold.present hlib hfind
      · simp only [SafeTimer.addNode, hget, if_neg hfind, hlawful.get_assign_self _ _ _ _ hget]
        exact hold.rpush hlib hfind

theorem HoldsSets.hbServer (hlawful : ht.Lawful) (hlib : lib.Lawful)
    (hholds : HoldsSets ht lib selected table sets) (saddr : CString) (epoch : Int64) :
    HoldsSets ht lib selected (hbServer ht lib table saddr epoch)
      (sets.heartbeat saddr epoch) :=
  (hholds.touchNode hlawful hlib epoch saddr).addNode hlawful hlib (epoch + 1) saddr

/-- While an epoch is checked, its own list is left out of account. -/
theorem HoldsSets.checkNodes (hlawful : ht.Lawful) (hlib : lib.Lawful) {epoch : Int64}
    (stRet : CString → Int) (nodes reported : List CString)
    (hholds : HoldsSets ht lib (· ≠ epoch) table sets) :
    HoldsSets ht lib (· ≠ epoch)
      (nodes.foldl (checkNode ht lib epoch stRet) (table, reported)).1
      (sets.addAll (epoch + 1) (nodes.filter (stRet · ≠ 1)).toFinset) := by
  induction nodes generalizing table sets reported with
  | nil =>
      rw [List.filter_nil, List.toFinset_nil, EpochSets.addAll_empty]
      exact hholds
  | cons node rest ih =>
      rw [List.foldl_cons, checkNode]
      by_cases htimedOut : stRet node = 1
      · have hremoved : HoldsSets ht lib (· ≠ epoch) (removeNode ht lib table epoch node)
            sets := by
          intro other hne
          rw [removeNode_frame hlawful epoch node other hne]
          exact hholds other hne
        rw [if_pos htimedOut, List.filter_cons_of_neg (by simpa using htimedOut)]
        exact ih (reported ++ [node]) hremoved
      · rw [if_neg htimedOut, List.filter_cons_of_pos (by simpa using htimedOut),
          List.toFinset_cons, ← EpochSets.add_addAll]
        exact ih reported (hholds.addNode hlawful hlib (epoch + 1) node)

theorem checkNodes_reported (epoch : Int64) (stRet : CString → Int)
    (nodes reported : List CString) (table : Table L) :
    (nodes.foldl (checkNode ht lib epoch stRet) (table, reported)).2 =
      reported ++ nodes.filter (stRet · = 1) := by
  induction nodes generalizing table reported with
  | nil => exact (List.append_nil reported).symm
  | cons node rest ih =>
      rw [List.foldl_cons, checkNode]
      by_cases htimedOut : stRet node = 1
      · rw [if_pos htimedOut, ih, List.filter_cons_of_pos (by simpa using htimedOut),
          List.append_assoc, List.singleton_append]
      · rw [if_neg htimedOut, ih, List.filter_cons_of_neg (by simpa using htimedOut)]

/-- The loop of the check touches no list but its own and the next. -/
theorem checkNodes_frame (hlawful : ht.Lawful) {epoch : Int64} (stRet : CString → Int)
    (nodes reported : List CString) :
    ∀ other, other ≠ epoch → other ≠ epoch + 1 →
      ht.get (nodes.foldl (checkNode ht lib epoch stRet) (table, reported)).1
        (longBytes other) = ht.get table (longBytes other) := by
  intro other hne hnext
  induction nodes generalizing table reported with
  | nil => rfl
  | cons node rest ih =>
      rw [List.foldl_cons, checkNode]
      split
      · rw [ih, removeNode_frame hlawful epoch node other hne]
      · rw [ih, addNode_frame hlawful (epoch + 1) node other hnext]

theorem HoldsSets.expirationCheck (hlawful : ht.Lawful) (hlib : lib.Lawful)
    (hholds : HoldsSets ht lib (fun _ => True) table sets) (epoch : Int64)
    (stRet : CString → Int) :
    HoldsSets ht lib (fun _ => True) (expirationCheckForEpoch ht lib table epoch stRet).1
        (sets.check epoch stRet) := by
  have hold := hholds epoch trivial
  cases hget : ht.get table (longBytes epoch) with
  | none =>
      rw [hget] at hold
      have hnone : sets epoch = none := hold.nodes_eq.symm
      have hnodes : sets.nodes epoch = ∅ := by
        rw [EpochSets.nodes, hnone]
        rfl
      simp only [expirationCheckForEpoch, hget]
      rw [EpochSets.check, hnodes, Finset.filter_empty, EpochSets.addAll_empty, ← hnone,
        Function.update_eq_self]
      exact hholds
  | some ipList =>
      rw [hget] at hold
      have hcarried : (sets.nodes epoch).filter (fun node => stRet node ≠ 1) =
          ((lib.iterate ipList).filter (stRet · ≠ 1)).toFinset := by
        rw [EpochSets.nodes, hold.nodes_of_some, List.toFinset_filter]
        simp
      have hothers : HoldsSets ht lib (· ≠ epoch) table sets :=
        fun other _ => hholds other trivial
      have hloop := hothers.checkNodes hlawful hlib stRet (lib.iterate ipList) []
      simp only [expirationCheckForEpoch, hget]
      rw [EpochSets.check, hcarried]
      intro other _
      by_cases hother : other = epoch
      · subst hother
        rw [Function.update_self, hlawful.get_remove_self]
        exact represents_none lib
      · rw [Function.update_of_ne hother,
          hlawful.get_remove_of_ne _ _ _ (longBytes_injective.ne hother)]
        exact hloop other hother

theorem expirationCheck_reported (table : Table L) (epoch : Int64)
    (stRet : CString → Int) :
    (expirationCheckForEpoch ht lib table epoch stRet).2 =
      (((ht.get table (longBytes epoch)).map lib.iterate).getD []).filter (stRet · = 1) := by
  cases hget : ht.get table (longBytes epoch) with
  | none =>
      simp only [expirationCheckForEpoch, hget]
      rfl
  | some ipList =>
      simp only [expirationCheckForEpoch, hget, checkNodes_reported]
      rfl

theorem expirationCheck_deletes (hlawful : ht.Lawful) (table : Table L) (epoch : Int64)
    (stRet : CString → Int) :
    ht.get (expirationCheckForEpoch ht lib table epoch stRet).1 (longBytes epoch) = none := by
  cases hget : ht.get table (longBytes epoch) with
  | none => simp only [expirationCheckForEpoch, hget]
  | some ipList =>
      simp only [expirationCheckForEpoch, hget]
      exact hlawful.get_remove_self _ _

theorem expirationCheck_frame (hlawful : ht.Lawful) (table : Table L) (epoch : Int64)
    (stRet : CString → Int) :
    ∀ other, other ≠ epoch → other ≠ epoch + 1 →
      ht.get (expirationCheckForEpoch ht lib table epoch stRet).1 (longBytes other) =
        ht.get table (longBytes other) := by
  intro other hne hnext
  cases hget : ht.get table (longBytes epoch) with
  | none => simp only [expirationCheckForEpoch, hget]
  | some ipList =>
      simp only [expirationCheckForEpoch, hget]
      rw [hlawful.get_remove_of_ne _ _ _ (longBytes_injective.ne hne)]
      exact checkNodes_frame hlawful stRet _ _ other hne hnext

end Refinement

end SafeTimer
