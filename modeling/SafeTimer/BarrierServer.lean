/-
`barrier_server` (src/barrier.c): how it classifies the connections it accepts, and which
descriptors it keeps for them.
-/
import SafeTimer.BarrierChannel
import SafeTimer.UserText
import Mathlib.Data.Finset.Card

namespace SafeTimer

/-- The points where the accept path leaves defined behaviour. -/
inductive ServerFault where
  /-- `fclose` of a null pointer -/
  | nullStream
  /-- `fscanf` writes behind the end of `buf` -/
  | bufAccess
  /-- `conn_fds` is accessed out of its bounds -/
  | connFdsAccess
  /-- `FD_SET` of a descriptor that the set has no bit for -/
  | fdSetAccess
deriving DecidableEq

/-- What `get_sport_by_rx_queue` meets: a file that cannot be opened, where the process may
or may not survive the `fclose` of the null pointer, or the bytes of the file and those that
stand in `buf` before. -/
inductive SportFile where
  | unopened (survives : Bool)
  | content (bytes stale : List UInt8)
deriving DecidableEq

/-- The file of a port that the kernel has recorded, as `debugfs_create_u32` shows it. -/
def SportFile.ofSport (sport : UInt32) : SportFile :=
  .content (natText sport.toNat ++ [10]) []

/-- `get_sport_by_rx_queue`.  `buf` holds seven characters and the NUL, and keeps what it
had if there is no word in the file. -/
def getSportByRxQueue : SportFile → Except ServerFault Int32
  | .unopened true => .ok (-1)
  | .unopened false => .error .nullStream
  | .content bytes stale =>
      let word := (bytes.dropWhile isSpace).takeWhile (!isSpace ·)
      if word = [] then .ok (atoi stale)
      else if word.length < 8 then .ok (atoi word)
      else .error .bufAccess

/-- `BASE_IRQ` -/
abbrev baseIrq : Int64 := 33

/-- The loop of `validate_connection` over the queues that are left.  The result is the
return code and `*rx_queue`. -/
def validateQueues (clientPort : Int32) (files : Fin irqNum → SportFile) :
    List (Fin irqNum) → Except ServerFault (Int32 × Int64)
  | [] => .ok (0, -1)
  | i :: rest => do
      let sportOfRxQueue ← getSportByRxQueue (files i)
      if sportOfRxQueue < 0 then return (-1, -1)
      else if clientPort = sportOfRxQueue then return (1, baseIrq + Int64.ofNat i)
      else validateQueues clientPort files rest

/-- `validate_connection` -/
def validateConnection (clientPort : Int32) (files : Fin irqNum → SportFile) :
    Except ServerFault (Int32 × Int64) :=
  validateQueues clientPort files (List.finRange irqNum)

/-- The static variables of the server. -/
structure BarrierServer where
  activeFdSet : Finset Nat
  connFds : Fin irqNum → Nat

/-- `FD_SETSIZE` -/
abbrev fdSetSize : Nat := 1024

/-- `FD_SET(fd, &active_fd_set)` -/
def BarrierServer.fdSet (s : BarrierServer) (fd : Nat) : Except ServerFault BarrierServer :=
  if fd < fdSetSize then .ok { s with activeFdSet := insert fd s.activeFdSet }
  else .error .fdSetAccess

/-- `conn_fds[index] = fd` -/
def BarrierServer.setConnFd (s : BarrierServer) (index : Int) (fd : Nat) :
    Except ServerFault BarrierServer :=
  if hindex : 0 ≤ index ∧ index < irqNum then
    .ok { s with connFds := Function.update s.connFds ⟨index.toNat, by omega⟩ fd }
  else .error .connFdsAccess

/-- The port of a connection as `validate_connection` receives it. -/
def clientPort (port : UInt16) : Int32 :=
  Int32.ofNat port.toNat

/-- The accept path for a connection from `BARRIER_CLIENT_ADDR`, with the reply.  The return
code of `validate_connection` is used as a truth value. -/
def BarrierServer.acceptClient (s : BarrierServer) (port : UInt16) (fd : Nat)
    (files : Fin irqNum → SportFile) : Except ServerFault (BarrierServer × Int64) := do
  let (valid, rxQueue) ← validateConnection (clientPort port) files
  if valid ≠ 0 then
    let s ← s.setConnFd (rxQueue.toInt - baseIrq.toInt) fd
    let s ← s.fdSet fd
    return (s, rxQueue)
  else return (s, rxQueue)

/-- The accept path; a connection from another host gets no reply. -/
def BarrierServer.accept (s : BarrierServer) (addr : InAddr) (port : UInt16) (fd : Nat)
    (files : Fin irqNum → SportFile) : Except ServerFault (BarrierServer × Option Int64) :=
  if inetNtop addr ≠ inetNtop barrierClientAddr then do
    let s ← s.fdSet fd
    return (s, none)
  else do
    let (s, reply) ← s.acceptClient port fd files
    return (s, some reply)

/-- The file is read and holds no negative number. -/
def SportFile.Readable (file : SportFile) : Prop :=
  match getSportByRxQueue file with
  | .ok sport => 0 ≤ sport
  | .error _ => False

instance (file : SportFile) : Decidable file.Readable := by
  unfold SportFile.Readable
  split <;> infer_instance

/-- The scan goes on behind a file with another port. -/
def SportFile.Passed (file : SportFile) (clientPort : Int32) : Prop :=
  file.Readable ∧ getSportByRxQueue file ≠ .ok clientPort

instance (file : SportFile) (clientPort : Int32) : Decidable (file.Passed clientPort) :=
  inferInstanceAs (Decidable (_ ∧ _))

/-- The least index whose file holds the port, where no read up to it fails. -/
def LeastMatch (clientPort : Int32) (files : Fin irqNum → SportFile) (k : Fin irqNum) : Prop :=
  (∀ j < k, (files j).Passed clientPort) ∧ getSportByRxQueue (files k) = .ok clientPort

instance (clientPort : Int32) (files : Fin irqNum → SportFile) (k : Fin irqNum) :
    Decidable (LeastMatch clientPort files k) :=
  inferInstanceAs (Decidable (_ ∧ _))

/-- The four ways in which the scan ends. -/
inductive Scanned (clientPort : Int32) (files : Fin irqNum → SportFile) :
    Except ServerFault (Int32 × Int64) → Prop
  | matched (k : Fin irqNum) (hmatch : LeastMatch clientPort files k) :
      Scanned clientPort files (.ok (1, baseIrq + Int64.ofNat k))
  | redundant (hpassed : ∀ j, (files j).Passed clientPort) :
      Scanned clientPort files (.ok (0, -1))
  | failed (k : Fin irqNum) (hpassed : ∀ j < k, (files j).Passed clientPort)
      (hfailed : ¬(files k).Readable) : Scanned clientPort files (.ok (-1, -1))
  | faulted (k : Fin irqNum) (fault : ServerFault)
      (hpassed : ∀ j < k, (files j).Passed clientPort) (hfailed : ¬(files k).Readable) :
      Scanned clientPort files (.error fault)

theorem mem_iff_lt_of_finRange {n : Nat} {done rest : List (Fin n)} {i : Fin n}
    (hsplit : List.finRange n = done ++ i :: rest) (j : Fin n) : j ∈ done ↔ j < i := by
  have hsorted : (done ++ i :: rest).Pairwise (· < ·) :=
    hsplit ▸ List.pairwise_lt_finRange n
  rw [List.pairwise_append, List.pairwise_cons] at hsorted
  obtain ⟨_, ⟨hafter, _⟩, hbefore⟩ := hsorted
  constructor
  · intro hmem
    exact hbefore j hmem i List.mem_cons_self
  · intro hlt
    have hmem : j ∈ done ++ i :: rest := hsplit ▸ List.mem_finRange j
    rcases List.mem_append.mp hmem with hdone | hrest
    · exact hdone
    · rcases List.mem_cons.mp hrest with rfl | hlater
      · exact absurd hlt (Fin.lt_irrefl j)
      · exact absurd hlt (Fin.lt_asymm (hafter j hlater))

theorem validateQueues_scanned {clientPort : Int32} {files : Fin irqNum → SportFile}
    (done rest : List (Fin irqNum)) (hsplit : List.finRange irqNum = done ++ rest)
    (hpassed : ∀ j ∈ done, (files j).Passed clientPort) :
    Scanned clientPort files (validateQueues clientPort files rest) := by
  induction rest generalizing done with
  | nil =>
      refine .redundant fun j => hpassed j ?_
      rw [List.append_nil] at hsplit
      exact hsplit ▸ List.mem_finRange j
  | cons i rest ih =>
      have hbefore : ∀ j < i, (files j).Passed clientPort :=
        fun j hlt => hpassed j ((mem_iff_lt_of_finRange hsplit j).mpr hlt)
      rw [validateQueues]
      cases hread : getSportByRxQueue (files i) with
      | error fault =>
          refine .faulted i fault hbefore ?_
          rw [SportFile.Readable, hread]
          exact not_false
      | ok sport =>
          simp only [bind, Except.bind]
          by_cases hneg : sport < 0
          · rw [if_pos hneg]
            refine .failed i hbefore ?_
            rw [SportFile.Readable, hread]
            exact Int32.not_le.mpr hneg
          · rw [if_neg hneg]
            by_cases hport : clientPort = sport
            · rw [if_pos hport]
              exact .matched i ⟨hbefore, by rw [hread, hport]⟩
            · rw [if_neg hport]
              have hreadable : (files i).Readable := by
                rw [SportFile.Readable, hread]
                exact Int32.not_lt.mp hneg
              apply ih (done ++ [i])
              · rw [hsplit, List.append_assoc]
                rfl
              · intro j hmem
                rcases List.mem_append.mp hmem with hdone | hlast
                · exact hpassed j hdone
                · rw [List.mem_singleton.mp hlast]
                  refine ⟨hreadable, ?_⟩
                  rw [hread]
                  exact fun heq => hport (Except.ok.inj heq).symm

theorem validateConnection_scanned (clientPort : Int32) (files : Fin irqNum → SportFile) :
    Scanned clientPort files (validateConnection clientPort files) :=
  validateQueues_scanned [] _ rfl (by simp)

/-- What the accept path does for a connection of a queue. -/
def BarrierServer.record (s : BarrierServer) (k : Fin irqNum) (fd : Nat) : BarrierServer where
  activeFdSet := insert fd s.activeFdSet
  connFds := Function.update s.connFds k fd

/-- The outcomes of the accept path.  A scan that has failed with a return code ends in an
access to `conn_fds` with the index of the reply -1. -/
inductive Classified (s : BarrierServer) (port : UInt16) (fd : Nat)
    (files : Fin irqNum → SportFile) : Except ServerFault (BarrierServer × Int64) → Prop
  | recorded (k : Fin irqNum) (hmatch : LeastMatch (clientPort port) files k)
      (hfd : fd < fdSetSize) :
      Classified s port fd files (.ok (s.record k fd, baseIrq + Int64.ofNat k))
  | unrecorded (k : Fin irqNum) (hmatch : LeastMatch (clientPort port) files k)
      (hfd : ¬fd < fdSetSize) : Classified s port fd files (.error .fdSetAccess)
  | redundant (hpassed : ∀ j, (files j).Passed (clientPort port)) :
      Classified s port fd files (.ok (s, -1))
  | failed (k : Fin irqNum) (fault : ServerFault)
      (hpassed : ∀ j < k, (files j).Passed (clientPort port)) (hfailed : ¬(files k).Readable) :
      Classified s port fd files (.error fault)

theorem rxQueue_sub_baseIrq (k : Fin irqNum) :
    (baseIrq + Int64.ofNat k).toInt - baseIrq.toInt = k := by
  revert k
  decide

theorem BarrierServer.setConnFd_of_queue (s : BarrierServer) (k : Fin irqNum) (fd : Nat) :
    s.setConnFd ((baseIrq + Int64.ofNat k).toInt - baseIrq.toInt) fd =
      .ok { s with connFds := Function.update s.connFds k fd } := by
  have hbounds : 0 ≤ (k : Int) ∧ (k : Int) < irqNum := by omega
  simp only [setConnFd, rxQueue_sub_baseIrq, hbounds, and_self, dite_true, Int.toNat_natCast]

theorem BarrierServer.acceptClient_classified (s : BarrierServer) (port : UInt16) (fd : Nat)
    (files : Fin irqNum → SportFile) :
    Classified s port fd files (s.acceptClient port fd files) := by
  have hscan := validateConnection_scanned (clientPort port) files
  rw [acceptClient]
  generalize validateConnection (clientPort port) files = result at hscan
  cases hscan with
  | matched k hmatch =>
      simp only [bind, Except.bind]
      rw [if_pos (by decide), setConnFd_of_queue]
      by_cases hfd : fd < fdSetSize
      · simp only [fdSet, if_pos hfd]
        exact .recorded k hmatch hfd
      · simp only [fdSet, if_neg hfd]
        exact .unrecorded k hmatch hfd
  | redundant hpassed => exact .redundant hpassed
  | failed k hpassed hfailed => exact .failed k .connFdsAccess hpassed hfailed
  | faulted k fault hpassed hfailed => exact .failed k fault hpassed hfailed

/-- A reply is -1 or names the queue whose file holds the port. -/
theorem BarrierServer.acceptClient_reply {s s' : BarrierServer} {port : UInt16} {fd : Nat}
    {files : Fin irqNum → SportFile} {reply : Int64}
    (haccept : s.acceptClient port fd files = .ok (s', reply)) :
    reply = -1 ∨ ∃ k, LeastMatch (clientPort port) files k ∧ reply = baseIrq + Int64.ofNat k := by
  have hclassified := s.acceptClient_classified port fd files
  rw [haccept] at hclassified
  cases hclassified with
  | recorded k hmatch hfd => exact Or.inr ⟨k, hmatch, rfl⟩
  | redundant hpassed => exact Or.inl rfl

theorem clientPort_nonneg (port : UInt16) : 0 ≤ clientPort port := by
  rw [Int32.le_iff_toInt_le, clientPort]
  have hlt := port.toNat_lt
  rw [Int32.toInt_ofNat_of_lt (by omega)]
  exact Int.natCast_nonneg _

theorem SportFile.readable_of_port {file : SportFile} {port : UInt16}
    (hread : getSportByRxQueue file = .ok (clientPort port)) : file.Readable := by
  rw [Readable, hread]
  exact clientPort_nonneg port

theorem LeastMatch.unique {clientPort : Int32} {files : Fin irqNum → SportFile}
    {k k' : Fin irqNum} (hmatch : LeastMatch clientPort files k)
    (hmatch' : LeastMatch clientPort files k') : k = k' := by
  rcases lt_trichotomy k k' with hlt | heq | hgt
  · exact absurd hmatch.2 (hmatch'.1 k hlt).2
  · exact heq
  · exact absurd hmatch'.2 (hmatch.1 k' hgt).2

/-- The reply names the least queue whose file holds the port, and the connection is entered
for it; in every other case the reply is -1 and the variables stay as they are. -/
def AcceptCorrect (s : BarrierServer) (port : UInt16) (fd : Nat)
    (files : Fin irqNum → SportFile) : Prop :=
  (∀ k, s.acceptClient port fd files = .ok (s.record k fd, baseIrq + Int64.ofNat k) ↔
      LeastMatch (clientPort port) files k) ∧
    ((∀ k, ¬LeastMatch (clientPort port) files k) → s.acceptClient port fd files = .ok (s, -1))

/-- No read fails before the port is found. -/
def ReadsSucceed (clientPort : Int32) (files : Fin irqNum → SportFile) : Prop :=
  ∀ k, (∀ j < k, getSportByRxQueue (files j) ≠ .ok clientPort) → (files k).Readable

instance (clientPort : Int32) (files : Fin irqNum → SportFile) :
    Decidable (ReadsSucceed clientPort files) := by
  unfold ReadsSucceed
  infer_instance

theorem LeastMatch.readsSucceed {port : UInt16} {files : Fin irqNum → SportFile}
    {k : Fin irqNum} (hmatch : LeastMatch (clientPort port) files k) :
    ReadsSucceed (clientPort port) files := by
  intro k' hbefore
  rcases lt_trichotomy k' k with hlt | rfl | hgt
  · exact (hmatch.1 k' hlt).1
  · exact SportFile.readable_of_port hmatch.2
  · exact absurd hmatch.2 (hbefore k hgt)

theorem replies_injective {k k' : Fin irqNum}
    (hreply : baseIrq + Int64.ofNat k = baseIrq + Int64.ofNat k') : k = k' := by
  have hindex := congrArg (fun reply : Int64 => reply.toInt - baseIrq.toInt) hreply
  simp only [rxQueue_sub_baseIrq] at hindex
  omega

theorem reply_ne_neg_one (k : Fin irqNum) : -1 ≠ baseIrq + Int64.ofNat k := by
  revert k
  decide

theorem ReadsSucceed.acceptCorrect {port : UInt16} {files : Fin irqNum → SportFile}
    (hreads : ReadsSucceed (clientPort port) files) (s : BarrierServer) {fd : Nat}
    (hsize : (∃ k, LeastMatch (clientPort port) files k) → fd < fdSetSize) :
    AcceptCorrect s port fd files := by
  have hclassified := s.acceptClient_classified port fd files
  rw [AcceptCorrect]
  generalize s.acceptClient port fd files = result at hclassified
  cases hclassified with
  | recorded k hmatch _ =>
      refine ⟨fun k' => ⟨?_, ?_⟩, fun hnone => absurd hmatch (hnone k)⟩
      · intro heq
        rwa [replies_injective (Prod.mk.inj (Except.ok.inj heq)).2] at hmatch
      · intro hmatch'
        rw [hmatch.unique hmatch']
  | unrecorded k hmatch hfd => exact absurd (hsize ⟨k, hmatch⟩) hfd
  | redundant hpassed =>
      refine ⟨fun k => iff_of_false ?_ ?_, fun _ => rfl⟩
      · intro heq
        exact reply_ne_neg_one k (Prod.mk.inj (Except.ok.inj heq)).2
      · intro hmatch
        exact (hpassed k).2 hmatch.2
  | failed k fault hpassed hfailed =>
      exact absurd (hreads k fun j hlt => (hpassed j hlt).2) hfailed

theorem AcceptCorrect.readsSucceed {s : BarrierServer} {port : UInt16} {fd : Nat}
    {files : Fin irqNum → SportFile} (hcorrect : AcceptCorrect s port fd files) :
    ReadsSucceed (clientPort port) files ∧
      ((∃ k, LeastMatch (clientPort port) files k) → fd < fdSetSize) := by
  have hclassified := s.acceptClient_classified port fd files
  rw [AcceptCorrect] at hcorrect
  generalize s.acceptClient port fd files = result at hclassified hcorrect
  obtain ⟨hexact, hother⟩ := hcorrect
  cases hclassified with
  | recorded k hmatch hfd => exact ⟨hmatch.readsSucceed, fun _ => hfd⟩
  | unrecorded k hmatch hfd => cases (hexact k).mpr hmatch
  | redundant hpassed =>
      exact ⟨fun k _ => (hpassed k).1, fun ⟨k, hmatch⟩ => absurd hmatch.2 (hpassed k).2⟩
  | failed k fault hpassed hfailed =>
      have hnone : ∀ k', ¬LeastMatch (clientPort port) files k' :=
        fun k' hmatch => hfailed (hmatch.readsSucceed k fun j hlt => (hpassed j hlt).2)
      cases hother hnone

theorem acceptCorrect_iff (s : BarrierServer) (port : UInt16) (fd : Nat)
    (files : Fin irqNum → SportFile) :
    AcceptCorrect s port fd files ↔
      ReadsSucceed (clientPort port) files ∧
        ((∃ k, LeastMatch (clientPort port) files k) → fd < fdSetSize) := by
  constructor
  · intro hcorrect
    exact hcorrect.readsSucceed
  · rintro ⟨hreads, hsize⟩
    exact hreads.acceptCorrect s hsize

/-- None of the files can be opened.  A process that survives takes the return code -1 for
true and writes to `conn_fds[-1 - BASE_IRQ]`. -/
theorem failed_read_writes_outside_conn_fds :
    (BarrierServer.mk {3} fun _ => 0).acceptClient 40000 7 (fun _ => .unopened true) =
        .error .connFdsAccess ∧
      ¬AcceptCorrect ⟨{3}, fun _ => 0⟩ 40000 7 (fun _ => .unopened true) ∧
      (BarrierServer.mk {3} fun _ => 0).acceptClient 40000 7 (fun _ => .unopened false) =
        .error .nullStream ∧
      ¬AcceptCorrect ⟨{3}, fun _ => 0⟩ 40000 7 (fun _ => .unopened false) := by
  refine ⟨rfl, ?_, rfl, ?_⟩
  · rintro ⟨_, hother⟩
    cases hother (by decide)
  · rintro ⟨_, hother⟩
    cases hother (by decide)

theorem getSportByRxQueue_ofSport {sport : UInt32} (hsport : sport.toNat < 10 ^ 7) :
    getSportByRxQueue (.ofSport sport) = .ok (Int32.ofNat sport.toNat) := by
  have hdigits : ∀ byte ∈ natText sport.toNat, isSpace byte = false :=
    fun byte hmem => isSpace_of_isDigit (isDigit_of_mem_natText hmem)
  have hword : ((natText sport.toNat ++ [10]).dropWhile isSpace).takeWhile (!isSpace ·) =
      natText sport.toNat := by
    have hdrop : (natText sport.toNat ++ [10]).dropWhile isSpace = natText sport.toNat ++ [10] := by
      cases htext : natText sport.toNat with
      | nil => exact absurd htext (natText_ne_nil _)
      | cons first rest =>
          have hfirst := hdigits first (htext ▸ List.mem_cons_self)
          rw [List.cons_append, List.dropWhile_cons_of_neg (by simp [hfirst])]
    rw [hdrop, List.takeWhile_append_of_pos fun byte hmem => by simp [hdigits byte hmem]]
    exact List.append_nil _
  have hlength := natText_length_le (by decide : 0 < 7) hsport
  simp only [SportFile.ofSport, getSportByRxQueue, hword]
  rw [if_neg (natText_ne_nil _), if_pos (by omega), atoi_natText (by omega)]

/-- A queue is found only for the port that is recorded for it. -/
theorem sport_eq_of_read {port : UInt16} {sport : UInt32}
    (hread : getSportByRxQueue (.ofSport sport) = .ok (clientPort port))
    (hlt : sport.toNat < 2 ^ 16) : sport = port.toUInt32 := by
  have hport := port.toNat_lt
  rw [getSportByRxQueue_ofSport (by omega)] at hread
  have hint := congrArg Int32.toInt (Except.ok.inj hread)
  rw [clientPort, Int32.toInt_ofNat_of_lt (by omega), Int32.toInt_ofNat_of_lt (by omega)] at hint
  rw [← UInt32.toNat_inj, UInt16.toNat_toUInt32]
  omega

/-- The module has recorded nothing but ports. -/
def ChannelSetup.RecordsPorts (setup : ChannelSetup) : Prop :=
  ∀ k, (setup.checker.sports k).toNat < 2 ^ 16

theorem ChannelSetup.RecordsPorts.hookFunc {setup : ChannelSetup} (hports : setup.RecordsPorts)
    (skb : ChannelSkb) (cpu : Nat) :
    ChannelSetup.RecordsPorts { setup with checker := (setup.checker.hookFunc skb cpu).1 } := by
  by_cases hrecords : skb.IsBarrier ∧ cpu = 1 ∧ setup.checker.sports setup.checker.queueIndex = 0
  · obtain ⟨hbarrier, rfl, hempty⟩ := hrecords
    rw [RingChecker.hookFunc_of_records hbarrier hempty]
    intro k
    by_cases hk : k = setup.checker.queueIndex
    · simp only [hk, Function.update_self, UInt16.toNat_toUInt32]
      exact skb.sport.toNat_lt
    · simp only [Function.update_of_ne hk]
      exact hports k
  · rw [RingChecker.hookFunc_of_not_records hrecords]
    exact hports

theorem ChannelSetup.RecordsPorts.step {ring : UInt32 → Fin irqNum} {setup next : ChannelSetup}
    {event : ChannelEvent} {output : Unit} (hports : setup.RecordsPorts)
    (hstep : channelStep ring setup event = .ok (next, output)) : next.RecordsPorts := by
  cases event with
  | script =>
      simp only [channelStep] at hstep
      split at hstep
      · cases hstep
      · rename_i command rest _
        cases hstep
        cases command with
        | clear => exact fun k => Nat.two_pow_pos 16
        | smpAffinity queue mask => exact hports
        | smpAffinityList queue cpus => exact hports
        | queueIndex queue => exact hports
        | poll queue =>
            simp only [execute]
            split <;> exact hports
  | clear =>
      cases hstep
      exact fun k => Nat.two_pow_pos 16
  | packet skb queue cpu =>
      simp only [channelStep] at hstep
      split at hstep
      · cases hstep
        exact hports.hookFunc skb cpu
      · cases hstep

/-- The file of every queue can be read. -/
theorem ChannelSetup.RecordsPorts.readable {setup : ChannelSetup} (hports : setup.RecordsPorts)
    (k : Fin irqNum) : (SportFile.ofSport (setup.checker.sports k)).Readable := by
  have hport := hports k
  rw [SportFile.Readable, getSportByRxQueue_ofSport (by omega)]
  simp only [Int32.le_iff_toInt_le, Int32.toInt_zero]
  rw [Int32.toInt_ofNat_of_lt (by omega)]
  exact Int.natCast_nonneg _

/-- In every run of the setup of the channel the accept path classifies each connection by
the ports that the module has recorded. -/
theorem acceptCorrect_of_channel {ring : UInt32 → Fin irqNum} {init setup : ChannelSetup}
    {events : List ChannelEvent} {outputs : List Unit} (hinit : init.RecordsPorts)
    (hrun : runEvents (channelStep ring) init events = .ok (setup, outputs))
    (s : BarrierServer) (port : UInt16) {fd : Nat} (hfd : fd < fdSetSize) :
    AcceptCorrect s port fd fun k => .ofSport (setup.checker.sports k) := by
  have hports : setup.RecordsPorts :=
    runEvents_invariant (fun _ setup _ => setup.RecordsPorts) hinit
      (fun _ _ _ _ _ _ _ hinv hstep => hinv.step hstep) hrun
  exact ReadsSucceed.acceptCorrect (fun k _ => hports.readable k) s fun _ => hfd

end SafeTimer
