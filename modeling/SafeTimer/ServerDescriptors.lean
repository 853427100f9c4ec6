/-
The descriptors of `barrier_server` (src/barrier.c): which of the accepted sockets the
server watches, and whether it ever closes the others.
-/
import SafeTimer.BarrierServer

namespace SafeTimer

/-- The variables of the server beside the sockets it has accepted and not closed.
`openPeers` are those of them whose peer has not closed its end. -/
structure ServerHost where
  vars : BarrierServer
  listenFd : Nat
  accepted : Finset Nat
  openPeers : Finset Nat

/-- `FD_ZERO` and `FD_SET` of the listen socket. -/
def ServerHost.start (listenFd : Fin fdSetSize) : ServerHost where
  vars := ⟨{listenFd.val}, fun _ => 0⟩
  listenFd := listenFd
  accepted := ∅
  openPeers := ∅

inductive ServerEvent where
  /-- `accept` returns the descriptor of a connection -/
  | connection (addr : InAddr) (port : UInt16) (fd : Nat) (files : Fin irqNum → SportFile)
  | acceptFails
  /-- `recv` on a watched socket returns a count, or -1 -/
  | received (fd : Nat) (count : Int32)
  /-- the peer closes its end -/
  | peerCloses (fd : Nat)

inductive ServerStop where
  /-- the event cannot happen -/
  | notEnabled
  | fault (fault : ServerFault)
deriving DecidableEq

/-- `close(fd)` and `FD_CLR(fd, &active_fd_set)` -/
def ServerHost.close (host : ServerHost) (fd : Nat) : ServerHost :=
  { host with
    vars := { host.vars with activeFdSet := host.vars.activeFdSet.erase fd }
    accepted := host.accepted.erase fd
    openPeers := host.openPeers.erase fd }

/-- One event of the loop.  The kernel hands out descriptors that are not in use.  When a
peer closes, `select` returns its socket if the socket is watched, and `recv` returns 0. -/
def ServerHost.step (host : ServerHost) :
    ServerEvent → Except ServerStop (ServerHost × Option Int64)
  | .connection addr port fd files =>
      if fd ∈ insert host.listenFd host.accepted then .error .notEnabled
      else
        match host.vars.accept addr port fd files with
        | .error fault => .error (.fault fault)
        | .ok (vars, reply) =>
            .ok ({ host with
              vars := vars
              accepted := insert fd host.accepted
              openPeers := insert fd host.openPeers }, reply)
  | .acceptFails => .ok (host, none)
  | .received fd count =>
      if fd ∈ host.vars.activeFdSet ∧ fd ≠ host.listenFd then
        if count ≠ 16 then .ok (host.close fd, none) else .ok (host, none)
      else .error .notEnabled
  | .peerCloses fd =>
      if fd ∈ host.openPeers then
        if fd ∈ host.vars.activeFdSet then .ok (host.close fd, none)
        else .ok ({ host with openPeers := host.openPeers.erase fd }, none)
      else .error .notEnabled

/-- The server watches exactly the sockets it has accepted and not closed; it closes each of
them when the peer does, and holds no more than one for each open peer beside the listen
socket. -/
structure NoLeak (host : ServerHost) : Prop where
  watched : ∀ fd ∈ host.accepted, fd ∈ host.vars.activeFdSet
  accepted : ∀ fd ∈ host.vars.activeFdSet, fd = host.listenFd ∨ fd ∈ host.accepted
  noticed : ∀ fd ∈ host.openPeers, ∃ next, host.step (.peerCloses fd) = .ok (next, none) ∧
    fd ∉ next.accepted
  bounded : (insert host.listenFd host.accepted).card ≤ 1 + host.openPeers.card

/-- No event of the run leaves a leak behind. -/
def LeaksNothing (listenFd : Fin fdSetSize) (events : List ServerEvent) : Prop :=
  ∀ pre post host outputs, events = pre ++ post →
    runEvents ServerHost.step (ServerHost.start listenFd) pre = .ok (host, outputs) →
      NoLeak host

/-- A connection from `BARRIER_CLIENT_ADDR` comes on a recorded port. -/
def ServerEvent.Valid : ServerEvent → Prop
  | .connection addr port _ files =>
      inetNtop addr = inetNtop barrierClientAddr → ∃ k, LeastMatch (clientPort port) files k
  | .acceptFails => True
  | .received _ _ => True
  | .peerCloses _ => True

instance : DecidablePred ServerEvent.Valid
  | .connection _ _ _ _ => inferInstanceAs (Decidable (_ → _))
  | .acceptFails => .isTrue trivial
  | .received _ _ => .isTrue trivial
  | .peerCloses _ => .isTrue trivial

theorem BarrierServer.fdSet_eq_ok {s s' : BarrierServer} {fd : Nat}
    (hset : s.fdSet fd = .ok s') : s'.activeFdSet = insert fd s.activeFdSet := by
  rw [fdSet] at hset
  split at hset
  · cases hset
    rfl
  · cases hset

/-- The descriptor of a connection is watched, unless the connection is redundant. -/
theorem BarrierServer.accept_eq_ok {s s' : BarrierServer} {addr : InAddr} {port : UInt16}
    {fd : Nat} {files : Fin irqNum → SportFile} {reply : Option Int64}
    (haccept : s.accept addr port fd files = .ok (s', reply)) :
    ((ServerEvent.connection addr port fd files).Valid ∧
        s'.activeFdSet = insert fd s.activeFdSet) ∨
      (¬(ServerEvent.connection addr port fd files).Valid ∧ s' = s) := by
  rw [accept] at haccept
  by_cases haddr : inetNtop addr = inetNtop barrierClientAddr
  · rw [if_neg (not_not_intro haddr)] at haccept
    have hclassified := s.acceptClient_classified port fd files
    generalize s.acceptClient port fd files = result at hclassified haccept
    cases hclassified with
    | recorded k hmatch hfd =>
        cases haccept
        exact Or.inl ⟨fun _ => ⟨k, hmatch⟩, rfl⟩
    | unrecorded k hmatch hfd => cases haccept
    | redundant hpassed =>
        cases haccept
        refine Or.inr ⟨?_, rfl⟩
        intro hvalid
        obtain ⟨k, hmatch⟩ := hvalid haddr
        exact (hpassed k).2 hmatch.2
    | failed k fault hpassed hfailed => cases haccept
  · rw [if_pos haddr] at haccept
    cases hset : s.fdSet fd with
    | error fault =>
        rw [hset] at haccept
        cases haccept
    | ok watched =>
        rw [hset] at haccept
        cases haccept
        exact Or.inl ⟨fun hclient => absurd hclient haddr, fdSet_eq_ok hset⟩

/-- What an event can do. -/
inductive ServerStep (host : ServerHost) : ServerEvent → ServerHost → Prop
  | watched {addr : InAddr} {port : UInt16} {fd : Nat} {files : Fin irqNum → SportFile}
      (hfresh : fd ∉ insert host.listenFd host.accepted) (vars : BarrierServer)
      (hactive : vars.activeFdSet = insert fd host.vars.activeFdSet)
      (hvalid : (ServerEvent.connection addr port fd files).Valid) :
      ServerStep host (.connection addr port fd files)
        { host with
          vars := vars
          accepted := insert fd host.accepted
          openPeers := insert fd host.openPeers }
  | redundant {addr : InAddr} {port : UInt16} {fd : Nat} {files : Fin irqNum → SportFile}
      (hfresh : fd ∉ insert host.listenFd host.accepted)
      (hinvalid : ¬(ServerEvent.connection addr port fd files).Valid) :
      ServerStep host (.connection addr port fd files)
        { host with
          accepted := insert fd host.accepted
          openPeers := insert fd host.openPeers }
  | kept {event : ServerEvent} (hvalid : event.Valid) : ServerStep host event host
  | closed {fd : Nat} {count : Int32} (hfd : fd ≠ host.listenFd) :
      ServerStep host (.received fd count) (host.close fd)
  | noticed {fd : Nat} (hopen : fd ∈ host.openPeers) (hactive : fd ∈ host.vars.activeFdSet) :
      ServerStep host (.peerCloses fd) (host.close fd)
  | unnoticed {fd : Nat} (hopen : fd ∈ host.openPeers)
      (hunwatched : fd ∉ host.vars.activeFdSet) :
      ServerStep host (.peerCloses fd) { host with openPeers := host.openPeers.erase fd }

theorem ServerHost.step_eq_ok {host next : ServerHost} {event : ServerEvent}
    {output : Option Int64} (hstep : host.step event = .ok (next, output)) :
    ServerStep host event next := by
  cases event with
  | connection addr port fd files =>
      simp only [ServerHost.step] at hstep
      split at hstep
      · cases hstep
      · rename_i hfresh
        split at hstep
        · cases hstep
        · rename_i vars reply haccept
          cases hstep
          rcases BarrierServer.accept_eq_ok haccept with ⟨hvalid, hactive⟩ | ⟨hinvalid, rfl⟩
          · exact .watched hfresh vars hactive hvalid
          · exact .redundant hfresh hinvalid
  | acceptFails =>
      cases hstep
      exact .kept trivial
  | received fd count =>
      simp only [ServerHost.step] at hstep
      split at hstep
      · rename_i hfd
        split at hstep
        · cases hstep
          exact .closed hfd.2
        · cases hstep
          exact .kept trivial
      · cases hstep
  | peerCloses fd =>
      simp only [ServerHost.step] at hstep
      split at hstep
      · rename_i hopen
        split at hstep
        · rename_i hactive
          cases hstep
          exact .noticed hopen hactive
        · rename_i hunwatched
          cases hstep
          exact .unnoticed hopen hunwatched
      · cases hstep

/-- The descriptors as long as no connection was redundant. -/
structure ServerHost.Balanced (host : ServerHost) : Prop where
  active_eq : host.vars.activeFdSet = insert host.listenFd host.accepted
  openPeers_eq : host.openPeers = host.accepted
  listenFd_not_mem : host.listenFd ∉ host.accepted

theorem ServerHost.start_balanced (listenFd : Fin fdSetSize) :
    (ServerHost.start listenFd).Balanced where
  active_eq := rfl
  openPeers_eq := rfl
  listenFd_not_mem := Finset.notMem_empty _

theorem ServerHost.Balanced.close {host : ServerHost} (hbalanced : host.Balanced) {fd : Nat}
    (hfd : fd ≠ host.listenFd) : (host.close fd).Balanced where
  active_eq := by
    simp only [ServerHost.close, hbalanced.active_eq]
    exact Finset.erase_insert_of_ne hfd.symm
  openPeers_eq := by
    simp only [ServerHost.close, hbalanced.openPeers_eq]
  listenFd_not_mem := fun hmem =>
    hbalanced.listenFd_not_mem (Finset.mem_of_mem_erase hmem)

theorem ServerHost.Balanced.ne_listenFd {host : ServerHost} (hbalanced : host.Balanced) {fd : Nat}
    (hopen : fd ∈ host.openPeers) : fd ≠ host.listenFd := by
  rintro rfl
  exact hbalanced.listenFd_not_mem (hbalanced.openPeers_eq ▸ hopen)

theorem ServerHost.Balanced.mem_active {host : ServerHost} (hbalanced : host.Balanced) {fd : Nat}
    (hopen : fd ∈ host.openPeers) : fd ∈ host.vars.activeFdSet := by
  rw [hbalanced.active_eq, ← hbalanced.openPeers_eq]
  exact Finset.mem_insert_of_mem hopen

theorem ServerHost.Balanced.step {host next : ServerHost} {event : ServerEvent}
    (hbalanced : host.Balanced) (hvalid : event.Valid) (hstep : ServerStep host event next) :
    next.Balanced := by
  cases hstep with
  | watched hfresh vars hactive =>
      refine ⟨?_, ?_, ?_⟩
      · simp only [hactive, hbalanced.active_eq]
        exact Finset.insert_comm _ _ _
      · simp only [hbalanced.openPeers_eq]
      · rw [Finset.mem_insert]
        rintro (heq | hmem)
        · exact hfresh (heq ▸ Finset.mem_insert_self _ _)
        · exact hbalanced.listenFd_not_mem hmem
  | redundant hfresh hinvalid => exact absurd hvalid hinvalid
  | kept => exact hbalanced
  | closed hfd => exact hbalanced.close hfd
  | noticed hopen hactive => exact hbalanced.close (hbalanced.ne_listenFd hopen)
  | unnoticed hopen hunwatched => exact absurd (hbalanced.mem_active hopen) hunwatched

theorem ServerHost.Balanced.noLeak {host : ServerHost} (hbalanced : host.Balanced) :
    NoLeak host where
  watched := by
    intro fd hmem
    rw [hbalanced.active_eq]
    exact Finset.mem_insert_of_mem hmem
  accepted := by
    intro fd hmem
    rw [hbalanced.active_eq] at hmem
    exact Finset.mem_insert.mp hmem
  noticed := by
    intro fd hopen
    refine ⟨host.close fd, ?_, Finset.notMem_erase fd _⟩
    simp only [ServerHost.step, if_pos hopen, if_pos (hbalanced.mem_active hopen)]
  bounded := by
    rw [Finset.card_insert_of_notMem hbalanced.listenFd_not_mem, hbalanced.openPeers_eq]
    omega

/-- A redundant connection leaks its socket. -/
theorem valid_of_noLeak {host next : ServerHost} {event : ServerEvent}
    (hbefore : NoLeak host) (hstep : ServerStep host event next) (hafter : NoLeak next) :
    event.Valid := by
  by_contra hinvalid
  cases hstep with
  | watched hfresh vars hactive hvalid => exact hinvalid hvalid
  | @redundant _ _ fd _ hfresh _ =>
      have hactive := hafter.watched fd (Finset.mem_insert_self _ _)
      exact hfresh (Finset.mem_insert.mpr (hbefore.accepted fd hactive))
  | kept hvalid => exact hinvalid hvalid
  | closed => exact hinvalid trivial
  | noticed => exact hinvalid trivial
  | unnoticed => exact hinvalid trivial

theorem leaksNothing_iff {listenFd : Fin fdSetSize} {events : List ServerEvent}
    {final : ServerHost} {outputs : List (Option Int64)}
    (hrun : runEvents ServerHost.step (ServerHost.start listenFd) events = .ok (final, outputs)) :
    LeaksNothing listenFd events ↔
      EveryStep ServerHost.step (fun _ _ event => event.Valid) (ServerHost.start listenFd)
        events := by
  constructor
  · rintro hleaks pre event post host early rfl hpre
    obtain ⟨next, output, _, hstep, _⟩ := runEvents_step_of_split hrun hpre
    have hnext := runEvents_concat_eq_ok_iff.mpr ⟨host, early, output, hpre, hstep, rfl⟩
    have hafter := hleaks (pre ++ [event]) post next _ (by simp) hnext
    exact valid_of_noLeak (hleaks pre (event :: post) host early rfl hpre)
      (ServerHost.step_eq_ok hstep) hafter
  · rintro hvalid pre post host early rfl hpre
    have hbalanced : host.Balanced :=
      hvalid.of_append.invariant (fun _ host _ => host.Balanced)
        (ServerHost.start_balanced listenFd)
        (fun _ _ _ _ _ _ _ hinv hcond hstep =>
          hinv.step hcond (ServerHost.step_eq_ok hstep)) hpre
    exact hbalanced.noLeak

/-- A connection on the port of the first queue, one from another host, a barrier message, a
short read and a close. -/
theorem leaksNothing_recorded_port :
    LeaksNothing 3
      [.connection barrierClientAddr 40000 7 fun _ => .ofSport 40000,
        .connection ⟨10, 0, 0, 12⟩ 50000 8 fun _ => .ofSport 40000, .received 7 16,
        .received 8 5, .peerCloses 7] := by
  have houtputs : (runEvents ServerHost.step (ServerHost.start 3)
      [.connection barrierClientAddr 40000 7 fun _ => .ofSport 40000,
        .connection ⟨10, 0, 0, 12⟩ 50000 8 fun _ => .ofSport 40000, .received 7 16,
        .received 8 5, .peerCloses 7]).map Prod.snd =
      .ok [some 33, none, none, none, none] := by decide +kernel
  obtain ⟨final, hrun⟩ := exists_run_of_outputs houtputs
  exact (leaksNothing_iff hrun).mpr (everyStep_iff_checkSteps.mpr (by decide +kernel))

/-- A connection on a port of no queue: the server still holds its socket when the peer has
closed, and does not watch it. -/
theorem redundant_connection_leaks :
    (∃ final, runEvents ServerHost.step (ServerHost.start 3)
      [.connection barrierClientAddr 40000 7 fun _ => .ofSport 0, .peerCloses 7] =
        .ok (final, [some (-1), none]) ∧
      final.accepted = {7} ∧ final.vars.activeFdSet = {3} ∧ final.openPeers = ∅) ∧
    ¬LeaksNothing 3
      [.connection barrierClientAddr 40000 7 fun _ => .ofSport 0, .peerCloses 7] := by
  have hresult : (runEvents ServerHost.step (ServerHost.start 3)
      [.connection barrierClientAddr 40000 7 fun _ => .ofSport 0, .peerCloses 7]).map
        (fun result => (result.2, result.1.accepted, result.1.vars.activeFdSet,
          result.1.openPeers)) = .ok ([some (-1), none], {7}, {3}, ∅) := by decide +kernel
  obtain ⟨⟨final, outputs⟩, hrun, hparts⟩ := exists_ok_of_map_eq hresult
  obtain ⟨rfl, haccepted, hactive, hopen⟩ : outputs = [some (-1), none] ∧
      final.accepted = {7} ∧ final.vars.activeFdSet = {3} ∧ final.openPeers = ∅ := by
    simpa using hparts
  refine ⟨⟨final, hrun, haccepted, hactive, hopen⟩, ?_⟩
  intro hleaks
  have hwatched := (hleaks _ [] final _ (List.append_nil _).symm hrun).watched 7
  rw [haccepted, hactive] at hwatched
  exact absurd (hwatched (Finset.mem_singleton_self 7)) (by decide)

end SafeTimer
