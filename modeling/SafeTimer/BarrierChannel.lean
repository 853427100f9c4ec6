/-
How the flows of the barrier channel are tied to the rx queues.  The script
sbin/barrier_channel/bruteforce_2cpus.sh steers one rx queue after the other to the
second CPU, and the module barrier_ring_checker_mapping enters the source port of a
packet that is handled there for the queue that the script has named.  Packets arrive
between any two commands of the script.
-/
import SafeTimer.EventRun
import SafeTimer.PacketPath
import Mathlib.Tactic.FinCases

namespace SafeTimer

/-- The effect of a line of the script.  The affinity of an rx queue is written as a
bitmap and as a list of CPUs. -/
inductive ScriptCommand where
  | clear
  | smpAffinity (queue : Fin irqNum) (mask : Nat)
  | smpAffinityList (queue : Fin irqNum) (cpus : List Nat)
  | queueIndex (queue : Fin irqNum)
  /-- read `sports[queue]` until it is greater than 0 -/
  | poll (queue : Fin irqNum)
deriving DecidableEq

/-- Map a queue to CPUs. -/
def mapQueue (mask : Nat) (cpus : List Nat) (queue : Fin irqNum) : List ScriptCommand :=
  [.smpAffinity queue mask, .smpAffinityList queue cpus]

/-- The commands of one iteration before the polling. -/
def steerQueue (rxQueue : Fin irqNum) : List ScriptCommand :=
  (List.finRange irqNum).flatMap (mapQueue 0x01 [0]) ++ mapQueue 0x02 [1] rxQueue ++
    [.queueIndex rxQueue]

/-- bruteforce_2cpus.sh -/
def bruteforce2cpus : List ScriptCommand :=
  .clear ::
    ((List.finRange irqNum).flatMap fun rxQueue => steerQueue rxQueue ++ [.poll rxQueue]) ++
    (List.finRange irqNum).flatMap (mapQueue 0xff (List.range 8))

/-- The CPUs of a bitmap. -/
def cpusOfMask (mask : Nat) : List Nat :=
  (List.range 8).filter mask.testBit

/-- What `hook_func` looks at. -/
structure ChannelSkb extends Skb where
  saddr : InAddr
  sport : UInt16
deriving DecidableEq

/-- `BARRIER_SERVER_PORT` -/
def barrierServerPort : UInt16 := 5002

/-- The packets of the barrier client. -/
def ChannelSkb.IsBarrier (skb : ChannelSkb) : Prop :=
  skb.protocol = .tcp ∧ skb.dport = barrierServerPort ∧
    inetNtop skb.saddr = inetNtop barrierClientAddr

instance (skb : ChannelSkb) : Decidable skb.IsBarrier :=
  inferInstanceAs (Decidable (_ ∧ _))

/-- The variables of the module.  The script writes no other index than that of a
queue. -/
structure RingChecker where
  queueIndex : Fin irqNum
  sports : Fin irqNum → UInt32

/-- `write_op` of the file `clear`. -/
def RingChecker.writeOp (m : RingChecker) : RingChecker :=
  { m with sports := fun _ => 0 }

/-- `hook_func` with `TWO_CPUS`, on the CPU that handles the packet. -/
def RingChecker.hookFunc (m : RingChecker) (skb : ChannelSkb) (cpu : Nat) :
    RingChecker × Verdict :=
  if skb.IsBarrier then
    if cpu ≠ 0 ∧ cpu ≠ 1 then (m, .accept)
    else if cpu = 1 ∧ m.sports m.queueIndex = 0 then
      ({ m with sports := Function.update m.sports m.queueIndex skb.sport.toUInt32 }, .accept)
    else (m, .accept)
  else (m, .accept)

/-- The rest of the script, the affinity of the rx queues and the module. -/
structure ChannelSetup where
  script : List ScriptCommand
  affinity : Fin irqNum → List Nat
  checker : RingChecker

/-- Execute a command; a poll that reads 0 is repeated. -/
def ChannelSetup.execute (s : ChannelSetup) (command : ScriptCommand)
    (rest : List ScriptCommand) : ChannelSetup :=
  match command with
  | .clear => { s with script := rest, checker := s.checker.writeOp }
  | .smpAffinity queue mask =>
      { s with script := rest, affinity := Function.update s.affinity queue (cpusOfMask mask) }
  | .smpAffinityList queue cpus =>
      { s with script := rest, affinity := Function.update s.affinity queue cpus }
  | .queueIndex queue =>
      { s with script := rest, checker := { s.checker with queueIndex := queue } }
  | .poll queue => if 0 < s.checker.sports queue then { s with script := rest } else s

inductive ChannelEvent where
  | script
  /-- `clear_sport_on_rx_queues` of `setup_rx_queue_flows` -/
  | clear
  | packet (skb : ChannelSkb) (queue : Fin irqNum) (cpu : Nat)
deriving DecidableEq

/-- The event cannot happen. -/
inductive ChannelStop where
  | notEnabled
deriving DecidableEq

/-- The packets of a barrier flow come in on the queue of its port, and every packet is
handled on a CPU of its queue. -/
def channelStep (ring : UInt32 → Fin irqNum) (s : ChannelSetup) :
    ChannelEvent → Except ChannelStop (ChannelSetup × Unit)
  | .script =>
      match s.script with
      | [] => .error .notEnabled
      | command :: rest => .ok (s.execute command rest, ())
  | .clear => .ok ({ s with checker := s.checker.writeOp }, ())
  | .packet skb queue cpu =>
      if cpu ∈ s.affinity queue ∧
          (skb.IsBarrier → skb.sport ≠ 0 ∧ queue = ring skb.sport.toUInt32) then
        .ok ({ s with checker := (s.checker.hookFunc skb cpu).1 }, ())
      else .error .notEnabled

/-- Every recorded port belongs to a flow of its queue. -/
def ChannelSetup.PortsMatch (ring : UInt32 → Fin irqNum) (s : ChannelSetup) : Prop :=
  ∀ queue, s.checker.sports queue ≠ 0 → ring (s.checker.sports queue) = queue

/-- What is known of the setup from the commands that have been executed.  `recorded`
says that the poll of the current queue has succeeded. -/
structure Control where
  affinity : Fin irqNum → List Nat
  queueIndex : Fin irqNum
  recorded : Bool

def Control.execute (c : Control) : ScriptCommand → Control
  | .clear => { c with recorded := false }
  | .smpAffinity queue mask =>
      { c with affinity := Function.update c.affinity queue (cpusOfMask mask) }
  | .smpAffinityList queue cpus =>
      { c with affinity := Function.update c.affinity queue cpus }
  | .queueIndex queue => { c with queueIndex := queue, recorded := false }
  | .poll queue => { c with recorded := c.recorded || decide (queue = c.queueIndex) }

/-- The second CPU handles nothing but the current queue, or the port of this queue is
recorded. -/
def Control.Guarded (c : Control) : Prop :=
  c.recorded = true ∨ ∀ queue, 1 ∈ c.affinity queue → queue = c.queueIndex

instance (c : Control) : Decidable c.Guarded :=
  inferInstanceAs (Decidable (_ ∨ _))

/-- The rest of the script clears nothing and keeps the setup guarded throughout. -/
def Control.Guards (c : Control) : List ScriptCommand → Prop
  | [] => c.Guarded
  | command :: rest => c.Guarded ∧ command ≠ .clear ∧ (c.execute command).Guards rest

instance Control.decidableGuards :
    (c : Control) → (script : List ScriptCommand) → Decidable (c.Guards script)
  | c, [] => inferInstanceAs (Decidable c.Guarded)
  | c, command :: rest =>
      have := decidableGuards (c.execute command) rest
      inferInstanceAs (Decidable (_ ∧ _ ∧ _))

section Safety

variable {ring : UInt32 → Fin irqNum} {s s' : ChannelSetup} {c : Control}

/-- The invariant behind the clear: what the script knows is true, it keeps the setup
guarded to its end, and the ports match. -/
structure ChannelSetup.Steered (ring : UInt32 → Fin irqNum) (s : ChannelSetup)
    (c : Control) : Prop where
  affinity_eq : s.affinity = c.affinity
  queueIndex_eq : s.checker.queueIndex = c.queueIndex
  recorded : c.recorded = true → s.checker.sports c.queueIndex ≠ 0
  guards : c.Guards s.script
  portsMatch : s.PortsMatch ring

theorem Control.Guards.guarded {script : List ScriptCommand} (hguards : c.Guards script) :
    c.Guarded := by
  cases script with
  | nil => exact hguards
  | cons command rest => exact hguards.1

/-- A command leaves the recorded ports alone. -/
theorem ChannelSetup.Steered.execute (hsteered : s.Steered ring c) {command : ScriptCommand}
    {rest : List ScriptCommand} (hscript : s.script = command :: rest) :
    (∃ c', (s.execute command rest).Steered ring c') ∧
      (s.execute command rest).checker.sports = s.checker.sports := by
  have hguards := hsteered.guards
  rw [hscript] at hguards
  obtain ⟨_, hnoClear, hrest⟩ := hguards
  cases command with
  | clear => exact absurd rfl hnoClear
  | smpAffinity queue mask =>
      refine ⟨⟨c.execute (.smpAffinity queue mask), ?_, hsteered.queueIndex_eq,
        hsteered.recorded, hrest, hsteered.portsMatch⟩, rfl⟩
      simp only [ChannelSetup.execute, Control.execute, hsteered.affinity_eq]
  | smpAffinityList queue cpus =>
      refine ⟨⟨c.execute (.smpAffinityList queue cpus), ?_, hsteered.queueIndex_eq,
        hsteered.recorded, hrest, hsteered.portsMatch⟩, rfl⟩
      simp only [ChannelSetup.execute, Control.execute, hsteered.affinity_eq]
  | queueIndex queue =>
      refine ⟨⟨c.execute (.queueIndex queue), hsteered.affinity_eq, rfl, ?_, hrest,
        hsteered.portsMatch⟩, rfl⟩
      intro hrecorded
      cases hrecorded
  | poll queue =>
      rw [ChannelSetup.execute]
      split
      · rename_i hpolled
        refine ⟨⟨c.execute (.poll queue), hsteered.affinity_eq, hsteered.queueIndex_eq, ?_,
          hrest, hsteered.portsMatch⟩, rfl⟩
        intro hrecorded
        rcases Bool.or_eq_true_iff.mp hrecorded with hbefore | hnow
        · exact hsteered.recorded hbefore
        · have hcurrent : queue = c.queueIndex := of_decide_eq_true hnow
          show s.checker.sports c.queueIndex ≠ 0
          rw [← hcurrent]
          exact (UInt32.ne_of_lt hpolled).symm
      · exact ⟨⟨c, hsteered⟩, rfl⟩

/-- The one case in which `hook_func` records a port. -/
theorem RingChecker.hookFunc_of_records {m : RingChecker} {skb : ChannelSkb}
    (hbarrier : skb.IsBarrier) (hempty : m.sports m.queueIndex = 0) :
    (m.hookFunc skb 1).1 =
      { m with sports := Function.update m.sports m.queueIndex skb.sport.toUInt32 } := by
  simp [RingChecker.hookFunc, hbarrier, hempty]

theorem RingChecker.hookFunc_of_not_records {m : RingChecker} {skb : ChannelSkb} {cpu : Nat}
    (hrecords : ¬ (skb.IsBarrier ∧ cpu = 1 ∧ m.sports m.queueIndex = 0)) :
    (m.hookFunc skb cpu).1 = m := by
  rw [RingChecker.hookFunc]
  split_ifs with hbarrier hcpus hempty
  · rfl
  · exact absurd ⟨hbarrier, hempty⟩ hrecords
  · rfl
  · rfl

/-- A packet is recorded for its own queue, and only where no port is recorded yet. -/
theorem ChannelSetup.Steered.hookFunc (hsteered : s.Steered ring c) {skb : ChannelSkb}
    {queue : Fin irqNum} {cpu : Nat} (hcpu : cpu ∈ s.affinity queue)
    (hflow : skb.IsBarrier → skb.sport ≠ 0 ∧ queue = ring skb.sport.toUInt32) :
    ChannelSetup.Steered ring { s with checker := (s.checker.hookFunc skb cpu).1 } c ∧
      ∀ q, s.checker.sports q ≠ 0 →
        (s.checker.hookFunc skb cpu).1.sports q = s.checker.sports q := by
  by_cases hrecords : skb.IsBarrier ∧ cpu = 1 ∧ s.checker.sports s.checker.queueIndex = 0
  · obtain ⟨hbarrier, rfl, hempty⟩ := hrecords
    have hunrecorded : ¬ c.recorded = true := by
      intro hrecorded
      rw [hsteered.queueIndex_eq] at hempty
      exact hsteered.recorded hrecorded hempty
    have hqueue : ring skb.sport.toUInt32 = s.checker.queueIndex := by
      rw [hsteered.affinity_eq] at hcpu
      have honly := hsteered.guards.guarded.resolve_left hunrecorded queue hcpu
      rw [← (hflow hbarrier).2, honly, hsteered.queueIndex_eq]
    rw [RingChecker.hookFunc_of_records hbarrier hempty]
    refine ⟨⟨hsteered.affinity_eq, hsteered.queueIndex_eq,
      fun hrecorded => absurd hrecorded hunrecorded, hsteered.guards, ?_⟩, ?_⟩
    · intro q hne
      by_cases hq : q = s.checker.queueIndex
      · subst hq
        simp only [Function.update_self]
        exact hqueue
      · simp only [Function.update_of_ne hq] at hne ⊢
        exact hsteered.portsMatch q hne
    · intro q hne
      have hq : q ≠ s.checker.queueIndex := by
        rintro rfl
        exact hne hempty
      exact Function.update_of_ne hq _ _
  · rw [RingChecker.hookFunc_of_not_records hrecords]
    exact ⟨hsteered, fun _ _ => rfl⟩

/-- One step behind the clear: the setup stays steered, and a recorded port stays. -/
theorem ChannelSetup.Steered.step (hsteered : s.Steered ring c) {event : ChannelEvent}
    (hclear : event ≠ .clear) (hstep : channelStep ring s event = .ok (s', ())) :
    (∃ c', s'.Steered ring c') ∧
      ∀ q, s.checker.sports q ≠ 0 → s'.checker.sports q = s.checker.sports q := by
  cases event with
  | clear => exact absurd rfl hclear
  | script =>
      rw [channelStep] at hstep
      split at hstep
      · cases hstep
      · rename_i command rest hscript
        cases hstep
        obtain ⟨hnext, hsports⟩ := hsteered.execute hscript
        exact ⟨hnext, fun q _ => congrFun hsports q⟩
  | packet skb queue cpu =>
      rw [channelStep] at hstep
      split at hstep
      · rename_i henabled
        cases hstep
        obtain ⟨hnext, hsports⟩ := hsteered.hookFunc henabled.1 henabled.2
        exact ⟨⟨c, hnext⟩, hsports⟩
      · cases hstep

theorem ChannelSetup.Steered.run (hsteered : s.Steered ring c) {events : List ChannelEvent}
    (hclear : .clear ∉ events) {outputs : List Unit}
    (hrun : runEvents (channelStep ring) s events = .ok (s', outputs)) :
    (∃ c', s'.Steered ring c') ∧
      ∀ q, s.checker.sports q ≠ 0 → s'.checker.sports q = s.checker.sports q := by
  induction events generalizing s c outputs with
  | nil =>
      cases hrun
      exact ⟨⟨c, hsteered⟩, fun _ _ => rfl⟩
  | cons event rest ih =>
      obtain ⟨next, _, tail, hstep, hrest, rfl⟩ := runEvents_cons_eq_ok_iff.mp hrun
      rw [List.mem_cons, not_or] at hclear
      obtain ⟨⟨c', hnext⟩, hkept⟩ := hsteered.step (Ne.symm hclear.1) hstep
      obtain ⟨hfinal, hkeptRest⟩ := ih hnext hclear.2 hrest
      refine ⟨hfinal, ?_⟩
      intro q hne
      rw [hkeptRest q (by rw [hkept q hne]; exact hne), hkept q hne]

theorem RingChecker.hookFunc_queueIndex (m : RingChecker) (skb : ChannelSkb) (cpu : Nat) :
    (m.hookFunc skb cpu).1.queueIndex = m.queueIndex := by
  rw [hookFunc]
  split_ifs <;> rfl

/-- The script is `executed` up to where the setup stands, and its commands determine
affinity and index. -/
def ChannelSetup.Executed (init s : ChannelSetup) (executed : List ScriptCommand) : Prop :=
  let c := executed.foldl Control.execute ⟨init.affinity, init.checker.queueIndex, false⟩
  init.script = executed ++ s.script ∧ s.affinity = c.affinity ∧
    s.checker.queueIndex = c.queueIndex

theorem ChannelSetup.Executed.execute {init : ChannelSetup} {executed : List ScriptCommand}
    (hexecuted : init.Executed s executed) {command : ScriptCommand}
    {rest : List ScriptCommand} (hscript : s.script = command :: rest) :
    ∃ executed', init.Executed (s.execute command rest) executed' := by
  obtain ⟨hsplit, haffinity, hindex⟩ := hexecuted
  have hnext : init.script = (executed ++ [command]) ++ rest := by
    rw [hsplit, hscript, List.append_assoc, List.singleton_append]
  by_cases hwaits : s.execute command rest = s
  · refine ⟨executed, ?_⟩
    rw [hwaits]
    exact ⟨hsplit, haffinity, hindex⟩
  · refine ⟨executed ++ [command], ?_⟩
    simp only [Executed, List.foldl_append, List.foldl_cons, List.foldl_nil]
    cases command with
    | clear => exact ⟨hnext, haffinity, hindex⟩
    | smpAffinity queue mask =>
        exact ⟨hnext, congrArg (Function.update · queue _) haffinity, hindex⟩
    | smpAffinityList queue cpus =>
        exact ⟨hnext, congrArg (Function.update · queue _) haffinity, hindex⟩
    | queueIndex queue => exact ⟨hnext, haffinity, rfl⟩
    | poll queue =>
        rw [ChannelSetup.execute] at hwaits ⊢
        split at hwaits
        · rename_i hpolled
          rw [if_pos hpolled]
          exact ⟨hnext, haffinity, hindex⟩
        · exact absurd rfl hwaits

theorem exists_executed {init : ChannelSetup} {events : List ChannelEvent}
    {outputs : List Unit}
    (hrun : runEvents (channelStep ring) init events = .ok (s, outputs)) :
    ∃ executed, init.Executed s executed := by
  refine runEvents_invariant (fun _ s _ => ∃ executed, init.Executed s executed)
    ⟨[], rfl, rfl, rfl⟩ ?_ hrun
  rintro _ s _ event s' _ _ ⟨executed, hexecuted⟩ hstep
  cases event with
  | script =>
      rw [channelStep] at hstep
      split at hstep
      · cases hstep
      · rename_i command rest hscript
        cases hstep
        exact hexecuted.execute hscript
  | clear =>
      cases hstep
      exact ⟨executed, hexecuted⟩
  | packet skb queue cpu =>
      rw [channelStep] at hstep
      split at hstep
      · cases hstep
        refine ⟨executed, hexecuted.1, hexecuted.2.1, ?_⟩
        rw [← hexecuted.2.2]
        exact s.checker.hookFunc_queueIndex skb cpu
      · cases hstep

end Safety

/-- The commands before the first poll, and those behind it. -/
def beforeFirstPoll : List ScriptCommand :=
  .clear :: steerQueue 0

def behindFirstPoll : List ScriptCommand :=
  bruteforce2cpus.drop (beforeFirstPoll.length + 1)

/-- What the script knows at its first poll. -/
def firstControl : Control :=
  ⟨fun queue => if queue = 0 then [1] else [0], 0, false⟩

theorem bruteforce2cpus_split :
    bruteforce2cpus = beforeFirstPoll ++ .poll 0 :: behindFirstPoll := by
  decide

theorem foldl_beforeFirstPoll (c : Control) :
    (beforeFirstPoll.foldl Control.execute c).affinity = firstControl.affinity ∧
      (beforeFirstPoll.foldl Control.execute c).queueIndex = firstControl.queueIndex := by
  refine ⟨?_, rfl⟩
  funext queue
  fin_cases queue <;> rfl

/-- The script never lets the second CPU handle a queue under the name of another. -/
theorem firstControl_guards : firstControl.Guards (.poll 0 :: behindFirstPoll) := by
  decide +kernel

/-- A clear at the first poll leaves a setup that the rest of the script steers. -/
theorem steered_of_first_poll {ring : UInt32 → Fin irqNum} {init mid : ChannelSetup}
    (hscript : init.script = bruteforce2cpus) {pre : List ChannelEvent} {early : List Unit}
    (hpre : runEvents (channelStep ring) init pre = .ok (mid, early))
    (hpoll : mid.script.head? = some (.poll 0)) :
    ChannelSetup.Steered ring { mid with checker := mid.checker.writeOp } firstControl := by
  obtain ⟨executed, hsplit, haffinity, hindex⟩ := exists_executed hpre
  obtain ⟨rest, hrest⟩ := List.head?_eq_some_iff.mp hpoll
  rw [hscript, hrest, bruteforce2cpus_split,
    List.append_cons_inj_of_notMem (by decide) (by decide)] at hsplit
  obtain ⟨rfl, _, rfl⟩ := hsplit
  obtain ⟨haffinity', hindex'⟩ := foldl_beforeFirstPoll
    ⟨init.affinity, init.checker.queueIndex, false⟩
  refine ⟨haffinity.trans haffinity', hindex.trans hindex', ?_, ?_, ?_⟩
  · intro hrecorded
    cases hrecorded
  · rw [hrest]
    exact firstControl_guards
  · intro queue hne
    exact absurd rfl hne

/-- After the clear of `setup_rx_queue_flows`, however script and packets interleave,
a recorded port belongs to its queue, no port is recorded twice, and none is replaced. -/
theorem recorded_ports_identify_queues {ring : UInt32 → Fin irqNum}
    {init mid final : ChannelSetup} (hscript : init.script = bruteforce2cpus)
    {pre post : List ChannelEvent} {early late : List Unit}
    (hpre : runEvents (channelStep ring) init pre = .ok (mid, early))
    (hpoll : mid.script.head? = some (.poll 0))
    (hpost : runEvents (channelStep ring) mid (.clear :: post) = .ok (final, late))
    (hclear : .clear ∉ post) :
    final.PortsMatch ring ∧
      (∀ queue queue', final.checker.sports queue ≠ 0 →
        final.checker.sports queue = final.checker.sports queue' → queue = queue') ∧
      ∀ between rest state outputs, post = between ++ rest →
        runEvents (channelStep ring) mid (.clear :: between) = .ok (state, outputs) →
        ∀ queue, state.checker.sports queue ≠ 0 →
          final.checker.sports queue = state.checker.sports queue := by
  have hsteered := steered_of_first_poll hscript hpre hpoll
  have hmatch : final.PortsMatch ring := by
    obtain ⟨cleared, _, tail, hstep, hrun, rfl⟩ := runEvents_cons_eq_ok_iff.mp hpost
    cases hstep
    obtain ⟨⟨c, hfinal⟩, _⟩ := hsteered.run hclear hrun
    exact hfinal.portsMatch
  refine ⟨hmatch, ?_, ?_⟩
  · intro queue queue' hne heq
    have hqueue := hmatch queue hne
    rw [heq] at hne hqueue
    rw [← hqueue, hmatch queue' hne]
  · intro between rest state outputs hsplit hbetween queue hne
    subst hsplit
    rw [List.mem_append, not_or] at hclear
    -- the run up to `state`, and from there to the end
    rw [← List.cons_append, runEvents_append_eq_ok_iff] at hpost
    obtain ⟨state', first, second, hfirst, hsecond, rfl⟩ := hpost
    cases hbetween.symm.trans hfirst
    obtain ⟨cleared, _, tail, hstep, hrun, rfl⟩ := runEvents_cons_eq_ok_iff.mp hbetween
    cases hstep
    obtain ⟨⟨c, hstate⟩, _⟩ := hsteered.run hclear.1 hrun
    exact (hstate.run hclear.2 hsecond).2 queue hne

/-- A network card that spreads the ports in turn over the queues. -/
def ringInTurn (sport : UInt32) : Fin irqNum :=
  Fin.ofNat irqNum sport.toNat

/-- The setup before the script, with stale ports. -/
def setupLoaded : ChannelSetup :=
  ⟨bruteforce2cpus, fun _ => [0], ⟨0, fun _ => 7⟩⟩

/-- A packet of the barrier client. -/
def clientPacket (sport : UInt16) (queue : Fin irqNum) (cpu : Nat) : ChannelEvent :=
  .packet ⟨⟨.tcp, barrierServerPort⟩, barrierClientAddr, sport⟩ queue cpu

/-- The script up to its first poll, then the rest of the setup with packets for each of the
queues on the way. -/
theorem recorded_ports_full_setup :
    let pre := List.replicate 12 ChannelEvent.script
    let post := [clientPacket 1001 1 0, clientPacket 1000 0 1] ++
      List.replicate 11 .script ++ [clientPacket 1005 1 1, clientPacket 1004 0 0] ++
      [.script, clientPacket 1005 1 1] ++
      List.replicate 12 .script ++ [clientPacket 1002 2 1, clientPacket 1003 3 0] ++
      List.replicate 12 .script ++ [clientPacket 1003 3 1]
    ∃ mid early final late,
      runEvents (channelStep ringInTurn) setupLoaded pre = .ok (mid, early) ∧
      runEvents (channelStep ringInTurn) mid (.clear :: post) = .ok (final, late) ∧
      (List.finRange irqNum).map final.checker.sports = [1000, 1005, 1002, 1003] ∧
      final.PortsMatch ringInTurn := by
  intro pre post
  have hpre : (runEvents (channelStep ringInTurn) setupLoaded pre).map
      (fun result => (result.1.script.head?,
        (runEvents (channelStep ringInTurn) result.1 (.clear :: post)).map
          fun result => (List.finRange irqNum).map result.1.checker.sports)) =
      .ok (some (.poll 0), .ok [1000, 1005, 1002, 1003]) := by decide +kernel
  obtain ⟨⟨mid, early⟩, hmid, hparts⟩ := exists_ok_of_map_eq hpre
  obtain ⟨hpoll, hpost⟩ := Prod.mk.inj hparts
  obtain ⟨⟨final, late⟩, hfinal, hsports⟩ := exists_ok_of_map_eq hpost
  exact ⟨mid, early, final, late, hmid, hfinal, hsports,
    (recorded_ports_identify_queues rfl hmid hpoll hfinal (by decide)).1⟩

end SafeTimer
