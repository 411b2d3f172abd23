import NatServer.Server.Wire
import Mathlib.Data.Multiset.AddSub
/-!
# A network of servers

Each node runs a server or has ended. A datagram that was sent, to an address,
is in flight until it is delivered or lost. To which nodes an address leads, and under
which address a sender is seen, is left to the network: the NATs between the
nodes map addresses as they please. A turn that faults ends the node; what it
had sent by then stays in flight.
-/

namespace NatServer

open Effect

variable {ι : Type}

/-- A datagram on its way. -/
structure Packet where
  dest : Endpoint
  datagram : List UInt8

structure Network (ι : Type) where
  /-- The servers, `none` where the process has ended. -/
  node : ι → Option Server
  flight : Multiset Packet

/-- What comes of the calls of `sendTo` in a turn, as it goes on the wire. -/
def packets [Boost] (sent : List SendTo) : Multiset Packet :=
  Multiset.ofList ((transmitted sent).map fun x => ⟨x.dest, wire x.msg⟩)

theorem mem_packets [Boost] {sent : List SendTo} {p : Packet} :
    p ∈ packets sent ↔ ∃ x ∈ transmitted sent, ⟨x.dest, wire x.msg⟩ = p := by
  rw [packets, Multiset.mem_coe, List.mem_map]

/-- The server after a turn. -/
def running (r : Ran Server SendTo Fault Unit) : Option Server :=
  match r.result with
  | .ok _ => some r.state
  | .error _ => none

inductive Action (ι : Type) where
  | deliver (i : ι) (packet : Packet) (error : Option ErrorCode) (remote : Endpoint) (draws : Draws)
  | lose (packet : Packet)
  | tick (i : ι) (now : Int)

/-- The node that takes a turn in the action, and its event. -/
def Action.turn? : Action ι → Option (ι × Event)
  | .deliver i packet error remote draws => some (i, .receive error remote packet.datagram draws)
  | .lose _ => none
  | .tick i now => some (i, .timer now)

variable [Boost] [DecidableEq ι] (cfg : ι → Config) (route : Endpoint → ι → Prop)

/-- A delivery takes the packet out of flight. -/
inductive NetStep : Network ι → Action ι → Network ι → Prop
  | deliver {node rest i s packet error remote draws r} (hs : node i = some s) (hrecv : s.receiving = true)
      (hroute : route packet.dest i) (hr : react (cfg i) (.receive error remote packet.datagram draws) s = r) :
      NetStep ⟨node, packet ::ₘ rest⟩ (.deliver i packet error remote draws)
        ⟨Function.update node i (running r), packets r.out + rest⟩
  | lose {node rest packet} : NetStep ⟨node, packet ::ₘ rest⟩ (.lose packet) ⟨node, rest⟩
  | tick {node flight i s now r} (hs : node i = some s) (hr : react (cfg i) (.timer now) s = r) :
      NetStep ⟨node, flight⟩ (.tick i now) ⟨Function.update node i (running r), packets r.out + flight⟩

variable {N : Network ι} {i : ι} {s s' : Server} {dest remote : Endpoint} {datagram : List UInt8}
  {error : Option ErrorCode} {draws : Draws}

/-- A node that runs after a step ran before it, and did nothing or took its turn. -/
theorem NetStep.node_cases {N' : Network ι} {a : Action ι} (h : NetStep cfg route N a N') (hs' : N'.node i = some s') :
    (∀ event, a.turn? ≠ some (i, event)) ∧ N.node i = some s' ∨
      ∃ s event sent, N.node i = some s ∧ a.turn? = some (i, event) ∧ Step (cfg i) s ⟨event, sent⟩ s' := by
  have hturn {node : ι → Option Server} {k : ι} {s : Server} (event : Event) {r : Ran Server SendTo Fault Unit}
      (hs : node k = some s) (henabled : event.enabled s) (hr : react (cfg k) event s = r)
      (hs' : Function.update node k (running r) i = some s') :
      i ≠ k ∧ node i = some s' ∨ k = i ∧ ∃ s sent, node i = some s ∧ Step (cfg i) s ⟨event, sent⟩ s' := by
    by_cases hi : i = k
    · subst hi
      rw [Function.update_self] at hs'
      obtain ⟨e | u, s₁, o⟩ := r
      · cases hs'
      · cases hs'
        exact .inr ⟨rfl, s, o, hs, henabled, hr⟩
    · rw [Function.update_of_ne hi] at hs'
      exact .inl ⟨hi, hs'⟩
  cases h with
  | deliver hs hrecv hroute hr =>
    rcases hturn (.receive _ _ _ _) hs hrecv hr hs' with ⟨hi, hs'⟩ | ⟨rfl, s, sent, hs, hstep⟩
    · refine .inl ⟨?_, hs'⟩
      rintro _ ⟨⟩
      exact hi rfl
    · exact .inr ⟨s, _, sent, hs, rfl, hstep⟩
  | lose => exact .inl ⟨by rintro _ ⟨⟩, hs'⟩
  | tick hs hr =>
    rcases hturn (.timer _) hs trivial hr hs' with ⟨hi, hs'⟩ | ⟨rfl, s, sent, hs, hstep⟩
    · refine .inl ⟨?_, hs'⟩
      rintro _ ⟨⟩
      exact hi rfl
    · exact .inr ⟨s, _, sent, hs, rfl, hstep⟩

/-- A step of the receiver is a step of the network. -/
theorem NetStep.of_step {sent : List SendTo} (hs : N.node i = some s) (hp : ⟨dest, datagram⟩ ∈ N.flight)
    (hroute : route dest i) (hstep : Step (cfg i) s ⟨.receive error remote datagram draws, sent⟩ s') :
    ∃ N', NetStep cfg route N (.deliver i ⟨dest, datagram⟩ error remote draws) N' ∧
      N'.node = Function.update N.node i (some s') ∧ (∀ x ∈ transmitted sent, ⟨x.dest, wire x.msg⟩ ∈ N'.flight) ∧
      ∀ q ∈ N.flight, q = ⟨dest, datagram⟩ ∨ q ∈ N'.flight := by
  obtain ⟨node, flight⟩ := N
  obtain ⟨rest, rfl⟩ := Multiset.exists_cons_of_mem hp
  refine ⟨_, .deliver hs hstep.enabled hroute hstep.completes, rfl, fun x hx => ?_, fun q hq => ?_⟩
  · exact Multiset.mem_add.2 (.inl (mem_packets.2 ⟨x, hx, rfl⟩))
  · rcases Multiset.mem_cons.1 hq with hq | hq
    · exact .inl hq
    · exact .inr (Multiset.mem_add.2 (.inr hq))

/-- A fault of the receiver ends it. -/
theorem NetStep.of_fault {e : Fault} (hs : N.node i = some s) (hrecv : s.receiving = true)
    (hp : ⟨dest, datagram⟩ ∈ N.flight) (hroute : route dest i)
    (he : (react (cfg i) (.receive error remote datagram draws) s).result = .error e) :
    ∃ N', NetStep cfg route N (.deliver i ⟨dest, datagram⟩ error remote draws) N' ∧ N'.node i = none := by
  obtain ⟨node, flight⟩ := N
  obtain ⟨rest, rfl⟩ := Multiset.exists_cons_of_mem hp
  refine ⟨_, .deliver hs hrecv hroute rfl, (Function.update_self ..).trans ?_⟩
  rw [running, he]

/-- A pass of a node is a step of the network. -/
theorem NetStep.of_tick {now : Int} {sent : List SendTo} (hs : N.node i = some s)
    (hstep : Step (cfg i) s ⟨.timer now, sent⟩ s') :
    ∃ N', NetStep cfg route N (.tick i now) N' ∧ N'.node = Function.update N.node i (some s') ∧
      (∀ x ∈ transmitted sent, ⟨x.dest, wire x.msg⟩ ∈ N'.flight) ∧ ∀ q ∈ N.flight, q ∈ N'.flight := by
  obtain ⟨node, flight⟩ := N
  refine ⟨_, .tick hs hstep.completes, rfl, fun x hx => ?_, fun q hq => ?_⟩
  · exact Multiset.mem_add.2 (.inl (mem_packets.2 ⟨x, hx, rfl⟩))
  · exact Multiset.mem_add.2 (.inr hq)

end NatServer
