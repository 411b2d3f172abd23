import NatServer.Net.Network
import NatServer.Server.Answer
import Mathlib.Logic.Hydra
/-!
# Cascades end

A handled message is answered by messages of types further down a fixed order,
`rank`: a cascade takes one packet out of flight and puts lower ones in, and
such exchanges do not go on for ever.
-/

namespace NatServer

open Effect Json

/-- How far a message of the type is from one that is not answered. -/
def MsgType.rank : MsgType → ℕ
  | .detect => 7
  | .filteringcheck => 6
  | .callclient => 5
  | .callclientRes => 4
  | .update => 3
  | .proxyconnect => 2
  | .helpconnect => 1
  | .openconnect => 0
  | .ticker => 1
  | .tickerRes => 0

/-- The rank of what a receiver reads in a packet; 0 where it reads nothing it handles. -/
def Packet.rank (p : Packet) : ℕ :=
  match ((recvJson? (received p.datagram)).bind messageType).bind MsgType.ofText? with
  | some t => t.rank
  | none => 0

/-- A message that ranks below `t`. -/
def Below (t : MsgType) (x : SendTo) : Prop := ∃ j t' n, IsMessage j t' n ∧ t'.rank < t.rank ∧ x.msg = j.dump

/-- Every branch answers with messages that rank below its own. -/
theorem Answers.below [Boost] {cfg : Config} {draws : Draws} {seen : Endpoint} {j : Json} {t : MsgType} {x : SendTo}
    (h : Answers cfg draws seen j t x) : Below t x := by
  obtain ⟨j', ⟨t', h⟩, hx⟩ := h
  refine ⟨j', t', cfg.nodeID, h.isMessage, ?_, hx⟩
  cases h <;> decide

/-! ## Packets -/

/-- What a receiver reads of a message that was sent is the message or nothing. -/
theorem rank_of_message {j : Json} {t : MsgType} {n : String} (hj : IsMessage j t n) (dest : Endpoint) :
    (⟨dest, wire j.dump⟩ : Packet).rank ≤ t.rank := by
  unfold Packet.rank
  by_cases hlen : (wire j.dump).length ≤ bufferSize
  · rw [recvJson?_wire hlen, Option.bind_some, hj.type, Option.bind_some, MsgType.ofText?_text]
  · obtain ⟨m, rfl⟩ := hj.object
    rw [recvJson?_cut (by omega)]
    exact Nat.zero_le _

/-- A handled packet is answered by packets that rank below it. -/
theorem rank_of_answer [Boost] {cfg : Config} {s : Server} {error : Option ErrorCode} {remote : Endpoint}
    {datagram : List UInt8} {draws : Draws} {dest : Endpoint} (hs : s.receiving = true) {x : SendTo}
    (hx : x ∈ (react cfg (.receive error remote datagram draws) s).out) :
    (⟨x.dest, wire x.msg⟩ : Packet).rank < (⟨dest, datagram⟩ : Packet).rank := by
  obtain ⟨t, n, j, ⟨-, hheard, htype, -⟩, hx⟩ := answers_of_receive hs hx
  obtain ⟨j', t', n', hj', hlt, hmsg⟩ := hx.below
  have hread : recvJson? (received datagram) = some j := by
    rw [heard] at hheard
    split at hheard
    · exact hheard
    · cases hheard
  have hrank : (⟨dest, datagram⟩ : Packet).rank = t.rank := by
    rw [Packet.rank, hread, Option.bind_some, htype, Option.bind_some, MsgType.ofText?_text]
  rw [hrank, hmsg]
  exact lt_of_le_of_lt (rank_of_message hj' _) hlt

/-! ## Networks -/

variable {ι : Type} [Boost] [DecidableEq ι] {cfg : ι → Config} {route : Endpoint → ι → Prop}

/-- A step of message handling: a delivery or a loss. -/
def CascadeStep (cfg : ι → Config) (route : Endpoint → ι → Prop) (N N' : Network ι) : Prop :=
  ∃ a, (∀ i now, a ≠ .tick i now) ∧ NetStep cfg route N a N'

/-- It exchanges a rank for lower ones. -/
theorem CascadeStep.cutExpand {N N' : Network ι} (h : CascadeStep cfg route N N') :
    Relation.CutExpand (· < ·) (N'.flight.map Packet.rank) (N.flight.map Packet.rank) := by
  obtain ⟨a, ha, h⟩ := h
  cases h with
  | @deliver node rest i s packet error remote draws r hs hrecv hroute hr =>
    refine ⟨(packets r.out).map Packet.rank, packet.rank, fun k hk => ?_, ?_⟩
    · obtain ⟨q, hq, rfl⟩ := Multiset.mem_map.1 hk
      obtain ⟨x, hx, rfl⟩ := mem_packets.1 hq
      rw [← hr] at hx
      exact rank_of_answer hrecv (mem_transmitted.1 hx).1
    · rw [Multiset.map_cons, Multiset.map_add, ← Multiset.singleton_add]
      ac_rfl
  | @lose node rest packet =>
    refine ⟨0, packet.rank, fun k hk => absurd hk (Multiset.notMem_zero k), ?_⟩
    rw [Multiset.map_cons, ← Multiset.singleton_add, add_zero, add_comm]
  | tick => exact absurd rfl (ha _ _)

/-- Whatever the nodes hold and whatever is in flight, message handling comes
to an end. -/
theorem cascades_end : ¬ ∃ N : ℕ → Network ι, ∀ k, CascadeStep cfg route (N k) (N (k + 1)) :=
  no_infinite (fun N : Network ι => N.flight.map Packet.rank) Nat.lt_wfRel.wf.cutExpand CascadeStep.cutExpand

end NatServer
