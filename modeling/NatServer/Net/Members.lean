import NatServer.Net.Provenance
import NatServer.Server.Growth
/-!
# Who is in a table

A message is heard under the id of the node that sent it, and a table gains
no key but the id a message was heard under and the server's own. So where
packets are lost, reordered and duplicated but not forged, a table has no node
that did not itself send its server something.
-/

namespace NatServer

open Effect Json

section
variable {ι : Type} [Boost] [DecidableEq ι] {cfg : ι → Config} {route : Endpoint → ι → Prop} {N₀ N N' : Network ι}
  {hist : List (Option (ι × Turn))} {i : ι} {t : Turn} {s' : Server} {k : String}

theorem LossyStep.key_origin {l : Option (ι × Turn)} (h : LossyStep cfg route N l N') (hs' : N'.node i = some s')
    (hk : k ∈ s'.hostList) :
    (∃ s, N.node i = some s ∧ k ∈ s.hostList) ∨ k = (cfg i).nodeID ∨
      ∃ t type j, l = some (i, t) ∧ t.event.Carries (cfg i) type k j := by
  cases h with
  | turn h ha hs =>
    rcases NetStep.node_cases _ _ h hs' with ⟨-, hsame⟩ | ⟨s, event, sent, hs₁, ha', hturn⟩
    · exact .inl ⟨_, hsame, hk⟩
    · cases ha.symm.trans ha'
      rcases hturn.key_origin hk with hold | hown | ⟨type, j, hc⟩
      · exact .inl ⟨_, hs₁, hold⟩
      · exact .inr (.inl hown)
      · exact .inr (.inr ⟨_, type, j, rfl, hc⟩)
  | lose h =>
    cases h
    exact .inl ⟨_, hs', hk⟩
  | duplicate => exact .inl ⟨_, hs', hk⟩

/-- A key of a table is the server's own, was there at the start, or was heard. -/
theorem key_origin (h : Run (LossyStep cfg route) N₀ hist N) (hs' : N.node i = some s') (hk : k ∈ s'.hostList) :
    (∃ s, N₀.node i = some s ∧ k ∈ s.hostList) ∨ k = (cfg i).nodeID ∨
      ∃ pre t post N₁ N₂ type j, hist = pre ++ some (i, t) :: post ∧ Run (LossyStep cfg route) N₀ pre N₁ ∧
        LossyStep cfg route N₁ (some (i, t)) N₂ ∧ t.event.Carries (cfg i) type k j := by
  induction h with
  | nil => exact .inl ⟨_, hs', hk⟩
  | @cons N₀ N₁ N₂ l hist hstep hrun ih =>
    rcases ih hs' with ⟨s₁, hs₁, hk₁⟩ | hown | ⟨pre, t, post, N₃, N₄, type, j, rfl, hpre, hturn, hc⟩
    · rcases hstep.key_origin hs₁ hk₁ with hold | hown | ⟨t, type, j, rfl, hc⟩
      · exact .inl hold
      · exact .inr (.inl hown)
      · exact .inr (.inr ⟨[], t, hist, N₀, N₁, type, j, rfl, .nil _, hstep, hc⟩)
    · exact .inr (.inl hown)
    · exact .inr (.inr ⟨l :: pre, t, post, N₃, N₄, type, j, rfl, .cons hstep hpre, hturn, hc⟩)

/-- What a turn sends is a message under the id of its node. -/
theorem LossyStep.sends (h : LossyStep cfg route N (some (i, t)) N') {x : SendTo} (hx : x ∈ t.sent) :
    ∃ j type, IsMessage j type (cfg i).nodeID ∧ x.msg = j.dump := by
  obtain ⟨event, sent⟩ := t
  cases event with
  | receive error remote datagram draws =>
    obtain ⟨s, dest, hrecv, -, rfl⟩ := h.received
    obtain ⟨_, _, _, -, j, ⟨type, hanswer⟩, hmsg⟩ := answers_of_receive hrecv hx
    exact ⟨j, type, hanswer.isMessage, hmsg⟩
  | timer now =>
    have hsays : Says (fun j => ∃ t, Notice (cfg i) t j) x := by
      cases h with
      | turn => exact emits_threadhandle now _ x hx
    obtain ⟨j, ⟨type, hnotice⟩, hmsg⟩ := hsays
    exact ⟨j, type, hnotice.isMessage, hmsg⟩

/-- The node `c` sent the message: it is its detect of the start, or it went
out in a turn of it. -/
def SentBy (cfg : ι → Config) (hist : List (Option (ι × Turn))) (c : ι) (j : Json) : Prop :=
  (∃ text, j = detectMsg (cfg c) text) ∨ ∃ t dest, some (c, t) ∈ hist ∧ ⟨dest, j.dump⟩ ∈ transmitted t.sent

/-- A message is heard under the id of the node that sent it. -/
theorem sentBy_of_carries (h0 : AtStart cfg N₀) (hrun : Run (LossyStep cfg route) N₀ hist N)
    (hstep : LossyStep cfg route N (some (i, t)) N') {type : MsgType} {n : String} {j : Json}
    (hc : t.event.Carries (cfg i) type n j) : ∃ c, (cfg c).nodeID = n ∧ SentBy cfg hist c j := by
  obtain ⟨event, sent⟩ := t
  cases hc with
  | @intro error remote datagram draws he hheard htype hid =>
    obtain ⟨s, dest, -, hp, -⟩ := hstep.received
    have hsame {c : ι} {j' : Json} {type' : MsgType} (hj' : IsMessage j' type' (cfg c).nodeID)
        (hmsg : datagram = wire j'.dump) : j' = j ∧ (cfg c).nodeID = n := by
      obtain ⟨m, rfl⟩ := hj'.object
      rw [hmsg] at hheard
      obtain rfl := eq_of_heard_wire hheard
      exact ⟨rfl, Option.some.inj (hj'.id.symm.trans hid)⟩
    rcases packet_origin hrun hp with hp | ⟨pre, c, t', post, N₁, N₂, rfl, -, hturn, x, hx, hpacket⟩
    · obtain ⟨c, text, hdetect⟩ := h0 _ hp
      obtain ⟨hj, hid⟩ := hsame (isMessage_detect (cfg c) text) hdetect
      exact ⟨c, hid, .inl ⟨text, hj.symm⟩⟩
    · have hdatagram : datagram = wire x.msg := (congrArg Packet.datagram hpacket).symm
      obtain ⟨j', type', hj', hmsg⟩ := hturn.sends (mem_transmitted.1 hx).1
      obtain ⟨hj, hid⟩ := hsame hj' (hmsg ▸ hdatagram)
      refine ⟨c, hid, .inr ⟨t', x.dest, by simp, ?_⟩⟩
      rw [← hj, ← hmsg]
      exact hx

/-- In every run from freshly started nodes, a node's table has, besides
itself, only nodes of the network that sent it a message it handled. -/
theorem members_contacted (h0 : AtStart cfg N₀) (hfresh : ∀ i s, N₀.node i = some s → s = init (cfg i))
    (hrun : Run (LossyStep cfg route) N₀ hist N) (hs' : N.node i = some s') (hk : k ∈ s'.hostList)
    (hown : k ≠ (cfg i).nodeID) :
    ∃ c t type j, (cfg c).nodeID = k ∧ some (i, t) ∈ hist ∧ t.event.Carries (cfg i) type k j ∧ SentBy cfg hist c j := by
  rcases key_origin hrun hs' hk with ⟨s, hs, hold⟩ | hself | ⟨pre, t, post, N₁, N₂, type, j, rfl, hpre, hturn, hc⟩
  · rw [hfresh i s hs] at hold
    simp [init] at hold
  · exact absurd hself hown
  · obtain ⟨c, hid, hsent⟩ := sentBy_of_carries h0 hpre hturn hc
    refine ⟨c, t, type, j, hid, by simp, hc, ?_⟩
    rcases hsent with hdetect | ⟨t', dest, ht', hx⟩
    · exact .inl hdetect
    · exact .inr ⟨t', dest, List.mem_append_left _ ht', hx⟩

end

/-! The node of the check scenario and its server. -/

def pairConfig : Bool → Config
  | false => checkServer
  | true => checkNode

def pairNet : Network Bool :=
  ⟨fun i => some (init (pairConfig i)), {⟨checkServer.fromCli, wire (detectMsg checkNode "80").dump⟩}⟩

theorem members_contacted_pair : ∃ (hist : List (Option (Bool × Turn))) (N : Network Bool) (s : Server),
    Run (@LossyStep _ digitsBoost _ pairConfig fun _ _ => True) pairNet hist N ∧ N.node false = some s ∧
    "n" ∈ s.hostList ∧ ∃ c t type j, (pairConfig c).nodeID = "n" ∧ some (false, t) ∈ hist ∧
      t.event.Carries checkServer type "n" j ∧ @SentBy _ digitsBoost pairConfig hist c j := by
  let _ := digitsBoost
  have h0 : AtStart pairConfig pairNet := by
    intro p hp
    obtain rfl := Multiset.mem_singleton.1 hp
    exact ⟨true, "80", rfl⟩
  have hcast : Boost.lexical_cast "80" = some 80 := rfl
  have hip : (⟨"30.0.0.1", 5555⟩ : Endpoint).ip ≠ checkServer.localIp := by decide
  obtain ⟨sent, target, -, -, -, s', hstep, hleft, -⟩ := detectMapped_step (s := init checkServer) checkDraws rfl
    WfTable.empty ⟨_, record?_selfInfo checkServer⟩ hip (by decide +kernel) (isMessage_detect checkNode "80")
    (detectData_detectMsg _ hcast) (by decide) rfl
  obtain ⟨N, hnet, hnode, -⟩ := LossyStep.of_step pairConfig (fun _ _ => True) (N := pairNet) (i := false) rfl
    (Multiset.mem_singleton_self _) trivial hstep
  have hmem : "n" ∈ s'.hostList := by
    rw [hleft.hostList]
    simp [registered, checkNode, sampleNode]
  exact ⟨_, N, s', .single hnet, hnode, hmem, members_contacted h0 (fun i s hs => (Option.some.inj hs).symm)
    (.single hnet) hnode hmem (by decide)⟩

end NatServer
