import NatServer.Net.Network
import NatServer.Server.Answer
import NatServer.Server.Probe
/-!
# Where a filtering reply comes from

In a network that loses, reorders and duplicates packets, each packet in
flight was sent in an earlier turn, and what a turn sends answers the message
it handled. So a `callclientRes` is traced back through a `callclient` and a
`filteringcheck` to the detect for which its message id was drawn.
-/

namespace NatServer

open Effect Json

section
variable {ι : Type} [Boost] [DecidableEq ι]

section
variable (cfg : ι → Config) (route : Endpoint → ι → Prop)

/-- A step of a network that may also duplicate what is in flight, with the
turn that a node takes in it. -/
inductive LossyStep : Network ι → Option (ι × Turn) → Network ι → Prop
  | turn {N N' a i event s} (h : NetStep cfg route N a N') (ha : a.turn? = some (i, event)) (hs : N.node i = some s) :
      LossyStep N (some (i, ⟨event, (react (cfg i) event s).out⟩)) N'
  | lose {N N' packet} (h : NetStep cfg route N (.lose packet) N') : LossyStep N none N'
  | duplicate {node rest packet} : LossyStep ⟨node, packet ::ₘ rest⟩ none ⟨node, packet ::ₘ packet ::ₘ rest⟩

end

variable {cfg : ι → Config} {route : Endpoint → ι → Prop} {N₀ N N' : Network ι} {hist : List (Option (ι × Turn))}
  {i : ι} {t : Turn}

/-! ## The turn that sent a packet -/

/-- A packet in flight after a step was so before, or was sent in it. -/
theorem LossyStep.flight {l : Option (ι × Turn)} (h : LossyStep cfg route N l N') {p : Packet} (hp : p ∈ N'.flight) :
    p ∈ N.flight ∨ ∃ i t, l = some (i, t) ∧ ∃ x ∈ transmitted t.sent, ⟨x.dest, wire x.msg⟩ = p := by
  cases h with
  | turn h ha hs =>
    cases h with
    | deliver hs' hrecv hroute hr =>
      cases ha
      cases hs.symm.trans hs'
      rw [← hr] at hp
      rcases Multiset.mem_add.1 hp with hp | hp
      · exact .inr ⟨_, _, rfl, mem_packets.1 hp⟩
      · exact .inl (Multiset.mem_cons_of_mem hp)
    | lose => cases ha
    | tick hs' hr =>
      cases ha
      cases hs.symm.trans hs'
      rw [← hr] at hp
      rcases Multiset.mem_add.1 hp with hp | hp
      · exact .inr ⟨_, _, rfl, mem_packets.1 hp⟩
      · exact .inl hp
  | lose h =>
    cases h with
    | lose => exact .inl (Multiset.mem_cons_of_mem hp)
  | duplicate =>
    rcases Multiset.mem_cons.1 hp with rfl | hp
    · exact .inl (Multiset.mem_cons_self _ _)
    · exact .inl hp

/-- What a node receives was in flight. -/
theorem LossyStep.received {error : Option ErrorCode} {remote : Endpoint} {datagram : List UInt8} {draws : Draws}
    {sent : List SendTo} (h : LossyStep cfg route N (some (i, ⟨.receive error remote datagram draws, sent⟩)) N') :
    ∃ s dest, s.receiving = true ∧ ⟨dest, datagram⟩ ∈ N.flight ∧
      sent = (react (cfg i) (.receive error remote datagram draws) s).out := by
  cases h with
  | turn h ha hs =>
    cases h with
    | @deliver _ _ _ s packet _ _ _ _ hs' hrecv hroute hr =>
      cases ha
      cases hs.symm.trans hs'
      exact ⟨_, packet.dest, hrecv, Multiset.mem_cons_self _ _, rfl⟩
    | lose | tick => cases ha

theorem LossyStep.of_step (cfg : ι → Config) (route : Endpoint → ι → Prop) {error : Option ErrorCode}
    {remote dest : Endpoint} {datagram : List UInt8} {draws : Draws} {sent : List SendTo} {s s' : Server}
    (hs : N.node i = some s) (hp : ⟨dest, datagram⟩ ∈ N.flight)
    (hroute : route dest i) (hstep : Step (cfg i) s ⟨.receive error remote datagram draws, sent⟩ s') :
    ∃ N', LossyStep cfg route N (some (i, ⟨.receive error remote datagram draws, sent⟩)) N' ∧
      N'.node i = some s' ∧ ∀ x ∈ transmitted sent, ⟨x.dest, wire x.msg⟩ ∈ N'.flight := by
  obtain ⟨N', h, hnode, hsent, -⟩ := NetStep.of_step cfg route hs hp hroute hstep
  have hturn := LossyStep.turn h rfl hs
  rw [show (react (cfg i) _ s).out = sent from congrArg Ran.out hstep.completes] at hturn
  exact ⟨N', hturn, by rw [hnode, Function.update_self], hsent⟩

/-- A packet in flight after a run was so before it, or was sent in a turn of it. -/
theorem packet_origin (h : Run (LossyStep cfg route) N₀ hist N) {p : Packet} (hp : p ∈ N.flight) :
    p ∈ N₀.flight ∨ ∃ pre i t post N₁ N₂, hist = pre ++ some (i, t) :: post ∧ Run (LossyStep cfg route) N₀ pre N₁ ∧
      LossyStep cfg route N₁ (some (i, t)) N₂ ∧ ∃ x ∈ transmitted t.sent, ⟨x.dest, wire x.msg⟩ = p := by
  induction h with
  | nil => exact .inl hp
  | @cons N₀ N₁ N₂ l hist hstep hrun ih =>
    rcases ih hp with hp | ⟨pre, i, t, post, N₃, N₄, rfl, hpre, hturn, hx⟩
    · rcases hstep.flight hp with hp | ⟨i, t, rfl, hx⟩
      · exact .inl hp
      · exact .inr ⟨[], i, t, hist, N₀, N₁, rfl, .nil _, hstep, hx⟩
    · exact .inr ⟨l :: pre, i, t, post, N₃, N₄, rfl, .cons hstep hpre, hturn, hx⟩

/-- The turn at `i` answers with the message `j`, of type `type`. -/
inductive AnswersWith (cfg : Config) (type : MsgType) (j : Json) : Turn → Prop
  | intro {error remote datagram draws sent n j₁ type₁ dest}
      (hc : Event.Carries cfg type₁ n j₁ (.receive error remote datagram draws))
      (hanswer : Answer cfg draws remote j₁ type₁ type j) (hsent : ⟨dest, j.dump⟩ ∈ transmitted sent) :
      AnswersWith cfg type j ⟨.receive error remote datagram draws, sent⟩

/-- Nothing is in flight but detects that `main` sent. -/
def AtStart (cfg : ι → Config) (N : Network ι) : Prop :=
  ∀ p ∈ N.flight, ∃ i text, p.datagram = wire (detectMsg (cfg i) text).dump

/-- A message that no timer pass sends was sent in answer to another, by the
node whose id it carries. -/
theorem answered_of_carries (h0 : AtStart cfg N₀) (hrun : Run (LossyStep cfg route) N₀ hist N)
    (hstep : LossyStep cfg route N (some (i, t)) N') {type : MsgType} {n : String} {j : Json}
    (hc : t.event.Carries (cfg i) type n j) (hnotice : ∀ cfg j, ¬ Notice cfg type j) :
    ∃ pre k t' post N₁ N₂, hist = pre ++ some (k, t') :: post ∧ Run (LossyStep cfg route) N₀ pre N₁ ∧
      LossyStep cfg route N₁ (some (k, t')) N₂ ∧ AnswersWith (cfg k) type j t' ∧ (cfg k).nodeID = n := by
  obtain ⟨event, sent⟩ := t
  cases hc with
  | @intro error remote datagram draws he hheard htype hid =>
    obtain ⟨s, dest, -, hp, -⟩ := hstep.received
    -- a message that was sent is heard as it was sent
    have hsame {k : ι} {j' : Json} {type' : MsgType} (hj' : IsMessage j' type' (cfg k).nodeID)
        (hmsg : datagram = wire j'.dump) : j' = j ∧ type' = type ∧ (cfg k).nodeID = n := by
      obtain ⟨m, rfl⟩ := hj'.object
      rw [hmsg] at hheard
      obtain rfl := eq_of_heard_wire hheard
      exact ⟨rfl, MsgType.text_inj (Option.some.inj (hj'.type.symm.trans htype)),
        Option.some.inj (hj'.id.symm.trans hid)⟩
    rcases packet_origin hrun hp with hp | ⟨pre, k, ⟨event', sent'⟩, post, N₁, N₂, hhist, hpre, hturn, x, hx, hpacket⟩
    · obtain ⟨k, text, hdetect⟩ := h0 _ hp
      obtain ⟨-, rfl, -⟩ := hsame (isMessage_detect (cfg k) text) hdetect
      exact absurd (.detect text) (hnotice (cfg k) _)
    have hdatagram : datagram = wire x.msg := (congrArg Packet.datagram hpacket).symm
    refine ⟨pre, k, ⟨event', sent'⟩, post, N₁, N₂, hhist, hpre, hturn, ?_⟩
    cases event' with
    | receive error' remote' datagram' draws' =>
      obtain ⟨s', dest', hrecv, -, rfl⟩ := hturn.received
      obtain ⟨type₁, n₁, j₁, hc₁, j', ⟨type', hanswer⟩, hmsg⟩ := answers_of_receive hrecv (mem_transmitted.1 hx).1
      obtain ⟨rfl, rfl, hnode⟩ := hsame hanswer.isMessage (hmsg ▸ hdatagram)
      have hsent : (⟨x.dest, j'.dump⟩ : SendTo) ∈
          transmitted (react (cfg k) (.receive error' remote' datagram' draws') s').out := by
        rw [← hmsg]
        exact hx
      exact ⟨.intro hc₁ hanswer hsent, hnode⟩
    | timer now =>
      have hx' : Says (fun j => ∃ t, Notice (cfg k) t j) x := by
        cases hturn with
        | turn _ _ hs => exact emits_threadhandle now _ x (mem_transmitted.1 hx).1
      obtain ⟨j', ⟨type', hnotice'⟩, hmsg⟩ := hx'
      obtain ⟨rfl, rfl, -⟩ := hsame hnotice'.isMessage (hmsg ▸ hdatagram)
      exact absurd hnotice' (hnotice _ _)

/-! ## The chain of a filtering check -/

/-- The turn handles the message `j`, of the type and with the message id. -/
def Handles (cfg : Config) (type : MsgType) (m : String) (j : Json) (t : Turn) : Prop :=
  (∃ n, t.event.Carries cfg type n j) ∧ (j.sub "msgid").bind getString = some m

/-- The turn draws the message id for a detect from a mapped source. -/
inductive Generates (cfg : Config) (m : String) : Turn → Prop
  | intro {error remote datagram draws sent n j lip lport}
      (hc : Event.Carries cfg .detect n j (.receive error remote datagram draws))
      (hdata : detectData j = some (lip, lport)) (hmapped : remote.ip ≠ lip ∨ remote.port ≠ lport)
      (hm : draws.msgID = m) : Generates cfg m ⟨.receive error remote datagram draws, sent⟩

section
variable {cfg : Config} {m : String} {j : Json}

theorem AnswersWith.sent {type : MsgType} (h : AnswersWith cfg type j t) :
    ∃ dest, ⟨dest, j.dump⟩ ∈ transmitted t.sent := by
  cases h with
  | @intro _ _ _ _ _ _ _ _ dest _ _ hsent => exact ⟨dest, hsent⟩

theorem AnswersWith.callclientRes (h : AnswersWith cfg .callclientRes j t)
    (hm : (j.sub "msgid").bind getString = some m) : ∃ call, Handles cfg .callclient m call t := by
  obtain ⟨hc, hanswer, -⟩ := h
  cases hanswer with
  | callclientRes hmsgid =>
    rw [msgid_callclientResMsg] at hm
    exact ⟨_, ⟨_, hc⟩, hmsgid.trans hm⟩

theorem AnswersWith.callclient (h : AnswersWith cfg .callclient j t)
    (hm : (j.sub "msgid").bind getString = some m) : ∃ check, Handles cfg .filteringcheck m check t := by
  obtain ⟨hc, hanswer, -⟩ := h
  cases hanswer with
  | callclient hmsgid =>
    rw [msgid_callclientMsg] at hm
    exact ⟨_, ⟨_, hc⟩, hmsgid.trans hm⟩

theorem AnswersWith.filteringcheck (h : AnswersWith cfg .filteringcheck j t)
    (hm : (j.sub "msgid").bind getString = some m) : Generates cfg m t := by
  obtain ⟨hc, hanswer, -⟩ := h
  cases hanswer with
  | filteringcheck hdata hmapped =>
    rw [msgid_filteringcheckMsg] at hm
    exact .intro hc hdata hmapped (Option.some.inj hm)

end

/-- A `callclientRes` changes no entry but that of its `nodeID`. -/
theorem callclientRes_entries (hstep : LossyStep cfg route N (some (i, t)) N') {c : String} {j : Json}
    (hc : t.event.Carries (cfg i) .callclientRes c j) {s s' : Server} (hs : N.node i = some s) (hs' : N'.node i = some s')
    {k : String} (hk : k ≠ c) : s'.hostList[k]? = s.hostList[k]? := by
  cases hstep with
  | turn h ha hs₀ =>
    cases hs.symm.trans hs₀
    rcases NetStep.node_cases _ _ h hs' with ⟨hnot, -⟩ | ⟨s₁, event, sent, hs₁, ha', hturn⟩
    · exact absurd ha (hnot _)
    · cases hs.symm.trans hs₁
      cases ha.symm.trans ha'
      obtain ⟨_, _, _, _, b, s₂, -, hh, rfl⟩ := completes_carried hturn.enabled hc hturn.completes
      rw [rearmed_hostList]
      cases hh with
      | callclientRes => exact StrMap.getElem?_insert_of_ne _ _ hk
      | callclientResUnknown => rfl

/-- In every run from a network at its start, a `callclientRes` from
`c` with the message id `m` is the end of a chain: a node drew `m` for a detect
from a mapped source, a node handled a `filteringcheck` with `m` and sent the
`callclient`, and the node `c` handled it, in that order; and it changes no
entry but that of `c`. -/
theorem callclientRes_provenance (h0 : AtStart cfg N₀) (hrun : Run (LossyStep cfg route) N₀ hist N)
    (hstep : LossyStep cfg route N (some (i, t)) N') {c m : String} {j : Json}
    (hc : t.event.Carries (cfg i) .callclientRes c j) (hm : (j.sub "msgid").bind getString = some m) :
    (∃ i₁ i₂ i₃ t₁ t₂ t₃ check call, [some (i₁, t₁), some (i₂, t₂), some (i₃, t₃)].Sublist hist ∧
      Generates (cfg i₁) m t₁ ∧ Handles (cfg i₂) .filteringcheck m check t₂ ∧ (∃ dest, ⟨dest, call.dump⟩ ∈ transmitted t₂.sent) ∧
      Handles (cfg i₃) .callclient m call t₃ ∧ (cfg i₃).nodeID = c) ∧
    ∀ s s', N.node i = some s → N'.node i = some s' → ∀ k ≠ c, s'.hostList[k]? = s.hostList[k]? := by
  refine ⟨?_, fun s s' hs hs' k hk => callclientRes_entries hstep hc hs hs' hk⟩
  -- the callclientRes was sent in answer to a callclient
  obtain ⟨pre₃, i₃, t₃, post₃, N₃, N₃', rfl, hrun₃, hstep₃, hanswer₃, hnode⟩ :=
    answered_of_carries h0 hrun hstep hc (by rintro _ _ ⟨⟩)
  obtain ⟨call, ⟨n₃, hcall⟩, hm₃⟩ := hanswer₃.callclientRes hm
  -- the callclient in answer to a filteringcheck
  obtain ⟨pre₂, i₂, t₂, post₂, N₂, N₂', rfl, hrun₂, hstep₂, hanswer₂, -⟩ :=
    answered_of_carries h0 hrun₃ hstep₃ hcall (by rintro _ _ ⟨⟩)
  obtain ⟨check, ⟨n₂, hcheck⟩, hm₂⟩ := hanswer₂.callclient hm₃
  -- the filteringcheck in answer to a detect
  obtain ⟨pre₁, i₁, t₁, post₁, N₁, N₁', rfl, -, -, hanswer₁, -⟩ :=
    answered_of_carries h0 hrun₂ hstep₂ hcheck (by rintro _ _ ⟨⟩)
  refine ⟨i₁, i₂, i₃, t₁, t₂, t₃, check, call, ?_, hanswer₁.filteringcheck hm₂, ⟨⟨n₂, hcheck⟩, hm₂⟩, hanswer₂.sent,
    ⟨⟨n₃, hcall⟩, hm₃⟩, hnode⟩
  have hsnoc {l pre post : List (Option (ι × Turn))} {a : Option (ι × Turn)} (h : l.Sublist pre) :
      (l ++ [a]).Sublist (pre ++ a :: post) := h.append (List.singleton_sublist.2 List.mem_cons_self)
  exact hsnoc (hsnoc (hsnoc (List.nil_sublist _)))

end

/-! A public server alone, its own detect coming back to it through a NAT. -/

def aloneConfig (_ : Unit) : Config := checkServer

def aloneNet : Network Unit :=
  ⟨fun _ => some (init checkServer), {⟨checkServer.fromCli, wire (detectMsg checkServer "80").dump⟩}⟩

theorem aloneNet_atStart : AtStart aloneConfig aloneNet := by
  intro p hp
  obtain rfl := Multiset.mem_singleton.1 hp
  exact ⟨(), "80", rfl⟩

theorem callclientRes_provenance_alone : ∃ (hist : List (Option (Unit × Turn))) (N N' : Network Unit) (t : Turn),
    Run (@LossyStep _ digitsBoost _ aloneConfig fun _ _ => True) aloneNet hist N ∧
    @LossyStep _ digitsBoost _ aloneConfig (fun _ _ => True) N (some ((), t)) N' ∧
    (∃ i₁ i₂ i₃ t₁ t₂ t₃ check call, [some (i₁, t₁), some (i₂, t₂), some (i₃, t₃)].Sublist hist ∧
      @Generates digitsBoost (aloneConfig i₁) "m" t₁ ∧ Handles (aloneConfig i₂) .filteringcheck "m" check t₂ ∧
      (∃ dest, ⟨dest, call.dump⟩ ∈ @transmitted digitsBoost t₂.sent) ∧ Handles (aloneConfig i₃) .callclient "m" call t₃ ∧
      (aloneConfig i₃).nodeID = "s") ∧
    ∀ s s', N.node () = some s → N'.node () = some s' → ∀ k ≠ "s", s'.hostList[k]? = s.hostList[k]? := by
  let _ := digitsBoost
  have hip : (⟨"30.0.0.1", 5555⟩ : Endpoint).ip ≠ checkServer.localIp := by decide
  have hcast : Boost.lexical_cast "80" = some 80 := rfl
  obtain ⟨sent₁, target, htarget, hprobe, -, s₁, hstep₁, hleft₁, hs₁⟩ := detectMapped_step (s := init checkServer) checkDraws rfl
    WfTable.empty ⟨_, record?_selfInfo checkServer⟩ hip (by decide +kernel) (isMessage_detect checkServer "80")
    (detectData_detectMsg _ hcast) (by decide) rfl
  have hfirst := (WfTable.empty.probeTarget_registered ..).symm.trans htarget
  obtain rfl : ⟨"10.0.0.1", 80⟩ = target :=
    Option.some.inj ((firstEndpoint_of_record (record?_selfInfo checkServer)).symm.trans hfirst)
  have hself : Boost.from_string "10.0.0.1" = true := by decide
  have hseen : Boost.from_string "30.0.0.1" = true := by decide
  obtain ⟨N₁, hnet₁, hnode₁, hsent₁⟩ := LossyStep.of_step aloneConfig (fun _ _ => True) (N := aloneNet) rfl
    (Multiset.mem_singleton_self _) trivial hstep₁
  -- the probe comes back to the server, and is answered through to the end
  obtain ⟨s₂, hstep₂, hleft₂, hs₂⟩ := step_of_left checkDraws hs₁ hip (by decide +kernel)
    (isMessage_filteringcheck checkServer ⟨"30.0.0.1", 5555⟩ checkDraws.msgID) fun s hleft =>
      ⟨s, .filteringcheck (ip_filteringcheckMsg ..) (port_filteringcheckMsg ..) (msgid_filteringcheckMsg ..), hleft⟩
  obtain ⟨N₂, hnet₂, hnode₂, hsent₂⟩ := LossyStep.of_step aloneConfig (fun _ _ => True) hnode₁
    (hsent₁ _ (mem_transmitted.2 ⟨hprobe, hself⟩)) trivial
    hstep₂
  obtain ⟨s₃, hstep₃, hleft₃, hs₃⟩ := step_of_left checkDraws hs₂ hip (by decide +kernel)
    (isMessage_callclient checkServer ⟨"30.0.0.1", 5555⟩ "30.0.0.1" 5555 checkDraws.msgID) fun s hleft =>
      ⟨s, .callclient (msgid_callclientMsg ..) (originip_callclientMsg ..) (originport_callclientMsg ..), hleft⟩
  obtain ⟨N₃, hnet₃, hnode₃, hsent₃⟩ := LossyStep.of_step aloneConfig (fun _ _ => True) hnode₂
    (hsent₂ _ (mem_transmitted.2 ⟨List.mem_singleton_self _, hseen⟩)) trivial hstep₃
  obtain ⟨info, hinfo⟩ : ∃ info, s₃.hostList["s"]? = some info := by
    refine StrMap.mem_iff.1 ?_
    rw [hleft₃.hostList, hleft₂.hostList, hleft₁.hostList]
    simp [registered, checkServer, sampleNode]
  have hw₃ : WfTable s₃.hostList := by
    rw [hleft₃.hostList, hleft₂.hostList, hleft₁.hostList]
    exact WfTable.empty.registered _ _ (record?_nodeInfo ..)
  have hfit₄ : ((callclientResMsg checkServer ⟨"30.0.0.1", 5555⟩ checkDraws.msgID).val.dump.flatMap
      String.utf8EncodeChar).length ≤ bufferSize := by decide +kernel
  obtain ⟨sent₄, -, -, s₄, hstep₄, -, -⟩ := callclientRes_step checkDraws hs₃ hw₃ hip checkServer ⟨"30.0.0.1", 5555⟩
    checkDraws.msgID hfit₄ hinfo
  obtain ⟨N₄, hnet₄, -⟩ := LossyStep.of_step aloneConfig (fun _ _ => True) hnode₃
    (hsent₃ _ (mem_transmitted.2 ⟨List.mem_cons_self, hseen⟩)) trivial
    hstep₄
  have hrun := Run.cons hnet₁ (.cons hnet₂ (.cons hnet₃ (.nil _)))
  exact ⟨_, N₃, N₄, _, hrun, hnet₄, callclientRes_provenance aloneNet_atStart hrun hnet₄
    (carries_wire hip hfit₄ (isMessage_callclientRes ..) _) (msgid_callclientResMsg ..)⟩

end NatServer
