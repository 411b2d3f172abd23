import NatServer.Server.Table
/-!
# The receive loop

`startReceive` stands once, at the end of `handleReceive`; a branch that
returns before it leaves no receive pending. One does: the update that carries
the server's own id. From then on the server takes no datagram, and goes on
with its timer passes.
-/

namespace NatServer

open Effect Json

section
variable [Boost] {cfg : Config} {s s' : Server} {o : List SendTo} {n : String}

/-- What `handleReceive` does with a datagram before it re-arms; the value says
whether it returns there. -/
def handleDatagram (cfg : Config) (draws : Draws) (remoteEndpoint : Endpoint) : Handler Bool := do
  let teststr := (← readState).recvBuffer
  if remoteEndpoint.ip ≠ cfg.localIp then
    match recvJson? teststr with
    | some recvJson => handleJson cfg draws remoteEndpoint recvJson
    | none => pure false
  else pure false

theorem handleReceive_eq {error : Option ErrorCode} (he : error = none ∨ error = some .message_size) (draws : Draws)
    (remote : Endpoint) : handleReceive cfg draws error remote = handleDatagram cfg draws remote >>= rearmUnless := by
  funext s
  rw [handleReceive, if_pos he, run_readState_bind, run_bind, handleDatagram, run_readState_bind]
  by_cases hip : remote.ip ≠ cfg.localIp
  · rw [if_pos hip, if_pos hip]
    rcases recvJson? s.recvBuffer with _ | j <;> rfl
  · rw [if_neg hip, if_neg hip]
    rfl

/-- The handler runs through to `startReceive`, which it has not called before. -/
def Rearms (cfg : Config) (draws : Draws) (remote : Endpoint) (datagram : List UInt8) (s s' : Server) (o : List SendTo) :
    Prop :=
  ∃ s₁, Completes (handleDatagram cfg draws remote) (arrive datagram s) false s₁ o ∧ s₁.receiving = false ∧
    Completes startReceive s₁ () s' []

/-- An update that carries the server's own id. -/
def OwnUpdate (cfg : Config) (event : Event) : Prop := ∃ j, event.Carries cfg .update cfg.nodeID j

/-- No branch starts a receive. -/
theorem Handled.receiving {draws : Draws} {seen : Endpoint} {j : Json} {t : MsgType} {b : Bool}
    (h : Handled cfg draws seen n j s t b s' o) : s'.receiving = s.receiving := by
  cases h with
  | update _ _ _ _ loop =>
    obtain ⟨_, hs⟩ := loop.state
    dsimp only at hs
    rw [hs]
  | _ => rfl

/-- One branch returns early. -/
theorem Handled.returned_iff {draws : Draws} {seen : Endpoint} {j : Json} {t : MsgType} {b : Bool}
    (h : Handled cfg draws seen n j s t b s' o) : b = true ↔ t = .update ∧ n = cfg.nodeID := by
  cases h with
  | updateSelf hn => simp [hn]
  | update hn => simp [hn]
  | _ => simp

section
variable {error : Option ErrorCode} {remote : Endpoint} {datagram : List UInt8} {draws : Draws}

theorem Rearms.receiving (h : Rearms cfg draws remote datagram s s' o) : s'.receiving = true := by
  obtain ⟨s₁, -, -, hstart⟩ := h
  rw [(completes_startReceive.1 hstart).1, rearm_receiving]

theorem Rearms.completes (he : error = none ∨ error = some .message_size)
    (h : Rearms cfg draws remote datagram s s' o) :
    Completes (react cfg (.receive error remote datagram draws)) s () s' o := by
  obtain ⟨s₁, hbody, -, hstart⟩ := h
  refine completes_modifyState_bind.2 ?_
  rw [handleReceive_eq he]
  exact completes_bind.2 ⟨false, s₁, o, [], hbody, hstart, (List.append_nil o).symm⟩

/-- A receive that ends pending was re-armed at the end. -/
theorem rearms_of_receiving (he : error = none ∨ error = some .message_size)
    (h : Step cfg s ⟨.receive error remote datagram draws, o⟩ s') (hrecv : s'.receiving = true) :
    Rearms cfg draws remote datagram s s' o := by
  have hrun : Completes (handleDatagram cfg draws remote >>= rearmUnless) (arrive datagram s) () s' o := by
    rw [← handleReceive_eq he]
    exact completes_modifyState_bind.1 h.completes
  obtain ⟨b, s₁, o₁, o₂, hbody, hend, rfl⟩ := completes_bind.1 hrun
  obtain ⟨rfl, rfl⟩ := completes_rearmUnless.1 hend
  have hidle : s₁.receiving = false := by
    rw [handleDatagram, completes_readState_bind, arrive_recvBuffer h.enabled] at hbody
    rcases completes_ite.1 hbody with ⟨-, hbody⟩ | ⟨-, hbody⟩
    · rcases hj : recvJson? (received datagram) with _ | j <;> simp only [hj] at hbody
      · obtain ⟨-, rfl, -⟩ := completes_pure.1 hbody
        rfl
      · rcases completes_handleJson hbody with hskip | ⟨n, type, t, -, -, -, hh⟩
        · rw [Completes, hskip.run] at hbody
          cases hbody
          rfl
        · exact hh.receiving
    · obtain ⟨-, rfl, -⟩ := completes_pure.1 hbody
      rfl
  cases b
  · exact ⟨s₁, by rwa [List.append_nil], hidle, completes_startReceive.2 ⟨rfl, rfl⟩⟩
  · exact absurd (hrecv.symm.trans hidle) (by simp)

/-- A receive that completes is pending again exactly where it brought no own update. -/
theorem receiving_iff (he : error = none ∨ error = some .message_size)
    (h : Step cfg s ⟨.receive error remote datagram draws, o⟩ s') :
    s'.receiving = true ↔ ¬ OwnUpdate cfg (.receive error remote datagram draws) := by
  cases completes_receive h.enabled h.completes with
  | failed he' => exact absurd he he'
  | ignored _ hskip =>
    refine ⟨fun _ => ?_, fun _ => rfl⟩
    rintro ⟨j, -, hheard, htype, -⟩
    have hnone := (hskip j hheard).type
    rw [htype, Option.bind_some, MsgType.ofText?_text] at hnone
    cases hnone
  | @handled j n type t b s₁ _ _ hheard hn htype ht hh =>
    obtain rfl := MsgType.ofText?_eq_some.1 ht
    have hidle : s₁.receiving = false := hh.receiving
    have hown : OwnUpdate cfg (.receive error remote datagram draws) ↔ t = .update ∧ n = cfg.nodeID := by
      constructor
      · rintro ⟨j', -, hheard', htype', hid'⟩
        cases hheard.symm.trans hheard'
        exact ⟨MsgType.text_inj (Option.some.inj (htype.symm.trans htype')), Option.some.inj (hn.symm.trans hid')⟩
      · rintro ⟨rfl, rfl⟩
        exact ⟨j, he, hheard, htype, hn⟩
    rw [hown, ← hh.returned_iff]
    cases b <;> simp [hidle]

/-- A handler that completes re-arms reception exactly where the datagram is no
update with the server's own id. -/
theorem reception_rearmed_iff (he : error = none ∨ error = some .message_size)
    (h : Step cfg s ⟨.receive error remote datagram draws, o⟩ s') :
    Rearms cfg draws remote datagram s s' o ↔ ¬ OwnUpdate cfg (.receive error remote datagram draws) := by
  rw [← receiving_iff he h]
  exact ⟨Rearms.receiving, rearms_of_receiving he h⟩

end

/-! ## Whole runs -/

/-- A receive completes without an error, and with no own update. -/
def Rearmed (cfg : Config) : Event → Prop
  | .receive error remote datagram draws => (error = none ∨ error = some .message_size) ∧
      ¬ OwnUpdate cfg (.receive error remote datagram draws)
  | .timer _ => True

/-- A run is one that never loses the pending receive exactly where all its
receives are of that kind. -/
theorem reception_kept_iff {ts : List Turn} (hrecv : s.receiving = true) :
    Run (Into (Step cfg) fun s => s.receiving = true) s ts s' ↔
      Run (Restrict (Step cfg) fun _ t => Rearmed cfg t.event) s ts s' := by
  refine Run.into_iff ?_ hrecv
  intro s t s' hrecv hs
  obtain ⟨event, sent⟩ := t
  cases event with
  | timer now =>
    rw [(completes_threadhandle.1 hs.completes).receiving]
    exact ⟨fun _ => trivial, fun _ => hrecv⟩
  | receive error remote datagram draws =>
    by_cases he : error = none ∨ error = some .message_size
    · rw [receiving_iff he hs]
      exact ⟨fun h => ⟨he, h⟩, fun h => h.2⟩
    · cases completes_receive hs.enabled hs.completes with
      | failed => exact ⟨fun h => absurd h (by simp [arrive]), fun h => absurd h.1 he⟩
      | ignored he' | handled he' => exact absurd he' he

/-- A server with no pending receive never has one again. -/
theorem deaf_forever {ts : List Turn} (h : Run (Step cfg) s ts s') (hdeaf : s.receiving = false) :
    s'.receiving = false := by
  refine h.invariant (I := fun s => s.receiving = false) (fun hdeaf hs => ?_) hdeaf
  rename_i s t s'
  obtain ⟨event, sent⟩ := t
  cases event with
  | timer now => rwa [(completes_threadhandle.1 hs.completes).receiving]
  | receive => exact absurd (hdeaf.symm.trans hs.enabled) (by simp)

end

/-! A ticker, and the broadcast of `r` that comes back to `r` from another ip. -/

theorem reception_rearmed_iff_ticker : ∃ sent s', @Rearms digitsBoost natReceiver ⟨0, "m", "k"⟩ ⟨"5.5.5.5", 2000⟩
    (wire (tickerMsg natSender (sampleMapped ⟨"5.5.5.5", 2000⟩)).dump) (init natReceiver) s' sent := by
  let _ := digitsBoost
  have hfit : ((tickerMsg natSender (sampleMapped ⟨"5.5.5.5", 2000⟩)).val.dump.flatMap
      String.utf8EncodeChar).length ≤ bufferSize := by decide +kernel
  obtain ⟨sent, hstep⟩ := step_ticker _ rfl hfit
  refine ⟨sent, _, (reception_rearmed_iff (.inl rfl) hstep).2 ?_⟩
  rintro ⟨j, -, hheard, htype, -⟩
  rw [heard_wire (by decide) (by rwa [wire_dump])] at hheard
  cases hheard
  rw [(isMessage_ticker _ _).type] at htype
  cases MsgType.text_inj (Option.some.inj htype)

/-- What `r` broadcasts. -/
def echo : Event := .receive none ⟨"5.5.5.5", 2000⟩ (wire (updateMsg natReceiver natTable).dump) ⟨0, "m", "k"⟩

theorem own_update_deafens : ∃ s', @Step digitsBoost natReceiver (init natReceiver) ⟨echo, []⟩ s' ∧
    (∀ sent s', ¬ @Rearms digitsBoost natReceiver ⟨0, "m", "k"⟩ ⟨"5.5.5.5", 2000⟩
      (wire (updateMsg natReceiver natTable).dump) (init natReceiver) s' sent) ∧
    ∀ ts s'', Run (@Step digitsBoost natReceiver) s' ts s'' → s''.receiving = false := by
  let _ := digitsBoost
  have hfit : ((updateMsg natReceiver natTable).val.dump.flatMap String.utf8EncodeChar).length ≤ bufferSize := by
    decide +kernel
  have hj := isMessage_update natReceiver natTable
  have hheard : heard natReceiver ⟨"5.5.5.5", 2000⟩ (wire (updateMsg natReceiver natTable).dump) = some _ :=
    heard_wire (by decide) (by rwa [wire_dump])
  have hstep : Step natReceiver (init natReceiver) ⟨echo, []⟩ (arrive _ (init natReceiver)) :=
    ⟨rfl, receive_completes (arrive_recvBuffer rfl _) (.inl rfl) hheard hj.id hj.type (MsgType.ofText?_text .update)
      (.updateSelf rfl)⟩
  refine ⟨_, hstep, fun sent s' h => ?_, fun ts s'' hrun => deaf_forever hrun rfl⟩
  obtain ⟨-, rfl, -⟩ := hstep.completes.unique (h.completes (.inl rfl))
  exact absurd h.receiving (by simp [arrive])

end NatServer
