import NatServer.Server.Machine
/-!
# What a handled message does

Each branch of the `msgtype` chain said once as a relation between the state
it starts from, the state it leaves and the messages it sends: `Handled` for
the branches, `EntryHandled` for one round of the update loop. The handlers
complete exactly as these relations say (`completes_dispatch`), and the
invariants are proved by cases on them.
-/

namespace NatServer

open Effect Json

variable {s s' : Server} {o : List SendTo} {u : Unit}

/-! ## The small functions -/

section
variable {β : Type} {b : β} {f : Unit → Handler β} {ip : String} {port : UInt16} {msg : Json}

@[simp] theorem completes_throwing {α : Type} {x : Option α} {a : α} :
    Completes (throwing x) s a s' o ↔ x = some a ∧ s = s' ∧ o = [] := completes_orFail

@[simp] theorem completes_throwing_bind {α : Type} {x : Option α} {f : α → Handler β} :
    Completes (throwing x >>= f) s b s' o ↔ ∃ a, x = some a ∧ Completes (f a) s b s' o := completes_orFail_bind

@[simp] theorem completes_sendTo :
    Completes (sendTo ip port msg) s u s' o ↔ s = s' ∧ o = [⟨⟨ip, port⟩, msg.dump⟩] := completes_emit

@[simp] theorem completes_sendTo_bind :
    Completes (sendTo ip port msg >>= f) s b s' o ↔
      ∃ o', Completes (f ()) s b s' o' ∧ o = ⟨⟨ip, port⟩, msg.dump⟩ :: o' := completes_emit_bind

@[simp] theorem completes_sendRepeatedly {n : Nat} :
    Completes (sendRepeatedly n ip port msg) s u s' o ↔ s = s' ∧ o = List.replicate n ⟨⟨ip, port⟩, msg.dump⟩ := by
  induction n generalizing o with
  | zero => simp [sendRepeatedly]
  | succ n ih =>
    simp only [sendRepeatedly, completes_sendTo_bind, ih, List.replicate_succ]
    constructor
    · rintro ⟨_, ⟨rfl, rfl⟩, rfl⟩
      exact ⟨rfl, rfl⟩
    · rintro ⟨rfl, rfl⟩
      exact ⟨_, ⟨rfl, rfl⟩, rfl⟩

variable {nodeID info : String}

@[simp] theorem completes_addNewNode :
    Completes (addNewNode nodeID info) s u s' o ↔
      s' = { s with hostList := s.hostList.insertIfNew nodeID info } ∧ o = [] := completes_modifyState

@[simp] theorem completes_addNewNode_bind :
    Completes (addNewNode nodeID info >>= f) s b s' o ↔
      Completes (f ()) { s with hostList := s.hostList.insertIfNew nodeID info } b s' o := completes_modifyState_bind

@[simp] theorem completes_setNode :
    Completes (setNode nodeID info) s u s' o ↔
      s' = { s with hostList := s.hostList.insert nodeID info } ∧ o = [] := completes_modifyState

@[simp] theorem completes_setNode_bind :
    Completes (setNode nodeID info >>= f) s b s' o ↔
      Completes (f ()) { s with hostList := s.hostList.insert nodeID info } b s' o := completes_modifyState_bind

@[simp] theorem completes_getPublicNode_bind {f : String → Handler β} :
    Completes (getPublicNode nodeID >>= f) s b s' o ↔
      ∃ info, findPublic nodeID s.hostList.toList = some info ∧ Completes (f info) s b s' o := by
  simp [getPublicNode, completes_bind]

end

section
variable (s : Server)

@[simp] theorem rearm_hostList : s.rearm.hostList = s.hostList := rfl
@[simp] theorem rearm_fCkTimeMap : s.rearm.fCkTimeMap = s.fCkTimeMap := rfl
@[simp] theorem rearm_tickerNum : s.rearm.tickerNum = s.tickerNum := rfl
@[simp] theorem rearm_localEpInfo : s.rearm.localEpInfo = s.localEpInfo := rfl
@[simp] theorem rearm_count : s.rearm.count = s.count := rfl
@[simp] theorem rearm_receiving : s.rearm.receiving = true := rfl

@[simp] theorem rearmed_hostList {b : Bool} : (if b then s else s.rearm).hostList = s.hostList := by
  cases b <;> rfl

@[simp] theorem rearmed_tickerNum {b : Bool} : (if b then s else s.rearm).tickerNum = s.tickerNum := by
  cases b <;> rfl

end

@[simp] theorem completes_startReceive : Completes startReceive s u s' o ↔ s' = s.rearm ∧ o = [] :=
  completes_modifyState

/-- The end of `handleReceive`: `startReceive`, unless the branch returned. -/
def rearmUnless (returned : Bool) : Handler Unit := if returned then pure () else startReceive

theorem completes_rearmUnless {b : Bool} : Completes (rearmUnless b) s u s' o ↔ s' = (if b then s else s.rearm) ∧ o = [] := by
  cases b
  · exact completes_startReceive
  · simp [rearmUnless, eq_comm]

theorem run_rearmUnless (m : Handler Bool) (s : Server) :
    ((m >>= rearmUnless) s).state.hostList = (m s).state.hostList := by
  rw [run_bind]
  rcases m s with ⟨e | _ | _, s₁, o⟩ <;> rfl

theorem out_rearmUnless (m : Handler Bool) (s : Server) : ((m >>= rearmUnless) s).out = (m s).out := by
  rw [run_bind]
  rcases m s with ⟨e | _ | _, s₁, o⟩ <;> simp [rearmUnless, startReceive, modifyState]

/-- The sends of `notifyAll`, `none` where reading an entry throws. -/
def notifications (cfg : Config) (msg : Json) : List (String × String) → Option (List SendTo)
  | [] => some []
  | (id, info) :: rest => do
    let itemJson ← parse info
    if id = cfg.nodeID then
      notifications cfg msg rest
    else
      let ip ← epIp itemJson
      let port ← epPort itemJson
      return ⟨⟨ip, port⟩, msg.dump⟩ :: (← notifications cfg msg rest)

/-- Each entry is sent the same message. -/
theorem notifications_msg {cfg : Config} {msg : Json} {l : List (String × String)} (h : notifications cfg msg l = some o) :
    ∀ x ∈ o, x.msg = msg.dump := by
  induction l generalizing o with
  | nil =>
    cases h
    nofun
  | cons p l ih =>
    obtain ⟨id, info⟩ := p
    simp only [notifications, Option.bind_eq_bind, Option.bind_eq_some_iff] at h
    obtain ⟨j, -, h⟩ := h
    split at h
    · exact ih h
    · simp only [Option.bind_eq_some_iff, Option.pure_def, Option.some.injEq] at h
      obtain ⟨ip, -, port, -, o', ho', rfl⟩ := h
      exact List.forall_mem_cons.2 ⟨rfl, ih ho'⟩

@[simp] theorem completes_notifyAll {cfg : Config} {msg : Json} {l : List (String × String)} :
    Completes (notifyAll cfg msg l) s u s' o ↔ notifications cfg msg l = some o ∧ s = s' := by
  induction l generalizing s o with
  | nil => simp [notifyAll, notifications, eq_comm, and_comm]
  | cons p l ih =>
    obtain ⟨id, info⟩ := p
    rcases hp : parse info with _ | j
    · simp [notifyAll, notifications, hp]
    · by_cases hid : id = cfg.nodeID
      · simp [notifyAll, notifications, hp, hid, ih, and_comm]
      · rcases hi : epIp j with _ | ip
        · simp [notifyAll, notifications, hp, hid, hi]
        · rcases ht : epPort j with _ | port
          · simp [notifyAll, notifications, hp, hid, hi, ht]
          · simp [notifyAll, notifications, hp, hid, hi, ht, ih, Option.bind_eq_some_iff]
            grind

/-- What `updateRouteInfo` sends. -/
def routeUpdate (cfg : Config) (hostList : StrMap String) : Option (List SendTo) :=
  notifications cfg (updateMsg cfg hostList) hostList.toList

@[simp] theorem completes_updateRouteInfo {cfg : Config} :
    Completes (updateRouteInfo cfg) s u s' o ↔ routeUpdate cfg s.hostList = some o ∧ s = s' := by
  simp [updateRouteInfo, routeUpdate, and_comm]

/-! ## The branches -/

/-- The table after the registration of a detecting node. -/
def registered (cfg : Config) (nodeID : String) (info : Json) (hostList : StrMap String) : StrMap String :=
  (hostList.insertIfNew nodeID info.dump).insertIfNew cfg.nodeID (selfInfo cfg).dump

/-- The endpoint a filteringcheck is sent to: the public node found, or the
server's own where there is none. -/
def probeTarget (cfg : Config) (hostList : StrMap String) (localEpInfo : Json) : Option Endpoint := do
  let getNeighber ← findPublic cfg.nodeID hostList.toList
  let neighber ← parse (if getNeighber = "" then localEpInfo.dump else getNeighber)
  return ⟨← epIp neighber, ← epPort neighber⟩

/-- The first endpoint of a record. -/
def firstEndpoint (j : Json) : Option Endpoint := do
  return ⟨← epIp j, ← epPort j⟩

theorem firstEndpoint_eq_some {j : Json} {e : Endpoint} :
    firstEndpoint j = some e ↔ ∃ ip, epIp j = some ip ∧ ∃ port, epPort j = some port ∧ ⟨ip, port⟩ = e := by
  simp only [firstEndpoint, Option.bind_eq_bind, Option.bind_eq_some_iff, Option.pure_def, Option.some.injEq]

theorem completes_detectMapped {cfg : Config} {draws : Draws} {seen : Endpoint} {n lip : String} {lport : UInt16} :
    Completes (detectMapped cfg draws seen n lip lport) s u s' o ↔
      ∃ target o', probeTarget cfg (registered cfg n (mappedInfo seen lip lport) s.hostList) s.localEpInfo = some target ∧
        routeUpdate cfg (registered cfg n (mappedInfo seen lip lport) s.hostList) = some o' ∧
        o = ⟨target, (filteringcheckMsg cfg seen draws.msgID).dump⟩ :: o' ∧
        s' = { s with
          hostList := registered cfg n (mappedInfo seen lip lport) s.hostList
          fCkTimeMap := s.fCkTimeMap.insertIfNew draws.key (keyStr draws.curTime seen n) } := by
  simp only [detectMapped, completes_addNewNode_bind, completes_getPublicNode_bind, completes_readState_bind,
    completes_throwing_bind, completes_sendTo_bind, completes_modifyState_bind, completes_updateRouteInfo,
    probeTarget, registered, Option.pure_def, Option.bind_eq_bind, Option.bind_eq_some_iff, Option.some.injEq]
  constructor
  · rintro ⟨p, hp, j, hj, ip, hip, port, hport, o', ⟨ho, rfl⟩, rfl⟩
    exact ⟨_, o', ⟨p, hp, j, hj, ip, hip, port, hport, rfl⟩, ho, rfl, rfl⟩
  · rintro ⟨_, o', ⟨p, hp, j, hj, ip, hip, port, hport, rfl⟩, ho, rfl, rfl⟩
    exact ⟨p, hp, j, hj, ip, hip, port, hport, o', ⟨ho, rfl⟩, rfl⟩

/-! ## The update loop -/

/-- `checkKey` of an entry. -/
def checkKey (tar : Endpoint) : String := tar.ip ++ "_" ++ portText tar.port

/-- An id without an underscore is no such key. -/
theorem checkKey_ne {k : String} (hk : '_' ∉ k.toList) (tar : Endpoint) : checkKey tar ≠ k := by
  rintro rfl
  exact hk (by simp [checkKey])

/-- The record in an entry of an update, and its first endpoint. -/
def readEntry (value : Json) : Option (Json × Endpoint) := do
  let item ← value.getString.bind parse
  return (item, ← firstEndpoint item)

/-- Whether a record is public, both fields being read. -/
def natPublic (item : Json) : Option Bool := do
  let natmapping ← (item.sub "natmapping").bind getString
  let natfiltering ← (item.sub "natfiltering").bind getString
  return natmapping = "Nonmap" ∧ natfiltering = "Nonfilter"

/-- The exits of a round of the update loop. -/
inductive Exit
  | unreadable
  | known
  | own (item : Json)
  | sameIp (item : Json)
  | unclassified
  | direct (tar : Endpoint)
  | noRelay
  | relayed (item : Json) (tar relay : Endpoint)

/-- The exit an entry takes, from the address and the table its round finds. -/
def classify (cfg : Config) (see : Endpoint) (table : StrMap String) (key : String) (value : Json) : Exit :=
  match readEntry value with
  | none => .unreadable
  | some (item, tar) =>
    if checkKey tar ∈ table then .known
    else if cfg.nodeID = key then .own item
    else if tar.ip = see.ip then .sameIp item
    else
      match natPublic item with
      | none => .unclassified
      | some true => .direct tar
      | some false =>
        match relayOf see table.toList with
        | none => .noRelay
        | some relay => .relayed item tar relay

section
variable {cfg : Config} {see tar relay : Endpoint} {table : StrMap String} {key : String} {value item : Json}

theorem classify_unreadable (hv : readEntry value = none) : classify cfg see table key value = .unreadable := by
  rw [classify, hv]

variable (hv : readEntry value = some (item, tar))
include hv

theorem classify_known (hknown : checkKey tar ∈ table) : classify cfg see table key value = .known := by
  rw [classify, hv]
  exact if_pos hknown

variable (hnew : checkKey tar ∉ table)
include hnew

theorem classify_own (hown : cfg.nodeID = key) : classify cfg see table key value = .own item := by
  rw [classify, hv]
  simp only [if_neg hnew, if_pos hown]

variable (hown : cfg.nodeID ≠ key)
include hown

theorem classify_sameIp (hip : tar.ip = see.ip) : classify cfg see table key value = .sameIp item := by
  rw [classify, hv]
  simp only [if_neg hnew, if_neg hown, if_pos hip]

variable (hip : tar.ip ≠ see.ip)
include hip

theorem classify_unclassified (hnat : natPublic item = none) : classify cfg see table key value = .unclassified := by
  rw [classify, hv]
  simp only [if_neg hnew, if_neg hown, if_neg hip, hnat]

theorem classify_direct (hnat : natPublic item = some true) : classify cfg see table key value = .direct tar := by
  rw [classify, hv]
  simp only [if_neg hnew, if_neg hown, if_neg hip, hnat]

variable (hnat : natPublic item = some false)
include hnat

theorem classify_noRelay (hrelay : relayOf see table.toList = none) :
    classify cfg see table key value = .noRelay := by
  rw [classify, hv]
  simp only [if_neg hnew, if_neg hown, if_neg hip, hnat, hrelay]

theorem classify_relayed (hrelay : relayOf see table.toList = some relay) :
    classify cfg see table key value = .relayed item tar relay := by
  rw [classify, hv]
  simp only [if_neg hnew, if_neg hown, if_neg hip, hnat, hrelay]

end

/-- What one round of the update loop did, by the exit it took. -/
inductive EntryRan (cfg : Config) (n : String) (see : Endpoint) (key : String) (value : Json) (s : Server) :
    Ran Server SendTo Fault Endpoint → Prop
  | unreadable (hv : readEntry value = none) : EntryRan cfg n see key value s ⟨.error .exception, s, []⟩
  | known {item tar} (hv : readEntry value = some (item, tar)) (hknown : checkKey tar ∈ s.hostList) :
      EntryRan cfg n see key value s ⟨.ok see, s, []⟩
  | own {item tar} (hv : readEntry value = some (item, tar)) (hnew : checkKey tar ∉ s.hostList)
      (hown : cfg.nodeID = key) : EntryRan cfg n see key value s
        ⟨.ok see, { s with hostList := s.hostList.insertIfNew cfg.nodeID item.dump }, []⟩
  | sameIp {item tar} (hv : readEntry value = some (item, tar)) (hnew : checkKey tar ∉ s.hostList)
      (hown : cfg.nodeID ≠ key) (hip : tar.ip = see.ip) : EntryRan cfg n see key value s
        ⟨.ok see, { s with hostList := s.hostList.insertIfNew n item.dump }, []⟩
  | unclassified {item tar} (hv : readEntry value = some (item, tar)) (hnew : checkKey tar ∉ s.hostList)
      (hown : cfg.nodeID ≠ key) (hip : tar.ip ≠ see.ip) (hnat : natPublic item = none) :
      EntryRan cfg n see key value s ⟨.error .exception, s, []⟩
  | direct {item tar} (hv : readEntry value = some (item, tar)) (hnew : checkKey tar ∉ s.hostList)
      (hown : cfg.nodeID ≠ key) (hip : tar.ip ≠ see.ip) (hnat : natPublic item = some true) :
      EntryRan cfg n see key value s ⟨.ok see, s, [⟨tar, (dataMsg cfg "openconnect" s.localEpInfo).dump⟩]⟩
  | noRelay {item tar} (hv : readEntry value = some (item, tar)) (hnew : checkKey tar ∉ s.hostList)
      (hown : cfg.nodeID ≠ key) (hip : tar.ip ≠ see.ip) (hnat : natPublic item = some false)
      (hrelay : relayOf see s.hostList.toList = none) :
      EntryRan cfg n see key value s ⟨.error .exception, s, []⟩
  | selfUnknown {item tar relay} (hv : readEntry value = some (item, tar)) (hnew : checkKey tar ∉ s.hostList)
      (hown : cfg.nodeID ≠ key) (hip : tar.ip ≠ see.ip) (hnat : natPublic item = some false)
      (hrelay : relayOf see s.hostList.toList = some relay) (hself : isPublic s.localEpInfo = none) :
      EntryRan cfg n see key value s
        ⟨.error .exception, s, [⟨relay, (dataMsg cfg "proxyconnect" item).dump⟩]⟩
  | proxied {item tar relay} (hv : readEntry value = some (item, tar)) (hnew : checkKey tar ∉ s.hostList)
      (hown : cfg.nodeID ≠ key) (hip : tar.ip ≠ see.ip) (hnat : natPublic item = some false)
      (hrelay : relayOf see s.hostList.toList = some relay) (hself : isPublic s.localEpInfo = some true) :
      EntryRan cfg n see key value s ⟨.ok relay, s, [⟨relay, (dataMsg cfg "proxyconnect" item).dump⟩]⟩
  | punched {item tar relay} (hv : readEntry value = some (item, tar)) (hnew : checkKey tar ∉ s.hostList)
      (hown : cfg.nodeID ≠ key) (hip : tar.ip ≠ see.ip) (hnat : natPublic item = some false)
      (hrelay : relayOf see s.hostList.toList = some relay) (hself : isPublic s.localEpInfo = some false) :
      EntryRan cfg n see key value s
        ⟨.ok relay, s, [⟨relay, (dataMsg cfg "proxyconnect" item).dump⟩,
          ⟨tar, (dataMsg cfg "openconnect" s.localEpInfo).dump⟩]⟩

theorem updateEntry_ran (cfg : Config) (n : String) (see : Endpoint) (key : String) (value : Json) (s : Server) :
    EntryRan cfg n see key value s (updateEntry cfg n see key value s) := by
  unfold updateEntry throwing
  rcases hi : value.getString.bind parse with _ | item
  · exact .unreadable (by simp [readEntry, hi])
  rw [orFail_some_bind]
  rcases hip : epIp item with _ | tarIp
  · exact .unreadable (by simp [readEntry, firstEndpoint, hi, hip])
  rw [orFail_some_bind]
  rcases hport : epPort item with _ | tarPort
  · exact .unreadable (by simp [readEntry, firstEndpoint, hi, hip, hport])
  rw [orFail_some_bind, run_readState_bind]
  have hv : readEntry value = some (item, ⟨tarIp, tarPort⟩) := by simp [readEntry, firstEndpoint, hi, hip, hport]
  by_cases hk : tarIp ++ "_" ++ portText tarPort ∈ s.hostList
  · rw [if_pos hk]
    exact .known hv hk
  rw [if_neg hk]
  by_cases ho : cfg.nodeID = key
  · rw [if_pos ho]
    exact .own hv hk ho
  rw [if_neg ho]
  by_cases hs : tarIp = see.ip
  · rw [if_pos hs]
    exact .sameIp hv hk ho hs
  rw [if_neg hs]
  rcases hm : (item.sub "natmapping").bind getString with _ | natmapping
  · exact .unclassified hv hk ho hs (by simp [natPublic, hm])
  rw [orFail_some_bind]
  rcases hf : (item.sub "natfiltering").bind getString with _ | natfiltering
  · exact .unclassified hv hk ho hs (by simp [natPublic, hm, hf])
  have hnat : natPublic item = some (decide (natmapping = "Nonmap" ∧ natfiltering = "Nonfilter")) := by
    simp [natPublic, hm, hf]
  rw [orFail_some_bind]
  by_cases hp : natmapping = "Nonmap" ∧ natfiltering = "Nonfilter"
  · rw [if_pos hp]
    exact .direct hv hk ho hs (by rw [hnat, decide_eq_true hp])
  rw [if_neg hp]
  rw [decide_eq_false hp] at hnat
  rcases hr : relayOf see s.hostList.toList with _ | relay
  · exact .noRelay hv hk ho hs hnat hr
  simp only [orFail_some_bind, sendTo, run_emit_bind]
  rcases hself : isPublic s.localEpInfo with _ | _ | _
  · exact .selfUnknown hv hk ho hs hnat hr hself
  · exact .punched hv hk ho hs hnat hr hself
  · exact .proxied hv hk ho hs hnat hr hself

/-- What the loop did, up to the entry it failed at or through all of them. -/
inductive LoopRan (cfg : Config) (n : String) :
    Endpoint → Server → List (String × Json) → Ran Server SendTo Fault Unit → Prop
  | nil {see s} : LoopRan cfg n see s [] ⟨.ok (), s, []⟩
  | fault {see s s₁ key value rest o₁ e} (entry : EntryRan cfg n see key value s ⟨.error e, s₁, o₁⟩) :
      LoopRan cfg n see s ((key, value) :: rest) ⟨.error e, s₁, o₁⟩
  | cons {see see' s s₁ s₂ key value rest o₁ o₂ res} (entry : EntryRan cfg n see key value s ⟨.ok see', s₁, o₁⟩)
      (loop : LoopRan cfg n see' s₁ rest ⟨res, s₂, o₂⟩) :
      LoopRan cfg n see s ((key, value) :: rest) ⟨res, s₂, o₁ ++ o₂⟩

theorem updateLoop_ran (cfg : Config) (n : String) (see : Endpoint) (l : List (String × Json)) (s : Server) :
    LoopRan cfg n see s l (updateLoop cfg n see l s) := by
  induction l generalizing see s with
  | nil => exact .nil
  | cons p l ih =>
    obtain ⟨key, value⟩ := p
    have entry := updateEntry_ran cfg n see key value s
    rw [updateLoop, run_bind]
    rcases hr : updateEntry cfg n see key value s with ⟨e | see', s₁, o₁⟩ <;> rw [hr] at entry
    · exact .fault entry
    · exact .cons entry (ih see' s₁)

theorem updateEntry_eq {cfg : Config} {n : String} {see : Endpoint} {key : String} {value : Json} {s : Server}
    {r : Ran Server SendTo Fault Endpoint} (h : EntryRan cfg n see key value s r) :
    updateEntry cfg n see key value s = r := by
  have h' := updateEntry_ran cfg n see key value s
  generalize updateEntry cfg n see key value s = r' at h'
  cases h <;> cases h' <;> simp_all

theorem updateLoop_eq {cfg : Config} {n : String} {see : Endpoint} {l : List (String × Json)} {s : Server}
    {r : Ran Server SendTo Fault Unit} (h : LoopRan cfg n see s l r) : updateLoop cfg n see l s = r := by
  induction h with
  | nil => rfl
  | fault entry => rw [updateLoop, run_bind, updateEntry_eq entry]
  | cons entry _ ih => rw [updateLoop, run_bind, updateEntry_eq entry]; simp only [ih]

theorem completes_updateLoop {cfg : Config} {n : String} {see : Endpoint} {l : List (String × Json)} :
    Completes (updateLoop cfg n see l) s u s' o ↔ LoopRan cfg n see s l ⟨.ok u, s', o⟩ :=
  ⟨fun h => h ▸ updateLoop_ran cfg n see l s, updateLoop_eq⟩

/-! ## The branches of the `msgtype` chain -/

variable [Boost]

/-- `data.localip` and `data.localport` of a detect, with the port's value. -/
def detectData (j : Json) : Option (String × UInt16) := do
  let data ← j.sub "data"
  let localIp ← (data.sub "localip").bind getString
  let localPort ← (data.sub "localport").bind getString
  return (localIp, ← Boost.lexical_cast localPort)

theorem detectData_eq_some {j : Json} {p : String × UInt16} :
    detectData j = some p ↔ ∃ data, j.sub "data" = some data ∧ ∃ lip, (data.sub "localip").bind getString = some lip ∧
      ∃ text, (data.sub "localport").bind getString = some text ∧
        ∃ lport, Boost.lexical_cast text = some lport ∧ (lip, lport) = p := by
  simp only [detectData, Option.bind_eq_bind, Option.bind_eq_some_iff, Option.pure_def, Option.some.injEq]

/-- What a branch that completed did: whether it returned early, the state it
left and what it sent. -/
inductive Handled (cfg : Config) (draws : Draws) (seen : Endpoint) (n : String) (j : Json) (s : Server) :
    MsgType → Bool → Server → List SendTo → Prop
  | detectMapped {lip lport target o} (hdata : detectData j = some (lip, lport))
      (hmapped : seen.ip ≠ lip ∨ seen.port ≠ lport)
      (htarget : probeTarget cfg (registered cfg n (mappedInfo seen lip lport) s.hostList) s.localEpInfo = some target)
      (hroute : routeUpdate cfg (registered cfg n (mappedInfo seen lip lport) s.hostList) = some o) :
      Handled cfg draws seen n j s .detect false
        { s with
          hostList := registered cfg n (mappedInfo seen lip lport) s.hostList
          fCkTimeMap := s.fCkTimeMap.insertIfNew draws.key (keyStr draws.curTime seen n) }
        (⟨target, (filteringcheckMsg cfg seen draws.msgID).dump⟩ :: o)
  | detectPublic {lip lport o} (hdata : detectData j = some (lip, lport))
      (hpublic : ¬ (seen.ip ≠ lip ∨ seen.port ≠ lport))
      (hroute : routeUpdate cfg (registered cfg n (publicInfo seen) s.hostList) = some o) :
      Handled cfg draws seen n j s .detect false
        { s with hostList := registered cfg n (publicInfo seen) s.hostList } o
  | updateSelf (hn : n = cfg.nodeID) : Handled cfg draws seen n j s .update true s []
  | update {m value own s' o} (hn : n ≠ cfg.nodeID) (hdata : j.sub "data" = some (.object m))
      (hself : m[cfg.nodeID]? = some value) (hown : value.getString.bind parse = some own)
      (loop : LoopRan cfg n seen { s with localEpInfo := own } m.toList ⟨.ok (), s', o⟩) :
      Handled cfg draws seen n j s .update false s' o
  | proxyconnect {data tar natmapping natfiltering} (hdata : j.sub "data" = some data)
      (htar : firstEndpoint data = some tar) (hmapping : data.sub "natmapping" = some natmapping)
      (hfiltering : data.sub "natfiltering" = some natfiltering) :
      Handled cfg draws seen n j s .proxyconnect false s
        [⟨tar, (dataMsg cfg "helpconnect" (helpBody natmapping natfiltering seen)).dump⟩]
  | helpconnect {data tar} (hdata : j.sub "data" = some data) (htar : firstEndpoint data = some tar) :
      Handled cfg draws seen n j s .helpconnect false s
        (List.replicate 3 ⟨tar, (dataMsg cfg "openconnect" s.localEpInfo).dump⟩)
  | openChanged {data change} (hdata : j.sub "data" = some data) (hdiff : endpointDiffers seen data = some true)
      (hchange : withEndpoint0 seen data = some change) :
      Handled cfg draws seen n j s .openconnect false { s with hostList := s.hostList.insert n change.dump } []
  | openSame {data} (hdata : j.sub "data" = some data) (hdiff : endpointDiffers seen data = some false) :
      Handled cfg draws seen n j s .openconnect false { s with hostList := s.hostList.insertIfNew n data.dump } []
  | filteringcheck {ip port msgid} (hip : (j.sub "ip").bind getString = some ip)
      (hport : (j.sub "port").bind getUShort = some port) (hmsgid : (j.sub "msgid").bind getString = some msgid) :
      Handled cfg draws seen n j s .filteringcheck false s
        [⟨⟨ip, port⟩, (callclientMsg cfg seen ip port msgid).dump⟩]
  | callclient {msgid ip port} (hmsgid : (j.sub "msgid").bind getString = some msgid)
      (hip : (j.sub "originip").bind getString = some ip) (hport : (j.sub "originport").bind getUShort = some port) :
      Handled cfg draws seen n j s .callclient false s
        (List.replicate 3 ⟨⟨ip, port⟩, (callclientResMsg cfg seen msgid).dump⟩)
  | callclientRes {ip port info change msgid o} (hip : (j.sub "ip").bind getString = some ip)
      (hport : (j.sub "port").bind getUShort = some port) (hinfo : s.hostList[n]? = some info)
      (hchange : setFiltering "Nonfilter" info = some change) (hmsgid : (j.sub "msgid").bind getString = some msgid)
      (hroute : routeUpdate cfg (s.hostList.insert n change.dump) = some o) :
      Handled cfg draws seen n j s .callclientRes false
        { s with hostList := s.hostList.insert n change.dump, fCkTimeMap := s.fCkTimeMap.erase msgid } o
  | callclientResUnknown {ip port o} (hip : (j.sub "ip").bind getString = some ip)
      (hport : (j.sub "port").bind getUShort = some port) (hinfo : s.hostList[n]? = none)
      (hroute : routeUpdate cfg s.hostList = some o) : Handled cfg draws seen n j s .callclientRes false s o
  | ticker {data msgid} (hdata : j.sub "data" = some data) (hmsgid : (j.sub "msgid").bind getString = some msgid)
      (hnull : data.isNull = false) :
      Handled cfg draws seen n j s .ticker false
        { s with hostList := s.hostList.insert n data.dump, tickerNum := s.tickerNum.erase (tickerKey seen) }
        [⟨seen, (tickerResMsg cfg msgid).dump⟩]
  | tickerEmpty {msgid} (hdata : j.sub "data" = some null) (hmsgid : (j.sub "msgid").bind getString = some msgid) :
      Handled cfg draws seen n j s .ticker false { s with tickerNum := s.tickerNum.erase (tickerKey seen) }
        [⟨seen, (tickerResMsg cfg msgid).dump⟩]
  | tickerRes {msgid} (hmsgid : (j.sub "msgid").bind getString = some msgid) :
      Handled cfg draws seen n j s .tickerRes false { s with tickerNum := s.tickerNum.erase (tickerKey seen) } []

variable {cfg : Config} {draws : Draws} {seen : Endpoint} {n : String} {j : Json} {b : Bool} {t : MsgType}

theorem completes_detect (h : Completes (detect cfg draws seen n j) s u s' o) :
    Handled cfg draws seen n j s .detect false s' o := by
  simp only [detect, completes_throwing_bind] at h
  obtain ⟨data, hdata, lip, hlip, text, htext, lport, hport, h⟩ := h
  have hd : detectData j = some (lip, lport) := by simp [detectData, hdata, hlip, htext, hport]
  rcases completes_ite.1 h with ⟨hm, h⟩ | ⟨hm, h⟩
  · obtain ⟨target, o', htarget, ho', rfl, rfl⟩ := completes_detectMapped.1 h
    exact .detectMapped hd hm htarget ho'
  · simp only [detectPublic, completes_addNewNode_bind, completes_updateRouteInfo] at h
    obtain ⟨ho, rfl⟩ := h
    exact .detectPublic hd hm ho

theorem completes_update (hn : n ≠ cfg.nodeID) (h : Completes (update cfg seen n j) s u s' o) :
    Handled cfg draws seen n j s .update false s' o := by
  simp only [update, completes_throwing_bind] at h
  obtain ⟨data, hdata, h⟩ := h
  rcases hv : data.view with _ | _ | _ | _ | _ | l | m <;> simp only [getself, hv] at h
  case object =>
    rcases hm : m[cfg.nodeID]? with _ | value <;> simp only [hm] at h
    · simp [completes_bind] at h
    · simp only [completes_pure_bind, completes_throwing_bind, completes_modifyState_bind, completes_updateLoop] at h
      obtain ⟨own, hown, hloop⟩ := h
      exact .update hn (by rw [hdata, eq_of_view hv]; rfl) hm hown hloop
  all_goals simp [completes_bind] at h

theorem completes_openconnect (h : Completes (openconnect seen n j) s u s' o) :
    Handled cfg draws seen n j s .openconnect false s' o := by
  simp only [openconnect, completes_throwing_bind] at h
  obtain ⟨data, hdata, d, hdiff, h⟩ := h
  cases d
  · simp only [Bool.false_eq_true, if_false, completes_addNewNode] at h
    obtain ⟨rfl, rfl⟩ := h
    exact .openSame hdata hdiff
  · simp only [if_true, completes_throwing_bind, completes_readState_bind] at h
    obtain ⟨change, hchange, h⟩ := h
    rcases completes_ite.1 h with ⟨hm, h⟩ | ⟨hm, h⟩
    · obtain ⟨rfl, rfl⟩ := completes_setNode.1 h
      exact .openChanged hdata hdiff hchange
    · obtain ⟨rfl, rfl⟩ := completes_addNewNode.1 h
      rw [StrMap.insertIfNew_of_notMem _ hm]
      exact .openChanged hdata hdiff hchange

theorem completes_callclientRes (hn : messageID j = some n) (h : Completes (callclientRes cfg j) s u s' o) :
    Handled cfg draws seen n j s .callclientRes false s' o := by
  simp only [callclientRes, completes_throwing_bind, completes_readState_bind] at h
  obtain ⟨ip, hip, port, hport, n', hn', h⟩ := h
  cases hn.symm.trans hn'
  rcases hinfo : s.hostList[n]? with _ | info <;> simp only [hinfo] at h
  · obtain ⟨ho, rfl⟩ := completes_updateRouteInfo.1 h
    exact .callclientResUnknown hip hport hinfo ho
  · simp only [completes_throwing_bind, completes_setNode_bind, completes_modifyState_bind,
      completes_updateRouteInfo] at h
    obtain ⟨change, hchange, msgid, hmsgid, ho, rfl⟩ := h
    exact .callclientRes hip hport hinfo hchange hmsgid ho

theorem completes_ticker (hn : messageID j = some n) (h : Completes (ticker cfg seen j) s u s' o) :
    Handled cfg draws seen n j s .ticker false s' o := by
  simp only [ticker, completes_throwing_bind] at h
  obtain ⟨data, hdata, msgid, hmsgid, n', hn', h⟩ := h
  cases hn.symm.trans hn'
  cases hnull : data.isNull
  · simp only [hnull, Bool.false_eq_true, not_false_eq_true, if_true, completes_readState_bind] at h
    rcases completes_ite.1 h with ⟨hm, h⟩ | ⟨hm, h⟩
    · simp only [completes_setNode_bind, completes_sendTo_bind, completes_modifyState] at h
      obtain ⟨_, ⟨rfl, rfl⟩, rfl⟩ := h
      exact .ticker hdata hmsgid hnull
    · simp only [completes_addNewNode_bind, completes_sendTo_bind, completes_modifyState,
        StrMap.insertIfNew_of_notMem _ hm] at h
      obtain ⟨_, ⟨rfl, rfl⟩, rfl⟩ := h
      exact .ticker hdata hmsgid hnull
  · simp only [hnull, not_true_eq_false, if_false, completes_sendTo_bind, completes_modifyState] at h
    obtain ⟨_, ⟨rfl, rfl⟩, rfl⟩ := h
    exact .tickerEmpty (by rw [hdata, isNull_iff.1 hnull]) hmsgid

/-- The branches do what `Handled` says. -/
theorem completes_dispatch (hn : messageID j = some n) (h : Completes (dispatch cfg draws seen n j t) s b s' o) :
    Handled cfg draws seen n j s t b s' o := by
  -- every branch but the update of the server itself goes on to `startReceive`
  have hfalse {m : Handler Unit} (hm : Completes (m >>= fun _ => pure false) s b s' o) :
      b = false ∧ Completes m s () s' o := by
    obtain ⟨_, _, _, _, hm, hb, rfl⟩ := completes_bind.1 hm
    obtain ⟨rfl, rfl, rfl⟩ := completes_pure.1 hb
    exact ⟨rfl, by rwa [List.append_nil]⟩
  cases t <;> simp only [dispatch] at h
  case update =>
    rcases completes_ite.1 h with ⟨hs, h⟩ | ⟨hs, h⟩
    · obtain ⟨rfl, rfl, rfl⟩ := completes_pure.1 h
      exact .updateSelf hs
    · obtain ⟨rfl, hm⟩ := hfalse h
      exact completes_update hs hm
  all_goals obtain ⟨rfl, hm⟩ := hfalse h
  case detect => exact completes_detect hm
  case openconnect => exact completes_openconnect hm
  case callclientRes => exact completes_callclientRes hn hm
  case ticker => exact completes_ticker hn hm
  case proxyconnect =>
    simp only [proxyconnect, completes_throwing_bind, completes_sendTo] at hm
    obtain ⟨data, hdata, ip, hip, port, hport, nm, hnm, nf, hnf, rfl, rfl⟩ := hm
    exact .proxyconnect hdata (firstEndpoint_eq_some.2 ⟨ip, hip, port, hport, rfl⟩) hnm hnf
  case helpconnect =>
    simp only [helpconnect, completes_throwing_bind, completes_readState_bind, completes_sendRepeatedly] at hm
    obtain ⟨data, hdata, ip, hip, port, hport, rfl, rfl⟩ := hm
    exact .helpconnect hdata (firstEndpoint_eq_some.2 ⟨ip, hip, port, hport, rfl⟩)
  case filteringcheck =>
    simp only [filteringcheck, completes_throwing_bind, completes_sendTo] at hm
    obtain ⟨ip, hip, port, hport, msgid, hmsgid, rfl, rfl⟩ := hm
    exact .filteringcheck hip hport hmsgid
  case callclient =>
    simp only [callclient, completes_throwing_bind, completes_sendRepeatedly] at hm
    obtain ⟨msgid, hmsgid, ip, hip, port, hport, rfl, rfl⟩ := hm
    exact .callclient hmsgid hip hport
  case tickerRes =>
    simp only [tickerRes, completes_throwing_bind, completes_modifyState] at hm
    obtain ⟨msgid, hmsgid, rfl, rfl⟩ := hm
    exact .tickerRes hmsgid

/-- What `Handled` says is what the branches do. -/
theorem dispatch_completes (hn : messageID j = some n) (h : Handled cfg draws seen n j s t b s' o) :
    Completes (dispatch cfg draws seen n j t) s b s' o := by
  have hdone {m : Handler Unit} {s' : Server} {o : List SendTo} (hm : Completes m s () s' o) :
      Completes (m >>= fun _ => pure false) s false s' o :=
    completes_bind.2 ⟨_, _, _, _, hm, completes_pure.2 ⟨rfl, rfl, rfl⟩, (List.append_nil o).symm⟩
  have hn' : (j.sub "nodeID").bind getString = some n := hn
  cases h with
  | detectMapped hdata hmapped htarget hroute =>
    obtain ⟨data, hdata, lip, hlip, text, htext, lport, hport, hp⟩ := detectData_eq_some.1 hdata
    cases hp
    refine hdone ?_
    simp only [detect, hdata, hlip, htext, hport, completes_throwing_bind, Option.some.injEq, exists_eq_left',
      if_pos hmapped, completes_detectMapped]
    exact ⟨_, _, htarget, hroute, rfl, trivial⟩
  | detectPublic hdata hpublic hroute =>
    obtain ⟨data, hdata, lip, hlip, text, htext, lport, hport, hp⟩ := detectData_eq_some.1 hdata
    cases hp
    refine hdone ?_
    simp only [detect, hdata, hlip, htext, hport, completes_throwing_bind, Option.some.injEq, exists_eq_left',
      if_neg hpublic, detectPublic, completes_addNewNode_bind, completes_updateRouteInfo]
    exact ⟨hroute, rfl⟩
  | updateSelf hn => simp [dispatch, hn]
  | update hn hdata hself hown loop =>
    rw [dispatch, if_neg hn]
    refine hdone ?_
    simp only [update, hdata, getself, view_object, hself, hown, completes_throwing_bind, Option.some.injEq,
      exists_eq_left', completes_pure_bind, completes_modifyState_bind, completes_updateLoop]
    exact loop
  | proxyconnect hdata htar hmapping hfiltering =>
    obtain ⟨ip, hip, port, hport, rfl⟩ := firstEndpoint_eq_some.1 htar
    refine hdone ?_
    simp only [proxyconnect, hdata, hip, hport, hmapping, hfiltering, completes_throwing_bind, Option.some.injEq,
      exists_eq_left', completes_sendTo, and_self]
  | helpconnect hdata htar =>
    obtain ⟨ip, hip, port, hport, rfl⟩ := firstEndpoint_eq_some.1 htar
    refine hdone ?_
    simp only [helpconnect, hdata, hip, hport, completes_throwing_bind, Option.some.injEq, exists_eq_left',
      completes_readState_bind, completes_sendRepeatedly, and_self]
  | openChanged hdata hdiff hchange =>
    refine hdone ?_
    simp only [openconnect, hdata, hdiff, hchange, completes_throwing_bind, Option.some.injEq, exists_eq_left',
      if_true, completes_readState_bind]
    -- `addNewNode` on a new id and `setNode` on a known one store alike here
    by_cases hm : n ∈ s.hostList
    · rw [if_pos hm, completes_setNode]
      exact ⟨rfl, rfl⟩
    · rw [if_neg hm, completes_addNewNode, StrMap.insertIfNew_of_notMem _ hm]
      exact ⟨rfl, rfl⟩
  | openSame hdata hdiff =>
    refine hdone ?_
    simp only [openconnect, hdata, hdiff, completes_throwing_bind, Option.some.injEq, exists_eq_left',
      Bool.false_eq_true, if_false, completes_addNewNode, and_self]
  | filteringcheck hip hport hmsgid =>
    refine hdone ?_
    simp only [filteringcheck, hip, hport, hmsgid, completes_throwing_bind, Option.some.injEq, exists_eq_left',
      completes_sendTo, and_self]
  | callclient hmsgid hip hport =>
    refine hdone ?_
    simp only [callclient, hip, hport, hmsgid, completes_throwing_bind, Option.some.injEq, exists_eq_left',
      completes_sendRepeatedly, and_self]
  | callclientRes hip hport hinfo hchange hmsgid hroute =>
    refine hdone ?_
    simp only [callclientRes, hip, hport, hn', hinfo, hchange, hmsgid, completes_throwing_bind, Option.some.injEq,
      exists_eq_left', completes_readState_bind, completes_setNode_bind, completes_modifyState_bind,
      completes_updateRouteInfo]
    exact ⟨hroute, trivial⟩
  | callclientResUnknown hip hport hinfo hroute =>
    refine hdone ?_
    simp only [callclientRes, hip, hport, hn', hinfo, completes_throwing_bind, Option.some.injEq,
      exists_eq_left', completes_readState_bind, completes_updateRouteInfo]
    exact ⟨hroute, trivial⟩
  | ticker hdata hmsgid hnull =>
    refine hdone ?_
    simp only [ticker, hdata, hmsgid, hn', hnull, completes_throwing_bind, Option.some.injEq, exists_eq_left',
      Bool.false_eq_true, not_false_eq_true, if_true, completes_readState_bind]
    by_cases hm : n ∈ s.hostList
    · simp [hm]
    · simp [hm, StrMap.insertIfNew_of_notMem _ hm]
  | tickerEmpty hdata hmsgid =>
    refine hdone ?_
    simp [ticker, hdata, hmsgid, hn']
  | tickerRes hmsgid =>
    refine hdone ?_
    simp [tickerRes, hmsgid]

/-! ## Every datagram -/

/-- A value that is no message of a known type: the handler does nothing with it. -/
structure Skipped (cfg : Config) (seen : Endpoint) (j : Json) : Prop where
  type : (messageType j).bind MsgType.ofText? = none
  run : ∀ draws s, handleJson cfg draws seen j s = ⟨.ok false, s, []⟩

/-- What handling one datagram did. -/
inductive Received (cfg : Config) (draws : Draws) (error : Option ErrorCode) (remote : Endpoint)
    (datagram : List UInt8) (s : Server) : Server → List SendTo → Prop
  | failed (he : ¬ (error = none ∨ error = some .message_size)) :
      Received cfg draws error remote datagram s (arrive datagram s) []
  | ignored (he : error = none ∨ error = some .message_size)
      (hskip : ∀ j, heard cfg remote datagram = some j → Skipped cfg remote j) :
      Received cfg draws error remote datagram s (arrive datagram s).rearm []
  | handled {j n type t b s' o} (he : error = none ∨ error = some .message_size)
      (hheard : heard cfg remote datagram = some j) (hn : messageID j = some n)
      (htype : messageType j = some type) (ht : MsgType.ofText? type = some t)
      (h : Handled cfg draws remote n j (arrive datagram s) t b s' o) :
      Received cfg draws error remote datagram s (if b then s' else s'.rearm) o

theorem completes_handleJson (h : Completes (handleJson cfg draws seen j) s b s' o) :
    Skipped cfg seen j ∨ ∃ n type t, messageID j = some n ∧ messageType j = some type ∧
      MsgType.ofText? type = some t ∧ Handled cfg draws seen n j s t b s' o := by
  rcases hv : j.view with _ | _ | _ | _ | _ | _ | m
  case object =>
    have htype : messageType j = ((m["msgtype"]?).getD null).getString := by
      rw [messageType, eq_of_view hv]
      simp [View.toJson]
    rcases hm : m["msgtype"]? with _ | x
    · exact .inl ⟨by rw [htype, hm]; rfl, fun draws s => by simp only [handleJson, hv, hm]; rfl⟩
    · simp only [handleJson, hv, hm, completes_throwing_bind] at h
      obtain ⟨type, hx, n, hn, h⟩ := h
      have hj : messageType j = some type := by rw [htype, hm, Option.getD_some, hx]
      rcases ht : MsgType.ofText? type with _ | t
      · refine .inl ⟨by rw [hj, Option.bind_some, ht], fun draws s => ?_⟩
        simp only [handleJson, hv, hm, hx, hn, ht, throwing, orFail_some_bind]
        rfl
      · simp only [ht] at h
        exact .inr ⟨n, type, t, hn, hj, ht, completes_dispatch hn h⟩
  all_goals
    refine .inl ⟨?_, fun draws s => by simp only [handleJson, hv]; rfl⟩
    rw [messageType, eq_of_view hv]
    simp [View.toJson, sub]

section
variable {error : Option ErrorCode} {remote : Endpoint} {datagram : List UInt8}

theorem react_failed (he : ¬ (error = none ∨ error = some .message_size)) :
    react cfg (.receive error remote datagram draws) s = ⟨.ok (), arrive datagram s, []⟩ := by
  simp [react, handleReceive, he]

theorem react_dropped (hb : (arrive datagram s).recvBuffer = received datagram)
    (he : error = none ∨ error = some .message_size) (hheard : heard cfg remote datagram = none) :
    react cfg (.receive error remote datagram draws) s = ⟨.ok (), (arrive datagram s).rearm, []⟩ := by
  rw [react, run_modifyState_bind, handleReceive, if_pos he, run_readState_bind, hb]
  by_cases hip : remote.ip ≠ cfg.localIp
  · rw [heard, if_pos hip] at hheard
    rw [if_pos hip, hheard]
    rfl
  · rw [if_neg hip]
    rfl

theorem react_heard (hb : (arrive datagram s).recvBuffer = received datagram)
    (he : error = none ∨ error = some .message_size) (hheard : heard cfg remote datagram = some j) :
    react cfg (.receive error remote datagram draws) s =
      (handleJson cfg draws remote j >>= rearmUnless) (arrive datagram s) := by
  rw [react, run_modifyState_bind, handleReceive, if_pos he, run_readState_bind, hb]
  by_cases hip : remote.ip ≠ cfg.localIp
  · rw [heard, if_pos hip] at hheard
    rw [if_pos hip, hheard]
    rfl
  · rw [heard, if_neg hip] at hheard
    cases hheard

theorem react_skipped (hb : (arrive datagram s).recvBuffer = received datagram)
    (he : error = none ∨ error = some .message_size) (hheard : heard cfg remote datagram = some j)
    (hskip : Skipped cfg remote j) :
    react cfg (.receive error remote datagram draws) s = ⟨.ok (), (arrive datagram s).rearm, []⟩ := by
  rw [react_heard hb he hheard, run_bind, hskip.run]
  rfl

theorem completes_receive (hs : s.receiving = true)
    (h : Completes (react cfg (.receive error remote datagram draws)) s () s' o) :
    Received cfg draws error remote datagram s s' o := by
  by_cases he : error = none ∨ error = some .message_size
  · rcases hheard : heard cfg remote datagram with _ | j
    · rw [Completes, react_dropped (arrive_recvBuffer hs datagram) he hheard] at h
      cases h
      exact .ignored he (by simp [hheard])
    · rw [Completes, react_heard (arrive_recvBuffer hs datagram) he hheard] at h
      obtain ⟨b, s₁, o₁, o₂, h₁, h₂, rfl⟩ := completes_bind.1 h
      obtain ⟨rfl, rfl⟩ := completes_rearmUnless.1 h₂
      rw [List.append_nil]
      rcases completes_handleJson h₁ with hskip | ⟨n, type, t, hn, htype, ht, hh⟩
      · rw [Completes, hskip.run] at h₁
        cases h₁
        exact .ignored he (by simpa [hheard] using hskip)
      · exact .handled he hheard hn htype ht hh
  · rw [Completes, react_failed he] at h
    cases h
    exact .failed he

/-- A receive brings no message of a known type and leaves the tables alone, or
it is the handling of the one it brings. -/
theorem receive_cases (hs : s.receiving = true)
    (h : Completes (react cfg (.receive error remote datagram draws)) s () s' o) :
    ((∀ t n j, ¬ Event.Carries cfg t n j (.receive error remote datagram draws)) ∧
        (s' = arrive datagram s ∨ s' = (arrive datagram s).rearm)) ∨
      ∃ t n j b s₁, Event.Carries cfg t n j (.receive error remote datagram draws) ∧
        Handled cfg draws remote n j (arrive datagram s) t b s₁ o ∧ s' = if b then s₁ else s₁.rearm := by
  cases completes_receive hs h with
  | failed he =>
    refine .inl ⟨fun t n j hc => ?_, .inl rfl⟩
    cases hc with
    | intro he' => exact he he'
  | ignored he hskip =>
    refine .inl ⟨fun t n j hc => ?_, .inr rfl⟩
    cases hc with
    | intro _ hheard htype =>
      have hnone := (hskip j hheard).type
      rw [htype, Option.bind_some, MsgType.ofText?_text] at hnone
      cases hnone
  | @handled j n type t b s₁ _ he hheard hn htype ht hh =>
    obtain rfl := MsgType.ofText?_eq_some.1 ht
    exact .inr ⟨t, n, j, b, s₁, .intro he hheard htype hn, hh, rfl⟩

/-- An event that brings a message of a known type is the handling of it. -/
theorem completes_carried {event : Event} (hs : event.enabled s) (hc : event.Carries cfg t n j)
    (h : Completes (react cfg event) s () s' o) :
    ∃ error remote datagram draws b s₁, event = .receive error remote datagram draws ∧
      Handled cfg draws remote n j (arrive datagram s) t b s₁ o ∧ s' = if b then s₁ else s₁.rearm := by
  cases event with
  | timer now => cases hc
  | receive error remote datagram draws =>
    rcases receive_cases hs h with ⟨hnone, -⟩ | ⟨t', n', j', b, s₁, hc', hh, hend⟩
    · exact absurd hc (hnone t n j)
    · obtain ⟨rfl, rfl, rfl⟩ := hc.unique hc'
      exact ⟨_, _, _, _, b, s₁, rfl, hh, hend⟩

/-- A message of a known type with a string `nodeID` is handled. -/
theorem handleJson_eq {type : String} (hn : messageID j = some n) (htype : messageType j = some type)
    (ht : MsgType.ofText? type = some t) : handleJson cfg draws remote j = dispatch cfg draws remote n j t := by
  obtain ⟨x, hx, hxt⟩ := Option.bind_eq_some_iff.1 htype
  have hne : x ≠ null := by rintro rfl; cases hxt
  obtain ⟨m, rfl, hm⟩ := sub_eq_some hx hne
  have hn' : ((object m).sub "nodeID").bind getString = some n := hn
  simp only [handleJson, view_object, hm, hxt, hn', throwing, orFail_some_bind, ht]

theorem receive_completes {type : String} (hb : (arrive datagram s).recvBuffer = received datagram)
    (he : error = none ∨ error = some .message_size) (hheard : heard cfg remote datagram = some j)
    (hn : messageID j = some n) (htype : messageType j = some type) (ht : MsgType.ofText? type = some t)
    (h : Handled cfg draws remote n j (arrive datagram s) t b s' o) :
    Completes (react cfg (.receive error remote datagram draws)) s () (if b then s' else s'.rearm) o := by
  rw [Completes, react_heard hb he hheard, handleJson_eq hn htype ht]
  exact completes_bind.2 ⟨b, s', o, [], dispatch_completes hn h, completes_rearmUnless.2 ⟨rfl, rfl⟩,
    (List.append_nil o).symm⟩

end

end NatServer
