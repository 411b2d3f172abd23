import NatServer.Server.Handled
import NatServer.Json.Length
/-!
# Messages on the wire

What a server sends is the text of a JSON object; it reaches the receiver as
its UTF-8 bytes. A text that fits the buffer is read back, whatever the buffer
was used for before; one that does not fit is cut, and what is left is not
accepted.
-/

namespace NatServer

open Json

/-- The bytes of `buffer(msg)`. -/
def wire (msg : String) : List UInt8 := msg.toList.flatMap String.utf8EncodeChar

theorem toByteArray_wire (msg : String) : (wire msg).toByteArray = msg.toByteArray := by
  rw [← @String.ofList_toList msg, String.toByteArray_ofList, List.utf8Encode, wire, String.toList_ofList]

theorem wire_dump (j : Json) : wire j.dump = j.val.dump.flatMap String.utf8EncodeChar := by
  rw [wire, dump, String.toList_ofList]

/-- A text has a byte or more, and four at most, for each character. -/
theorem length_wire (j : Json) :
    j.val.dump.length ≤ (wire j.dump).length ∧ (wire j.dump).length ≤ 4 * j.val.dump.length := by
  have hflat (l : List Char) : l.length ≤ (l.flatMap String.utf8EncodeChar).length ∧
      (l.flatMap String.utf8EncodeChar).length ≤ 4 * l.length := by
    induction l with
    | nil => simp
    | cons c l ih =>
      have hpos := c.utf8Size_pos
      have hmax := c.utf8Size_le_four
      simp only [List.flatMap_cons, List.length_append, List.length_cons, String.length_utf8EncodeChar]
      omega
  rw [wire_dump]
  exact hflat _

theorem wire_append (s t : String) : wire (s ++ t) = wire s ++ wire t := by
  simp [wire]

theorem wire_inj {s t : String} (h : wire s = wire t) : s = t := by
  rw [← String.toByteArray_inj, ← toByteArray_wire, h, toByteArray_wire]

theorem fromUTF8?_wire (msg : String) : String.fromUTF8? (wire msg).toByteArray = some msg := by
  rw [toByteArray_wire, String.fromUTF8?, dif_pos msg.isValidUTF8]
  rfl

theorem wire_of_fromUTF8? {bytes : List UInt8} {s : String} (h : String.fromUTF8? bytes.toByteArray = some s) :
    wire s = bytes := by
  rw [String.fromUTF8?] at h
  split at h
  · cases h
    have h : (wire (String.fromUTF8 bytes.toByteArray ‹_›)).toByteArray = bytes.toByteArray := toByteArray_wire _
    simpa using congrArg (fun b => b.data.toList) h
  · cases h

/-- A text whose bytes begin another text begins that text. -/
theorem exists_append_of_wire {s p : String} {rest : List UInt8} (h : wire p ++ rest = wire s) :
    ∃ t, s = p ++ t ∧ wire t = rest := by
  have hbytes : s.toByteArray = p.toByteArray ++ rest.toByteArray := by
    rw [← toByteArray_wire, ← toByteArray_wire, ← h, List.toByteArray_append]
  have hvalid : p.rawEndPos.IsValid s := by
    refine String.Pos.Raw.isValid_iff_isValidUTF8_extract_zero.2 ⟨?_, ?_⟩
    · simp [String.Pos.Raw.le_iff, ← String.size_toByteArray, hbytes]
    · simp only [hbytes, String.byteIdx_rawEndPos, ← String.size_toByteArray]
      rw [ByteArray.extract_append_eq_left rfl]
      exact p.isValidUTF8
  obtain ⟨p', t, rfl, hp⟩ := String.Pos.Raw.isValid_iff_exists_append.1 hvalid
  have hlen : (wire p').length = (wire p).length := by
    have hsize : p'.toByteArray.size = p.toByteArray.size := by
      simpa [String.size_toByteArray] using (congrArg String.Pos.Raw.byteIdx hp).symm
    simpa [← toByteArray_wire] using hsize
  rw [wire_append] at h
  obtain ⟨h1, h2⟩ := List.append_inj h hlen.symm
  exact ⟨t, by rw [wire_inj h1], h2.symm⟩

/-- Only the NUL character has a zero byte. -/
theorem utf8EncodeChar_ne_zero {c : Char} (hc : 0x20 ≤ c.toNat) : ∀ b ∈ String.utf8EncodeChar c, b ≠ 0 := by
  have h (n : Nat) (hn : n % 256 ≠ 0) : UInt8.ofNat n ≠ 0 := by
    intro h0
    have := congrArg UInt8.toNat h0
    simp only [UInt8.toNat_ofNat', UInt8.toNat_zero] at this
    omega
  have hv : 0x20 ≤ c.val.toNat := hc
  unfold String.utf8EncodeChar
  intro b hb
  simp only at hb
  split_ifs at hb <;> simp only [List.mem_cons, List.not_mem_nil, or_false] at hb
  · rw [hb]
    exact h _ (by omega)
  · rcases hb with rfl | rfl <;> exact h _ (by omega)
  · rcases hb with rfl | rfl | rfl <;> exact h _ (by omega)
  · rcases hb with rfl | rfl | rfl | rfl <;> exact h _ (by omega)

theorem wire_printable {s : String} (h : Printable s.toList) : ∀ b ∈ wire s, b ≠ 0 := by
  intro b hb
  obtain ⟨c, hc, hb⟩ := List.mem_flatMap.1 hb
  exact utf8EncodeChar_ne_zero (h c hc) b hb

theorem printable_text (j : Json) : Printable j.dump.toList := by
  rw [dump, String.toList_ofList]
  exact printable_dump j.val

/-- The text a buffer holds, of bytes none of which is zero. -/
theorem bufferText_of_ne_zero {bytes : List UInt8} (h : ∀ b ∈ bytes, b ≠ 0) (k : Nat) :
    bufferText (bytes ++ List.replicate k 0) = String.fromUTF8? bytes.toByteArray := by
  rw [bufferText, List.takeWhile_append_of_pos (by simpa using h)]
  cases k <;> simp [List.replicate_succ]

/-- The bytes of a text that fits are followed by the zeros of the buffer, the
others fill it. -/
theorem received_eq (bytes : List UInt8) :
    received bytes = bytes.take bufferSize ++ List.replicate (bufferSize - bytes.length) 0 := by
  simp [received, emptyBuffer]

/-- No proper prefix of an object's text is accepted, wherever the text is cut. -/
theorem recvJson?_take {m : StrMap Json} {k : Nat} (h : k < (wire (object m).dump).length) (n : Nat) :
    recvJson? ((wire (object m).dump).take k ++ List.replicate n 0) = none := by
  have hnz : ∀ b ∈ (wire (object m).dump).take k, b ≠ 0 := fun b hb =>
    wire_printable (printable_text _) b (List.mem_of_mem_take hb)
  rw [recvJson?, bufferText_of_ne_zero hnz]
  -- a cut inside a character leaves no text, one between two leaves an object that is not closed
  rcases hp : String.fromUTF8? ((wire (object m).dump).take k).toByteArray with _ | p
  · rfl
  obtain ⟨t, ht, hrest⟩ := exists_append_of_wire (p := p) (s := (object m).dump)
    (by rw [wire_of_fromUTF8? hp, List.take_append_drop])
  have hchars : p.toList ++ t.toList = (object m).val.dump := by
    rw [← String.toList_append, ← ht, dump, String.toList_ofList]
  have hne : t.toList ≠ [] := by
    rintro h0
    have : wire t = [] := by rw [wire, h0]; rfl
    rw [this, eq_comm, List.drop_eq_nil_iff] at hrest
    omega
  have hprint : Printable p.toList := (printable_append.1 (hchars ▸ printable_dump (object m).val)).1
  have hinput : inputOf p.toList = p.toList := by
    unfold inputOf
    rw [takeWhile_printable hprint]
    split
    · next cs e =>
      obtain ⟨body, hb⟩ := Value.dump_object (m.toList.map fun q => (q.1, q.2.val))
      rw [e, object, hb] at hchars
      cases hchars
    · rfl
  rw [Option.bind_some, parse, hinput, run_cut hchars hne]

/-- A text with all its bytes is read back, however many zeros follow. -/
theorem recvJson?_append (j : Json) (n : Nat) : recvJson? (wire j.dump ++ List.replicate n 0) = some j := by
  rw [recvJson?, bufferText_of_ne_zero (wire_printable (printable_text j)), fromUTF8?_wire, Option.bind_some,
    parse_dump]

/-- A message that fits the buffer is read back. -/
theorem recvJson?_wire {j : Json} (h : (wire j.dump).length ≤ bufferSize) :
    recvJson? (received (wire j.dump)) = some j := by
  rw [received_eq, List.take_of_length_le h, recvJson?_append]

/-- An object that does not fit is not accepted. -/
theorem recvJson?_cut {m : StrMap Json} (h : bufferSize < (wire (object m).dump).length) :
    recvJson? (received (wire (object m).dump)) = none := by
  rw [received_eq, recvJson?_take h]

/-- Of a datagram that begins the text of an object, with any zeros after it,
the receiver accepts the whole object or nothing: never a shorter one. -/
theorem recvJson?_take_iff (m : StrMap Json) (k n : Nat) (j : Json) :
    recvJson? ((wire (object m).dump).take k ++ List.replicate n 0) = some j ↔
      (wire (object m).dump).length ≤ k ∧ j = object m := by
  rcases Nat.lt_or_ge k (wire (object m).dump).length with hlt | hge
  · rw [recvJson?_take hlt]
    exact iff_of_false (fun h => nomatch h) fun h => absurd hlt (Nat.not_lt.2 h.1)
  · rw [List.take_of_length_le hge, recvJson?_append]
    exact ⟨fun h => ⟨hge, (Option.some.inj h).symm⟩, fun h => congrArg some h.2.symm⟩

theorem heard_wire {cfg : Config} {remote : Endpoint} {j : Json} (hip : remote.ip ≠ cfg.localIp)
    (h : (wire j.dump).length ≤ bufferSize) : heard cfg remote (wire j.dump) = some j := by
  rw [heard, if_pos hip, recvJson?_wire h]

/-- What is heard of an object that was sent is that object. -/
theorem eq_of_heard_wire {cfg : Config} {remote : Endpoint} {m : StrMap Json} {j : Json}
    (h : heard cfg remote (wire (object m).dump) = some j) : j = object m := by
  rw [heard] at h
  split at h
  · by_cases hlen : (wire (object m).dump).length ≤ bufferSize
    · rw [recvJson?_wire hlen] at h
      exact (Option.some.inj h).symm
    · rw [recvJson?_cut (Nat.lt_of_not_le hlen)] at h
      cases h
  · cases h

/-! ## The messages a server sends

Each is an object with the server's id and one `msgtype`. -/

/-- A message `j` of type `t` from the node `n`. -/
structure IsMessage (j : Json) (t : MsgType) (n : String) : Prop where
  object : ∃ m, j = object m
  type : messageType j = some t.text
  id : messageID j = some n

/-- What is sent is a message of the type `t`. -/
def SendTo.IsType (x : SendTo) (t : MsgType) : Prop := ∃ j n, IsMessage j t n ∧ x.msg = j.dump

theorem SendTo.IsType.unique {x : SendTo} {t t' : MsgType} (h : x.IsType t) (h' : x.IsType t') : t = t' := by
  obtain ⟨j, _, hj, hmsg⟩ := h
  obtain ⟨j', _, hj', hmsg'⟩ := h'
  obtain rfl := dump_inj (hmsg.symm.trans hmsg')
  exact MsgType.text_inj (Option.some.inj (hj.type.symm.trans hj'.type))

section
variable (cfg : Config)

theorem isMessage_obj {l : List (String × Json)} {t : MsgType} {n : String}
    (ht : l.lookup "msgtype" = some (.string t.text)) (hn : l.lookup "nodeID" = some (.string n)) :
    IsMessage (.obj l) t n :=
  ⟨⟨_, rfl⟩, by simp [messageType, ht], by simp [messageID, hn]⟩

theorem isMessage_update (hostList : StrMap String) : IsMessage (updateMsg cfg hostList) .update cfg.nodeID :=
  isMessage_obj (by simp [MsgType.text]) (by simp [List.lookup_cons])

theorem routeUpdate_isType {hostList : StrMap String} {o : List SendTo} (h : routeUpdate cfg hostList = some o) :
    ∀ x ∈ o, x.IsType .update := fun x hx => ⟨_, _, isMessage_update cfg hostList, notifications_msg h x hx⟩

theorem isMessage_data (t : MsgType) (data : Json) : IsMessage (dataMsg cfg t.text data) t cfg.nodeID :=
  isMessage_obj (by simp) (by simp [List.lookup_cons])

theorem isMessage_filteringcheck (seen : Endpoint) (msgID : String) :
    IsMessage (filteringcheckMsg cfg seen msgID) .filteringcheck cfg.nodeID :=
  isMessage_obj (by simp [MsgType.text]) (by simp [List.lookup_cons])

theorem isMessage_callclient (seen : Endpoint) (ip : String) (port : UInt16) (msgid : String) :
    IsMessage (callclientMsg cfg seen ip port msgid) .callclient cfg.nodeID :=
  isMessage_obj (by simp [MsgType.text]) (by simp [List.lookup_cons])

theorem isMessage_callclientRes (seen : Endpoint) (msgid : String) :
    IsMessage (callclientResMsg cfg seen msgid) .callclientRes cfg.nodeID :=
  isMessage_obj (by simp [MsgType.text]) (by simp [List.lookup_cons])

theorem isMessage_ticker (localEpInfo : Json) : IsMessage (tickerMsg cfg localEpInfo) .ticker cfg.nodeID :=
  isMessage_obj (by simp [MsgType.text]) (by simp [List.lookup_cons])

theorem isMessage_tickerRes (msgid : String) : IsMessage (tickerResMsg cfg msgid) .tickerRes cfg.nodeID :=
  isMessage_obj (by simp [MsgType.text]) (by simp [List.lookup_cons])

theorem isMessage_detect (localPort : String) : IsMessage (detectMsg cfg localPort) .detect cfg.nodeID :=
  isMessage_obj (by simp [List.lookup_cons, MsgType.text]) (by simp)

@[simp] theorem data_updateMsg (hostList : StrMap String) :
    (updateMsg cfg hostList).sub "data" = some (.object (hostList.map fun _ info => .string info)) := by
  simp [updateMsg, List.lookup_cons]

@[simp] theorem data_dataMsg (type : String) (data : Json) : (dataMsg cfg type data).sub "data" = some data := by
  simp [dataMsg, List.lookup_cons]

@[simp] theorem data_tickerMsg (localEpInfo : Json) :
    (tickerMsg cfg localEpInfo).sub "data" = some localEpInfo := by
  simp [tickerMsg, List.lookup_cons]

@[simp] theorem msgid_tickerMsg (localEpInfo : Json) :
    ((tickerMsg cfg localEpInfo).sub "msgid").bind getString = some "" := by
  simp [tickerMsg, List.lookup_cons]

@[simp] theorem msgid_tickerResMsg (msgid : String) :
    ((tickerResMsg cfg msgid).sub "msgid").bind getString = some msgid := by
  simp [tickerResMsg, List.lookup_cons]

@[simp] theorem msgid_callclientResMsg (seen : Endpoint) (msgid : String) :
    ((callclientResMsg cfg seen msgid).sub "msgid").bind getString = some msgid := by
  simp [callclientResMsg, List.lookup_cons]

@[simp] theorem ip_callclientResMsg (seen : Endpoint) (msgid : String) :
    ((callclientResMsg cfg seen msgid).sub "ip").bind getString = some seen.ip := by
  simp [callclientResMsg, List.lookup_cons]

@[simp] theorem port_callclientResMsg (seen : Endpoint) (msgid : String) :
    ((callclientResMsg cfg seen msgid).sub "port").bind getUShort = some seen.port := by
  simp [callclientResMsg, List.lookup_cons]

@[simp] theorem ip_filteringcheckMsg (seen : Endpoint) (msgID : String) :
    ((filteringcheckMsg cfg seen msgID).sub "ip").bind getString = some seen.ip := by
  simp [filteringcheckMsg, List.lookup_cons]

@[simp] theorem port_filteringcheckMsg (seen : Endpoint) (msgID : String) :
    ((filteringcheckMsg cfg seen msgID).sub "port").bind getUShort = some seen.port := by
  simp [filteringcheckMsg, List.lookup_cons]

@[simp] theorem msgid_filteringcheckMsg (seen : Endpoint) (msgID : String) :
    ((filteringcheckMsg cfg seen msgID).sub "msgid").bind getString = some msgID := by
  simp [filteringcheckMsg, List.lookup_cons]

@[simp] theorem originip_callclientMsg (seen : Endpoint) (ip : String) (port : UInt16) (msgid : String) :
    ((callclientMsg cfg seen ip port msgid).sub "originip").bind getString = some seen.ip := by
  simp [callclientMsg, List.lookup_cons]

@[simp] theorem originport_callclientMsg (seen : Endpoint) (ip : String) (port : UInt16) (msgid : String) :
    ((callclientMsg cfg seen ip port msgid).sub "originport").bind getUShort = some seen.port := by
  simp [callclientMsg, List.lookup_cons]

@[simp] theorem msgid_callclientMsg (seen : Endpoint) (ip : String) (port : UInt16) (msgid : String) :
    ((callclientMsg cfg seen ip port msgid).sub "msgid").bind getString = some msgid := by
  simp [callclientMsg, List.lookup_cons]

/-- The server reads from a detect what the node put there. -/
theorem detectData_detectMsg [Boost] {text : String} {port : UInt16} (h : Boost.lexical_cast text = some port) :
    detectData (detectMsg cfg text) = some (cfg.localIp, port) := by
  simp [detectData, detectMsg, List.lookup_cons, h]

end

end NatServer
