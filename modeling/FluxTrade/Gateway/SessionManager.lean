import FluxTrade.Gateway.Protocol
import FluxTrade.Exchange.Messages

/-!
# Sessions

`SessionManager` keeps the connections in the first slots of a table; a removed
connection is overwritten by the last one. Only the slots in use are kept here:
the source overwrites a slot before it takes it into use. Each connection has a
framing buffer of fixed size, in which stale bytes stay behind the received ones.
-/

namespace FluxTrade

/-- `ClientConnection::BUFFER_SIZE`. -/
def bufferSize : Nat := 8192

/-- The framing buffer of a connection, of which the first `len` bytes are received ones. -/
structure ReadBuffer where
  bytes : List UInt8
  len : Nat
  bytes_length : bytes.length = bufferSize
  len_le : len ≤ bufferSize
  deriving DecidableEq

namespace ReadBuffer

/-- An empty buffer. -/
def new : ReadBuffer := ⟨List.replicate bufferSize 0, 0, List.length_replicate, Nat.zero_le _⟩

/-- The received bytes that are not processed yet. -/
def pending (buffer : ReadBuffer) : List UInt8 := buffer.bytes.take buffer.len

/-- `memcpy` of received data behind the pending bytes. -/
def append (buffer : ReadBuffer) (data : List UInt8)
    (room : buffer.len + data.length ≤ bufferSize) : ReadBuffer where
  bytes := buffer.bytes.take buffer.len ++ data ++ buffer.bytes.drop (buffer.len + data.length)
  len := buffer.len + data.length
  bytes_length := by
    rw [List.length_append, List.length_append, List.length_take, List.length_drop,
      buffer.bytes_length]
    omega
  len_le := room

/-- Processed bytes leave; `memmove` brings the residual ones to the front. -/
def shift (buffer : ReadBuffer) (processed : Nat) : ReadBuffer :=
  if processed = 0 then buffer
  else if processed < buffer.len then
    { bytes := (buffer.bytes.drop processed).take (buffer.len - processed) ++
        buffer.bytes.drop (buffer.len - processed)
      len := buffer.len - processed
      bytes_length := by
        have bound := buffer.len_le
        rw [List.length_append, List.length_take, List.length_drop, List.length_drop,
          buffer.bytes_length]
        omega
      len_le := Nat.le_trans (Nat.sub_le _ _) buffer.len_le }
  else { buffer with len := 0, len_le := Nat.zero_le _ }

/-- The buffer counts its bytes. -/
theorem pending_length (buffer : ReadBuffer) : buffer.pending.length = buffer.len := by
  have bound := buffer.len_le
  rw [pending, List.length_take, buffer.bytes_length]
  omega

/-- Bytes are appended. -/
theorem pending_append (buffer : ReadBuffer) {data : List UInt8}
    (room : buffer.len + data.length ≤ bufferSize) :
    (buffer.append data room).pending = buffer.pending ++ data := by
  have length : (buffer.bytes.take buffer.len ++ data).length = buffer.len + data.length := by
    rw [List.length_append]
    exact congrArg (· + data.length) buffer.pending_length
  change (buffer.bytes.take buffer.len ++ data ++ _).take (buffer.len + data.length) = _
  rw [List.take_left' length]
  rfl

/-- Bytes are dropped. -/
theorem pending_shift (buffer : ReadBuffer) (processed : Nat) :
    (buffer.shift processed).pending = buffer.pending.drop processed := by
  unfold shift
  split
  · rename_i none
    rw [none, List.drop_zero]
  · split
    · have length : ((buffer.bytes.drop processed).take (buffer.len - processed)).length =
          buffer.len - processed := by
        have room := buffer.len_le
        rw [List.length_take, List.length_drop, buffer.bytes_length]
        omega
      change List.take (buffer.len - processed) (_ ++ _) = _
      rw [List.take_left' length, pending, List.drop_take]
    · have all : buffer.pending.length ≤ processed := by
        rw [pending_length]
        omega
      rw [List.drop_eq_nil_of_le all]
      rfl

end ReadBuffer

/-- `ClientConnection`. -/
structure ClientConnection where
  connId : ConnId := -1
  clientId : UInt32 := 0
  accountId : UInt32 := 0
  authenticated : Bool := false
  lastHeartbeatTs : UInt64 := 0
  nextInboundSeq : UInt64 := 1
  nextOutboundSeq : UInt64 := 1
  buffer : ReadBuffer := .new
  deriving DecidableEq

/-- `SessionManager`: the connections in the slots below `active_count_`. -/
structure SessionManager where
  connections : List ClientConnection
  deriving DecidableEq

namespace SessionManager

/-- `MAX_CONNECTIONS`. -/
def maxConnections : Nat := 64

/-- A table without sessions. -/
def new : SessionManager := ⟨[]⟩

/-- The first slot with the identifier, past the last one in use when there is none. -/
def slot (sessions : SessionManager) (connId : ConnId) : Nat :=
  sessions.connections.findIdx fun conn => conn.connId == connId

/-- `get_connection`. -/
def getConnection (sessions : SessionManager) (connId : ConnId) : Option ClientConnection :=
  sessions.connections[sessions.slot connId]?

/-- A write through the pointer that `get_connection` returned. -/
def modify (sessions : SessionManager) (connId : ConnId)
    (update : ClientConnection → ClientConnection) : SessionManager :=
  ⟨sessions.connections.modify (sessions.slot connId) update⟩

/-- `create_connection`. -/
def createConnection (sessions : SessionManager) (connId : ConnId) : SessionManager :=
  if maxConnections ≤ sessions.connections.length then sessions
  else
    match sessions.getConnection connId with
    | some _ => sessions
    | none => ⟨sessions.connections ++ [{ connId }]⟩

/-- `remove_connection`: the last connection takes the place of the removed one. -/
def removeConnection (sessions : SessionManager) (connId : ConnId) : SessionManager :=
  let slot := sessions.slot connId
  match sessions.connections.getLast? with
  | none => sessions
  | some last =>
    if slot < sessions.connections.length then
      ⟨(if slot ≠ sessions.connections.length - 1 then sessions.connections.set slot last
        else sessions.connections).dropLast⟩
    else sessions

/-- `authenticate`: user name and password must not be empty strings. -/
def authenticate (sessions : SessionManager) (connId : ConnId) (clientId accountId : UInt32)
    (username password : Vector UInt8 16) : Bool × SessionManager :=
  match sessions.getConnection connId with
  | none => (false, sessions)
  | some _ =>
    if username[0] = 0 ∨ password[0] = 0 then (false, sessions)
    else
      (true, sessions.modify connId fun conn =>
        { conn with clientId, accountId, authenticated := true, lastHeartbeatTs := 0 })

/-! ## The table -/

section

variable {sessions : SessionManager} {connId : ConnId} {conn : ClientConnection}
  {update : ClientConnection → ClientConnection}

/-- Writes that keep the identifiers keep every connection in its slot. -/
theorem slot_modify (keeps : ∀ conn, (update conn).connId = conn.connId) (other : ConnId) :
    (sessions.modify connId update).slot other = sessions.slot other := by
  suffices same : ∀ index,
      (sessions.connections.modify index update).findIdx (fun conn => conn.connId == other) =
        sessions.connections.findIdx fun conn => conn.connId == other from same _
  intro index
  induction sessions.connections generalizing index with
  | nil => cases index <;> rfl
  | cons first rest ih =>
    cases index with
    | zero => simp only [List.modify_zero_cons, List.findIdx_cons, keeps]
    | succ index => simp only [List.modify_succ_cons, List.findIdx_cons, ih]

/-- A write is seen through its own identifier. -/
theorem getConnection_modify (keeps : ∀ conn, (update conn).connId = conn.connId) :
    (sessions.modify connId update).getConnection connId =
      (sessions.getConnection connId).map update := by
  rw [getConnection, slot_modify keeps, modify]
  change (List.modify _ _ _)[_]? = _
  rw [List.getElem?_modify_eq]
  rfl

/-- Two writes through one identifier are one. -/
theorem modify_modify {later : ClientConnection → ClientConnection}
    (keeps : ∀ conn, (update conn).connId = conn.connId) :
    (sessions.modify connId update).modify connId later =
      sessions.modify connId (later ∘ update) := by
  rw [modify, slot_modify keeps, modify, modify, List.modify_modify_eq]

/-- A write of what is there changes nothing. -/
theorem modify_eq_self (found : sessions.getConnection connId = some conn)
    (same : update conn = conn) : sessions.modify connId update = sessions := by
  unfold modify
  congr 1
  refine List.ext_getElem? fun index => ?_
  rw [List.getElem?_modify]
  by_cases here : sessions.slot connId = index
  · simp only [here, if_true]
    rw [← here]
    change update <$> sessions.getConnection connId = sessions.getConnection connId
    rw [found]
    exact congrArg some same
  · simp only [here, if_false]
    exact id_map _

/-- Writes beside the buffer leave every buffer alone. -/
theorem buffer_modify (keeps : ∀ conn, (update conn).connId = conn.connId)
    (beside : ∀ conn, (update conn).buffer = conn.buffer) (other : ConnId) :
    ((sessions.modify connId update).getConnection other).map ClientConnection.buffer =
      (sessions.getConnection other).map ClientConnection.buffer := by
  rw [getConnection, slot_modify keeps, modify]
  change ((List.modify _ _ _)[_]?).map _ = (sessions.connections[_]?).map _
  rw [List.getElem?_modify]
  cases sessions.connections[sessions.slot other]? with
  | none => rfl
  | some conn =>
    by_cases same : sessions.slot connId = sessions.slot other
    · simp [same, beside]
    · simp [same]

/-- The table finds the first connection with the identifier. -/
theorem getConnection_eq_find (sessions : SessionManager) (connId : ConnId) :
    sessions.getConnection connId =
      sessions.connections.find? fun conn => conn.connId == connId :=
  (List.find?_eq_getElem?_findIdx).symm

/-- The entry found is the one asked for. -/
theorem connId_of_getConnection (found : sessions.getConnection connId = some conn) :
    conn.connId = connId := by
  rw [getConnection_eq_find] at found
  simpa using List.find?_some found

/-- A write is not seen through other identifiers. -/
theorem getConnection_modify_of_ne (keeps : ∀ conn, (update conn).connId = conn.connId)
    {other : ConnId} (apart : other ≠ connId) :
    (sessions.modify connId update).getConnection other = sessions.getConnection other := by
  rw [getConnection, slot_modify keeps, modify]
  change (List.modify _ _ _)[_]? = sessions.connections[_]?
  rw [List.getElem?_modify]
  by_cases same : sessions.slot connId = sessions.slot other
  · -- One slot would hold a connection with two identifiers.
    cases found : sessions.connections[sessions.slot other]? with
    | none => rfl
    | some conn =>
      have here : sessions.getConnection connId = some conn := by
        rw [getConnection, same, found]
      have there : sessions.getConnection other = some conn := found
      exact absurd ((connId_of_getConnection there).symm.trans (connId_of_getConnection here)) apart
  · simp [same]

/-! ## Distinct identifiers -/

/-- No two connections of the table have one identifier. -/
def Distinct (sessions : SessionManager) : Prop :=
  (sessions.connections.map ClientConnection.connId).Nodup

/-- Where identifiers are distinct, the table finds every connection in it. -/
theorem Distinct.getConnection_iff (distinct : sessions.Distinct) :
    sessions.getConnection connId = some conn ↔
      conn ∈ sessions.connections ∧ conn.connId = connId := by
  constructor
  · intro found
    refine ⟨?_, connId_of_getConnection found⟩
    rw [getConnection_eq_find] at found
    exact List.mem_of_find?_eq_some found
  · rintro ⟨member, rfl⟩
    cases found : sessions.getConnection conn.connId with
    | none =>
      rw [getConnection_eq_find, List.find?_eq_none] at found
      exact absurd (beq_self_eq_true conn.connId) (found conn member)
    | some first =>
      have same := connId_of_getConnection found
      rw [getConnection_eq_find] at found
      have listed := List.mem_of_find?_eq_some found
      rw [List.inj_on_of_nodup_map distinct listed member same]

/-- A write keeps the ids distinct. -/
theorem Distinct.modify (distinct : sessions.Distinct)
    (keeps : ∀ conn, (update conn).connId = conn.connId) :
    (sessions.modify connId update).Distinct := by
  have same : (sessions.connections.modify (sessions.slot connId) update).map
      ClientConnection.connId = sessions.connections.map ClientConnection.connId := by
    apply List.ext_getElem?
    intro index
    rw [List.getElem?_map, List.getElem?_map, List.getElem?_modify]
    cases sessions.connections[index]? with
    | none => rfl
    | some conn =>
      by_cases here : sessions.slot connId = index
      · simp [here, keeps]
      · simp [here]
  unfold Distinct SessionManager.modify
  rw [same]
  exact distinct

/-- `remove_connection` takes one connection out of the table; the others may move. -/
theorem removeConnection_perm (sessions : SessionManager) (connId : ConnId) :
    (sessions.removeConnection connId).connections.Perm
      (sessions.connections.eraseIdx (sessions.slot connId)) := by
  unfold removeConnection
  rcases List.eq_nil_or_concat sessions.connections with empty | ⟨front, last, whole⟩
  · simp [empty]
  · rw [List.concat_eq_append] at whole
    rw [whole, List.getLast?_concat]
    by_cases inside : sessions.slot connId < (front ++ [last]).length
    · dsimp only
      rw [if_pos inside]
      rw [List.length_append, List.length_singleton] at inside ⊢
      by_cases moved : sessions.slot connId = front.length
      · rw [if_neg (by omega), List.dropLast_concat, moved, List.eraseIdx_append_of_length_le
          (Nat.le_refl _), Nat.sub_self]
        simp
      · have early : sessions.slot connId < front.length := by omega
        rw [if_pos (by omega), List.set_append_left _ _ early, List.dropLast_concat,
          List.eraseIdx_append_of_lt_length early]
        exact (List.set_perm_cons_eraseIdx early last).trans (List.perm_append_singleton _ _).symm
    · dsimp only
      rw [if_neg inside, whole, List.eraseIdx_of_length_le (Nat.le_of_not_lt inside)]

/-- So does a removal. -/
theorem Distinct.removeConnection (distinct : sessions.Distinct) (connId : ConnId) :
    (sessions.removeConnection connId).Distinct := by
  have fewer := (List.eraseIdx_sublist sessions.connections (sessions.slot connId)).map
    ClientConnection.connId
  exact ((sessions.removeConnection_perm connId).map _).nodup_iff.mpr (distinct.sublist fewer)

/-- Where identifiers are distinct, exactly the connections with other identifiers stay. -/
theorem Distinct.mem_removeConnection (distinct : sessions.Distinct) :
    conn ∈ (sessions.removeConnection connId).connections ↔
      conn ∈ sessions.connections ∧ conn.connId ≠ connId := by
  rw [(sessions.removeConnection_perm connId).mem_iff, slot]
  unfold Distinct at distinct
  generalize sessions.connections = connections at distinct ⊢
  induction connections with
  | nil => simp
  | cons first rest ih =>
    obtain ⟨fresh, others⟩ := List.nodup_cons.mp distinct
    rw [List.findIdx_cons]
    by_cases here : first.connId = connId
    · have kept : conn ∈ rest → conn.connId ≠ connId := by
        rintro member rfl
        exact fresh (here ▸ List.mem_map_of_mem member)
      simp only [here, beq_self_eq_true, cond_true, List.eraseIdx_cons_zero, List.mem_cons]
      constructor
      · exact fun member => ⟨.inr member, kept member⟩
      · rintro ⟨rfl | member, apart⟩
        · exact absurd here apart
        · exact member
    · simp only [beq_eq_false_iff_ne.mpr here, cond_false, List.eraseIdx_cons_succ, List.mem_cons,
        ih others]
      constructor
      · rintro (rfl | ⟨member, apart⟩)
        · exact ⟨.inl rfl, here⟩
        · exact ⟨.inr member, apart⟩
      · rintro ⟨rfl | member, apart⟩
        · exact .inl rfl
        · exact .inr ⟨member, apart⟩

/-- The removed connection is not found any more, and every other one still is. -/
theorem Distinct.getConnection_removeConnection (distinct : sessions.Distinct)
    (other : ConnId) : (sessions.removeConnection connId).getConnection other =
      if other = connId then none else sessions.getConnection other := by
  ext conn
  rw [(distinct.removeConnection connId).getConnection_iff, distinct.mem_removeConnection]
  by_cases same : other = connId
  · simp only [same, if_true, reduceCtorEq, iff_false]
    exact fun found => found.1.2 found.2
  · rw [if_neg same, distinct.getConnection_iff]
    constructor
    · exact fun found => ⟨found.1.1, found.2⟩
    · rintro ⟨member, rfl⟩
      exact ⟨⟨member, same⟩, rfl⟩

/-- `create_connection` appends a connection to the table or leaves it alone. -/
theorem createConnection_cases (sessions : SessionManager) (connId : ConnId) :
    (sessions.createConnection connId = sessions) ∨
      sessions.getConnection connId = none ∧
        sessions.createConnection connId = ⟨sessions.connections ++ [{ connId := connId }]⟩ := by
  unfold createConnection
  split
  · exact .inl rfl
  · cases found : sessions.getConnection connId with
    | some conn => exact .inl rfl
    | none => exact .inr ⟨rfl, rfl⟩

/-- So does a new id. -/
theorem Distinct.append (distinct : sessions.Distinct)
    (absent : sessions.getConnection connId = none) :
    Distinct ⟨sessions.connections ++ [{ connId := connId }]⟩ := by
  unfold Distinct
  rw [List.map_append]
  refine List.nodup_append.mpr ⟨distinct, List.nodup_singleton _, ?_⟩
  rintro _ member _ last rfl
  obtain ⟨conn, listed, same⟩ := List.mem_map.mp member
  have equal : conn.connId = connId := by simpa [same] using last
  rw [distinct.getConnection_iff.mpr ⟨listed, equal⟩] at absent
  cases absent

/-- The appended connection is found, and every other one as before. -/
theorem getConnection_append (absent : sessions.getConnection connId = none) (other : ConnId) :
    getConnection ⟨sessions.connections ++ [{ connId := connId }]⟩ other =
      if other = connId then some { connId := connId } else sessions.getConnection other := by
  have split : getConnection ⟨sessions.connections ++ [{ connId := connId }]⟩ other =
      (sessions.getConnection other).or
        ([{ connId := connId }].find? fun conn : ClientConnection => conn.connId == other) := by
    rw [getConnection_eq_find, getConnection_eq_find, List.find?_append]
  rw [split]
  by_cases same : other = connId
  · rw [same, absent]
    simp
  · have apart : connId ≠ other := Ne.symm same
    cases sessions.getConnection other <;> simp [same, apart]

end

end SessionManager

end FluxTrade
