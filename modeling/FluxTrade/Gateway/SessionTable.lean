import FluxTrade.Gateway.SessionManager
import FluxTrade.Library.Execution
import Mathlib.Data.Finmap

/-!
# The session table is a finite map

`SessionManager` keeps 64 slots and the number of those in use. A removed record
is overwritten by the last one in use, so records move between slots. Seen
through `get_connection` the table is nevertheless a finite map from connection
identifiers to records, with room for 64 of them.
-/

namespace FluxTrade

open SessionManager (maxConnections)

/-! ## The array -/

/-- The members of `SessionManager`. -/
structure SessionTable where
  /-- `connections_`. -/
  slots : List ClientConnection
  /-- `active_count_`. -/
  activeCount : Nat
  slots_length : slots.length = maxConnections
  active_le : activeCount ≤ maxConnections

namespace SessionTable

/-- `reset`, which the constructor calls. -/
def new : SessionTable :=
  ⟨List.replicate maxConnections {}, 0, List.length_replicate, Nat.zero_le _⟩

/-- The search loop: the first slot in use with the identifier. -/
def find (table : SessionTable) (connId : ConnId) : Option Nat :=
  (table.slots.take table.activeCount).findIdx? fun conn => conn.connId == connId

/-- `get_connection`: the record behind the returned pointer. -/
def getConnection (table : SessionTable) (connId : ConnId) : Option ClientConnection :=
  (table.find connId).bind fun slot => table.slots[slot]?

/-- Writes through the pointer that `get_connection` returned. -/
def write (table : SessionTable) (connId : ConnId)
    (change : ClientConnection → ClientConnection) : SessionTable :=
  match table.find connId with
  | none => table
  | some slot =>
    { table with
      slots := table.slots.modify slot change
      slots_length := (List.length_modify ..).trans table.slots_length }

/-- `create_connection`: the slot whose address is returned, and the table after the call. -/
def createConnection (table : SessionTable) (connId : ConnId) : Option Nat × SessionTable :=
  if full : maxConnections ≤ table.activeCount then (none, table)
  else
    match table.find connId with
    | some slot => (some slot, table)
    | none =>
      (some table.activeCount,
        { slots := table.slots.set table.activeCount { connId }
          activeCount := table.activeCount + 1
          slots_length := List.length_set.trans table.slots_length
          active_le := Nat.lt_of_not_le full })

/-- `remove_connection`: the last slot in use moves to the freed one. -/
def removeConnection (table : SessionTable) (connId : ConnId) : SessionTable :=
  match table.find connId with
  | none => table
  | some slot =>
    { slots :=
        if slot ≠ table.activeCount - 1 then
          table.slots.set slot (table.slots.getD (table.activeCount - 1) {})
        else table.slots
      activeCount := table.activeCount - 1
      slots_length := by
        split
        · exact List.length_set.trans table.slots_length
        · exact table.slots_length
      active_le := Nat.le_trans (Nat.sub_le _ _) table.active_le }

/-- `authenticate`, with the characters behind the two string pointers. -/
def authenticate (table : SessionTable) (connId : ConnId) (clientId accountId : UInt32)
    (username password : Nat → UInt8) : Bool × SessionTable :=
  match table.getConnection connId with
  | none => (false, table)
  | some _ =>
    if username 0 = 0 ∨ password 0 = 0 then (false, table)
    else
      (true, table.write connId fun conn =>
        { conn with clientId, accountId, authenticated := true, lastHeartbeatTs := 0 })

/-! ## The slots in use -/

/-- The table without the slots that are not in use. -/
def sessions (table : SessionTable) : SessionManager := ⟨table.slots.take table.activeCount⟩

variable {table : SessionTable} {connId : ConnId}

/-- The table counts its entries. -/
theorem length_sessions (table : SessionTable) :
    table.sessions.connections.length = table.activeCount := by
  have bound := table.active_le
  rw [← table.slots_length] at bound
  exact List.length_take_of_le bound

/-- The loop finds the slot that the list of records has for the identifier, if any. -/
theorem find_cases (table : SessionTable) (connId : ConnId) :
    table.find connId = none ∧ table.activeCount ≤ table.sessions.slot connId ∨
      table.find connId = some (table.sessions.slot connId) ∧
        table.sessions.slot connId < table.activeCount := by
  have length := table.length_sessions
  cases found : table.find connId with
  | none =>
    have beyond : table.sessions.slot connId = table.sessions.connections.length :=
      List.findIdx?_eq_none_iff_findIdx_eq.mp found
    exact Or.inl ⟨rfl, by omega⟩
  | some slot =>
    obtain ⟨inside, isSlot⟩ := List.findIdx?_eq_some_iff_findIdx_eq.mp found
    have same : table.sessions.slot connId = slot := isSlot
    change slot < table.sessions.connections.length at inside
    exact Or.inr ⟨by rw [same], by omega⟩

/-- Lookup is lookup in the list. -/
theorem getConnection_sessions (table : SessionTable) (connId : ConnId) :
    table.getConnection connId = table.sessions.getConnection connId := by
  rw [getConnection, SessionManager.getConnection]
  rcases table.find_cases connId with ⟨missing, beyond⟩ | ⟨found, inside⟩
  · rw [missing, List.getElem?_eq_none (by rw [length_sessions]; exact beyond)]
    rfl
  · rw [found]
    exact (List.getElem?_take_of_lt inside).symm

/-- An index is found for each entry. -/
theorem find_eq_none : table.find connId = none ↔ table.getConnection connId = none := by
  rw [getConnection]
  rcases table.find_cases connId with ⟨missing, _⟩ | ⟨found, inside⟩
  · simp [missing]
  · have bound := table.active_le
    have held : table.sessions.slot connId < table.slots.length := by
      rw [table.slots_length]
      omega
    simp [found, List.getElem?_eq_getElem held]

variable (table : SessionTable) (connId : ConnId)

/-- Writing is writing to the list. -/
theorem sessions_write (change : ClientConnection → ClientConnection) :
    (table.write connId change).sessions = table.sessions.modify connId change := by
  rw [write, SessionManager.modify]
  rcases table.find_cases connId with ⟨missing, beyond⟩ | ⟨found, inside⟩
  · rw [missing, List.modify_eq_self (by rw [length_sessions]; exact beyond)]
  · rw [found]
    exact congrArg SessionManager.mk (List.take_modify ..)

/-- Creating is creating in the list. -/
theorem sessions_createConnection :
    (table.createConnection connId).2.sessions = table.sessions.createConnection connId := by
  rw [createConnection, SessionManager.createConnection, length_sessions,
    ← getConnection_sessions]
  by_cases full : maxConnections ≤ table.activeCount
  · rw [dif_pos full, if_pos full]
  · rw [dif_neg full, if_neg full]
    cases found : table.getConnection connId with
    | none =>
      have room : table.activeCount < table.slots.length := by
        rw [table.slots_length]
        omega
      rw [find_eq_none.mpr found]
      apply congrArg SessionManager.mk
      change (table.slots.set table.activeCount _).take (table.activeCount + 1) = _
      rw [List.take_add_one, List.take_set_of_le (Nat.le_refl _), List.getElem?_set_self room]
      rfl
    | some conn =>
      cases slot : table.find connId with
      | none =>
        rw [find_eq_none.mp slot] at found
        cases found
      | some slot => rfl

/-- Removing is removing from the list. -/
theorem sessions_removeConnection :
    (table.removeConnection connId).sessions = table.sessions.removeConnection connId := by
  have length := table.length_sessions
  rw [removeConnection, SessionManager.removeConnection]
  rcases table.find_cases connId with ⟨missing, beyond⟩ | ⟨found, inside⟩
  · rw [missing]
    cases table.sessions.connections.getLast? with
    | none => rfl
    | some last => exact (if_neg (by omega)).symm
  · obtain ⟨count, active⟩ := Nat.exists_eq_succ_of_ne_zero (by omega : table.activeCount ≠ 0)
    have bound := table.active_le
    have held : count < table.slots.length := by
      rw [table.slots_length]
      omega
    have connections : table.sessions.connections = table.slots.take (count + 1) := by
      rw [sessions, active]
    have last : table.sessions.connections.getLast? = some (table.slots.getD count {}) := by
      rw [connections, List.getLast?_take, if_neg (Nat.succ_ne_zero count), Nat.add_sub_cancel,
        List.getD_eq_getElem?_getD, List.getElem?_eq_getElem held]
      rfl
    have shorter (slots : List ClientConnection) (long : slots.length = table.slots.length) :
        (slots.take (count + 1)).dropLast = slots.take count := by
      rw [List.dropLast_eq_take, List.length_take_of_le (by omega), Nat.add_sub_cancel,
        List.take_take, Nat.min_eq_left (Nat.le_succ count)]
    have inside' : table.sessions.slot connId < table.sessions.connections.length := by omega
    rw [found, last]
    dsimp only
    rw [if_pos inside', length]
    change SessionManager.mk (List.take (table.activeCount - 1) (ite _ _ _)) = _
    rw [active, Nat.succ_sub_one]
    apply congrArg SessionManager.mk
    by_cases moves : table.sessions.slot connId ≠ count
    · rw [if_pos moves, if_pos moves, connections, ← List.take_set, shorter _ List.length_set]
    · rw [if_neg moves, if_neg moves, connections, shorter _ rfl]

end SessionTable

/-! ## Calls -/

/-- The calls on the sessions. An update keeps the identifier of the record it is given. -/
inductive SessionCall where
  | create (connId : ConnId)
  | remove (connId : ConnId)
  | authenticate (connId : ConnId) (clientId accountId : UInt32) (username password : Nat → UInt8)
  | update (connId : ConnId) (change : ClientConnection → ClientConnection)
      (keeps : ∀ conn, (change conn).connId = conn.connId)

/-- What a caller sees: the record behind a pointer, or whether a client is authenticated. -/
inductive SessionReply where
  | record (found : Option ClientConnection)
  | authenticated (accepted : Bool)
  | done
  deriving DecidableEq

namespace SessionCall

/-- The identifier of a call. -/
def connId : SessionCall → ConnId
  | create connId => connId
  | remove connId => connId
  | authenticate connId .. => connId
  | update connId .. => connId

/-- A call on the table. -/
def onTable (table : SessionTable) : SessionCall → SessionReply × SessionTable
  | create connId =>
    let created := table.createConnection connId
    (.record (created.1.bind fun slot => created.2.slots[slot]?), created.2)
  | remove connId => (.done, table.removeConnection connId)
  | authenticate connId clientId accountId username password =>
    let tried := table.authenticate connId clientId accountId username password
    (.authenticated tried.1, tried.2)
  | update connId change _ => (.record (table.getConnection connId), table.write connId change)

end SessionCall

/-- Sessions as a finite map. -/
abbrev SessionMap := Finmap fun _ : ConnId => ClientConnection

/-- A call on a finite map with room for as many records. -/
def SessionCall.onMap (sessions : SessionMap) : SessionCall → SessionReply × SessionMap
  | create connId =>
    if maxConnections ≤ sessions.keys.card then (.record none, sessions)
    else
      match sessions.lookup connId with
      | some conn => (.record (some conn), sessions)
      | none => (.record (some { connId }), sessions.insert connId { connId })
  | remove connId => (.done, sessions.erase connId)
  | authenticate connId clientId accountId username password =>
    match sessions.lookup connId with
    | none => (.authenticated false, sessions)
    | some conn =>
      if username 0 = 0 ∨ password 0 = 0 then (.authenticated false, sessions)
      else
        (.authenticated true, sessions.insert connId
          { conn with clientId, accountId, authenticated := true, lastHeartbeatTs := 0 })
  | update connId change _ =>
    match sessions.lookup connId with
    | none => (.record none, sessions)
    | some conn => (.record (some conn), sessions.insert connId (change conn))

/-! ## Refinement -/

/-- The identifiers in use are distinct and as many as the map has, and each is looked up alike. -/
structure SessionTable.Holds (table : SessionTable) (sessions : SessionMap) : Prop where
  distinct : ((table.slots.take table.activeCount).map ClientConnection.connId).Nodup
  count : table.activeCount = sessions.keys.card
  lookup : ∀ connId, table.getConnection connId = sessions.lookup connId

namespace SessionTable.Holds

variable {table : SessionTable} {sessions : SessionMap}

/-- The number of records follows from the lookups. -/
theorem of_lookup (distinct : table.sessions.Distinct)
    (lookup : ∀ connId, table.getConnection connId = sessions.lookup connId) :
    table.Holds sessions where
  distinct := distinct
  count := by
    have keys : (table.sessions.connections.map ClientConnection.connId).toFinset =
        sessions.keys := by
      ext connId
      rw [List.mem_toFinset, List.mem_map, Finmap.mem_keys, Finmap.mem_iff]
      constructor
      · rintro ⟨conn, listed, isId⟩
        refine ⟨conn, ?_⟩
        rw [← lookup, table.getConnection_sessions]
        exact distinct.getConnection_iff.mpr ⟨listed, isId⟩
      · rintro ⟨conn, found⟩
        rw [← lookup, table.getConnection_sessions] at found
        exact ⟨conn, distinct.getConnection_iff.mp found⟩
    rw [← keys, List.toFinset_card_of_nodup distinct, List.length_map, length_sessions]
  lookup := lookup

/-- The empty table. -/
theorem new : SessionTable.new.Holds ∅ :=
  of_lookup List.nodup_nil fun _ => rfl

/-- A write to a record in place. -/
theorem write (holds : table.Holds sessions) {connId : ConnId} {conn : ClientConnection}
    (found : sessions.lookup connId = some conn) {change : ClientConnection → ClientConnection}
    (keeps : ∀ conn, (change conn).connId = conn.connId) :
    (table.write connId change).Holds (sessions.insert connId (change conn)) := by
  have distinct : table.sessions.Distinct := holds.distinct
  refine of_lookup ?_ fun other => ?_
  · rw [sessions_write]
    exact distinct.modify keeps
  · rw [getConnection_sessions, sessions_write]
    by_cases same : other = connId
    · rw [same, SessionManager.getConnection_modify keeps, ← table.getConnection_sessions,
        holds.lookup, found, Finmap.lookup_insert]
      rfl
    · rw [SessionManager.getConnection_modify_of_ne keeps same, ← table.getConnection_sessions,
        holds.lookup, Finmap.lookup_insert_of_ne _ same]

/-- A write for an identifier without a record changes nothing. -/
theorem write_missing {connId : ConnId} (missing : table.getConnection connId = none)
    (change : ClientConnection → ClientConnection) : table.write connId change = table := by
  rw [SessionTable.write, find_eq_none.mpr missing]

/-- Removal agrees with the map. -/
theorem remove (holds : table.Holds sessions) (connId : ConnId) :
    (table.removeConnection connId).Holds (sessions.erase connId) := by
  have distinct : table.sessions.Distinct := holds.distinct
  refine of_lookup ?_ fun other => ?_
  · rw [sessions_removeConnection]
    exact distinct.removeConnection connId
  · rw [getConnection_sessions, sessions_removeConnection,
      distinct.getConnection_removeConnection]
    by_cases same : other = connId
    · rw [if_pos same, same, Finmap.lookup_erase]
    · rw [if_neg same, ← table.getConnection_sessions, holds.lookup,
        Finmap.lookup_erase_ne same]

/-- A new identifier gets a default record in the next slot. -/
theorem create_fresh (holds : table.Holds sessions) {connId : ConnId}
    (room : table.activeCount < maxConnections) (missing : table.getConnection connId = none) :
    (SessionCall.create connId).onTable table =
        (.record (some { connId := connId }), (table.createConnection connId).2) ∧
      (table.createConnection connId).2.Holds (sessions.insert connId { connId := connId }) := by
  have notFull : ¬maxConnections ≤ table.activeCount := Nat.not_le.mpr room
  have distinct : table.sessions.Distinct := holds.distinct
  have absent : table.sessions.getConnection connId = none :=
    (table.getConnection_sessions connId).symm.trans missing
  have next : (table.createConnection connId).2.sessions =
      ⟨table.sessions.connections ++ [{ connId := connId }]⟩ := by
    rw [sessions_createConnection, SessionManager.createConnection, length_sessions,
      if_neg notFull, absent]
  constructor
  · have held : table.activeCount < table.slots.length := by
      rw [table.slots_length]
      exact room
    simp only [SessionCall.onTable, createConnection, dif_neg notFull, find_eq_none.mpr missing,
      Option.bind_some, List.getElem?_set_self held]
  · refine of_lookup ?_ fun other => ?_
    · rw [next]
      exact distinct.append absent
    · rw [getConnection_sessions, next, SessionManager.getConnection_append absent]
      by_cases same : other = connId
      · rw [if_pos same, same, Finmap.lookup_insert]
      · rw [if_neg same, ← table.getConnection_sessions, holds.lookup,
          Finmap.lookup_insert_of_ne _ same]

/-- Creation agrees with the map. -/
theorem create (holds : table.Holds sessions) (connId : ConnId) :
    ((SessionCall.create connId).onTable table).1 = ((SessionCall.create connId).onMap sessions).1 ∧
      ((SessionCall.create connId).onTable table).2.Holds
        ((SessionCall.create connId).onMap sessions).2 := by
  rw [SessionCall.onMap, ← holds.count]
  by_cases full : maxConnections ≤ table.activeCount
  · rw [if_pos full, SessionCall.onTable, createConnection, dif_pos full]
    exact ⟨rfl, holds⟩
  · rw [if_neg full, ← holds.lookup]
    cases found : table.getConnection connId with
    | none =>
      obtain ⟨answer, next⟩ := holds.create_fresh (Nat.lt_of_not_le full) found
      rw [answer]
      exact ⟨rfl, next⟩
    | some conn =>
      rw [SessionCall.onTable, createConnection, dif_neg full]
      rw [getConnection] at found
      cases slot : table.find connId with
      | none =>
        rw [slot] at found
        cases found
      | some slot =>
        rw [slot] at found
        exact ⟨congrArg SessionReply.record found, holds⟩

/-- Table and map answer every call alike, and the table goes on holding the map. -/
theorem simulates :
    Machine.Simulates SessionTable.Holds SessionCall.onTable SessionCall.onMap := by
  intro table sessions call holds
  cases call with
  | create connId => exact holds.create connId
  | remove connId => exact ⟨rfl, holds.remove connId⟩
  | authenticate connId clientId accountId username password =>
    simp only [SessionCall.onTable, SessionCall.onMap, SessionTable.authenticate, holds.lookup]
    cases found : sessions.lookup connId with
    | none => exact ⟨rfl, holds⟩
    | some conn =>
      dsimp only
      by_cases blank : username 0 = 0 ∨ password 0 = 0
      · rw [if_pos blank, if_pos blank]
        exact ⟨rfl, holds⟩
      · rw [if_neg blank, if_neg blank]
        exact ⟨rfl, holds.write found fun _ => rfl⟩
  | update connId change keeps =>
    simp only [SessionCall.onTable, SessionCall.onMap, holds.lookup]
    cases found : sessions.lookup connId with
    | none =>
      have missing : table.getConnection connId = none := (holds.lookup connId).trans found
      rw [write_missing missing]
      exact ⟨rfl, holds⟩
    | some conn => exact ⟨rfl, holds.write found keeps⟩

end SessionTable.Holds

/-- A call on the map leaves the records of other identifiers alone. -/
theorem SessionCall.lookup_onMap (sessions : SessionMap) {call : SessionCall} {other : ConnId}
    (apart : other ≠ call.connId) :
    (call.onMap sessions).2.lookup other = sessions.lookup other := by
  cases call with
  | create connId =>
    simp only [onMap]
    split
    · rfl
    · split
      · rfl
      · exact Finmap.lookup_insert_of_ne _ apart
  | remove connId => exact Finmap.lookup_erase_ne apart
  | authenticate connId clientId accountId username password =>
    simp only [onMap]
    split
    · rfl
    · split
      · rfl
      · exact Finmap.lookup_insert_of_ne _ apart
  | update connId change keeps =>
    simp only [onMap]
    split
    · rfl
    · exact Finmap.lookup_insert_of_ne _ apart

/-- After any calls the table holds the finite map that the same calls make, and has answered as
the map does. A call for one identifier leaves the records of all others alone, a new identifier
below capacity gets a default record, and a removed one has none. -/
theorem sessions_are_map (calls : List SessionCall) :
    let ran := Machine.run SessionCall.onTable SessionTable.new calls
    let expected := Machine.run SessionCall.onMap (∅ : SessionMap) calls
    ran.1 = expected.1 ∧ ran.2.Holds expected.2 ∧ ran.2.activeCount ≤ 64 ∧
    (∀ call other, other ≠ SessionCall.connId call →
      (call.onTable ran.2).2.getConnection other = ran.2.getConnection other) ∧
    (∀ connId, ran.2.getConnection connId = none → ran.2.activeCount < 64 →
      (ran.2.createConnection connId).2.getConnection connId = some { connId := connId }) ∧
    ∀ connId, (ran.2.removeConnection connId).getConnection connId = none := by
  intro ran expected
  obtain ⟨replies, holds⟩ := SessionTable.Holds.simulates.run SessionTable.Holds.new calls
  refine ⟨replies, holds, ran.2.active_le, ?_, ?_, ?_⟩
  · intro call other apart
    obtain ⟨_, next⟩ := SessionTable.Holds.simulates ran.2 expected.2 call holds
    rw [next.lookup, SessionCall.lookup_onMap _ apart]
    exact (holds.lookup other).symm
  · intro connId missing room
    rw [(holds.create_fresh room missing).2.lookup, Finmap.lookup_insert]
  · intro connId
    rw [(holds.remove connId).lookup, Finmap.lookup_erase]

end FluxTrade
