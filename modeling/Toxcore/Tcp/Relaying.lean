import Toxcore.Data.Pairing
import Toxcore.Tcp.Server

/-!
# Ports of the relay are joined in pairs

The accepted connections are seen as a table of `Pairing`: a confirmed connection owns its place under its public key,
and its ports in use name keys. Requests, disconnects and kills are the operations of that table, so joined ports
always point at each other.
-/

namespace Toxcore

open ByteStrings Pairing List Option

/-- What a port says. -/
def ClientPort.view (port : ClientPort) : Port PublicKey ℕ (Fin numClientConnections) :=
  match port.status with
  | .unused => .unused
  | .offline => .waiting port.publicKey
  | .online => .joined port.publicKey port.index port.otherId

/-- The key of a confirmed connection. -/
def TcpSecureConnection.owner (con : TcpSecureConnection) : Option PublicKey :=
  if con.status = .confirmed then some con.publicKey else none

/-- The ports of a confirmed connection. -/
def TcpSecureConnection.ports (con : TcpSecureConnection) (i : Fin numClientConnections) :
    Port PublicKey ℕ (Fin numClientConnections) :=
  if con.status = .confirmed then (con.connections i).view else .unused

namespace TcpServer

/-- The accepted connections as a table of owners and ports. -/
def table (server : TcpServer) : Table PublicKey ℕ (Fin numClientConnections) where
  owner c := server.acceptedConnectionArray[c]?.bind TcpSecureConnection.owner
  port c i := server.acceptedConnectionArray[c]?.elim .unused fun con => con.ports i

/-- The status and the key of the connections. -/
def outline (server : TcpServer) : List (TcpStatus × PublicKey) :=
  server.acceptedConnectionArray.map fun con => (con.status, con.publicKey)

/-- The list of keys finds the confirmed connections, and there are as many as the server counts. -/
structure Indexed (server : TcpServer) : Prop where
  wellFormed : server.acceptedKeyList.WellFormed
  size : server.acceptedKeyList.elementSize = 32
  maps : ∀ x id, server.acceptedKeyList.Maps x id ↔
    ∃ (index : ℕ) (key : PublicKey), x = key.toList ∧ id = index ∧ server.table.owner index = some key
  statuses : ∀ entry ∈ server.outline, entry.1 = .confirmed ∨ entry.1 = .noStatus
  count : server.numAcceptedConnections = server.outline.countP fun entry => entry.1 = .confirmed

/-- The free places of the array have no ports in use. -/
def Idle (server : TcpServer) : Prop :=
  ∀ con ∈ server.acceptedConnectionArray, con.status = .noStatus → ∀ i, (con.connections i).status = .unused

/-- The list of keys finds the connections, and the ports are joined in pairs. -/
structure Valid (server : TcpServer) : Prop where
  indexed : server.Indexed
  idle : server.Idle
  paired : Paired server.table

/-- Nothing but the ports and what is pending on the sockets changed. -/
structure Kept (server server' : TcpServer) : Prop where
  outline : server'.outline = server.outline
  acceptedKeyList : server'.acceptedKeyList = server.acceptedKeyList
  numAcceptedConnections : server'.numAcceptedConnections = server.numAcceptedConnections
  idle : server.Idle → server'.Idle

variable {server server' : TcpServer} {sodium : Sodium} {index : ℕ} {key : PublicKey}

theorem Kept.refl (server : TcpServer) : Kept server server := ⟨rfl, rfl, rfl, id⟩

theorem Kept.trans {s : TcpServer} (h : Kept server server') (h' : Kept server' s) : Kept server s :=
  ⟨h'.outline.trans h.outline, h'.acceptedKeyList.trans h.acceptedKeyList,
    h'.numAcceptedConnections.trans h.numAcceptedConnections, h'.idle ∘ h.idle⟩

/-- The owner of an index is the confirmed connection there. -/
theorem owner_iff : server.table.owner index = some key ↔ server.outline[index]? = some (.confirmed, key) := by
  simp only [table, outline, getElem?_map]
  cases server.acceptedConnectionArray[index]? with
  | none => simp
  | some con =>
    simp only [bind_some, map_some, TcpSecureConnection.owner]
    by_cases hstatus : con.status = .confirmed <;> simp [hstatus]

/-- Kept servers have the same owners. -/
theorem Kept.owner (h : Kept server server') (c : ℕ) : server'.table.owner c = server.table.owner c := by
  apply Option.ext
  intro key
  rw [owner_iff, h.outline, ← owner_iff]

/-- Kept servers are indexed alike. -/
theorem Kept.indexed (h : Kept server server') (hindexed : server.Indexed) : server'.Indexed where
  wellFormed := h.acceptedKeyList ▸ hindexed.wellFormed
  size := h.acceptedKeyList ▸ hindexed.size
  maps := by
    simp only [h.acceptedKeyList, h.owner]
    exact hindexed.maps
  statuses := h.outline ▸ hindexed.statuses
  count := by rw [h.numAcceptedConnections, h.outline, hindexed.count]

/-- The connection that owns a place. -/
theorem owned (h : server.table.owner index = some key) :
    ∃ con, server.acceptedConnectionArray[index]? = some con ∧ con.status = .confirmed ∧ con.publicKey = key := by
  rw [owner_iff, outline, getElem?_map, map_eq_some_iff] at h
  obtain ⟨con, hcon, heq⟩ := h
  exact ⟨con, hcon, (Prod.mk.injEq _ _ _ _ ▸ heq).1, (Prod.mk.injEq _ _ _ _ ▸ heq).2⟩

variable {con : TcpSecureConnection}

/-- A confirmed connection owns its index. -/
theorem table_owner (hcon : server.acceptedConnectionArray[index]? = some con) (hstatus : con.status = .confirmed) :
    server.table.owner index = some con.publicKey := by
  simp [table, hcon, TcpSecureConnection.owner, hstatus]

/-- The ports of a confirmed connection. -/
theorem table_port (hcon : server.acceptedConnectionArray[index]? = some con) (hstatus : con.status = .confirmed)
    (i : Fin numClientConnections) : server.table.port index i = (con.connections i).view := by
  simp [table, hcon, TcpSecureConnection.ports, hstatus]

/-! ## Writes to the array -/

/-- The connections after one of them was changed. -/
theorem modifyConnection_get (server : TcpServer) (index : ℕ) (f : TcpSecureConnection → TcpSecureConnection) (c : ℕ) :
    (server.modifyConnection index f).acceptedConnectionArray[c]? =
      if index = c then server.acceptedConnectionArray[c]?.map f else server.acceptedConnectionArray[c]? := by
  rw [modifyConnection, getElem?_modify]
  by_cases h : index = c
  · simp [h]
  · cases server.acceptedConnectionArray[c]? <;> simp [h]

variable {f : TcpSecureConnection → TcpSecureConnection}

/-- A write that keeps the status and the key of a connection, and the ports of a free place. -/
theorem modifyConnection_kept (hstatus : ∀ con, (f con).status = con.status)
    (hkey : ∀ con, (f con).publicKey = con.publicKey)
    (hports : ∀ con, server.acceptedConnectionArray[index]? = some con → con.status = .noStatus →
      (f con).connections = con.connections) : Kept server (server.modifyConnection index f) := by
  refine ⟨?_, rfl, rfl, ?_⟩
  · apply ext_getElem?
    intro c
    rw [outline, outline, getElem?_map, getElem?_map, modifyConnection_get]
    by_cases h : index = c
    · cases server.acceptedConnectionArray[c]? <;> simp [h, hstatus, hkey]
    · simp [h]
  · intro hidle con hmem hnone i
    obtain ⟨c, hc⟩ := mem_iff_getElem?.mp hmem
    rw [modifyConnection_get] at hc
    by_cases h : index = c
    · subst h
      rw [if_pos rfl, map_eq_some_iff] at hc
      obtain ⟨con, hcon, rfl⟩ := hc
      rw [hstatus] at hnone
      rw [hports con hcon hnone]
      exact hidle con (mem_of_getElem? hcon) hnone i
    · rw [if_neg h] at hc
      exact hidle con (mem_of_getElem? hc) hnone i

/-- A write that keeps the status, the key and the ports of a connection. -/
theorem modifyConnection_table (hstatus : ∀ con, (f con).status = con.status)
    (hkey : ∀ con, (f con).publicKey = con.publicKey) (hports : ∀ con, (f con).connections = con.connections) :
    (server.modifyConnection index f).table = server.table := by
  rw [table, table, Table.mk.injEq]
  constructor
  · funext c
    rw [modifyConnection_get]
    by_cases h : index = c
    · cases server.acceptedConnectionArray[c]? <;> simp [h, hstatus, hkey, TcpSecureConnection.owner]
    · simp [h]
  · funext c i
    rw [modifyConnection_get]
    by_cases h : index = c
    · cases server.acceptedConnectionArray[c]? <;> simp [h, hstatus, hports, TcpSecureConnection.ports]
    · simp [h]

/-- A port of a confirmed connection is written. -/
theorem modifyConnection_setPort (hcon : server.acceptedConnectionArray[index]? = some con)
    (hstatus : con.status = .confirmed) (i : Fin numClientConnections) (port : TcpSecureConnection → ClientPort) :
    (server.modifyConnection index fun con => con.setPort i (port con)).table =
      server.table.setPort index i (port con).view := by
  rw [table, table, Table.setPort, Table.mk.injEq]
  constructor
  · funext c
    rw [modifyConnection_get]
    by_cases h : index = c
    · subst h
      simp [hcon, TcpSecureConnection.owner, TcpSecureConnection.setPort]
    · simp [h]
  · funext c i'
    rw [modifyConnection_get]
    by_cases h : index = c
    · subst h
      by_cases hi : i' = i
      · subst hi
        simp [hcon, hstatus, TcpSecureConnection.ports, TcpSecureConnection.setPort]
      · simp [hcon, hstatus, TcpSecureConnection.ports, TcpSecureConnection.setPort, hi]
    · simp [h, Ne.symm h]

end TcpServer

/-! ## Writes to the sockets -/

/-- What is pending is sent; the ports stay. -/
theorem TcpSecureConnection.sendPendingData_kept (len : ℕ → ℤ) (con : TcpSecureConnection) :
    (con.sendPendingData len).2.status = con.status ∧ (con.sendPendingData len).2.publicKey = con.publicKey ∧
      (con.sendPendingData len).2.connections = con.connections := by
  unfold sendPendingData sendPendingDataNonpriority
  split_ifs <;> exact ⟨rfl, rfl, rfl⟩

/-- A packet is written; the ports stay. -/
theorem TcpSecureConnection.writePacket_kept (sodium : Sodium) (env : SocketEnv) (con : TcpSecureConnection)
    (data : Bytes) (priority : Bool) :
    (con.writePacket sodium env data priority).2.status = con.status ∧
      (con.writePacket sodium env data priority).2.publicKey = con.publicKey ∧
      (con.writePacket sodium env data priority).2.connections = con.connections := by
  have hpending := con.sendPendingData_kept env.pending
  unfold writePacket
  split
  · exact ⟨rfl, rfl, rfl⟩
  · simp only
    split
    · exact hpending
    · split
      · exact hpending
      · split_ifs <;> exact hpending

/-- A pong changes no port. -/
theorem TcpSecureConnection.takePong_kept (pingId : UInt64) (con : TcpSecureConnection) :
    (con.takePong pingId).status = con.status ∧ (con.takePong pingId).publicKey = con.publicKey ∧
      (con.takePong pingId).connections = con.connections := by
  unfold takePong
  split <;> exact ⟨rfl, rfl, rfl⟩

namespace TcpServer

variable {server server' : TcpServer} {sodium : Sodium} {env : SocketEnv} {index : ℕ} {con : TcpSecureConnection}

/-- A packet that is written is kept. -/
theorem write_kept (sodium : Sodium) (env : SocketEnv) (server : TcpServer) (index : ℕ) (data : Bytes)
    (priority : Bool) :
    Kept server (server.write sodium env index data priority).2 := by
  unfold write
  split
  · exact Kept.refl server
  · exact modifyConnection_kept (fun con => (con.writePacket_kept sodium env data priority).1)
      (fun con => (con.writePacket_kept sodium env data priority).2.1)
      fun con _ _ => (con.writePacket_kept sodium env data priority).2.2

/-- A packet that is written changes no port. -/
theorem write_table (sodium : Sodium) (env : SocketEnv) (server : TcpServer) (index : ℕ) (data : Bytes)
    (priority : Bool) :
    (server.write sodium env index data priority).2.table = server.table := by
  unfold write
  split
  · rfl
  · exact modifyConnection_table (fun con => (con.writePacket_kept sodium env data priority).1)
      (fun con => (con.writePacket_kept sodium env data priority).2.1)
      fun con => (con.writePacket_kept sodium env data priority).2.2

/-- A port of a confirmed connection is written. -/
theorem setPort_kept (hcon : server.acceptedConnectionArray[index]? = some con) (hstatus : con.status = .confirmed)
    (i : Fin numClientConnections) (port : TcpSecureConnection → ClientPort) :
    Kept server (server.modifyConnection index fun con => con.setPort i (port con)) := by
  refine modifyConnection_kept (fun _ => rfl) (fun _ => rfl) fun con' hcon' hnone => ?_
  rw [← some_inj.mp (hcon.symm.trans hcon'), hstatus] at hnone
  contradiction

/-- A write to a confirmed connection leaves it confirmed, with its key. -/
theorem Kept.confirmed (h : Kept server server') (hcon : server.acceptedConnectionArray[index]? = some con)
    (hstatus : con.status = .confirmed) :
    ∃ con', server'.acceptedConnectionArray[index]? = some con' ∧ con'.status = .confirmed ∧
      con'.publicKey = con.publicKey := by
  apply owned
  rw [h.owner]
  exact table_owner hcon hstatus

/-! ## Releasing a port and leaving -/

/-- `rm_connection_index` releases a port. -/
theorem rmPort_release (sodium : Sodium) (env : SocketEnv) (hpaired : Paired server.table)
    (hcon : server.acceptedConnectionArray[index]? = some con) (hstatus : con.status = .confirmed)
    (i : Fin numClientConnections) :
    Kept server (server.rmPort sodium env index i).2 ∧
      (server.rmPort sodium env index i).2.table = server.table.release index i := by
  have hport := table_port hcon hstatus i
  have hown := table_owner hcon hstatus
  simp only [rmPort, hcon]
  cases hkind : (con.connections i).status with
  | unused =>
    have hunused : server.table.port index i = .unused := by rw [hport, ClientPort.view, hkind]
    exact ⟨Kept.refl server, (Paired.release_of_unused hunused).symm⟩
  | offline =>
    have hwaiting : server.table.port index i = .waiting (con.connections i).publicKey := by
      rw [hport, ClientPort.view, hkind]
    refine ⟨setPort_kept hcon hstatus i _, ?_⟩
    rw [modifyConnection_setPort hcon hstatus, Table.release, hwaiting]
    rfl
  | online =>
    have hjoined : server.table.port index i =
        .joined (con.connections i).publicKey (con.connections i).index (con.connections i).otherId := by
      rw [hport, ClientPort.view, hkind]
    obtain ⟨hother, own, hown', hback⟩ := hpaired.joined _ _ _ _ _ hjoined
    obtain rfl : own = con.publicKey := some_inj.mp (hown'.symm.trans hown)
    obtain ⟨other, hget, hotherStatus, -⟩ := owned hother
    have hbound : ¬(con.connections i).index ≥ server.acceptedConnectionArray.length :=
      Nat.not_le.mpr (List.getElem?_eq_some_iff.mp hget).1
    rw [table_port hget hotherStatus] at hback
    have hkey : (other.connections (con.connections i).otherId).publicKey = con.publicKey := by
      unfold ClientPort.view at hback
      split at hback
      · contradiction
      · contradiction
      · exact (Port.joined.injEq .. ▸ hback).1
    simp only [if_neg hbound]
    have hkept := (setPort_kept hget hotherStatus (con.connections i).otherId fun other =>
      { other.connections (con.connections i).otherId with otherId := 0, index := 0, status := .offline }).trans
        (write_kept sodium env _ (con.connections i).index
          [tcpPacketDisconnectNotification, portNumber (con.connections i).otherId] true)
    obtain ⟨con', hcon', hstatus', -⟩ := hkept.confirmed hcon hstatus
    refine ⟨hkept.trans (setPort_kept hcon' hstatus' i _), ?_⟩
    rw [sendDisconnectNotification, modifyConnection_setPort hcon' hstatus', write_table,
      modifyConnection_setPort hget hotherStatus, Table.release, hjoined, hown]
    simp only [ClientPort.view, hkey]

/-- The ports of a connection are released one by one. -/
theorem rmPorts_release (sodium : Sodium) (env : TcpEnv) (hpaired : Paired server.table)
    (hcon : server.acceptedConnectionArray[index]? = some con)
    (hstatus : con.status = .confirmed) (ports : List (Fin numClientConnections)) :
    let server' := ports.foldl (fun server i => (server.rmPort sodium (env.socket i) index i).2) server
    Kept server server' ∧ server'.table = ports.foldl (fun t i => t.release index i) server.table := by
  induction ports generalizing server con with
  | nil => exact ⟨Kept.refl server, rfl⟩
  | cons i ports ih =>
    obtain ⟨hkept, htable⟩ := rmPort_release sodium (env.socket i) hpaired hcon hstatus i
    obtain ⟨con', hcon', hstatus', -⟩ := hkept.confirmed hcon hstatus
    have hpaired' : Paired (server.rmPort sodium (env.socket i) index i).2.table := htable ▸ hpaired.release index i
    obtain ⟨hkept', htable'⟩ := ih hpaired' hcon' hstatus'
    refine ⟨hkept.trans hkept', ?_⟩
    rw [foldl_cons, foldl_cons, htable', htable]

/-- The ports of a free place are not in use, and nothing is released. -/
theorem rmPorts_idle (sodium : Sodium) (env : TcpEnv) (hidle : server.Idle)
    (hcon : server.acceptedConnectionArray[index]? = some con) (hstatus : con.status = .noStatus)
    (ports : List (Fin numClientConnections)) :
    ports.foldl (fun server i => (server.rmPort sodium (env.socket i) index i).2) server = server := by
  induction ports with
  | nil => rfl
  | cons i ports ih =>
    have hunused := hidle con (mem_of_getElem? hcon) hstatus i
    rw [foldl_cons]
    simp only [rmPort, hcon, hunused]
    exact ih

/-- A server as it is after a connection was removed. -/
structure Without (server server' : TcpServer) (index : ℕ) : Prop where
  valid : server'.Valid
  owner : ∀ c key, server'.table.owner c = some key ↔ c ≠ index ∧ server.table.owner c = some key

/-- An index without an owner is in no port. -/
theorem Without.absent (h : server.Valid)
    (habsent : server.table.owner index = none) : Without server server index := by
  refine ⟨h, fun c key => ⟨fun howner => ⟨?_, howner⟩, And.right⟩⟩
  rintro rfl
  rw [habsent] at howner
  contradiction

/-- What is left when a confirmed connection is taken out. -/
theorem outline_set_count (hindexed : server.Indexed) (hcon : server.acceptedConnectionArray[index]? = some con)
    (hstatus : con.status = .confirmed) (key : PublicKey) :
    (server.outline.set index (.noStatus, key)).countP (fun entry => entry.1 = .confirmed) =
      server.numAcceptedConnections - 1 := by
  have hentry := owner_iff.mp (table_owner hcon hstatus)
  obtain ⟨hbound, hget⟩ := List.getElem?_eq_some_iff.mp hentry
  rw [countP_set hbound, hget, ← hindexed.count]
  simp

/-- The owner of a place left it, and the list of keys no longer has its key. -/
theorem Without.of_table {key : PublicKey} {list : BsList} (h : server.Valid)
    (howner : server.table.owner index = some key)
    (hunused : ∀ i, server.table.port index i = .unused) (hwell : list.WellFormed)
    (hsize : list.elementSize = server.acceptedKeyList.elementSize)
    (hremoved : BsList.Removed server.acceptedKeyList list key.toList index) (hlist : server'.acceptedKeyList = list)
    (htable : server'.table = server.table.setOwner index none)
    (hstatuses : ∀ entry ∈ server'.outline, entry.1 = .confirmed ∨ entry.1 = .noStatus)
    (hcount : server'.numAcceptedConnections = server'.outline.countP fun entry => entry.1 = .confirmed)
    (hidle : server'.Idle) : Without server server' index := by
  have howner' : ∀ c key, server'.table.owner c = some key ↔ c ≠ index ∧ server.table.owner c = some key := by
    intro c key
    rw [htable, Table.setOwner_owner]
    by_cases hc : c = index <;> simp [hc]
  refine ⟨⟨⟨hlist ▸ hwell, ?_, ?_, hstatuses, hcount⟩, hidle, ?_⟩, howner'⟩
  · rw [hlist, hsize, h.indexed.size]
  · intro x id
    rw [hlist, hremoved.maps, h.indexed.maps]
    constructor
    · rintro ⟨⟨c, key', rfl, rfl, hc⟩, hother⟩
      refine ⟨c, key', rfl, rfl, (howner' c key').mpr ⟨?_, hc⟩⟩
      rintro rfl
      rw [howner, some_inj] at hc
      exact hother ⟨congrArg List.Vector.toList hc.symm, rfl⟩
    · rintro ⟨c, key', rfl, rfl, hc⟩
      obtain ⟨hne, hc⟩ := (howner' c key').mp hc
      exact ⟨⟨c, key', rfl, rfl, hc⟩, fun hother => hne (Int.ofNat_inj.mp hother.2)⟩
  · rw [htable]
    exact h.paired.vacate hunused

/-- The table after a place was cleared. -/
theorem table_clear (hunused : ∀ i, server.table.port index i = .unused)
    (harray : server'.acceptedConnectionArray = server.acceptedConnectionArray.set index .zero) :
    server'.table = server.table.setOwner index none := by
  have hget : ∀ c, c ≠ index → server'.acceptedConnectionArray[c]? = server.acceptedConnectionArray[c]? := by
    intro c hc
    rw [harray, getElem?_set_ne (Ne.symm hc)]
  have hzero : server'.acceptedConnectionArray[index]? = none ∨
      server'.acceptedConnectionArray[index]? = some .zero := by
    rw [harray, getElem?_set_self']
    cases server.acceptedConnectionArray[index]? <;> simp
  rw [table, Table.setOwner, Table.mk.injEq]
  constructor
  · funext c
    by_cases hc : c = index
    · subst hc
      rcases hzero with hnone | hzero
      · simp [hnone]
      · simp [hzero, TcpSecureConnection.owner, TcpSecureConnection.zero]
    · simp [hget c hc, hc, table]
  · funext c i
    by_cases hc : c = index
    · subst hc
      rw [hunused]
      rcases hzero with hnone | hzero
      · simp [hnone]
      · simp [hzero, TcpSecureConnection.ports, TcpSecureConnection.zero]
    · simp [hget c hc, table]

/-- Without confirmed connections the array can be freed. -/
theorem Valid.free (h : server.Valid) (hnum : server.numAcceptedConnections = 0) :
    { server with acceptedConnectionArray := [] }.Valid ∧
      { server with acceptedConnectionArray := [] }.table = server.table := by
  have howner : ∀ c, server.table.owner c = none := by
    intro c
    cases hc : server.table.owner c with
    | none => rfl
    | some key =>
      have hcount := h.indexed.count
      rw [hnum, eq_comm, countP_eq_zero] at hcount
      exact absurd rfl (decide_eq_true_iff.not.mp (hcount _ (mem_of_getElem? (owner_iff.mp hc))))
  have htable : { server with acceptedConnectionArray := [] }.table = server.table := by
    rw [table, Table.mk.injEq]
    constructor
    · funext c
      exact (howner c).symm
    · funext c i
      exact (h.paired.vacant c (howner c) i).symm
  refine ⟨⟨⟨h.indexed.wellFormed, h.indexed.size, ?_, nofun, hnum⟩, nofun, htable ▸ h.paired⟩, htable⟩
  rw [htable]
  exact h.indexed.maps

/-- A confirmed connection without ports in use is taken out of the array and of the list of keys. -/
theorem delAccepted_without (env : TcpEnv) (h : server.Valid) (hcon : server.acceptedConnectionArray[index]? = some con)
    (hstatus : con.status = .confirmed) (hunused : ∀ i, server.table.port index i = .unused) :
    Without server (server.delAccepted env index).2 index := by
  have howner := table_owner hcon hstatus
  have hmaps : server.acceptedKeyList.Maps con.publicKey.toList index :=
    (h.indexed.maps _ _).mpr ⟨index, con.publicKey, rfl, rfl, howner⟩
  have hlength : con.publicKey.toList.length = server.acceptedKeyList.elementSize := by
    rw [h.indexed.size, con.publicKey.toList_length]
  rcases h.indexed.wellFormed.bsListRemove_spec hlength env.allocKeysShrink index with
    ⟨list, hremove, hwell, hsize, hremoved⟩ | ⟨-, habsent⟩
  · simp only [delAccepted, hcon, hstatus, hremove, reduceCtorEq, if_false]
    have hcount := outline_set_count h.indexed hcon hstatus TcpSecureConnection.zero.publicKey
    have hcleared : Without server { server with
        acceptedKeyList := list
        numAcceptedConnections := server.numAcceptedConnections - 1
        acceptedConnectionArray := server.acceptedConnectionArray.set index .zero } index := by
      refine .of_table h howner hunused hwell hsize hremoved rfl (table_clear hunused rfl) ?_ ?_ ?_
      · intro entry hentry
        simp only [outline, map_set] at hentry
        rcases mem_or_eq_of_mem_set hentry with hold | rfl
        · exact h.indexed.statuses entry hold
        · exact .inr rfl
      · rw [← hcount]
        simp only [outline, map_set]
        rfl
      · intro con' hmem hnone i
        rcases mem_or_eq_of_mem_set hmem with hold | rfl
        · exact h.idle con' hold hnone i
        · rfl
    by_cases hempty : server.numAcceptedConnections - 1 = 0
    · rw [if_pos hempty]
      obtain ⟨hvalid, htable⟩ := hcleared.valid.free hempty
      exact ⟨hvalid, fun c key => htable ▸ hcleared.owner c key⟩
    · rw [if_neg hempty]
      exact hcleared
  · exact absurd hmaps habsent

/-- `kill_accepted` takes a connection out. -/
theorem killAccepted_without (sodium : Sodium) (env : TcpEnv) (h : server.Valid) (index : ℕ) :
    Without server (server.killAccepted sodium env index).2 index := by
  by_cases hbound : index ≥ server.acceptedConnectionArray.length
  · rw [killAccepted, if_pos hbound]
    refine .absent h ?_
    simp [table, getElem?_eq_none hbound]
  · rw [killAccepted, if_neg hbound]
    have hcon := getElem?_eq_getElem (Nat.lt_of_not_le hbound)
    set con := server.acceptedConnectionArray[index]
    have hentry : (con.status, con.publicKey) ∈ server.outline := List.mem_map_of_mem (mem_of_getElem? hcon)
    rcases h.indexed.statuses _ hentry with hstatus | hstatus
    · obtain ⟨hkept, htable⟩ := rmPorts_release sodium env h.paired hcon hstatus (List.finRange numClientConnections)
      obtain ⟨hpaired, hunused⟩ := h.paired.releaseAll index (List.finRange numClientConnections)
      rw [← htable] at hpaired hunused
      obtain ⟨con', hcon', hstatus', -⟩ := hkept.confirmed hcon hstatus
      have hwithout := delAccepted_without env ⟨hkept.indexed h.indexed, hkept.idle h.idle, hpaired⟩ hcon' hstatus'
        fun i => hunused i (.inl (mem_finRange i))
      exact ⟨hwithout.valid, fun c key => by rw [hwithout.owner, hkept.owner]⟩
    · rw [rmPorts_idle sodium env h.idle hcon hstatus, delAccepted, hcon]
      simp only [show con.status = .noStatus from hstatus, if_true]
      refine .absent h ?_
      simp [table, hcon, TcpSecureConnection.owner, show con.status = .noStatus from hstatus]

/-! ## Taking a place -/

/-- `get_TCP_connection_index` finds the connection that has a key. -/
theorem Indexed.getTcpConnectionIndex (h : server.Indexed) (key : PublicKey) :
    (∃ c : ℕ, server.getTcpConnectionIndex key = c ∧ server.table.owner c = some key) ∨
      (server.getTcpConnectionIndex key = -1 ∧ ∀ c, server.table.owner c ≠ some key) := by
  have hlength : key.toList.length = server.acceptedKeyList.elementSize := by rw [h.size, key.toList_length]
  rcases h.wellFormed.bsListFind_spec hlength with hfound | ⟨hnone, habsent⟩
  · obtain ⟨c, key', hkey, hid, howner⟩ := (h.maps _ _).mp hfound
    exact .inl ⟨c, hid, List.Vector.toList_injective hkey ▸ howner⟩
  · exact .inr ⟨hnone, fun c howner => habsent c ((h.maps _ _).mpr ⟨c, key, rfl, rfl, howner⟩)⟩

/-- Free places are added to the array. -/
theorem Valid.grow (h : server.Valid) (n : ℕ) :
    { server with acceptedConnectionArray :=
      server.acceptedConnectionArray ++ List.replicate n TcpSecureConnection.zero }.Valid ∧
      { server with acceptedConnectionArray :=
        server.acceptedConnectionArray ++ List.replicate n TcpSecureConnection.zero }.table =
        server.table := by
  have hget : ∀ c : ℕ, (server.acceptedConnectionArray ++ List.replicate n TcpSecureConnection.zero)[c]? =
      server.acceptedConnectionArray[c]? ∨
      (server.acceptedConnectionArray[c]? = none ∧
        (server.acceptedConnectionArray ++ List.replicate n TcpSecureConnection.zero)[c]? =
          some TcpSecureConnection.zero) := by
    intro c
    rcases Nat.lt_or_ge c server.acceptedConnectionArray.length with hlt | hge
    · exact .inl (getElem?_append_left hlt)
    · rw [getElem?_append_right hge, getElem?_eq_none hge, getElem?_replicate]
      split <;> simp
  have htable : { server with acceptedConnectionArray :=
      server.acceptedConnectionArray ++ List.replicate n TcpSecureConnection.zero }.table = server.table := by
    rw [table, table, Table.mk.injEq]
    constructor
    · funext c
      rcases hget c with hsame | ⟨hnone, hzero⟩
      · rw [hsame]
      · rw [hnone, hzero]
        rfl
    · funext c i
      rcases hget c with hsame | ⟨hnone, hzero⟩
      · rw [hsame]
      · rw [hnone, hzero]
        rfl
  refine ⟨⟨⟨h.indexed.wellFormed, h.indexed.size, htable ▸ h.indexed.maps, ?_, ?_⟩, ?_, htable ▸ h.paired⟩, htable⟩
  · intro entry hentry
    rw [outline, map_append, mem_append] at hentry
    rcases hentry with hold | hnew
    · exact h.indexed.statuses entry hold
    · rw [map_replicate] at hnew
      exact .inr (eq_of_mem_replicate hnew ▸ rfl)
  · rw [outline, map_append, countP_append, map_replicate, countP_replicate]
    exact h.indexed.count
  · intro con hmem hnone i
    rcases mem_append.mp hmem with hold | hnew
    · exact h.idle con hold hnone i
    · rw [eq_of_mem_replicate hnew]
      rfl

/-- A place that `add_accepted` finds is free. -/
theorem findPlace_free (env : TcpEnv) (h : server.Valid) :
    (server.findPlace env).2.Valid ∧ (server.findPlace env).2.table = server.table ∧
      ∀ index, (server.findPlace env).1 = some index →
        ∃ con, (server.findPlace env).2.acceptedConnectionArray[index]? = some con ∧ con.status = .noStatus := by
  simp only [findPlace]
  split_ifs
  · obtain ⟨hvalid, htable⟩ := h.grow 4
    refine ⟨hvalid, htable, ?_⟩
    rintro index ⟨⟩
    exact ⟨.zero, by simp, rfl⟩
  · exact ⟨h, rfl, nofun⟩
  · refine ⟨h, rfl, fun index hindex => ?_⟩
    have hfree := find?_some hindex
    rw [decide_eq_true_iff, map_eq_some_iff] at hfree
    exact hfree

/-- A connection without ports in use takes a free place. -/
theorem Valid.take {free : TcpSecureConnection} {list : BsList} (con : TcpSecureConnection) (h : server.Valid)
    (hfree : server.acceptedConnectionArray[index]? = some free) (hnone : free.status = .noStatus)
    (hnew : ∀ c, server.table.owner c ≠ some con.publicKey) (hstatus : con.status = .confirmed)
    (hports : ∀ i, (con.connections i).status = .unused) (hwell : list.WellFormed)
    (hsize : list.elementSize = server.acceptedKeyList.elementSize)
    (hadded : BsList.Added server.acceptedKeyList list con.publicKey.toList index) (counter : UInt64) :
    Valid { server with
      acceptedKeyList := list
      acceptedConnectionArray := server.acceptedConnectionArray.set index con
      numAcceptedConnections := server.numAcceptedConnections + 1
      counter := counter } := by
  obtain ⟨hbound, hget⟩ := List.getElem?_eq_some_iff.mp hfree
  have hvacant : server.table.owner index = none := by simp [table, hfree, TcpSecureConnection.owner, hnone]
  have htable : { server with
      acceptedKeyList := list
      acceptedConnectionArray := server.acceptedConnectionArray.set index con
      numAcceptedConnections := server.numAcceptedConnections + 1
      counter := counter }.table = server.table.setOwner index (some con.publicKey) := by
    rw [table, Table.setOwner, Table.mk.injEq]
    constructor
    · funext c
      by_cases hc : c = index
      · subst hc
        simp [hbound, TcpSecureConnection.owner, hstatus]
      · simp [getElem?_set_ne (Ne.symm hc), hc, table]
    · funext c i
      by_cases hc : c = index
      · subst hc
        rw [h.paired.vacant c hvacant]
        simp [hbound, TcpSecureConnection.ports, hstatus, ClientPort.view, hports]
      · simp [getElem?_set_ne (Ne.symm hc), table]
  refine ⟨⟨hwell, hsize.trans h.indexed.size, ?_, ?_, ?_⟩, ?_, htable ▸ h.paired.occupy hvacant hnew⟩
  · intro x id
    simp only [htable, Table.setOwner_owner]
    rw [hadded.maps, h.indexed.maps]
    constructor
    · rintro (⟨rfl, rfl⟩ | ⟨c, key, rfl, rfl, hc⟩)
      · exact ⟨index, con.publicKey, rfl, rfl, if_pos rfl⟩
      · refine ⟨c, key, rfl, rfl, ?_⟩
        rw [if_neg, hc]
        rintro rfl
        rw [hvacant] at hc
        contradiction
    · rintro ⟨c, key, rfl, rfl, hc⟩
      by_cases hindex : c = index
      · rw [if_pos hindex, some_inj] at hc
        exact .inl ⟨congrArg List.Vector.toList hc.symm, congrArg Nat.cast hindex⟩
      · rw [if_neg hindex] at hc
        exact .inr ⟨c, key, rfl, rfl, hc⟩
  · intro entry hentry
    simp only [outline, map_set] at hentry
    rcases mem_or_eq_of_mem_set hentry with hold | rfl
    · exact h.indexed.statuses entry hold
    · exact .inl hstatus
  · simp only [outline, map_set]
    rw [countP_set (by simpa using hbound), getElem_map, hget, hstatus, hnone, h.indexed.count, outline]
    simp
  · intro con' hmem hnone' i
    rcases mem_or_eq_of_mem_set hmem with hold | rfl
    · exact h.idle con' hold hnone' i
    · exact hports i

/-- `add_accepted` keeps the server valid, and the place it returns is confirmed. -/
theorem addAccepted_valid (sodium : Sodium) (kill env : TcpEnv) (h : server.Valid)
    (hports : ∀ i, (con.connections i).status = .unused) :
    (server.addAccepted sodium kill env con).2.Valid ∧
      ∀ index, (server.addAccepted sodium kill env con).1 = some index →
        ∃ con', (server.addAccepted sodium kill env con).2.acceptedConnectionArray[index]? = some con' ∧
          con'.status = .confirmed := by
  have hnew : ∃ server', (if server.getTcpConnectionIndex con.publicKey ≠ -1 then
      (server.killAccepted sodium kill (server.getTcpConnectionIndex con.publicKey).toNat).2 else server) = server' ∧
      server'.Valid ∧ ∀ c, server'.table.owner c ≠ some con.publicKey := by
    refine ⟨_, rfl, ?_⟩
    rcases h.indexed.getTcpConnectionIndex con.publicKey with ⟨c, hfind, howner⟩ | ⟨hfind, habsent⟩
    · rw [hfind, if_pos (by omega), Int.toNat_natCast]
      obtain ⟨hvalid, hothers⟩ := killAccepted_without sodium kill h c
      refine ⟨hvalid, fun d hd => ?_⟩
      obtain ⟨hne, hd⟩ := (hothers d _).mp hd
      exact hne (h.paired.owner_injective d c _ hd howner)
    · rw [hfind, if_neg (by simp)]
      exact ⟨h, habsent⟩
  obtain ⟨server', hserver', hvalid', hnew⟩ := hnew
  unfold addAccepted
  simp only [hserver']
  obtain ⟨hvalid, htable, hfree⟩ := findPlace_free env hvalid'
  rcases hplace : server'.findPlace env with ⟨_ | index, placed⟩
  · rw [hplace] at hvalid
    exact ⟨hvalid, nofun⟩
  · rw [hplace] at hvalid htable hfree
    obtain ⟨free, hget, hnone⟩ := hfree index rfl
    have hlength : con.publicKey.toList.length = placed.acceptedKeyList.elementSize := by
      rw [hvalid.indexed.size, con.publicKey.toList_length]
    rcases hvalid.indexed.wellFormed.bsListAdd_spec hlength env.allocKeysGrow index with
      ⟨list, hadd, hwell, hsize, hadded⟩ | ⟨hadd, -⟩
    · simp only [hadd]
      refine ⟨?_, ?_⟩
      swap
      · rintro index' ⟨⟩
        exact ⟨_, getElem?_set_self (List.getElem?_eq_some_iff.mp hget).1, rfl⟩
      refine Valid.take { con with
        status := .confirmed
        identifier := placed.counter + 1
        lastPinged := env.unixTime
        pingId := 0 } hvalid hget hnone ?_ rfl hports hwell hsize hadded _
      intro c hc
      rw [htable] at hc
      exact hnew c hc
    · simp only [hadd]
      exact ⟨hvalid, nofun⟩

/-! ## Requesting a port -/

/-- A kept server with paired ports is valid. -/
theorem Kept.valid (h : Kept server server') (hvalid : server.Valid) (hpaired : Paired server'.table) : server'.Valid :=
  ⟨h.indexed hvalid.indexed, h.idle hvalid.idle, hpaired⟩

/-- A port of a confirmed connection that waits. -/
theorem waiting_iff (hcon : server.acceptedConnectionArray[index]? = some con) (hstatus : con.status = .confirmed)
    (i : Fin numClientConnections) (key : PublicKey) :
    server.table.port index i = .waiting key ↔
      (con.connections i).status = .offline ∧ (con.connections i).publicKey = key := by
  rw [table_port hcon hstatus, ClientPort.view]
  split <;> simp_all

/-- A port of a confirmed connection that names a key. -/
theorem names_iff (hcon : server.acceptedConnectionArray[index]? = some con) (hstatus : con.status = .confirmed)
    (i : Fin numClientConnections) (key : PublicKey) :
    (server.table.port index i).names = some key ↔
      (con.connections i).status ≠ .unused ∧ (con.connections i).publicKey = key := by
  rw [table_port hcon hstatus, ClientPort.view]
  split <;> simp_all

/-- Two ports point at each other after they were joined. -/
theorem joinPorts_spec (sodium : Sodium) (env : TcpEnv) {conId d : ℕ} {other : TcpSecureConnection} (hne : conId ≠ d)
    (hcon : server.acceptedConnectionArray[conId]? = some con) (hstatus : con.status = .confirmed)
    (hget : server.acceptedConnectionArray[d]? = some other) (hotherStatus : other.status = .confirmed)
    (i j : Fin numClientConnections) :
    Kept server (server.joinPorts sodium env conId i d j) ∧
      (server.joinPorts sodium env conId i d j).table =
        (server.table.setPort conId i (.joined (con.connections i).publicKey d j)).setPort d j
          (.joined (other.connections j).publicKey conId i) := by
  have hkept := setPort_kept hcon hstatus i fun con =>
    { con.connections i with status := .online, index := d, otherId := j }
  have hget' : (server.modifyConnection conId fun con => con.setPort i
      { con.connections i with status := .online, index := d, otherId := j }).acceptedConnectionArray[d]? =
        some other := by
    rw [modifyConnection_get, if_neg hne, hget]
  have hkept' := setPort_kept hget' hotherStatus j fun con =>
    { con.connections j with status := .online, index := conId, otherId := i }
  constructor
  · exact ((hkept.trans hkept').trans (write_kept ..)).trans (write_kept ..)
  · rw [joinPorts, sendConnectNotification, sendConnectNotification, write_table, write_table,
      modifyConnection_setPort hget' hotherStatus, modifyConnection_setPort hcon hstatus]
    rfl

/-- The end of `handle_TCP_routing_req` keeps the ports paired. -/
theorem takePort_valid (sodium : Sodium) (env : TcpEnv) (h : server.Valid) {conId : ℕ}
    (hcon : server.acceptedConnectionArray[conId]? = some con) (hstatus : con.status = .confirmed)
    {i : Fin numClientConnections} (hunused : (con.connections i).status = .unused) {publicKey : PublicKey}
    (hforeign : con.publicKey ≠ publicKey)
    (hnew : ∀ j, ¬((con.connections j).status ≠ .unused ∧ (con.connections j).publicKey = publicKey)) :
    (server.takePort sodium env conId con.publicKey i publicKey).Valid := by
  have hown := table_owner hcon hstatus
  have hport : server.table.port conId i = .unused := by rw [table_port hcon hstatus, ClientPort.view, hunused]
  have hnames : ∀ j, (server.table.port conId j).names ≠ some publicKey := fun j hj =>
    hnew j ((names_iff hcon hstatus j publicKey).mp hj)
  have hkept := setPort_kept hcon hstatus i fun con =>
    { con.connections i with status := .offline, publicKey := publicKey }
  have htable := modifyConnection_setPort hcon hstatus i fun con =>
    { con.connections i with status := .offline, publicKey := publicKey }
  have hwait : (∀ d, server.table.owner d = some publicKey → ∀ j, server.table.port d j ≠ .waiting con.publicKey) →
      (server.modifyConnection conId fun con => con.setPort i
        { con.connections i with status := .offline, publicKey := publicKey }).Valid := by
    intro hfree
    refine hkept.valid h ?_
    rw [htable]
    exact h.paired.request hown hport hforeign hnames hfree
  have hindex : (server.modifyConnection conId fun con => con.setPort i
      { con.connections i with status := .offline, publicKey := publicKey }).getTcpConnectionIndex publicKey =
        server.getTcpConnectionIndex publicKey := rfl
  simp only [takePort, hindex]
  rcases h.indexed.getTcpConnectionIndex publicKey with ⟨d, hfind, hother⟩ | ⟨hfind, habsent⟩
  · have hne : conId ≠ d := by
      rintro rfl
      rw [hown, some_inj] at hother
      exact hforeign hother
    obtain ⟨other, hget, hotherStatus, -⟩ := owned hother
    have hget' := modifyConnection_get server conId (fun con => con.setPort i
      { con.connections i with status := .offline, publicKey := publicKey }) d
    rw [if_neg hne, hget] at hget'
    rw [hfind, if_neg (by omega), Int.toNat_natCast, hget']
    simp only
    split
    · rename_i hnone
      apply hwait
      intro d' hd' j hwaiting
      obtain rfl := h.paired.owner_injective d' d _ hd' hother
      have := find?_eq_none.mp hnone j (mem_finRange j)
      rw [decide_eq_true_iff] at this
      exact this ((waiting_iff hget hotherStatus j con.publicKey).mp hwaiting)
    · rename_i j hj
      have hwaiting := find?_some hj
      rw [decide_eq_true_iff] at hwaiting
      obtain ⟨con', hcon', hstatus', hkey'⟩ := hkept.confirmed hcon hstatus
      have hnamed : (con'.connections i).publicKey = publicKey := by
        rw [modifyConnection_get, if_pos rfl, hcon, map_some, some_inj] at hcon'
        simp [← hcon', TcpSecureConnection.setPort]
      obtain ⟨hkept', htable'⟩ := joinPorts_spec sodium env hne hcon' hstatus' hget' hotherStatus i j
      refine (hkept.trans hkept').valid h ?_
      rw [htable', htable, hnamed, hwaiting.2, Table.setPort_setPort]
      exact h.paired.join hown hport hforeign hnames hother ((waiting_iff hget hotherStatus j _).mpr hwaiting)
  · rw [hfind, if_pos rfl]
    exact hwait fun d hd => absurd hd (habsent d)

/-! ## Packets and runs -/

/-- A write that keeps the status, the key and the ports. -/
theorem modifyConnection_valid (h : server.Valid) (hstatus : ∀ con, (f con).status = con.status)
    (hkey : ∀ con, (f con).publicKey = con.publicKey) (hports : ∀ con, (f con).connections = con.connections) :
    (server.modifyConnection index f).Valid :=
  (modifyConnection_kept hstatus hkey fun con _ _ => hports con).valid h
    (by rw [modifyConnection_table hstatus hkey hports]; exact h.paired)

/-- A packet is written. -/
theorem write_valid (h : server.Valid) (sodium : Sodium) (env : SocketEnv) (index : ℕ) (data : Bytes)
    (priority : Bool) :
    (server.write sodium env index data priority).2.Valid :=
  (write_kept sodium env server index data priority).valid h
    (by rw [write_table sodium env server index data priority]; exact h.paired)

/-- A write keeps the ports of the connection it is for. -/
theorem write_get (sodium : Sodium) (env : SocketEnv) (hcon : server.acceptedConnectionArray[index]? = some con)
    (data : Bytes) (priority : Bool) :
    ∃ con', (server.write sodium env index data priority).2.acceptedConnectionArray[index]? = some con' ∧
      con'.status = con.status ∧ con'.publicKey = con.publicKey ∧ con'.connections = con.connections := by
  refine ⟨(con.writePacket sodium env data priority).2, ?_, con.writePacket_kept sodium env data priority⟩
  simp only [write, hcon]
  rw [modifyConnection_get, if_pos rfl, hcon, map_some]

/-- `rm_connection_index` keeps the ports paired. -/
theorem rmConnectionIndex_valid (sodium : Sodium) (env : SocketEnv) (h : server.Valid)
    (hcon : server.acceptedConnectionArray[index]? = some con) (hstatus : con.status = .confirmed) (conNumber : UInt8) :
    (server.rmConnectionIndex sodium env index conNumber).2.Valid := by
  unfold rmConnectionIndex
  split
  · obtain ⟨hkept, htable⟩ := rmPort_release sodium env h.paired hcon hstatus ⟨conNumber.toNat, ‹_›⟩
    exact hkept.valid h (htable ▸ h.paired.release _ _)
  · exact h

/-- `handle_TCP_routing_req` keeps the ports paired. -/
theorem handleTcpRoutingReq_valid (sodium : Sodium) (env : TcpEnv) (h : server.Valid)
    (hcon : server.acceptedConnectionArray[index]? = some con) (hstatus : con.status = .confirmed)
    (publicKey : PublicKey) :
    (server.handleTcpRoutingReq sodium env index publicKey).2.Valid := by
  simp only [handleTcpRoutingReq, hcon]
  split
  · exact write_valid h ..
  · rename_i hforeign
    split
    · exact write_valid h ..
    · rename_i hnone
      split
      · exact write_valid h ..
      · rename_i i hi
        have hwritten := write_valid h sodium (env.socket 0) index
          (tcpPacketRoutingResponse :: portNumber i :: publicKey.toList) true
        obtain ⟨con', hcon', hstatus', hkey', hports'⟩ := write_get sodium (env.socket 0) hcon
          (tcpPacketRoutingResponse :: portNumber i :: publicKey.toList) true
        rw [sendRoutingResponse]
        revert hwritten hcon'
        rcases server.write sodium (env.socket 0) index (tcpPacketRoutingResponse :: portNumber i ::
          publicKey.toList) true
          with ⟨_ | _ | _, server'⟩
        · exact fun hwritten _ => hwritten
        · exact fun hwritten _ => hwritten
        · intro hwritten hcon'
          rw [← hkey']
          refine takePort_valid sodium env hwritten hcon' (hstatus'.trans hstatus) ?_ (hkey' ▸ hforeign) ?_
          · rw [hports']
            simpa using find?_some hi
          · intro j hj
            rw [hports'] at hj
            exact find?_eq_none.mp hnone j (mem_finRange j) (decide_eq_true_iff.mpr hj)

/-- `handle_TCP_oob_send` only writes. -/
theorem handleTcpOobSend_valid (sodium : Sodium) (env : TcpEnv) (h : server.Valid) (index : ℕ) (publicKey : PublicKey)
    (data : Bytes) : (server.handleTcpOobSend sodium env index publicKey data).2.Valid := by
  unfold handleTcpOobSend
  split
  · exact h
  · split
    · exact h
    · simp only
      split
      · exact h
      · exact write_valid h ..

/-- Data is relayed by a write. -/
theorem relayData_valid (sodium : Sodium) (env : TcpEnv) (h : server.Valid) (index : ℕ) (data : Bytes)
    (cId : Fin numClientConnections) : (server.relayData sodium env index data cId).2.Valid := by
  unfold relayData
  split
  · exact h
  · split
    · exact h
    · exact h
    · exact write_valid h ..

/-- `handle_TCP_packet` keeps the ports paired. -/
theorem handleTcpPacket_valid (sodium : Sodium) (env : TcpEnv) (h : server.Valid)
    (hcon : server.acceptedConnectionArray[index]? = some con) (hstatus : con.status = .confirmed) (data : Bytes) :
    (server.handleTcpPacket sodium env index data).2.Valid := by
  have hpong : (server.modifyConnection index (TcpSecureConnection.takePong (packetPingId data))).Valid :=
    modifyConnection_valid h (fun con => (con.takePong_kept _).1) (fun con => (con.takePong_kept _).2.1)
      fun con => (con.takePong_kept _).2.2
  have hbranch : ∀ {p : Prop} [Decidable p] {a b : Bool × TcpServer}, a.2.Valid → b.2.Valid →
    (if p then a else b).2.Valid := by
    intro p _ a b ha hb
    split <;> assumption
  unfold handleTcpPacket
  cases data.head? with
  | none => exact h
  | some kind =>
    refine hbranch (hbranch h (handleTcpRoutingReq_valid sodium env h hcon hstatus _)) ?_
    refine hbranch h ?_
    refine hbranch (hbranch h (rmConnectionIndex_valid sodium (env.socket 0) h hcon hstatus _)) ?_
    refine hbranch (hbranch h (write_valid h ..)) ?_
    refine hbranch (hbranch h (hbranch h hpong)) ?_
    refine hbranch (hbranch h (handleTcpOobSend_valid sodium env h index _ _)) ?_
    refine hbranch (hbranch h h) ?_
    refine hbranch h ?_
    by_cases hport : kind.toNat < numReservedPorts
    · rw [dif_pos hport]
      exact h
    · rw [dif_neg hport]
      exact relayData_valid sodium env h index data _

/-- `confirm_TCP_connection` keeps the ports paired. -/
theorem confirmTcpConnection_valid (sodium : Sodium) (killOld add handle killNew : TcpEnv) (h : server.Valid)
    (hports : ∀ i, (con.connections i).status = .unused) (data : Bytes) :
    (server.confirmTcpConnection sodium killOld add handle killNew con data).2.Valid := by
  obtain ⟨hvalid, hconfirmed⟩ := addAccepted_valid sodium killOld add h hports
  unfold confirmTcpConnection
  rcases hadd : server.addAccepted sodium killOld add con with ⟨_ | index, server'⟩
  · rw [hadd] at hvalid
    exact hvalid
  · rw [hadd] at hvalid hconfirmed
    obtain ⟨con', hcon', hstatus'⟩ := hconfirmed index rfl
    have hhandled := handleTcpPacket_valid sodium handle hvalid hcon' hstatus' data
    simp only
    rcases hhandle : server'.handleTcpPacket sodium handle index data with ⟨_ | _, server''⟩
    · rw [hhandle] at hhandled
      exact (killAccepted_without sodium killNew hhandled index).valid
    · rw [hhandle] at hhandled
      exact hhandled

/-- A packet, or a failure to read one, keeps the ports paired. -/
theorem confirmedRecv_valid (sodium : Sodium) (handle kill : TcpEnv) (h : server.Valid)
    (hcon : server.acceptedConnectionArray[index]? = some con) (hstatus : con.status = .confirmed)
    (packet : Option Bytes) :
    (server.confirmedRecv sodium handle kill index packet).Valid := by
  cases packet with
  | none => exact (killAccepted_without sodium kill h index).valid
  | some packet =>
    have hhandled := handleTcpPacket_valid sodium handle h hcon hstatus packet
    unfold confirmedRecv
    simp only
    rcases hhandle : server.handleTcpPacket sodium handle index packet with ⟨_ | _, server'⟩
    · rw [hhandle] at hhandled
      exact (killAccepted_without sodium kill hhandled index).valid
    · rw [hhandle] at hhandled
      exact hhandled

/-- `do_TCP_confirmed` keeps the ports paired. -/
theorem serveConfirmed_valid (sodium : Sodium) (env kill : TcpEnv) (h : server.Valid) (pingId : UInt64) (i : ℕ) :
    (server.serveConfirmed sodium env kill pingId i).Valid := by
  unfold serveConfirmed
  split
  · exact h
  · rename_i con hcon
    split
    · exact h
    · have hwritten := write_valid h sodium (env.socket 0) i (tcpPacketPing :: (beBytes 8 pingId.toNat).reverse) true
      generalize hasked : (ite (isTimeout env.unixTime con.lastPinged tcpPingFrequency =
        true) _ _ : Bool × TcpServer) = asked
      have hvalid : asked.2.Valid := by
        rw [← hasked]
        split
        · revert hwritten
          rcases server.write sodium (env.socket 0) i (tcpPacketPing :: (beBytes 8 pingId.toNat).reverse) true
            with ⟨_ | _ | _, server'⟩
          · exact id
          · exact id
          · exact fun hwritten => modifyConnection_valid hwritten (fun _ => rfl) (fun _ => rfl) fun _ => rfl
        · exact h
      dsimp only
      split
      · exact (killAccepted_without sodium kill hvalid i).valid
      · split
        · exact hvalid
        · split
          · exact (killAccepted_without sodium kill hvalid i).valid
          · exact modifyConnection_valid hvalid (fun con => (con.sendPendingData_kept _).1)
              (fun con => (con.sendPendingData_kept _).2.1) fun con => (con.sendPendingData_kept _).2.2

end TcpServer

/-! ## Runs -/

/-- What can happen to the accepted connections, with what each call observes. -/
inductive TcpOperation where
  | confirm (killOld add handle killNew : TcpEnv) (publicKey : PublicKey) (sentNonce : Nonce) (sharedKey : SharedKey)
      (data : Bytes)
  | receive (handle last : TcpEnv) (i : ℕ) (packet : Option Bytes)
  | serve (env last : TcpEnv) (pingId : UInt64) (i : ℕ)
  | kill (env : TcpEnv) (i : ℕ)

/-- The server after an operation. Packets are read from confirmed connections only. -/
def TcpOperation.exec (sodium : Sodium) (op : TcpOperation) (server : TcpServer) : TcpServer :=
  match op with
  | .confirm killOld add handle killNew publicKey sentNonce sharedKey data =>
    (server.confirmTcpConnection sodium killOld add handle killNew (.ofHandshake publicKey sentNonce sharedKey) data).2
  | .receive handle last i packet =>
    if (server.acceptedConnectionArray[i]?.map TcpSecureConnection.status) = some .confirmed then
      server.confirmedRecv sodium handle last i packet
    else server
  | .serve env last pingId i => server.serveConfirmed sodium env last pingId i
  | .kill env i => (server.killAccepted sodium env i).2

/-- The servers reached from a new one. -/
inductive TcpReaches (sodium : Sodium) : TcpServer → Prop
  | new (onion : Bool) : TcpReaches sodium (.new onion)
  | step {server : TcpServer} (h : TcpReaches sodium server) (op : TcpOperation) :
      TcpReaches sodium (op.exec sodium server)

/-- A new server is valid. -/
theorem TcpServer.new_valid (onion : Bool) : (TcpServer.new onion).Valid where
  indexed := by
    refine ⟨BsList.bsListInit_wellFormed 32 8, rfl, ?_, nofun, rfl⟩
    intro x id
    exact ⟨nofun, fun ⟨_, _, _, _, howner⟩ => nomatch howner⟩
  idle := nofun
  paired := by
    constructor
    case vacant => exact fun _ _ _ => rfl
    all_goals simp [TcpServer.table, TcpServer.new]

/-- An operation keeps the server valid. -/
theorem TcpOperation.exec_valid (sodium : Sodium) (op : TcpOperation) {server : TcpServer} (h : server.Valid) :
    (op.exec sodium server).Valid := by
  cases op with
  | confirm killOld add handle lastNew publicKey sentNonce sharedKey data =>
    exact TcpServer.confirmTcpConnection_valid sodium killOld add handle lastNew h (fun _ => rfl) data
  | receive handle last i packet =>
    simp only [exec]
    split
    · rename_i hstatus
      obtain ⟨con, hcon, hstatus⟩ := map_eq_some_iff.mp hstatus
      exact TcpServer.confirmedRecv_valid sodium handle last h hcon hstatus packet
    · exact h
  | serve env last pingId i => exact TcpServer.serveConfirmed_valid sodium env last h pingId i
  | kill env i => exact (TcpServer.killAccepted_without sodium env h i).valid

/-- Every server that is reached is valid. -/
theorem TcpReaches.valid {sodium : Sodium} {server : TcpServer} (h : TcpReaches sodium server) : server.Valid := by
  induction h with
  | new onion => exact TcpServer.new_valid onion
  | step _ op ih => exact op.exec_valid sodium ih

/-- An accepted connection that is confirmed. -/
def TcpServer.Confirmed (server : TcpServer) (c : ℕ) (con : TcpSecureConnection) : Prop :=
  server.acceptedConnectionArray[c]? = some con ∧ con.status = .confirmed

/-- A port that is in use and names a key. -/
def ClientPort.Names (port : ClientPort) (key : PublicKey) : Prop := port.status ≠ .unused ∧ port.publicKey = key

/-- A port that is online, with the other end. -/
def ClientPort.JoinedTo (port : ClientPort) (d : ℕ) (j : Fin numClientConnections) : Prop :=
  port.status = .online ∧ port.index = d ∧ port.otherId = j

/-- The connections are found by their keys, and their ports are joined in pairs: joined ports point at each other and
name each other's keys, and two clients who name each other are joined. What is relayed for a client comes out at a
port that names the client. -/
structure TcpServer.RelaysInPairs (server : TcpServer) : Prop where
  keyed : ∀ (key : PublicKey) (c : ℕ), server.getTcpConnectionIndex key = c ↔
    ∃ con, server.Confirmed c con ∧ con.publicKey = key
  distinct : ∀ c con i j key, server.Confirmed c con → (con.connections i).Names key →
    (con.connections j).Names key → i = j
  foreign : ∀ c con i, server.Confirmed c con → ¬(con.connections i).Names con.publicKey
  joined : ∀ c con i d j, server.Confirmed c con → (con.connections i).JoinedTo d j →
    ∃ other, server.Confirmed d other ∧ other.publicKey = (con.connections i).publicKey ∧
      (other.connections j).JoinedTo c i ∧ (other.connections j).publicKey = con.publicKey
  complete : ∀ c con d other i j, server.Confirmed c con → server.Confirmed d other →
    (con.connections i).Names other.publicKey → (other.connections j).Names con.publicKey →
    (con.connections i).JoinedTo d j ∧ (other.connections j).JoinedTo c i
  relayed : ∀ sodium env c con data i, server.Confirmed c con →
    (server.relayData sodium env c data i).2 = server ∨
      ∃ d other j, server.Confirmed d other ∧ (other.connections j).Names con.publicKey ∧
        (server.relayData sodium env c data i).2 =
          (server.write sodium (env.socket 0) d (portNumber j :: data.drop 1) false).2

namespace TcpServer

variable {server : TcpServer} {c : ℕ} {con : TcpSecureConnection} {i : Fin numClientConnections}

/-- The table shows which ports are joined. -/
theorem joinedTo_iff (hcon : server.Confirmed c con) (d : ℕ) (j : Fin numClientConnections) (key : PublicKey) :
    server.table.port c i = .joined key d j ↔ (con.connections i).JoinedTo d j ∧
      (con.connections i).publicKey = key := by
  rw [table_port hcon.1 hcon.2, ClientPort.view, ClientPort.JoinedTo]
  split <;> simp_all
  tauto

/-- The ports of a valid server are joined in pairs. -/
theorem Valid.relaysInPairs (h : server.Valid) : server.RelaysInPairs where
  keyed := by
    intro key c
    constructor
    · intro hfind
      rcases h.indexed.getTcpConnectionIndex key with ⟨c', hfind', howner⟩ | ⟨hfind', -⟩
      · obtain ⟨con, hcon, hstatus, hkey⟩ := owned howner
        obtain rfl : c = c' := by omega
        exact ⟨con, ⟨hcon, hstatus⟩, hkey⟩
      · omega
    · rintro ⟨con, hcon, rfl⟩
      have howner := table_owner hcon.1 hcon.2
      rcases h.indexed.getTcpConnectionIndex con.publicKey with ⟨c', hfind', howner'⟩ | ⟨-, habsent⟩
      · rw [hfind', h.paired.owner_injective c' c _ howner' howner]
      · exact absurd howner (habsent c)
  distinct := by
    intro c con i j key hcon hi hj
    exact h.paired.distinct c i j key ((names_iff hcon.1 hcon.2 i key).mpr hi) ((names_iff hcon.1 hcon.2 j key).mpr hj)
  foreign := by
    intro c con i hcon hi
    exact h.paired.foreign c _ (table_owner hcon.1 hcon.2) i ((names_iff hcon.1 hcon.2 i _).mpr hi)
  joined := by
    intro c con i d j hcon hi
    obtain ⟨hother, own, hown, hback⟩ := h.paired.joined c i _ d j ((joinedTo_iff hcon d j _).mpr ⟨hi, rfl⟩)
    rw [table_owner hcon.1 hcon.2, some_inj] at hown
    obtain ⟨other, hget, hstatus, hkey⟩ := owned hother
    obtain ⟨hj, hname⟩ := (joinedTo_iff ⟨hget, hstatus⟩ c i own).mp hback
    exact ⟨other, ⟨hget, hstatus⟩, hkey, hj, hname.trans hown.symm⟩
  complete := by
    intro c con d other i j hcon hother hi hj
    have hown := table_owner hcon.1 hcon.2
    have hown' := table_owner hother.1 hother.2
    have hnames := (names_iff hcon.1 hcon.2 i _).mpr hi
    have hnames' := (names_iff hother.1 hother.2 j _).mpr hj
    exact ⟨((joinedTo_iff hcon d j _).mp (h.paired.complete c d _ _ i j hown hown' hnames hnames')).1,
      ((joinedTo_iff hother c i _).mp (h.paired.complete d c _ _ j i hown' hown hnames' hnames)).1⟩
  relayed := by
    intro sodium env c con data i hcon
    simp only [relayData, hcon.1]
    cases hstatus : (con.connections i).status with
    | unused => exact .inl rfl
    | offline => exact .inl rfl
    | online =>
      have hjoined : (con.connections i).JoinedTo (con.connections i).index (con.connections i).otherId :=
        ⟨hstatus, rfl, rfl⟩
      obtain ⟨hother, own, hown, hback⟩ := h.paired.joined c i _ _ _ ((joinedTo_iff hcon _ _ _).mpr ⟨hjoined, rfl⟩)
      rw [table_owner hcon.1 hcon.2, some_inj] at hown
      obtain ⟨other, hget, hotherStatus, -⟩ := owned hother
      refine .inr ⟨_, other, (con.connections i).otherId, ⟨hget, hotherStatus⟩, ?_, rfl⟩
      rw [ClientPort.Names, ← names_iff hget hotherStatus, hback, Port.names_joined, hown]

end TcpServer

/-- After any run of the relay its connections are found by their keys and its ports are joined in pairs. -/
theorem tcpReaches_relaysInPairs (sodium : Sodium) (server : TcpServer) (h : TcpReaches sodium server) :
    server.RelaysInPairs := h.valid.relaysInPairs

/-- A call in which every send goes through and every allocation succeeds. -/
def TcpEnv.calm : TcpEnv := ⟨fun _ => ⟨fun _ => 0, 0, true⟩, 0, true, true, true⟩

/-- A client connects and asks for a port to the owner of a key. -/
def exampleRequest (key other : PublicKey) : TcpOperation :=
  .confirm .calm .calm .calm .calm key (slice 24 [] 0) (slice 32 [] 0) (tcpPacketRoutingRequest :: other.toList)

/-- Two clients that ask for each other. -/
def exampleRelay : TcpServer :=
  (exampleRequest (.replicate 32 2) (.replicate 32 1)).exec .plain
    ((exampleRequest (.replicate 32 1) (.replicate 32 2)).exec .plain (.new false))

/-- Two clients that ask for each other are joined. -/
theorem tcpReaches_relaysInPairs_joined :
    exampleRelay.RelaysInPairs ∧
      (exampleRelay.acceptedConnectionArray[0]?.map fun con =>
        ((con.connections 0).status, (con.connections 0).index)) = some (.online, 3) := by
  refine ⟨tcpReaches_relaysInPairs .plain exampleRelay (.step (.step (.new false) _) _), ?_⟩
  decide +kernel

end Toxcore
