import Toxcore.Data.EntryFormat
import Toxcore.DHT.Nodes

/-!
# Packed nodes

`pack_nodes` writes each node as a type byte, the address, the port and the key. An entry is longer for an IPv6 address.
`unpack_nodes` reads entries until it has enough nodes or no data is left. A node is stored over the old contents of the
array of the caller: with an IPv4 address the rest of the union keeps its bytes.

A read past the end of the data is not modelled: the result is `none`.
-/

namespace Toxcore

open ByteStrings List Option

/-- `TCP_INET`. -/
def tcpInet : UInt8 := afInet6 + 2

/-- `TCP_INET6`. -/
def tcpInet6 : UInt8 := afInet6 + 3

/-- `TOX_AF_INET`. -/
def toxAfInet : UInt8 := 2

/-- `TOX_AF_INET6`. -/
def toxAfInet6 : UInt8 := 10

/-- `TOX_TCP_INET`. -/
def toxTcpInet : UInt8 := 130

/-- `TOX_TCP_INET6`. -/
def toxTcpInet6 : UInt8 := 138

/-- `SIZE_IP4`, and `SIZE_IP6` for `true`. -/
abbrev sizeIp (ipv6 : Bool) : ℕ := if ipv6 then 16 else 4

/-- `PACKED_NODE_SIZE_IP4`, and `PACKED_NODE_SIZE_IP6` for `true`. -/
abbrev packedNodeSizeIp (ipv6 : Bool) : ℕ := 1 + sizeIp ipv6 + 2 + 32

/-- The variables `ipv6` and `net_family` of `pack_nodes`. -/
def netFamily (family : UInt8) : Option (Bool × UInt8) :=
  if family = afInet then some (false, toxAfInet)
  else if family = tcpInet then some (false, toxTcpInet)
  else if family = afInet6 then some (true, toxAfInet6)
  else if family = tcpInet6 then some (true, toxTcpInet6)
  else none

/-- The bytes of one entry. -/
def packNode (ipv6 : Bool) (netFamily : UInt8) (node : NodeFormat) : Bytes :=
  netFamily :: ((if ipv6 then node.ipPort.ip.bytes.toList else node.ipPort.ip.ip4.toList) ++
    (beBytes 2 node.ipPort.port.toNat ++ node.publicKey.toList))

/-- The loop of `pack_nodes`: the return value, and the bytes written. -/
def packNodesLoop (length : ℕ) : List NodeFormat → ℕ → Option ℕ × Bytes
  | [], packedLength => (some packedLength, [])
  | node :: nodes, packedLength =>
    match netFamily node.ipPort.ip.family with
    | none => (none, [])
    | some (ipv6, family) =>
      if packedLength + packedNodeSizeIp ipv6 > length then (none, [])
      else
        let (result, written) := packNodesLoop length nodes (packedLength + packedNodeSizeIp ipv6)
        (result, packNode ipv6 family node ++ written)

/-- `pack_nodes`: the return value, `none` for -1, and the bytes written. -/
def packNodes (length : UInt16) (nodes : List NodeFormat) (number : UInt16) : Option ℕ × Bytes :=
  packNodesLoop length.toNat (nodes.take number.toNat) 0

/-- The variables `ipv6` and `host_family` of `unpack_nodes`. -/
def hostFamily (tcpEnabled : Bool) (type : UInt8) : Option (Bool × UInt8) :=
  if type = toxAfInet then some (false, afInet)
  else if type = toxTcpInet then if !tcpEnabled then none else some (false, tcpInet)
  else if type = toxAfInet6 then some (true, afInet6)
  else if type = toxTcpInet6 then if !tcpEnabled then none else some (true, tcpInet6)
  else none

/-- An element of the array after an entry was stored in it. -/
def unpackNode (ipv6 : Bool) (hostFamily : UInt8) (entry : Bytes) (node : NodeFormat) : NodeFormat where
  publicKey := slice 32 entry (1 + sizeIp ipv6 + 2)
  ipPort := { node.ipPort with
    ip := { node.ipPort.ip with
      family := hostFamily
      bytes := slice 16 ((entry.drop 1).take (sizeIp ipv6) ++ node.ipPort.ip.bytes.toList.drop (sizeIp ipv6)) 0 }
    port := UInt16.ofNat (beNat (slice 2 entry (1 + sizeIp ipv6)).toList) }

/-- The loop of `unpack_nodes`, by the number of nodes that may still be read. -/
def unpackNodesLoop (nodes : ℕ → NodeFormat) (data : Bytes) (length : ℕ) (tcpEnabled : Bool) :
    ℕ → ℕ → ℕ → Option (Option (List NodeFormat × ℕ))
  | 0, _, lenProcessed => some (some ([], lenProcessed))
  | limit + 1, num, lenProcessed =>
    if lenProcessed < length then
      match data[lenProcessed]? with
      | none => none
      | some type =>
        match hostFamily tcpEnabled type with
        | none => some none
        | some (ipv6, family) =>
          if lenProcessed + packedNodeSizeIp ipv6 > length then some none
          else if lenProcessed + packedNodeSizeIp ipv6 > data.length then none
          else
            (unpackNodesLoop nodes data length tcpEnabled limit (num + 1)
              (lenProcessed + packedNodeSizeIp ipv6)).map fun result => result.map fun (unpacked, processed) =>
                (unpackNode ipv6 family (data.drop lenProcessed) (nodes num) :: unpacked, processed)
    else some (some ([], lenProcessed))

/-- `unpack_nodes`: the nodes and the length of the processed data, the inner `none` for -1. `nodes` is the array of the
caller before the call. -/
def unpackNodes (nodes : ℕ → NodeFormat) (maxNumNodes : UInt16) (data : Bytes) (length : UInt16) (tcpEnabled : Bool) :
    Option (Option (List NodeFormat × ℕ)) :=
  unpackNodesLoop nodes data length.toNat tcpEnabled maxNumNodes.toNat 0 0

/-! ## The format of an entry -/

/-- The family of a node in memory. -/
def familyOf (ipv6 tcp : Bool) : UInt8 :=
  if ipv6 then if tcp then tcpInet6 else afInet6 else if tcp then tcpInet else afInet

/-- The type byte of an entry. -/
def typeOf (ipv6 tcp : Bool) : UInt8 :=
  if ipv6 then if tcp then toxTcpInet6 else toxAfInet6 else if tcp then toxTcpInet else toxAfInet

theorem netFamily_familyOf (ipv6 tcp : Bool) : netFamily (familyOf ipv6 tcp) = some (ipv6, typeOf ipv6 tcp) := by
  revert ipv6 tcp
  decide

variable {tcpEnabled : Bool} {length start : ℕ} {nodes : List NodeFormat} {data : Bytes}

theorem hostFamily_typeOf (ipv6 : Bool) {tcp : Bool} (h : tcp → tcpEnabled) :
    hostFamily tcpEnabled (typeOf ipv6 tcp) = some (ipv6, familyOf ipv6 tcp) := by
  revert tcpEnabled ipv6 tcp
  decide

variable {ipv6 : Bool} {entry : Bytes}

/-- The families that are packed. -/
theorem netFamily_some {family type : UInt8} (h : netFamily family = some (ipv6, type)) :
    ∃ tcp : Bool, family = familyOf ipv6 tcp ∧ type = typeOf ipv6 tcp := by
  unfold netFamily at h
  split at h
  case isTrue hfamily => exact ⟨false, by simp_all [familyOf, typeOf]⟩
  split at h
  case isTrue hfamily => exact ⟨true, by simp_all [familyOf, typeOf]⟩
  split at h
  case isTrue hfamily => exact ⟨false, by simp_all [familyOf, typeOf]⟩
  split at h
  case isTrue hfamily => exact ⟨true, by simp_all [familyOf, typeOf]⟩
  exact absurd h (by simp)

/-- The types that are unpacked. -/
theorem hostFamily_some {type family : UInt8} (h : hostFamily tcpEnabled type = some (ipv6, family)) :
    ∃ tcp : Bool, (tcp → tcpEnabled) ∧ type = typeOf ipv6 tcp ∧ family = familyOf ipv6 tcp := by
  unfold hostFamily at h
  split at h
  case isTrue htype => exact ⟨false, by simp_all [familyOf, typeOf]⟩
  split at h
  case isTrue htype => cases tcpEnabled with
    | false => exact absurd h (by simp)
    | true => exact ⟨true, by simp_all [familyOf, typeOf]⟩
  split at h
  case isTrue htype => exact ⟨false, by simp_all [familyOf, typeOf]⟩
  split at h
  case isTrue htype => cases tcpEnabled with
    | false => exact absurd h (by simp)
    | true => exact ⟨true, by simp_all [familyOf, typeOf]⟩
  exact absurd h (by simp)

/-- What an entry says about a node: whether the address is an IPv6 one and the node a TCP relay, the address, the port
and the key. -/
structure PackedNode where
  ipv6 : Bool
  tcp : Bool
  address : Block (sizeIp ipv6)
  port : UInt16
  publicKey : PublicKey

namespace PackedNode

/-- The entry of a node. -/
def write (node : PackedNode) : Bytes :=
  typeOf node.ipv6 node.tcp :: (node.address.toList ++ (beBytes 2 node.port.toNat ++ node.publicKey.toList))

@[simp] theorem write_length (node : PackedNode) : node.write.length = packedNodeSizeIp node.ipv6 := by
  simp only [write, length_cons, length_append, beBytes_length, List.Vector.toList_length, packedNodeSizeIp]
  omega

/-- The node of an entry whose type is known. -/
def ofEntry (ipv6 tcp : Bool) (entry : Bytes) : PackedNode where
  ipv6 := ipv6
  tcp := tcp
  address := slice (sizeIp ipv6) entry 1
  port := UInt16.ofNat (beNat (slice 2 entry (1 + sizeIp ipv6)).toList)
  publicKey := slice 32 entry (1 + sizeIp ipv6 + 2)

/-- A node is read back from its entry. -/
theorem ofEntry_write (node : PackedNode) (rest : Bytes) : ofEntry node.ipv6 node.tcp (node.write ++ rest) = node := by
  obtain ⟨ipv6, tcp, address, port, publicKey⟩ := node
  have hport : UInt16.ofNat (beNat (beBytes 2 port.toNat)) = port := by
    rw [beNat_beBytes_of_lt port.toNat_lt, UInt16.ofNat_toNat]
  simp only [ofEntry, write, ← beBlock_toList, cons_append, append_assoc, mk.injEq, heq_eq_eq, true_and]
  refine ⟨?_, ?_, ?_⟩
  · rw [slice_cons, slice_block]
  · rw [Nat.add_comm 1, slice_cons, slice_at _ _ _ address.toList_length, beBlock_toList, hport]
  · rw [show 1 + sizeIp ipv6 + 2 = sizeIp ipv6 + 2 + 1 by omega, slice_cons, slice_skip,
      slice_at _ _ _ (List.Vector.toList_length _)]

/-- The bytes of a complete entry are those of its node. -/
theorem write_ofEntry {tcp : Bool} {body : Bytes} (h : packedNodeSizeIp ipv6 ≤ body.length + 1) :
    (ofEntry ipv6 tcp (typeOf ipv6 tcp :: body)).write ++ body.drop (sizeIp ipv6 + (2 + 32)) =
      typeOf ipv6 tcp :: body := by
  simp only [packedNodeSizeIp] at h
  have hport : beBytes 2 (UInt16.ofNat (beNat (slice 2 body (sizeIp ipv6)).toList)).toNat =
      (slice 2 body (sizeIp ipv6)).toList := by
    have hlt := beNat_lt (slice 2 body (sizeIp ipv6)).toList
    have hbytes := beBytes_beNat (slice 2 body (sizeIp ipv6)).toList
    rw [List.Vector.toList_length] at hlt hbytes
    rw [UInt16.toNat_ofNat_of_lt' hlt, hbytes]
  simp only [ofEntry, write, Nat.add_comm 1 (sizeIp ipv6), Nat.add_right_comm _ 1 2, slice_cons, hport,
    cons_append, append_assoc, List.cons.injEq, true_and]
  rw [show sizeIp ipv6 + (2 + 32) = sizeIp ipv6 + 2 + 32 by omega, slice_append_drop (by omega),
    slice_append_drop (by omega)]
  have hfront : (slice (sizeIp ipv6) body 0).toList ++ body.drop (0 + sizeIp ipv6) = body.drop 0 :=
    slice_append_drop (by omega)
  simpa using hfront

/-- What stands behind an entry does not matter. -/
theorem ofEntry_append {tcp : Bool} (h : packedNodeSizeIp ipv6 ≤ entry.length) (rest : Bytes) :
    ofEntry ipv6 tcp (entry ++ rest) = ofEntry ipv6 tcp entry := by
  rw [packedNodeSizeIp] at h
  rw [ofEntry, ofEntry, slice_append_left _ _ (by omega), slice_append_left _ _ (by omega),
    slice_append_left _ _ (by omega)]

/-- The node of the entry a string starts with, and what follows it. -/
def read (tcpEnabled : Bool) (bytes : Bytes) : Option (PackedNode × Bytes) :=
  match hostFamily tcpEnabled (bytes.headD 0) with
  | none => none
  | some (ipv6, family) =>
    if packedNodeSizeIp ipv6 ≤ bytes.length then
      some (ofEntry ipv6 (family = familyOf ipv6 true) bytes, bytes.drop (packedNodeSizeIp ipv6))
    else none

/-- An entry is read by its type. -/
theorem read_cons (tcpEnabled : Bool) (type : UInt8) (body : Bytes) :
    read tcpEnabled (type :: body) =
      match hostFamily tcpEnabled type with
      | none => none
      | some (ipv6, family) =>
        if packedNodeSizeIp ipv6 ≤ (type :: body).length then
          some (ofEntry ipv6 (family = familyOf ipv6 true) (type :: body), (type :: body).drop (packedNodeSizeIp ipv6))
        else none := rfl

theorem familyOf_tcp (ipv6 tcp : Bool) : decide (familyOf ipv6 tcp = familyOf ipv6 true) = tcp := by
  revert ipv6 tcp
  decide

/-- What was written is read back. -/
theorem read_write {node : PackedNode} (h : node.tcp → tcpEnabled) (rest : Bytes) :
    read tcpEnabled (node.write ++ rest) = some (node, rest) := by
  have hhead : (node.write ++ rest).headD 0 = typeOf node.ipv6 node.tcp := rfl
  have hlength : packedNodeSizeIp node.ipv6 ≤ (node.write ++ rest).length := by
    rw [length_append, write_length]
    omega
  rw [read, hhead, hostFamily_typeOf node.ipv6 h]
  simp only [if_pos hlength, familyOf_tcp, ofEntry_write, drop_left' node.write_length]

/-- What was read is what was written. -/
theorem write_read {bytes rest : Bytes} {node : PackedNode} (h : read tcpEnabled bytes = some (node, rest)) :
    node.write ++ rest = bytes ∧ (node.tcp → tcpEnabled) := by
  unfold read at h
  cases hhost : hostFamily tcpEnabled (bytes.headD 0) with
  | none =>
    rw [hhost] at h
    exact absurd h (by simp)
  | some result =>
    obtain ⟨ipv6, family⟩ := result
    simp only [hhost, ite_none_right_eq_some, some.injEq, Prod.mk.injEq] at h
    obtain ⟨hlength, rfl, rfl⟩ := h
    obtain ⟨tcp, htcp, htype, rfl⟩ := hostFamily_some hhost
    rw [familyOf_tcp]
    refine ⟨?_, htcp⟩
    cases bytes with
    | nil =>
      rw [packedNodeSizeIp, length_nil] at hlength
      omega
    | cons type body =>
      obtain rfl : type = typeOf ipv6 tcp := htype
      rw [show packedNodeSizeIp ipv6 = sizeIp ipv6 + (2 + 32) + 1 by rw [packedNodeSizeIp]; omega, drop_succ_cons]
      exact write_ofEntry hlength

/-- The format of the entries. -/
def format (tcpEnabled : Bool) : EntryFormat PackedNode UInt8 where
  write := write
  read := read tcpEnabled
  Permitted node := node.tcp → tcpEnabled
  read_write := read_write
  write_read := write_read
  write_ne_nil _ := cons_ne_nil _ _

/-- The family, the bytes of the address, the port and the key. -/
def fields (node : PackedNode) : UInt8 × Bytes × UInt16 × PublicKey :=
  (familyOf node.ipv6 node.tcp, node.address.toList, node.port, node.publicKey)

end PackedNode

/-- The family of a node is one of an IPv6 address. -/
def isIpv6 (family : UInt8) : Bool := family = afInet6 || family = tcpInet6

/-- What is packed of a node: its family, the bytes of the address of the family, the port and the key. -/
def NodeFormat.fields (node : NodeFormat) : UInt8 × Bytes × UInt16 × PublicKey :=
  (node.ipPort.ip.family, node.ipPort.ip.bytes.toList.take (sizeIp (isIpv6 node.ipPort.ip.family)), node.ipPort.port,
    node.publicKey)

theorem isIpv6_familyOf (ipv6 tcp : Bool) : isIpv6 (familyOf ipv6 tcp) = ipv6 := by
  revert ipv6 tcp
  decide

/-- The bytes packed for a node. -/
theorem packNode_eq (ipv6 : Bool) (type : UInt8) (node : NodeFormat) :
    packNode ipv6 type node = type :: (node.ipPort.ip.bytes.toList.take (sizeIp ipv6) ++
      (beBytes 2 node.ipPort.port.toNat ++ node.publicKey.toList)) := by
  cases ipv6 with
  | false =>
    simp only [packNode, Ip.ip4, Bool.false_eq_true, if_false]
    rw [slice_toList (by simp), drop_zero]
    rfl
  | true =>
    simp only [packNode, if_true]
    rw [take_of_length_le (by rw [List.Vector.toList_length]; exact le_refl 16)]

/-- A node with the fields of an entry is packed as that entry. -/
theorem packNode_of_fields {node : NodeFormat} {entry : PackedNode} (h : node.fields = entry.fields) :
    netFamily node.ipPort.ip.family = some (entry.ipv6, typeOf entry.ipv6 entry.tcp) ∧
      packNode entry.ipv6 (typeOf entry.ipv6 entry.tcp) node = entry.write := by
  simp only [NodeFormat.fields, PackedNode.fields, Prod.mk.injEq] at h
  obtain ⟨hfamily, haddress, hport, hkey⟩ := h
  rw [hfamily, isIpv6_familyOf] at haddress
  rw [hfamily, netFamily_familyOf, packNode_eq, haddress, hport, hkey]
  exact ⟨rfl, rfl⟩

/-- A node whose family is packed has the fields of an entry. -/
theorem exists_entry_of_family {node : NodeFormat} {ipv6 tcp : Bool} (h : node.ipPort.ip.family = familyOf ipv6 tcp) :
    ∃ entry : PackedNode, node.fields = entry.fields ∧ entry.ipv6 = ipv6 ∧ entry.tcp = tcp := by
  have hsize : sizeIp ipv6 ≤ 16 := by cases ipv6 <;> decide
  refine ⟨⟨ipv6, tcp, slice (sizeIp ipv6) node.ipPort.ip.bytes.toList 0, node.ipPort.port, node.publicKey⟩, ?_,
    rfl, rfl⟩
  simp only [NodeFormat.fields, PackedNode.fields, h, isIpv6_familyOf]
  rw [slice_toList (by simpa using hsize), drop_zero]

/-- A node that is unpacked has the fields of its entry. -/
theorem unpackNode_fields (ipv6 tcp : Bool) (h : packedNodeSizeIp ipv6 ≤ entry.length) (node : NodeFormat) :
    (unpackNode ipv6 (familyOf ipv6 tcp) entry node).fields = (PackedNode.ofEntry ipv6 tcp entry).fields := by
  rw [packedNodeSizeIp] at h
  have hsize : sizeIp ipv6 ≤ 16 := by cases ipv6 <;> decide
  have hlength : ((entry.drop 1).take (sizeIp ipv6)).length = sizeIp ipv6 := by
    rw [length_take, length_drop]
    omega
  simp only [NodeFormat.fields, unpackNode, PackedNode.fields, PackedNode.ofEntry, isIpv6_familyOf, Prod.mk.injEq,
    true_and, and_true]
  rw [slice_toList (by simp only [length_append, hlength, length_drop, List.Vector.toList_length]; omega),
    drop_zero, take_take, Nat.min_eq_left hsize, take_left' hlength, slice_toList (by omega)]

/-! ## The loops -/

/-- Nodes that fit are packed as their entries. -/
theorem packNodesLoop_of_fields {entries : List PackedNode}
    (h : nodes.map NodeFormat.fields = entries.map PackedNode.fields)
    (hfits : start + (entries.flatMap PackedNode.write).length ≤ length) :
    packNodesLoop length nodes start =
      (some (start + (entries.flatMap PackedNode.write).length), entries.flatMap PackedNode.write) := by
  induction nodes generalizing entries start with
  | nil =>
    obtain rfl : entries = [] := by simpa using h
    rfl
  | cons node nodes ih =>
    cases entries with
    | nil => exact absurd h (by simp)
    | cons entry entries =>
      simp only [map_cons, List.cons.injEq] at h
      obtain ⟨hfamily, hpack⟩ := packNode_of_fields h.1
      simp only [flatMap_cons, length_append, PackedNode.write_length] at hfits ⊢
      simp only [packNodesLoop, hfamily]
      rw [if_neg (by omega), ih h.2 (by omega), hpack, Nat.add_assoc]

/-- What is packed are entries, and they fit. -/
theorem packNodesLoop_some {n : ℕ} {written : Bytes} (hstart : start ≤ length)
    (h : packNodesLoop length nodes start = (some n, written)) :
    ∃ entries : List PackedNode, nodes.map NodeFormat.fields = entries.map PackedNode.fields ∧
      written = entries.flatMap PackedNode.write ∧ n = start + written.length ∧ n ≤ length := by
  induction nodes generalizing start written with
  | nil =>
    simp only [packNodesLoop, Prod.mk.injEq, some.injEq] at h
    obtain ⟨rfl, rfl⟩ := h
    exact ⟨[], rfl, rfl, rfl, hstart⟩
  | cons node nodes ih =>
    unfold packNodesLoop at h
    cases hnet : netFamily node.ipPort.ip.family with
    | none => simp [hnet] at h
    | some result =>
      obtain ⟨tcp, hknown, -⟩ := netFamily_some hnet
      obtain ⟨entry, hfields, -⟩ := exists_entry_of_family hknown
      obtain ⟨hfamily, hpack⟩ := packNode_of_fields hfields
      simp only [hfamily] at h
      by_cases hlong : start + packedNodeSizeIp entry.ipv6 > length
      · rw [if_pos hlong] at h
        exact absurd h (by simp)
      · rcases hrest : packNodesLoop length nodes (start + packedNodeSizeIp entry.ipv6) with ⟨result', more⟩
        simp only [if_neg hlong, hrest, Prod.mk.injEq] at h
        obtain ⟨rfl, rfl⟩ := h
        obtain ⟨entries, hentries, hwritten, hn, hle⟩ := ih (by omega) hrest
        refine ⟨entry :: entries, by rw [map_cons, map_cons, hfields, hentries], ?_, ?_, hle⟩
        · rw [hpack, hwritten, flatMap_cons]
        · rw [length_append, hpack, PackedNode.write_length, hn, Nat.add_assoc]

/-- No more is written than fits, whether all nodes are packed or not. -/
theorem packNodesLoop_written_le (length : ℕ) (nodes : List NodeFormat) (h : start ≤ length) :
    start + (packNodesLoop length nodes start).2.length ≤ length := by
  induction nodes generalizing start with
  | nil => exact h
  | cons node nodes ih =>
    unfold packNodesLoop
    cases hnet : netFamily node.ipPort.ip.family with
    | none => exact h
    | some result =>
      obtain ⟨tcp, hknown, -⟩ := netFamily_some hnet
      obtain ⟨entry, hfields, -⟩ := exists_entry_of_family hknown
      obtain ⟨hfamily, hpack⟩ := packNode_of_fields hfields
      obtain rfl : result = (entry.ipv6, typeOf entry.ipv6 entry.tcp) := some.inj (hnet.symm.trans hfamily)
      by_cases hlong : start + packedNodeSizeIp entry.ipv6 > length
      · simpa [if_pos hlong] using h
      · have hrest : start + packedNodeSizeIp entry.ipv6 + _ ≤ length := ih (Nat.le_of_not_lt hlong)
        simp only [if_neg hlong, length_append, hpack, PackedNode.write_length]
        omega

/-- The loop reads the entries of the data up to its length, and nothing behind it. -/
theorem unpackNodesLoop_eq (nodes : ℕ → NodeFormat) (hlength : length ≤ data.length) (tcpEnabled : Bool)
    (limit num : ℕ) {lenProcessed : ℕ} (hlen : lenProcessed ≤ length) :
    ∃ result, unpackNodesLoop nodes data length tcpEnabled limit num lenProcessed = some result ∧
      result.map (fun unpacked => (unpacked.1.map NodeFormat.fields, unpacked.2)) =
        ((PackedNode.format tcpEnabled).readMany limit ((data.take length).drop lenProcessed)).map
          fun entries => (entries.1.map PackedNode.fields, length - entries.2.length) := by
  induction limit generalizing num lenProcessed with
  | zero =>
    refine ⟨_, rfl, ?_⟩
    simp only [EntryFormat.readMany, map_some, map_nil, length_drop, length_take]
    congr 2
    omega
  | succ limit ih =>
    have hrest : (data.take length).drop lenProcessed ++ data.drop length = data.drop lenProcessed := by
      rw [← drop_append_of_le_length (by rw [length_take]; omega), take_append_drop]
    have hrestLength : ((data.take length).drop lenProcessed).length = length - lenProcessed := by
      rw [length_drop, length_take]
      omega
    rw [unpackNodesLoop]
    by_cases hmore : lenProcessed < length
    · rw [if_pos hmore]
      cases hbytes : (data.take length).drop lenProcessed with
      | nil =>
        rw [hbytes, length_nil] at hrestLength
        omega
      | cons type body =>
        have htype : data[lenProcessed]? = some type := by
          rw [← head?_drop, ← hrest, hbytes]
          rfl
        rw [hbytes] at hrest hrestLength
        simp only [htype]
        cases hhost : hostFamily tcpEnabled type with
        | none =>
          have hread : (PackedNode.format tcpEnabled).read (type :: body) = none := by
            change PackedNode.read tcpEnabled (type :: body) = none
            rw [PackedNode.read_cons, hhost]
          exact ⟨none, rfl, by rw [EntryFormat.readMany, hread]; rfl⟩
        | some result =>
          obtain ⟨ipv6, family⟩ := result
          simp only
          by_cases hshort : lenProcessed + packedNodeSizeIp ipv6 > length
          · have hread : (PackedNode.format tcpEnabled).read (type :: body) = none := by
              change PackedNode.read tcpEnabled (type :: body) = none
              rw [PackedNode.read_cons, hhost]
              exact if_neg (by omega)
            exact ⟨none, if_pos hshort, by rw [EntryFormat.readMany, hread]; rfl⟩
          · obtain ⟨tcp, htcp, -, rfl⟩ := hostFamily_some hhost
            have hsize : packedNodeSizeIp ipv6 ≤ (type :: body).length := by omega
            have hread : (PackedNode.format tcpEnabled).read (type :: body) =
                some (PackedNode.ofEntry ipv6 tcp (type :: body), (type :: body).drop (packedNodeSizeIp ipv6)) := by
              change PackedNode.read tcpEnabled (type :: body) = _
              rw [PackedNode.read_cons, hhost]
              simp only [if_pos hsize, PackedNode.familyOf_tcp]
            have hnode : (unpackNode ipv6 (familyOf ipv6 tcp) (data.drop lenProcessed) (nodes num)).fields =
                (PackedNode.ofEntry ipv6 tcp (type :: body)).fields := by
              rw [← hrest, unpackNode_fields _ _ (by rw [length_append]; omega), PackedNode.ofEntry_append hsize]
            have hnext : lenProcessed + packedNodeSizeIp ipv6 ≤ length := by omega
            obtain ⟨result, hresult, hfields⟩ := ih (num + 1) hnext
            rw [if_neg hshort, if_neg (by omega), hresult, (PackedNode.format tcpEnabled).readMany_succ hread]
            rw [← drop_drop, hbytes] at hfields
            refine ⟨_, rfl, ?_⟩
            cases hmany : (PackedNode.format tcpEnabled).readMany limit
              ((type :: body).drop (packedNodeSizeIp ipv6)) with
            | none =>
              rw [hmany, map_none, map_eq_none_iff] at hfields
              rw [hfields]
              rfl
            | some entries =>
              rw [hmany, map_some, map_eq_some_iff] at hfields
              obtain ⟨unpacked, rfl, heq⟩ := hfields
              simp only [Prod.mk.injEq] at heq
              simp only [map_some, map_cons, hnode, heq.1, heq.2]
    · rw [if_neg hmore, drop_eq_nil_of_le (by rw [length_take]; omega)]
      obtain rfl : lenProcessed = length := by omega
      exact ⟨_, rfl, rfl⟩

/-! ## Round trips -/

/-- Packed nodes are unpacked to the same nodes. -/
theorem unpackNodes_of_fields (array : ℕ → NodeFormat) {entries : List PackedNode} {maxNumNodes length : UInt16}
    (htcp : ∀ entry ∈ entries, entry.tcp → tcpEnabled)
    (h : nodes.map NodeFormat.fields = entries.map PackedNode.fields) (hmax : nodes.length ≤ maxNumNodes.toNat)
    (hlength : length.toNat ≤ data.length) (hdata : data.take length.toNat = entries.flatMap PackedNode.write) :
    ∃ unpacked, unpackNodes array maxNumNodes data length tcpEnabled = some (some (unpacked, length.toNat)) ∧
      unpacked.map NodeFormat.fields = nodes.map NodeFormat.fields := by
  have hcount : entries.length ≤ maxNumNodes.toNat := by
    have hsame := congrArg List.length h
    rw [length_map, length_map] at hsame
    omega
  obtain ⟨result, hresult, hfields⟩ :=
    unpackNodesLoop_eq array hlength tcpEnabled maxNumNodes.toNat 0 (Nat.zero_le length.toNat)
  have hread : (PackedNode.format tcpEnabled).readMany maxNumNodes.toNat ((data.take length.toNat).drop 0) =
      some (entries, []) := by
    rw [drop_zero, hdata]
    exact (PackedNode.format tcpEnabled).readMany_writeMany entries htcp hcount
  rw [hread, map_some, map_eq_some_iff] at hfields
  obtain ⟨⟨unpacked, processed⟩, rfl, heq⟩ := hfields
  simp only [length_nil, Nat.sub_zero, Prod.mk.injEq] at heq
  obtain ⟨hunpacked, rfl⟩ := heq
  exact ⟨unpacked, hresult, hunpacked.trans h.symm⟩

/-- A complete entry of a permitted type. -/
def IsEntry (tcpEnabled : Bool) (entry : Bytes) : Prop :=
  entry.length = packedNodeSizeIp false ∧
      (entry.head? = some toxAfInet ∨ tcpEnabled ∧ entry.head? = some toxTcpInet) ∨
    entry.length = packedNodeSizeIp true ∧
      (entry.head? = some toxAfInet6 ∨ tcpEnabled ∧ entry.head? = some toxTcpInet6)

/-- An entry is what a permitted node is written as. -/
theorem isEntry_iff :
    IsEntry tcpEnabled entry ↔ ∃ node, (PackedNode.format tcpEnabled).Permitted node ∧
      (PackedNode.format tcpEnabled).write node = entry := by
  have hnode (ipv6 tcp : Bool) (htcp : tcp → tcpEnabled) (hlength : entry.length = packedNodeSizeIp ipv6)
      (hhead : entry.head? = some (typeOf ipv6 tcp)) : ∃ node, (PackedNode.format tcpEnabled).Permitted node ∧
        (PackedNode.format tcpEnabled).write node = entry := by
    cases entry with
    | nil => exact absurd hhead (by simp)
    | cons type body =>
      obtain rfl : type = typeOf ipv6 tcp := by simpa using hhead
      rw [length_cons] at hlength
      have hwrite : (PackedNode.ofEntry ipv6 tcp (typeOf ipv6 tcp :: body)).write ++
          body.drop (sizeIp ipv6 + (2 + 32)) = typeOf ipv6 tcp :: body := PackedNode.write_ofEntry hlength.ge
      rw [drop_eq_nil_of_le (by rw [packedNodeSizeIp] at hlength; omega), append_nil] at hwrite
      exact ⟨PackedNode.ofEntry ipv6 tcp _, htcp, hwrite⟩
  constructor
  · rintro (⟨hlength, hhead | ⟨htcp, hhead⟩⟩ | ⟨hlength, hhead | ⟨htcp, hhead⟩⟩)
    · exact hnode false false (by simp) hlength hhead
    · exact hnode false true (fun _ => htcp) hlength hhead
    · exact hnode true false (by simp) hlength hhead
    · exact hnode true true (fun _ => htcp) hlength hhead
  · rintro ⟨node, htcp, rfl⟩
    have hlength : node.write.length = packedNodeSizeIp node.ipv6 := node.write_length
    have hhead : node.write.head? = some (typeOf node.ipv6 node.tcp) := rfl
    obtain ⟨ipv6, tcp, address, port, publicKey⟩ := node
    cases ipv6 with
    | false => cases tcp with
      | false => exact .inl ⟨hlength, .inl hhead⟩
      | true => exact .inl ⟨hlength, .inr ⟨htcp rfl, hhead⟩⟩
    | true => cases tcp with
      | false => exact .inr ⟨hlength, .inl hhead⟩
      | true => exact .inr ⟨hlength, .inr ⟨htcp rfl, hhead⟩⟩

/-- Entries are the entries of nodes. -/
theorem exists_nodes_of_isEntry {entries : List Bytes} (h : ∀ entry ∈ entries, IsEntry tcpEnabled entry) :
    ∃ nodes : List PackedNode, (∀ node ∈ nodes, (PackedNode.format tcpEnabled).Permitted node) ∧
      nodes.map (PackedNode.format tcpEnabled).write = entries := by
  induction entries with
  | nil => exact ⟨[], by simp, rfl⟩
  | cons entry entries ih =>
    obtain ⟨hentry, hentries⟩ := forall_mem_cons.mp h
    obtain ⟨node, hnode, rfl⟩ := isEntry_iff.mp hentry
    obtain ⟨nodes, hnodes, rfl⟩ := ih hentries
    exact ⟨node :: nodes, forall_mem_cons.mpr ⟨hnode, hnodes⟩, rfl⟩

/-- Before enough entries were read, a rest that is not empty does not start with an entry. -/
def BreaksOff (tcpEnabled : Bool) (limit : ℕ) (data : Bytes) : Prop :=
  ∃ (entries : List Bytes) (rest : Bytes), entries.flatten ++ rest = data ∧
    (∀ entry ∈ entries, IsEntry tcpEnabled entry) ∧ entries.length < limit ∧ rest ≠ [] ∧
      ¬∃ entry tail, IsEntry tcpEnabled entry ∧ entry ++ tail = rest

/-- Reading fails where the data breaks off. -/
theorem readMany_eq_none_iff_breaksOff {limit : ℕ} :
    (PackedNode.format tcpEnabled).readMany limit data = none ↔ BreaksOff tcpEnabled limit data := by
  have hstart (rest : Bytes) : (PackedNode.format tcpEnabled).read rest = none ↔
      ¬∃ entry tail, IsEntry tcpEnabled entry ∧ entry ++ tail = rest := by
    rw [EntryFormat.read_eq_none_iff, not_iff_not]
    constructor
    · rintro ⟨node, tail, hnode, rfl⟩
      exact ⟨_, tail, isEntry_iff.mpr ⟨node, hnode, rfl⟩, rfl⟩
    · rintro ⟨entry, tail, hentry, rfl⟩
      obtain ⟨node, hnode, rfl⟩ := isEntry_iff.mp hentry
      exact ⟨node, tail, hnode, rfl⟩
  rw [EntryFormat.readMany_eq_none_iff]
  constructor
  · rintro ⟨nodes, rest, rfl, hnodes, hlimit, hrest, hread⟩
    refine ⟨nodes.map (PackedNode.format tcpEnabled).write, rest, rfl, ?_, by rwa [length_map], hrest,
      (hstart rest).mp hread⟩
    intro entry hentry
    obtain ⟨node, hnode, rfl⟩ := List.mem_map.mp hentry
    exact isEntry_iff.mpr ⟨node, hnodes node hnode, rfl⟩
  · rintro ⟨entries, rest, rfl, hentries, hlimit, hrest, hread⟩
    obtain ⟨nodes, hnodes, rfl⟩ := exists_nodes_of_isEntry hentries
    exact ⟨nodes, rest, rfl, hnodes, by rwa [length_map] at hlimit, hrest, (hstart rest).mpr hread⟩

/-- What is unpacked from data of a length, without a read behind it: the failures, and the nodes, which are packed as
the data that was processed. -/
theorem unpackNodes_spec (array : ℕ → NodeFormat) (maxNumNodes : UInt16) (hdata : data.length < 2 ^ 16)
    (tcpEnabled : Bool) :
    ∃ result, unpackNodes array maxNumNodes data (UInt16.ofNat data.length) tcpEnabled = some result ∧
      (result = none ↔ BreaksOff tcpEnabled maxNumNodes.toNat data) ∧
      ∀ nodes processed, result = some (nodes, processed) → ∀ length : UInt16, processed ≤ length.toNat →
        packNodes length nodes (UInt16.ofNat nodes.length) = (some processed, data.take processed) := by
  have hlength : (UInt16.ofNat data.length).toNat = data.length := UInt16.toNat_ofNat_of_lt' hdata
  obtain ⟨result, hresult, hfields⟩ :=
    unpackNodesLoop_eq array hlength.le tcpEnabled maxNumNodes.toNat 0 (Nat.zero_le _)
  rw [hlength, take_length, drop_zero] at hfields
  refine ⟨result, hresult, ?_, ?_⟩
  · rw [← readMany_eq_none_iff_breaksOff, ← map_eq_none_iff, hfields, map_eq_none_iff]
  · rintro nodes processed rfl length hprocessed
    rw [map_some, eq_comm, map_eq_some_iff] at hfields
    obtain ⟨⟨entries, rest⟩, hread, heq⟩ := hfields
    simp only [Prod.mk.injEq] at heq
    obtain ⟨hwritten, -, hcount, -⟩ := (PackedNode.format tcpEnabled).writeMany_readMany hread
    change entries.flatMap PackedNode.write ++ rest = data at hwritten
    have hsize : (entries.flatMap PackedNode.write).length = processed := by
      rw [← heq.2, ← hwritten, length_append]
      omega
    have hnodes : nodes.length = entries.length := by
      have hsame := congrArg List.length heq.1
      rw [length_map, length_map] at hsame
      exact hsame.symm
    have hnumber : (UInt16.ofNat nodes.length).toNat = nodes.length := by
      have hle : nodes.length ≤ maxNumNodes.toNat := hnodes ▸ hcount
      exact UInt16.toNat_ofNat_of_lt' (lt_of_le_of_lt hle maxNumNodes.toNat_lt)
    rw [packNodes, hnumber, take_length, packNodesLoop_of_fields heq.1.symm (by omega), hsize, Nat.zero_add,
      ← hwritten, take_left' hsize]

/-- Packing and unpacking undo each other. Nodes that were packed are read back with all of what was written; for every
data up to a length, unpacking reads nothing behind it, fails exactly where the data breaks off before enough nodes were
read, and gives nodes that are packed as the processed part of the data. -/
theorem packNodes_unpackNodes (array : ℕ → NodeFormat) (maxNumNodes : UInt16) :
    (∀ (length number : UInt16) (nodes : List NodeFormat) (n : ℕ) (written : Bytes), nodes.length = number.toNat →
      number ≤ maxNumNodes → packNodes length nodes number = (some n, written) →
        ∃ unpacked, unpackNodes array maxNumNodes (written.take n) (UInt16.ofNat n) true = some (some (unpacked, n)) ∧
          unpacked.map NodeFormat.fields = nodes.map NodeFormat.fields) ∧
    ∀ (data : Bytes) (tcpEnabled : Bool), data.length < 2 ^ 16 →
      ∃ result, unpackNodes array maxNumNodes data (UInt16.ofNat data.length) tcpEnabled = some result ∧
        (result = none ↔ BreaksOff tcpEnabled maxNumNodes.toNat data) ∧
        ∀ nodes processed, result = some (nodes, processed) → ∀ length : UInt16, processed ≤ length.toNat →
          packNodes length nodes (UInt16.ofNat nodes.length) = (some processed, data.take processed) := by
  refine ⟨?_, fun data tcpEnabled hdata => unpackNodes_spec array maxNumNodes hdata tcpEnabled⟩
  intro length number nodes n written hnodes hmax h
  rw [packNodes, ← hnodes, take_length] at h
  obtain ⟨entries, hfields, rfl, hn, hle⟩ := packNodesLoop_some (Nat.zero_le _) h
  rw [Nat.zero_add] at hn
  have hlength : (UInt16.ofNat n).toNat = n := UInt16.toNat_ofNat_of_lt' (lt_of_le_of_lt hle length.toNat_lt)
  have htake : (entries.flatMap PackedNode.write).take n = entries.flatMap PackedNode.write := by
    rw [hn, take_length]
  obtain ⟨unpacked, hunpacked, hsame⟩ := unpackNodes_of_fields array (fun _ _ _ => rfl) hfields
    (hnodes ▸ UInt16.le_iff_toNat_le.mp hmax) (hlength.trans hn).le
    (show (entries.flatMap PackedNode.write).take (UInt16.ofNat n).toNat = _ by rw [hlength, htake])
  rw [hlength] at hunpacked
  exact ⟨unpacked, by rw [htake]; exact hunpacked, hsame⟩

/-- A node with an IPv4 address and a TCP relay with an IPv6 one. -/
def twoNodes : List NodeFormat :=
  [⟨List.Vector.replicate 32 7,
    ⟨⟨afInet, List.Vector.replicate 7 0, List.Vector.replicate 16 1⟩, 2, List.Vector.replicate 6 0⟩⟩,
    ⟨List.Vector.replicate 32 8,
      ⟨⟨tcpInet6, List.Vector.replicate 7 0, List.Vector.replicate 16 3⟩, 4, List.Vector.replicate 6 0⟩⟩]

/-- Two nodes take 90 bytes and are read back. -/
theorem packNodes_unpackNodes_twoNodes :
    (packNodes 200 twoNodes 2).1 = some 90 ∧
      ∃ unpacked, unpackNodes (fun _ => .zero) 2 ((packNodes 200 twoNodes 2).2.take 90) 90 true =
          some (some (unpacked, 90)) ∧
        unpacked.map NodeFormat.fields = twoNodes.map NodeFormat.fields := by
  have hpack : (packNodes 200 twoNodes 2).1 = some 90 := by decide +kernel
  exact ⟨hpack, (packNodes_unpackNodes (fun _ => .zero) 2).1 200 2 twoNodes 90 _ rfl (by decide) (Prod.ext hpack rfl)⟩

end Toxcore
