import Mathlib.Data.List.OfFn
import Toxcore.DHT.PackedNodes

/-!
# Saving and loading nodes

`DHT_save` writes a cookie and one section: its length, its type and the packed nodes of the close list and of the
lists of the first friends. The length that is given to `pack_nodes` has 16 bits. It is enough for 1023 nodes; with
more it wraps and the nodes do not fit any more, so that the section has the length `0xFFFFFFFF`, which `DHT_load`
rejects.
-/

namespace Toxcore

open ByteStrings List

/-- `DHT_FAKE_FRIEND_NUMBER`. -/
abbrev dhtFakeFriendNumber : ℕ := 2

/-- `MAX_SAVED_DHT_NODES`. -/
abbrev maxSavedDhtNodes : ℕ := (dhtFakeFriendNumber * maxFriendClients + lclientList) * 2

/-- `DHT_STATE_COOKIE_GLOBAL`. -/
def dhtStateCookieGlobal : UInt32 := 0x159000d

/-- `DHT_STATE_COOKIE_TYPE`. -/
def dhtStateCookieType : UInt16 := 0x11ce

/-- `DHT_STATE_TYPE_NODES`. -/
def dhtStateTypeNodes : UInt16 := 4

/-- `sizeof(Node_format)`: a key and a stored address with its padding. -/
abbrev sizeofNodeFormat : ℕ := 32 + 32

/-! ## Words -/

/-- `host_to_lendian32`. -/
def hostToLendian32 (num : UInt32) : Bytes := (beBytes 4 num.toNat).reverse

/-- `lendian_to_host32`. -/
def lendianToHost32 (lendian : Bytes) : UInt32 := UInt32.ofNat (beNat (slice 4 lendian 0).toList.reverse)

@[simp] theorem hostToLendian32_length (num : UInt32) : (hostToLendian32 num).length = 4 := by
  rw [hostToLendian32, length_reverse, beBytes_length]

/-- A word at the front of a string is read back. -/
theorem lendianToHost32_append (num : UInt32) (rest : Bytes) : lendianToHost32 (hostToLendian32 num ++ rest) = num := by
  have hslice : (slice 4 (hostToLendian32 num ++ rest) 0).toList = hostToLendian32 num := by
    rw [slice_toList (by simp), drop_zero, take_left' (hostToLendian32_length num)]
  rw [lendianToHost32, hslice, hostToLendian32, reverse_reverse, beNat_beBytes_of_lt num.toNat_lt,
    UInt32.ofNat_toNat]

/-! ## Saving -/

/-- The nodes that are saved for an entry. -/
def ClientData.saved (client : ClientData) : List NodeFormat :=
  (if client.assoc4.timestamp ≠ 0 then [⟨client.publicKey, client.assoc4.ipPort⟩] else []) ++
    if client.assoc6.timestamp ≠ 0 then [⟨client.publicKey, client.assoc6.ipPort⟩] else []

/-- The entries that are looked at: the close list and the lists of the first friends. -/
def savedClients (dht : Dht) : List ClientData :=
  List.ofFn dht.closeClientlist ++
    (dht.friendsList.take dhtFakeFriendNumber).flatMap fun friend => List.ofFn friend.clientList

/-- The array `clients` of `DHT_save`. -/
def savedNodes (dht : Dht) : List NodeFormat := (savedClients dht).flatMap ClientData.saved

/-- `DHT_size`. -/
def dhtSize (dht : Dht) : UInt32 :=
  let numv4 := (savedClients dht).countP fun client => client.assoc4.timestamp ≠ 0
  let numv6 := (savedClients dht).countP fun client => client.assoc6.timestamp ≠ 0
  4 + 4 * 2 + UInt32.ofNat (packedNodeSizeIp false) * UInt32.ofNat numv4 +
    UInt32.ofNat (packedNodeSizeIp true) * UInt32.ofNat numv6

/-- `z_state_save_subheader`: what it writes. -/
def zStateSaveSubheader (len : UInt32) (type : UInt16) : Bytes :=
  hostToLendian32 len ++ hostToLendian32 (dhtStateCookieType.toUInt32 <<< 16 ||| type.toUInt32)

/-- `DHT_save`: the bytes it writes, from the start of the data. A return value of -1 of `pack_nodes` becomes the length
of the section. -/
def dhtSave (dht : Dht) : Bytes :=
  let clients := savedNodes dht
  let (result, packed) := packNodes (UInt16.ofNat (sizeofNodeFormat * clients.length)) clients
    (UInt16.ofNat clients.length)
  hostToLendian32 dhtStateCookieGlobal ++
    (zStateSaveSubheader ((result.map UInt32.ofNat).getD 0xFFFFFFFF) dhtStateTypeNodes ++ packed)

/-! ## Loading -/

/-- The return value of a callback of `load_state`: -1, -2 or any other one. -/
inductive LoadStatus where
  | failed
  | ended
  | loaded

/-- `load_state`, with the return value 0 as `true`. -/
def loadState {σ : Type*} (loadStateCallback : σ → Bytes → UInt16 → LoadStatus × σ) (cookieInner : UInt16) (outer : σ)
    (data : Bytes) : Bool × σ :=
  if 8 ≤ data.length then
    let lengthSub := (lendianToHost32 data).toNat
    let cookieType := lendianToHost32 (data.drop 4)
    let body := data.drop 8
    if body.length < lengthSub then (false, outer)
    else if (cookieType >>> 16).toUInt16 ≠ cookieInner then (false, outer)
    else
      match loadStateCallback outer (body.take lengthSub) (cookieType &&& 0xFFFF).toUInt16 with
      | (.failed, outer) => (false, outer)
      | (.ended, outer) => (true, outer)
      | (.loaded, outer) => loadState loadStateCallback cookieInner outer (body.drop lengthSub)
  else (data.isEmpty, outer)
termination_by data.length
decreasing_by
  rw [length_drop, length_drop]
  omega

variable {σ : Type*} {len : UInt32} {dht : Dht}

/-- What the callback keeps, loading keeps. -/
theorem loadState_keeps {loadStateCallback : σ → Bytes → UInt16 → LoadStatus × σ} {P : σ → Prop}
    (hcallback : ∀ outer data type, P outer → P (loadStateCallback outer data type).2) (cookieInner : UInt16)
    (outer : σ) (data : Bytes) (h : P outer) : P (loadState loadStateCallback cookieInner outer data).2 := by
  fun_induction loadState loadStateCallback cookieInner outer data with
  | case1 => exact h
  | case2 => exact h
  | case3 outer _ _ _ _ _ _ _ _ heq => exact congrArg Prod.snd heq ▸ hcallback outer _ _ h
  | case4 outer _ _ _ _ _ _ _ _ heq => exact congrArg Prod.snd heq ▸ hcallback outer _ _ h
  | case5 outer _ _ _ _ _ _ _ _ heq ih =>
    exact ih ((congrArg (fun result => P result.2) heq).mp (hcallback outer _ _ h))
  | case6 => exact h

/-- The nodes a `DHT` has loaded: `loaded_nodes_list` up to `loaded_num_nodes`, and the latter. -/
structure LoadedNodes where
  loadedNodesList : List NodeFormat
  loadedNumNodes : UInt32

/-- `dht_load_state_callback`. The array is new memory of zero bytes. -/
def dhtLoadStateCallback (dht : LoadedNodes) (data : Bytes) (type : UInt16) : LoadStatus × LoadedNodes :=
  if type = dhtStateTypeNodes then
    if data.length = 0 then (.loaded, dht)
    else
      match unpackNodes (fun _ => .zero) (UInt16.ofNat maxSavedDhtNodes) data (UInt16.ofNat data.length) false with
      | some (some (nodes, _)) => (.loaded, ⟨nodes, UInt32.ofNat nodes.length⟩)
      | _ => (.loaded, ⟨[], 0⟩)
  else (.loaded, dht)

/-- `DHT_load`, with the return value 0 as `true`. -/
def dhtLoad (dht : LoadedNodes) (data : Bytes) : Bool × LoadedNodes :=
  if 4 < data.length then
    if lendianToHost32 data = dhtStateCookieGlobal then
      loadState dhtLoadStateCallback dhtStateCookieType dht (data.drop 4)
    else (false, dht)
  else (false, dht)

/-! ## Entries -/

/-- The addresses of the saved entries are in their places. -/
def SavedAddresses (dht : Dht) : Prop :=
  ∀ client ∈ savedClients dht, (client.assoc4.timestamp ≠ 0 → client.assoc4.ipPort.ip.family = afInet) ∧
    (client.assoc6.timestamp ≠ 0 → client.assoc6.ipPort.ip.family = afInet6)

/-- The entries of saved nodes: none is of a TCP relay, and their sizes. -/
structure SavedEntries (nodes : List NodeFormat) (numv4 numv6 : ℕ) (entries : List PackedNode) : Prop where
  fields : nodes.map NodeFormat.fields = entries.map PackedNode.fields
  udp : ∀ entry ∈ entries, entry.tcp = false
  size : (entries.flatMap PackedNode.write).length = packedNodeSizeIp false * numv4 + packedNodeSizeIp true * numv6
  count : entries.length = numv4 + numv6

namespace SavedEntries

theorem empty : SavedEntries [] 0 0 [] := ⟨rfl, by simp, rfl, rfl⟩

variable {entries : List PackedNode} {nodes : List NodeFormat} {numv4 numv6 : ℕ}

/-- Nodes are packed in two parts. -/
theorem append {nodes' : List NodeFormat} {numv4' numv6' : ℕ} {entries' : List PackedNode}
    (h : SavedEntries nodes numv4 numv6 entries) (h' : SavedEntries nodes' numv4' numv6' entries') :
    SavedEntries (nodes ++ nodes') (numv4 + numv4') (numv6 + numv6') (entries ++ entries') := by
  refine ⟨?_, ?_, ?_, ?_⟩
  · rw [map_append, map_append, h.fields, h'.fields]
  · intro entry hentry
    rcases mem_append.mp hentry with hmem | hmem
    · exact h.udp entry hmem
    · exact h'.udp entry hmem
  · rw [flatMap_append, length_append, h.size, h'.size]
    ring
  · rw [length_append, h.count, h'.count]
    omega

/-- A node with an IPv4 address is packed. -/
theorem ofIp4 {node : NodeFormat} (h : node.ipPort.ip.family = afInet) :
    ∃ entries, SavedEntries [node] 1 0 entries := by
  obtain ⟨entry, hfields, hipv6, htcp⟩ :=
    exists_entry_of_family (show node.ipPort.ip.family = familyOf false false from h)
  exact ⟨[entry], by simp [hfields], by simp [htcp], by simp [hipv6], rfl⟩

/-- A node with an IPv6 address is packed. -/
theorem ofIp6 {node : NodeFormat} (h : node.ipPort.ip.family = afInet6) :
    ∃ entries, SavedEntries [node] 0 1 entries := by
  obtain ⟨entry, hfields, hipv6, htcp⟩ :=
    exists_entry_of_family (show node.ipPort.ip.family = familyOf true false from h)
  exact ⟨[entry], by simp [hfields], by simp [htcp], by simp [hipv6], rfl⟩

/-- The number of saved nodes. -/
theorem length_eq (h : SavedEntries nodes numv4 numv6 entries) : nodes.length = numv4 + numv6 := by
  have hsame := congrArg List.length h.fields
  rw [length_map, length_map] at hsame
  rw [hsame, h.count]

/-- The size of the entries, in numbers. -/
theorem size_eq (h : SavedEntries nodes numv4 numv6 entries) :
    (entries.flatMap PackedNode.write).length = 39 * numv4 + 51 * numv6 := h.size

/-- The nodes saved for entries. -/
theorem ofClients {clients : List ClientData}
    (h : ∀ client ∈ clients, (client.assoc4.timestamp ≠ 0 → client.assoc4.ipPort.ip.family = afInet) ∧
      (client.assoc6.timestamp ≠ 0 → client.assoc6.ipPort.ip.family = afInet6)) :
    ∃ entries, SavedEntries (clients.flatMap ClientData.saved)
      (clients.countP fun client => client.assoc4.timestamp ≠ 0)
      (clients.countP fun client => client.assoc6.timestamp ≠ 0) entries := by
  induction clients with
  | nil => exact ⟨[], empty⟩
  | cons client clients ih =>
    obtain ⟨⟨hip4, hip6⟩, hclients⟩ := forall_mem_cons.mp h
    obtain ⟨entries, hentries⟩ := ih hclients
    have hfirst : ∃ entries4, SavedEntries
        (if client.assoc4.timestamp ≠ 0 then [⟨client.publicKey, client.assoc4.ipPort⟩] else [])
        (if client.assoc4.timestamp ≠ 0 then 1 else 0) 0 entries4 := by
      by_cases htime : client.assoc4.timestamp ≠ 0
      · simp only [if_pos htime]
        exact ofIp4 (hip4 htime)
      · simp only [if_neg htime]
        exact ⟨[], empty⟩
    have hsecond : ∃ entries6, SavedEntries
        (if client.assoc6.timestamp ≠ 0 then [⟨client.publicKey, client.assoc6.ipPort⟩] else []) 0
        (if client.assoc6.timestamp ≠ 0 then 1 else 0) entries6 := by
      by_cases htime : client.assoc6.timestamp ≠ 0
      · simp only [if_pos htime]
        exact ofIp6 (hip6 htime)
      · simp only [if_neg htime]
        exact ⟨[], empty⟩
    obtain ⟨entries4, hentries4⟩ := hfirst
    obtain ⟨entries6, hentries6⟩ := hsecond
    refine ⟨entries4 ++ entries6 ++ entries, ?_⟩
    have hall := (hentries4.append hentries6).append hentries
    simp only [Nat.zero_add, Nat.add_comm (if _ then 1 else 0)] at hall
    rw [flatMap_cons, countP_cons, countP_cons]
    simpa only [ClientData.saved, decide_eq_true_eq] using hall

end SavedEntries

/-- The entries that are looked at are at most 1040. -/
theorem savedClients_length_le (dht : Dht) : (savedClients dht).length ≤ 1040 := by
  have hlist : (List.ofFn dht.closeClientlist).length = 1024 := length_ofFn
  have hfriends : ((dht.friendsList.take dhtFakeFriendNumber).flatMap
      fun friend => List.ofFn friend.clientList).length ≤ 16 := by
    have htwo : (dht.friendsList.take 2).length ≤ 2 := length_take_le 2 dht.friendsList
    rw [length_flatMap]
    simp only [length_ofFn, map_const', sum_replicate, nsmul_eq_mul]
    change (dht.friendsList.take 2).length * 8 ≤ 16
    omega
  rw [savedClients, length_append, hlist]
  omega

/-- There are no more addresses of a kind than entries. -/
theorem savedClients_countP_le (dht : Dht) :
    ((savedClients dht).countP fun client => client.assoc4.timestamp ≠ 0) ≤ 1040 ∧
    ((savedClients dht).countP fun client => client.assoc6.timestamp ≠ 0) ≤ 1040 := by
  have hclients := savedClients_length_le dht
  exact ⟨countP_le_length.trans hclients, countP_le_length.trans hclients⟩

/-- The size of a saved DHT. -/
theorem dhtSize_toNat (dht : Dht) :
    (dhtSize dht).toNat =
      12 + (packedNodeSizeIp false * ((savedClients dht).countP fun client => client.assoc4.timestamp ≠ 0) +
      packedNodeSizeIp true * ((savedClients dht).countP fun client => client.assoc6.timestamp ≠ 0)) := by
  obtain ⟨hv4, hv6⟩ := savedClients_countP_le dht
  have hsizes : packedNodeSizeIp false = 39 ∧ packedNodeSizeIp true = 51 := ⟨rfl, rfl⟩
  simp only [dhtSize, ← UInt32.ofNat_mul]
  rw [hsizes.1, hsizes.2, show (4 + 4 * 2 : UInt32) = UInt32.ofNat 12 from rfl, ← UInt32.ofNat_add, ← UInt32.ofNat_add,
    UInt32.toNat_ofNat_of_lt' (by change _ < 2 ^ 32; omega)]
  omega

/-! ## Sections -/

@[simp] theorem zStateSaveSubheader_length (len : UInt32) (type : UInt16) :
    (zStateSaveSubheader len type).length = 8 := by
  simp [zStateSaveSubheader]

/-- A cookie and a type are read back from the word that holds both. -/
theorem cookieType_split (cookie type : UInt16) :
    ((cookie.toUInt32 <<< 16 ||| type.toUInt32) >>> 16).toUInt16 = cookie ∧
      ((cookie.toUInt32 <<< 16 ||| type.toUInt32) &&& 0xFFFF).toUInt16 = type := by
  have hcookie := cookie.toNat_lt
  have htype := type.toNat_lt
  have hword : (cookie.toUInt32 <<< 16 ||| type.toUInt32).toNat = cookie.toNat * 2 ^ 16 + type.toNat := by
    rw [UInt32.toNat_or, UInt32.toNat_shiftLeft, UInt16.toNat_toUInt32, UInt16.toNat_toUInt32,
      show (16 : UInt32).toNat % 32 = 16 from rfl, Nat.shiftLeft_eq, Nat.mod_eq_of_lt (by omega), Nat.mul_comm,
      Nat.two_pow_add_eq_or_of_lt htype]
  constructor
  · apply UInt16.toNat_inj.mp
    rw [UInt32.toNat_toUInt16, UInt32.toNat_shiftRight, hword, show (16 : UInt32).toNat % 32 = 16 from rfl,
      Nat.shiftRight_eq_div_pow]
    omega
  · apply UInt16.toNat_inj.mp
    rw [UInt32.toNat_toUInt16, UInt32.toNat_and, hword, show (0xFFFF : UInt32).toNat = 2 ^ 16 - 1 from rfl,
      Nat.and_two_pow_sub_one_eq_mod]
    omega

/-- A section is handed to the callback, and what follows is loaded after it. -/
theorem loadState_section (loadStateCallback : σ → Bytes → UInt16 → LoadStatus × σ) (outer : σ) (cookie type : UInt16)
    {contents : Bytes} (hlen : len.toNat = contents.length) (rest : Bytes) :
    loadState loadStateCallback cookie outer
        (hostToLendian32 len ++ (hostToLendian32 (cookie.toUInt32 <<< 16 ||| type.toUInt32) ++ (contents ++ rest))) =
      match loadStateCallback outer contents type with
      | (.failed, outer) => (false, outer)
      | (.ended, outer) => (true, outer)
      | (.loaded, outer) => loadState loadStateCallback cookie outer rest := by
  obtain ⟨hcookie, htype⟩ := cookieType_split cookie type
  have hbody : (hostToLendian32 len ++ (hostToLendian32 (cookie.toUInt32 <<< 16 ||| type.toUInt32) ++
      (contents ++ rest))).drop 8 = contents ++ rest := by
    rw [← append_assoc, drop_left' (by simp)]
  have hword : (hostToLendian32 len ++ (hostToLendian32 (cookie.toUInt32 <<< 16 ||| type.toUInt32) ++
      (contents ++ rest))).drop 4 = hostToLendian32 (cookie.toUInt32 <<< 16 ||| type.toUInt32) ++ (contents ++ rest) :=
    drop_left' (hostToLendian32_length len)
  rw [loadState, if_pos (by simp only [length_append, hostToLendian32_length]; omega)]
  simp only [hbody, hword, lendianToHost32_append, hlen, hcookie, htype, take_left, drop_left, length_append,
    Nat.not_lt.mpr (Nat.le_add_right _ _), if_false, ne_eq, not_true_eq_false]

/-- A section of nodes at the end of the data is loaded. -/
theorem loadState_nodes (loadStateCallback : σ → Bytes → UInt16 → LoadStatus × σ) (outer outer' : σ) {packed : Bytes}
    (hlen : len.toNat = packed.length) (hload : loadStateCallback outer packed dhtStateTypeNodes = (.loaded, outer')) :
    loadState loadStateCallback dhtStateCookieType outer (zStateSaveSubheader len dhtStateTypeNodes ++ packed) =
      (true, outer') := by
  have hsection := loadState_section loadStateCallback outer dhtStateCookieType dhtStateTypeNodes hlen []
  rw [append_nil, hload] at hsection
  rw [zStateSaveSubheader, append_assoc, hsection]
  dsimp only
  rw [loadState]
  rfl

/-- What was saved with the length of the packed nodes is loaded. -/
theorem dhtLoad_saved (dht : LoadedNodes) {packed : Bytes} (hlen : len.toNat = packed.length) :
    dhtLoad dht (hostToLendian32 dhtStateCookieGlobal ++ (zStateSaveSubheader len dhtStateTypeNodes ++ packed)) =
      (true, (dhtLoadStateCallback dht packed dhtStateTypeNodes).2) := by
  have hlength : 4 < (hostToLendian32 dhtStateCookieGlobal ++
      (zStateSaveSubheader len dhtStateTypeNodes ++ packed)).length := by
    rw [length_append, length_append, hostToLendian32_length, zStateSaveSubheader_length]
    omega
  have hstatus : ∀ packed, (dhtLoadStateCallback dht packed dhtStateTypeNodes).1 = .loaded := by
    intro packed
    unfold dhtLoadStateCallback
    rw [if_pos rfl]
    split
    · rfl
    · split <;> rfl
  rw [dhtLoad, if_pos hlength, if_pos (lendianToHost32_append _ _), drop_left' (hostToLendian32_length _)]
  exact loadState_nodes dhtLoadStateCallback dht _ hlen (Prod.ext (hstatus packed) rfl)

/-! ## Saving and loading -/

/-- The saved nodes are written to exactly `DHT_size` bytes, and loading these into a new DHT gives them back. -/
structure SavesAndLoads (dht : Dht) : Prop where
  size : (dhtSave dht).length = (dhtSize dht).toNat
  loads : (dhtLoad ⟨[], 0⟩ (dhtSave dht)).1 = true
  list : (dhtLoad ⟨[], 0⟩ (dhtSave dht)).2.loadedNodesList.map NodeFormat.fields =
    (savedNodes dht).map NodeFormat.fields
  number : (dhtLoad ⟨[], 0⟩ (dhtSave dht)).2.loadedNumNodes.toNat = (savedNodes dht).length

/-- The length of what is written. -/
theorem dhtSave_length (dht : Dht) :
    (dhtSave dht).length = 12 + (packNodes (UInt16.ofNat (sizeofNodeFormat * (savedNodes dht).length)) (savedNodes dht)
      (UInt16.ofNat (savedNodes dht).length)).2.length := by
  simp only [dhtSave, length_append, hostToLendian32_length, zStateSaveSubheader_length]
  omega

section Entries

variable {dht : Dht} {numv4 numv6 : ℕ} {entries : List PackedNode}

section

variable (hentries : SavedEntries (savedNodes dht) numv4 numv6 entries)
include hentries

/-- Fewer than 1024 nodes fit the length given to `pack_nodes`. -/
theorem packNodes_saved (hfew : (savedNodes dht).length < 1024) :
    packNodes (UInt16.ofNat (sizeofNodeFormat * (savedNodes dht).length)) (savedNodes dht)
        (UInt16.ofNat (savedNodes dht).length) =
      (some (entries.flatMap PackedNode.write).length, entries.flatMap PackedNode.write) := by
  have hnumber : (UInt16.ofNat (savedNodes dht).length).toNat = (savedNodes dht).length :=
    UInt16.toNat_ofNat_of_lt' (by change _ < 2 ^ 16; omega)
  have hlength : (UInt16.ofNat (sizeofNodeFormat * (savedNodes dht).length)).toNat = 64 * (savedNodes dht).length :=
    UInt16.toNat_ofNat_of_lt' (by change 64 * _ < 2 ^ 16; omega)
  have hcount := hentries.length_eq
  have hsize := hentries.size_eq
  rw [packNodes, hnumber, hlength, take_length, packNodesLoop_of_fields hentries.fields (by omega), Nat.zero_add]

/-- The nodes of a section are loaded. -/
theorem dhtLoadStateCallback_saved (hfew : (savedNodes dht).length < 1024) :
    (dhtLoadStateCallback ⟨[], 0⟩ (entries.flatMap PackedNode.write) dhtStateTypeNodes).2.loadedNodesList.map
        NodeFormat.fields = (savedNodes dht).map NodeFormat.fields ∧
      (dhtLoadStateCallback ⟨[], 0⟩ (entries.flatMap PackedNode.write) dhtStateTypeNodes).2.loadedNumNodes.toNat =
        (savedNodes dht).length := by
  have hcount := hentries.length_eq
  have hsize := hentries.size_eq
  rw [dhtLoadStateCallback, if_pos rfl]
  by_cases hempty : (entries.flatMap PackedNode.write).length = 0
  · have hnone : savedNodes dht = [] := eq_nil_of_length_eq_zero (by omega)
    rw [if_pos hempty, hnone]
    exact ⟨rfl, rfl⟩
  · have hlength : (UInt16.ofNat (entries.flatMap PackedNode.write).length).toNat =
        (entries.flatMap PackedNode.write).length := UInt16.toNat_ofNat_of_lt' (by change _ < 2 ^ 16; omega)
    have hudp : ∀ entry ∈ entries, entry.tcp → false := by
      intro entry hentry
      simp [hentries.udp entry hentry]
    have hmax : (savedNodes dht).length ≤ (UInt16.ofNat maxSavedDhtNodes).toNat := by
      change _ ≤ 2080
      omega
    obtain ⟨unpacked, hunpacked, hfields⟩ := unpackNodes_of_fields (fun _ => .zero) hudp hentries.fields hmax hlength.le
      (by rw [hlength, take_length])
    have hunpackedLength := congrArg List.length hfields
    rw [length_map, length_map] at hunpackedLength
    rw [if_neg hempty, hunpacked]
    exact ⟨hfields, (UInt32.toNat_ofNat_of_lt' (by change _ < 2 ^ 32; omega)).trans hunpackedLength⟩

/-- With 1024 nodes or more the length given to `pack_nodes` is too small. -/
theorem packNodes_saved_short (hmany : 1024 ≤ (savedNodes dht).length) (hmax : (savedNodes dht).length ≤ 2080) :
    (packNodes (UInt16.ofNat (sizeofNodeFormat * (savedNodes dht).length)) (savedNodes dht)
      (UInt16.ofNat (savedNodes dht).length)).2.length < 39 * numv4 + 51 * numv6 := by
  have hcount := hentries.length_eq
  have hlength : (UInt16.ofNat (sizeofNodeFormat * (savedNodes dht).length)).toNat =
      64 * (savedNodes dht).length % 2 ^ 16 := UInt16.toNat_ofNat'
  have hwritten := packNodesLoop_written_le (UInt16.ofNat (sizeofNodeFormat * (savedNodes dht).length)).toNat
    ((savedNodes dht).take (UInt16.ofNat (savedNodes dht).length).toNat) (Nat.zero_le _)
  rw [packNodes]
  rw [hlength] at hwritten ⊢
  omega

end

end Entries

/-- At most two nodes are saved for each entry that is looked at. -/
theorem savedNodes_length_le {entries : List PackedNode}
    (h : SavedEntries (savedNodes dht) ((savedClients dht).countP fun client => client.assoc4.timestamp ≠ 0)
      ((savedClients dht).countP fun client => client.assoc6.timestamp ≠ 0) entries) :
    (savedNodes dht).length ≤ 2080 := by
  obtain ⟨hv4, hv6⟩ := savedClients_countP_le dht
  have hcount := h.length_eq
  omega

/-- Fewer than 1024 nodes are saved and loaded. -/
theorem SavesAndLoads.of_few (haddresses : SavedAddresses dht) (hfew : (savedNodes dht).length < 1024) :
    SavesAndLoads dht := by
  obtain ⟨entries, hentries⟩ := SavedEntries.ofClients haddresses
  change SavedEntries (savedNodes dht) _ _ entries at hentries
  have hpack := packNodes_saved hentries hfew
  have hlength : (dhtSave dht).length = (dhtSize dht).toNat := by
    rw [dhtSave_length, hpack, dhtSize_toNat, hentries.size]
  have hlen : (UInt32.ofNat (entries.flatMap PackedNode.write).length).toNat =
      (entries.flatMap PackedNode.write).length := by
    have hcount := hentries.length_eq
    have hsize := hentries.size_eq
    exact UInt32.toNat_ofNat_of_lt' (by change _ < 2 ^ 32; omega)
  have hload : dhtLoad ⟨[], 0⟩ (dhtSave dht) =
      (true, (dhtLoadStateCallback ⟨[], 0⟩ (entries.flatMap PackedNode.write) dhtStateTypeNodes).2) := by
    simp only [dhtSave, hpack, Option.map_some, Option.getD_some]
    exact dhtLoad_saved ⟨[], 0⟩ hlen
  obtain ⟨hlist, hnumber⟩ := dhtLoadStateCallback_saved hentries hfew
  exact ⟨hlength, by rw [hload], by rw [hload, hlist], by rw [hload, hnumber]⟩

/-- Of 1024 nodes or more, not all are written. -/
theorem SavesAndLoads.few (haddresses : SavedAddresses dht) (h : SavesAndLoads dht) :
    (savedNodes dht).length < 1024 := by
  obtain ⟨entries, hentries⟩ := SavedEntries.ofClients haddresses
  change SavedEntries (savedNodes dht) _ _ entries at hentries
  by_contra hmany
  have hshort := packNodes_saved_short hentries (Nat.le_of_not_lt hmany) (savedNodes_length_le hentries)
  have hsize := h.size
  rw [dhtSave_length, dhtSize_toNat, ← hentries.size, hentries.size_eq] at hsize
  omega

/-- Nodes are saved and loaded exactly as long as there are fewer than 1024 of them. -/
theorem savesAndLoads_iff (dht : Dht) (haddresses : SavedAddresses dht) :
    SavesAndLoads dht ↔ (savedNodes dht).length < 1024 :=
  ⟨SavesAndLoads.few haddresses, SavesAndLoads.of_few haddresses⟩

/-- An entry with an IPv4 address. -/
def filledClient : ClientData :=
  ⟨List.Vector.replicate 32 7,
    { IpptsPng.zero with ipPort := ⟨{
      Ip.zero with family := afInet }, 1, List.Vector.replicate 6 0⟩, timestamp := 1 }, .zero⟩

/-- A DHT without friends whose first close entries are filled. -/
def filledDht (count : ℕ) : Dht :=
  { Dht.new (List.Vector.replicate 32 1) with
    closeClientlist := fun i => if i.val < count then filledClient else .zero }

theorem savedClients_filledDht (count : ℕ) :
    savedClients (filledDht count) = List.ofFn (filledDht count).closeClientlist := append_nil _

theorem savedAddresses_filledDht (count : ℕ) : SavedAddresses (filledDht count) := by
  intro client hclient
  rw [savedClients_filledDht] at hclient
  obtain ⟨i, rfl⟩ := mem_ofFn.mp hclient
  simp only [filledDht]
  split
  · exact ⟨fun _ => rfl, fun htime => absurd rfl htime⟩
  · exact ⟨fun htime => absurd rfl htime, fun htime => absurd rfl htime⟩

/-- Three nodes are saved and loaded. -/
theorem savesAndLoads_iff_filledDht : (savedNodes (filledDht 3)).length = 3 ∧ SavesAndLoads (filledDht 3) := by
  have hcount : (savedNodes (filledDht 3)).length = 3 := by decide +kernel
  exact ⟨hcount, (savesAndLoads_iff _ (savedAddresses_filledDht 3)).mpr (by omega)⟩

/-- 1024 nodes are not. -/
theorem not_savesAndLoads_filledDht : SavedAddresses (filledDht 1024) ∧ ¬SavesAndLoads (filledDht 1024) := by
  have hclients : savedClients (filledDht 1024) = List.replicate lclientList filledClient := by
    have hlist : (filledDht 1024).closeClientlist = fun _ => filledClient := by
      funext i
      exact if_pos i.isLt
    rw [savedClients_filledDht, hlist, ofFn_const]
  have hcount : (savedNodes (filledDht 1024)).length = 1024 := by
    rw [savedNodes, hclients, length_flatMap, map_replicate, sum_replicate]
    rfl
  refine ⟨savedAddresses_filledDht 1024, fun h => ?_⟩
  have hfew := h.few (savedAddresses_filledDht 1024)
  omega

end Toxcore
