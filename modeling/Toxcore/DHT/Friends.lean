import Toxcore.DHT.CloseList
import Toxcore.DHT.CloseNodes

/-!
# Friends and their locks

`DHT_addfriend` gives out a lock number for a key, one more than the position its callback is stored at, and
`DHT_delfriend` takes it back. The number of locks is at once the next free position and the end of the positions whose
callbacks are run. So the callbacks are the ones of the unreleased locks as long as the lock that is released is the
last one; after any other release the last callback is out of reach and its position is given out again.
-/

namespace Toxcore

open List Option

/-- `friend_number`, `none` for -1. -/
def friendNumber (dht : Dht) (publicKey : PublicKey) : Option ℕ :=
  dht.friendsList.findIdx? fun friend => friend.publicKey = publicKey

/-- A friend with one more lock: its callback goes to the position of the old number of locks. -/
def DhtFriend.addLock (friend : DhtFriend) (callback : Option IpCallback) : DhtFriend :=
  { friend with
    lockCount := friend.lockCount + 1
    callbacks := fun j => if j.val = friend.lockCount.toNat then callback else friend.callbacks j }

/-- A friend cleared to zero bytes but for its key. -/
def DhtFriend.fresh (publicKey : PublicKey) : DhtFriend := ⟨publicKey, fun _ => .zero, 0, fun _ => none, []⟩

/-- The first `num_friends` friends, a number of 16 bits. -/
def countFriends (friends : List DhtFriend) : List DhtFriend := friends.take (friends.length % 2 ^ 16)

/-- `DHT_addfriend`: the lock number and the DHT. `alloc` is the outcome of the allocation. -/
def dhtAddfriend (now : UInt64) (alloc : Bool) (dht : Dht) (publicKey : PublicKey) (callback : Option IpCallback) :
    Option UInt16 × Dht :=
  match friendNumber dht publicKey with
  | some friendNum =>
    let friend := dht.friendsList.getD friendNum (.fresh publicKey)
    if friend.lockCount.toNat = dhtFriendMaxLocks then (none, dht)
    else (some (friend.lockCount + 1),
      { dht with friendsList := dht.friendsList.set friendNum (friend.addLock callback) })
  | none =>
    if !alloc then (none, dht)
    else
      let friend := (DhtFriend.fresh publicKey).addLock callback
      let found := getCloseNodes now publicKey 0 true
        { dht with friendsList := countFriends (dht.friendsList ++ [friend]) } false
      (some 1, { dht with
        friendsList := countFriends (dht.friendsList ++ [{ friend with toBootstrap := found.nodes }]) })

/-- Move the last element to a position and shorten the list. -/
def swapRemove {α : Type*} (l : List α) (i : ℕ) : List α :=
  match l.getLast? with
  | none => []
  | some last => (l.set i last).dropLast

/-- A friend with one lock less: the callback of the released lock is cleared. -/
def DhtFriend.delLock (friend : DhtFriend) (number : UInt16) : DhtFriend :=
  { friend with
    lockCount := friend.lockCount - 1
    callbacks := fun j => if j.val = (number - 1).toNat then none else friend.callbacks j }

/-- `DHT_delfriend`, with the return value 0 as `true`. `alloc` is the outcome of the allocation. -/
def dhtDelfriend (alloc : Bool) (dht : Dht) (publicKey : PublicKey) (number : UInt16) : Bool × Dht :=
  match friendNumber dht publicKey with
  | none => (false, dht)
  | some friendNum =>
    let friend := dht.friendsList.getD friendNum (.fresh publicKey)
    if friend.lockCount - 1 ≠ 0 ∧ number ≠ 0 then
      (true, { dht with friendsList := dht.friendsList.set friendNum (friend.delLock number) })
    else
      (decide (dht.friendsList.length = 1) || alloc,
        { dht with friendsList := swapRemove dht.friendsList friendNum })

/-! ## Lists of friends -/

variable {α : Type*} {dht : Dht} {publicKey : PublicKey} {friend : DhtFriend} {held : List Lock}
  {front rest : List DhtFriend} {now : UInt64} {s s' : LockedDht} {alloc : Bool}

@[simp] theorem swapRemove_last (front : List α) (x : α) : swapRemove (front ++ [x]) front.length = front := by
  simp [swapRemove]

/-- The last element takes the place of the removed one. -/
theorem swapRemove_gap (front : List α) (x : α) (middle : List α) (last : α) :
    swapRemove (front ++ x :: (middle ++ [last])) front.length = front ++ last :: middle := by
  have hlast : (front ++ x :: (middle ++ [last])).getLast? = some last := by
    rw [← cons_append, ← append_assoc, getLast?_concat]
  rw [swapRemove, hlast]
  simp only [set_append_right _ _ (le_refl _), Nat.sub_self, set_cons_zero]
  rw [← cons_append, ← append_assoc, dropLast_concat]

/-- The element is removed, up to the order. -/
theorem swapRemove_perm (front : List α) (x : α) (rest : List α) :
    (swapRemove (front ++ x :: rest) front.length).Perm (front ++ rest) := by
  obtain rfl | ⟨middle, last, rfl⟩ := eq_nil_or_concat rest
  · simp
  · rw [concat_eq_append, swapRemove_gap]
    exact (perm_append_left_iff front).mpr (perm_append_singleton last middle).symm

/-- The friend with a key. -/
theorem friendNumber_some {i : ℕ} (h : friendNumber dht publicKey = some i) :
    ∃ front friend rest, dht.friendsList = front ++ friend :: rest ∧ front.length = i ∧
      friend.publicKey = publicKey := by
  obtain ⟨hi, hkey, -⟩ := findIdx?_eq_some_iff_getElem.mp h
  refine ⟨dht.friendsList.take i, dht.friendsList[i], dht.friendsList.drop (i + 1), ?_, ?_, of_decide_eq_true hkey⟩
  · rw [← drop_eq_getElem_cons hi, take_append_drop]
  · rw [length_take, Nat.min_eq_left hi.le]

/-- A key that is not found is no friend's key. -/
theorem friendNumber_none (h : friendNumber dht publicKey = none) :
    ∀ friend ∈ dht.friendsList, friend.publicKey ≠ publicKey :=
  fun friend hfriend => of_decide_eq_false (findIdx?_eq_none_iff.mp h friend hfriend)

/-! ## Locks -/

/-- A lock that was given out: its key, its number, and the callback it is for. -/
structure Lock where
  publicKey : PublicKey
  number : UInt16
  callback : Option IpCallback
  deriving DecidableEq

/-- The locks a friend accounts for. -/
def DhtFriend.locks (friend : DhtFriend) : List Lock :=
  ((List.finRange dhtFriendMaxLocks).take friend.lockCount.toNat).map fun j =>
    ⟨friend.publicKey, UInt16.ofNat (j.val + 1), friend.callbacks j⟩

/-- The locks of a key. -/
def locksOf (held : List Lock) (publicKey : PublicKey) : List Lock := held.filter fun lock => lock.publicKey = publicKey

/-- The positions below a number, in order. -/
theorem filter_finRange_lt {n : ℕ} (count : ℕ) :
    (List.finRange n).filter (fun j => j.val < count) = (List.finRange n).take count := by
  induction n generalizing count with
  | zero => simp
  | succ n ih =>
    cases count with
    | zero => simp
    | succ count =>
      rw [finRange_succ, filter_cons_of_pos (by simp), take_succ_cons, List.filter_map, ← map_take,
        ← ih count]
      congr 3
      funext j
      simp

/-- The callbacks that are run are those of the locks. -/
theorem ipCallbacks_eq (friend : DhtFriend) : ipCallbacks friend = friend.locks.filterMap Lock.callback := by
  rw [ipCallbacks, DhtFriend.locks, filter_finRange_lt, filterMap_map]
  rfl

theorem finRange_take_succ {n count : ℕ} (h : count < n) :
    (List.finRange n).take (count + 1) = (List.finRange n).take count ++ [⟨count, h⟩] := by
  rw [take_succ_eq_append_getElem (by simpa using h), getElem_finRange]
  rfl

/-- One more lock. -/
theorem DhtFriend.locks_addLock (friend : DhtFriend) (callback : Option IpCallback)
    (h : friend.lockCount.toNat < dhtFriendMaxLocks) :
    (friend.addLock callback).locks = friend.locks ++ [⟨friend.publicKey, friend.lockCount + 1, callback⟩] := by
  have hmax : dhtFriendMaxLocks = 32 := rfl
  have hcount : (friend.lockCount + 1).toNat = friend.lockCount.toNat + 1 := by
    rw [UInt16.toNat_add]
    change (friend.lockCount.toNat + 1) % 65536 = _
    omega
  have hnumber : UInt16.ofNat (friend.lockCount.toNat + 1) = friend.lockCount + 1 := by
    rw [← hcount, UInt16.ofNat_toNat]
  simp only [DhtFriend.locks, DhtFriend.addLock, hcount, finRange_take_succ h, map_append, map_cons,
    map_nil, hnumber, if_true]
  congr 1
  apply map_congr_left
  intro j hj
  have hlt : j.val < friend.lockCount.toNat := by
    rw [← filter_finRange_lt] at hj
    simpa using (mem_filter.mp hj).2
  rw [if_neg (by omega)]

/-- The numbers of the locks of a friend are different. -/
theorem DhtFriend.locks_nodup (friend : DhtFriend) : friend.locks.Nodup := by
  apply List.Nodup.map_on _ ((nodup_finRange _).sublist (take_sublist _ _))
  intro i hi j hj heq
  have hmax : dhtFriendMaxLocks = 32 := rfl
  have hnumber : UInt16.ofNat (i.val + 1) = UInt16.ofNat (j.val + 1) := congrArg Lock.number heq
  have hval := congrArg UInt16.toNat hnumber
  rw [UInt16.toNat_ofNat_of_lt' (by change i.val + 1 < 65536; omega),
    UInt16.toNat_ofNat_of_lt' (by change j.val + 1 < 65536; omega)] at hval
  exact Fin.ext (by omega)

/-- The last lock, and the friend without it. -/
theorem DhtFriend.locks_delLock (friend : DhtFriend) (lock : Lock) (hcount : friend.lockCount.toNat ≤ dhtFriendMaxLocks)
    (hlast : friend.locks.getLast? = some lock) :
    lock.number = friend.lockCount ∧ friend.locks = (friend.delLock lock.number).locks ++ [lock] ∧
      0 < friend.lockCount.toNat ∧ (friend.delLock lock.number).lockCount.toNat = friend.lockCount.toNat - 1 := by
  have hmax : dhtFriendMaxLocks = 32 := rfl
  have hpos : 0 < friend.lockCount.toNat := by
    by_contra hzero
    rw [DhtFriend.locks, Nat.eq_zero_of_not_pos hzero] at hlast
    simp at hlast
  obtain ⟨count, hsucc⟩ : ∃ count, friend.lockCount.toNat = count + 1 := ⟨_, (Nat.succ_pred_eq_of_pos hpos).symm⟩
  have hlt : count < dhtFriendMaxLocks := by omega
  have hnumber : UInt16.ofNat (count + 1) = friend.lockCount := by rw [← hsucc, UInt16.ofNat_toNat]
  have hsplit : friend.locks = ((List.finRange dhtFriendMaxLocks).take count).map (fun j =>
      (⟨friend.publicKey, UInt16.ofNat (j.val + 1), friend.callbacks j⟩ : Lock)) ++
        [⟨friend.publicKey, friend.lockCount, friend.callbacks ⟨count, hlt⟩⟩] := by
    rw [DhtFriend.locks, hsucc, finRange_take_succ hlt, map_append, map_singleton, hnumber]
  rw [hsplit, getLast?_concat, some.injEq] at hlast
  have hpred : (friend.lockCount - 1).toNat = count := by
    rw [UInt16.toNat_sub_of_le _ _ (UInt16.le_iff_toNat_le.mpr (by change 1 ≤ _; omega))]
    change friend.lockCount.toNat - 1 = count
    omega
  have hrest : (friend.delLock lock.number).locks = ((List.finRange dhtFriendMaxLocks).take count).map (fun j =>
      (⟨friend.publicKey, UInt16.ofNat (j.val + 1), friend.callbacks j⟩ : Lock)) := by
    rw [← hlast]
    simp only [DhtFriend.locks, DhtFriend.delLock, hpred]
    apply map_congr_left
    intro j hj
    have hj' : j.val < count := by
      rw [← filter_finRange_lt] at hj
      simpa using (mem_filter.mp hj).2
    rw [if_neg (by omega)]
  refine ⟨by rw [← hlast], by rw [hsplit, hrest, hlast], hpos, ?_⟩
  change (friend.lockCount - 1).toNat = _
  omega

/-! ## The friends and the locks held -/

/-- The locks that were given out and not released are those the friends account for. -/
structure LocksValid (friends : List DhtFriend) (held : List Lock) : Prop where
  nodup : (friends.map DhtFriend.publicKey).Nodup
  locks : ∀ friend ∈ friends, locksOf held friend.publicKey = friend.locks
  count_pos : ∀ friend ∈ friends, 0 < friend.lockCount.toNat
  count_le : ∀ friend ∈ friends, friend.lockCount.toNat ≤ dhtFriendMaxLocks
  covered : ∀ lock ∈ held, ∃ friend ∈ friends, friend.publicKey = lock.publicKey

/-- What the locks of a friend depend on. -/
def DhtFriend.account (friend : DhtFriend) : PublicKey × UInt16 × (Fin dhtFriendMaxLocks → Option IpCallback) :=
  (friend.publicKey, friend.lockCount, friend.callbacks)

/-- What friends of one account share. -/
theorem DhtFriend.account_eq {friend' : DhtFriend} (h : friend.account = friend'.account) :
    friend.publicKey = friend'.publicKey ∧ friend.lockCount = friend'.lockCount ∧ friend.locks = friend'.locks := by
  simp only [DhtFriend.account, Prod.mk.injEq] at h
  obtain ⟨hkey, hcount, hcallbacks⟩ := h
  exact ⟨hkey, hcount, by rw [DhtFriend.locks, DhtFriend.locks, hkey, hcount, hcallbacks]⟩

/-- A change of anything else keeps the locks valid. -/
theorem LocksValid.of_account {friends friends' : List DhtFriend} (hvalid : LocksValid friends held)
    (h : friends'.map DhtFriend.account = friends.map DhtFriend.account) : LocksValid friends' held := by
  have hold : ∀ friend' ∈ friends', ∃ friend ∈ friends, friend.account = friend'.account := by
    intro friend' hfriend'
    exact List.mem_map.mp (h ▸ List.mem_map_of_mem (f := DhtFriend.account) hfriend')
  have hnew : ∀ friend ∈ friends, ∃ friend' ∈ friends', friend'.account = friend.account := by
    intro friend hfriend
    exact List.mem_map.mp (h ▸ List.mem_map_of_mem (f := DhtFriend.account) hfriend)
  have hkeys : friends'.map DhtFriend.publicKey = friends.map DhtFriend.publicKey := by
    have hfst := congrArg (List.map Prod.fst) h
    rwa [List.map_map, List.map_map] at hfst
  refine ⟨hkeys ▸ hvalid.nodup, ?_, ?_, ?_, ?_⟩
  · intro friend' hfriend'
    obtain ⟨friend, hfriend, haccount⟩ := hold friend' hfriend'
    obtain ⟨hkey, -, hlocks⟩ := DhtFriend.account_eq haccount
    rw [← hkey, ← hlocks, hvalid.locks friend hfriend]
  · intro friend' hfriend'
    obtain ⟨friend, hfriend, haccount⟩ := hold friend' hfriend'
    exact (DhtFriend.account_eq haccount).2.1 ▸ hvalid.count_pos friend hfriend
  · intro friend' hfriend'
    obtain ⟨friend, hfriend, haccount⟩ := hold friend' hfriend'
    exact (DhtFriend.account_eq haccount).2.1 ▸ hvalid.count_le friend hfriend
  · intro lock hlock
    obtain ⟨friend, hfriend, hkey⟩ := hvalid.covered lock hlock
    obtain ⟨friend', hfriend', haccount⟩ := hnew friend hfriend
    exact ⟨friend', hfriend', (DhtFriend.account_eq haccount).1.trans hkey⟩

/-- A lock is taken. -/
theorem locksOf_append (held : List Lock) (lock : Lock) (publicKey : PublicKey) :
    locksOf (held ++ [lock]) publicKey =
      locksOf held publicKey ++ if lock.publicKey = publicKey then [lock] else [] := by
  by_cases h : lock.publicKey = publicKey <;> simp [locksOf, filter_append, h]

/-- A lock is given back. -/
theorem locksOf_erase (held : List Lock) (lock : Lock) (publicKey : PublicKey) :
    locksOf (held.erase lock) publicKey = (locksOf held publicKey).erase lock := erase_filter.symm

/-- The locks of another key. -/
theorem locksOf_erase_of_ne (held : List Lock) (lock : Lock) (h : lock.publicKey ≠ publicKey) :
    locksOf (held.erase lock) publicKey = locksOf held publicKey := by
  rw [locksOf_erase, erase_of_not_mem]
  intro hmem
  exact h (of_decide_eq_true (mem_filter.mp hmem).2)

/-- The keys of a friend list, around one friend. -/
theorem keys_ne_of_nodup (hnodup : ((front ++ friend :: rest).map DhtFriend.publicKey).Nodup) :
    ∀ other ∈ front ++ rest, friend.publicKey ≠ other.publicKey := by
  rw [(perm_middle.map DhtFriend.publicKey).nodup_iff, map_cons, nodup_cons] at hnodup
  intro other hother heq
  exact hnodup.1 (heq ▸ List.mem_map_of_mem hother)

/-- One friend and the locks of its key change. -/
theorem LocksValid.replace {friend' : DhtFriend} {held' : List Lock}
    (hvalid : LocksValid (front ++ friend :: rest) held) (hkey : friend'.publicKey = friend.publicKey)
    (hlocks : locksOf held' friend.publicKey = friend'.locks) (hpos : 0 < friend'.lockCount.toNat)
    (hle : friend'.lockCount.toNat ≤ dhtFriendMaxLocks)
    (hothers : ∀ publicKey, friend.publicKey ≠ publicKey → locksOf held' publicKey = locksOf held publicKey)
    (hheld : ∀ lock ∈ held', lock.publicKey = friend.publicKey ∨ lock ∈ held) :
    LocksValid (front ++ friend' :: rest) held' := by
  have hne := keys_ne_of_nodup hvalid.nodup
  have hsplit : ∀ other ∈ front ++ friend' :: rest, other = friend' ∨
      other ∈ front ++ rest ∧ other ∈ front ++ friend :: rest := by
    intro other hother
    simp only [mem_append, mem_cons] at hother ⊢
    tauto
  refine ⟨?_, ?_, ?_, ?_, ?_⟩
  · have hnodup := hvalid.nodup
    rwa [map_append, map_cons, ← hkey, ← map_cons, ← map_append] at hnodup
  · intro other hother
    obtain rfl | ⟨hmem, hold⟩ := hsplit other hother
    · rw [hkey, hlocks]
    · rw [hothers _ (hne other hmem), hvalid.locks other hold]
  · intro other hother
    obtain rfl | ⟨-, hold⟩ := hsplit other hother
    · exact hpos
    · exact hvalid.count_pos other hold
  · intro other hother
    obtain rfl | ⟨-, hold⟩ := hsplit other hother
    · exact hle
    · exact hvalid.count_le other hold
  · intro lock hlock
    by_cases hfriend : lock.publicKey = friend.publicKey
    · exact ⟨friend', by simp, by rw [hkey, hfriend]⟩
    · obtain ⟨other, hother, hlockKey⟩ := hvalid.covered lock ((hheld lock hlock).resolve_left hfriend)
      refine ⟨other, ?_, hlockKey⟩
      have hotherNe : other ≠ friend := fun heq => hfriend (heq ▸ hlockKey.symm)
      simp only [mem_append, mem_cons] at hother ⊢
      tauto

/-- One friend is removed with the last lock of its key. -/
theorem LocksValid.remove {friends' : List DhtFriend} {held' : List Lock}
    (hvalid : LocksValid (front ++ friend :: rest) held) (hperm : friends'.Perm (front ++ rest))
    (hothers : ∀ publicKey, friend.publicKey ≠ publicKey → locksOf held' publicKey = locksOf held publicKey)
    (hheld : ∀ lock ∈ held', lock.publicKey ≠ friend.publicKey ∧ lock ∈ held) : LocksValid friends' held' := by
  have hne := keys_ne_of_nodup hvalid.nodup
  have hold : ∀ other ∈ friends', other ∈ front ++ rest ∧ other ∈ front ++ friend :: rest := by
    intro other hother
    have hmem := hperm.mem_iff.mp hother
    refine ⟨hmem, ?_⟩
    simp only [mem_append, mem_cons] at hmem ⊢
    tauto
  refine ⟨?_, ?_, ?_, ?_, ?_⟩
  · rw [(hperm.map DhtFriend.publicKey).nodup_iff]
    have hnodup := hvalid.nodup
    rw [(perm_middle.map DhtFriend.publicKey).nodup_iff, map_cons] at hnodup
    exact hnodup.of_cons
  · intro other hother
    rw [hothers _ (hne other (hold other hother).1), hvalid.locks other (hold other hother).2]
  · exact fun other hother => hvalid.count_pos other (hold other hother).2
  · exact fun other hother => hvalid.count_le other (hold other hother).2
  · intro lock hlock
    obtain ⟨hlockNe, hlockHeld⟩ := hheld lock hlock
    obtain ⟨other, hother, hlockKey⟩ := hvalid.covered lock hlockHeld
    refine ⟨other, hperm.mem_iff.mpr ?_, hlockKey⟩
    have hotherNe : other ≠ friend := fun heq => hlockNe (heq ▸ hlockKey.symm)
    simp only [mem_append, mem_cons] at hother ⊢
    tauto

/-- A friend is added with the first lock of its key. -/
theorem LocksValid.append {friends : List DhtFriend} {lock : Lock} (hvalid : LocksValid friends held)
    (hnew : ∀ other ∈ friends, other.publicKey ≠ friend.publicKey) (hlocks : friend.locks = [lock])
    (hlock : lock.publicKey = friend.publicKey) (hcount : friend.lockCount = 1) :
    LocksValid (friends ++ [friend]) (held ++ [lock]) := by
  have hsplit : ∀ other ∈ friends ++ [friend], other = friend ∨ other ∈ friends := by
    intro other hother
    simp only [mem_append, mem_singleton] at hother
    exact hother.symm
  have hnone : locksOf held friend.publicKey = [] := by
    rw [locksOf, filter_eq_nil_iff]
    intro old hold hkey
    obtain ⟨other, hother, hotherKey⟩ := hvalid.covered old hold
    exact hnew other hother (hotherKey.trans (of_decide_eq_true hkey))
  refine ⟨?_, ?_, ?_, ?_, ?_⟩
  · rw [map_append, map_singleton, nodup_append]
    refine ⟨hvalid.nodup, nodup_singleton _, ?_⟩
    intro key hkey key' hkey' heq
    obtain ⟨other, hother, rfl⟩ := List.mem_map.mp hkey
    exact hnew other hother (heq.trans (mem_singleton.mp hkey'))
  · intro other hother
    rw [locksOf_append]
    obtain rfl | hold := hsplit other hother
    · rw [hnone, if_pos hlock, hlocks, nil_append]
    · rw [if_neg (fun heq => hnew other hold (heq.symm.trans hlock)), append_nil, hvalid.locks other hold]
  · intro other hother
    obtain rfl | hold := hsplit other hother
    · rw [hcount]
      decide
    · exact hvalid.count_pos other hold
  · intro other hother
    obtain rfl | hold := hsplit other hother
    · rw [hcount]
      decide
    · exact hvalid.count_le other hold
  · intro old hold
    rcases mem_append.mp hold with hold | hold
    · obtain ⟨other, hother, hkey⟩ := hvalid.covered old hold
      exact ⟨other, mem_append_left _ hother, hkey⟩
    · rw [mem_singleton.mp hold]
      exact ⟨friend, by simp, hlock.symm⟩

/-! ## Calls and runs -/

/-- A DHT with the locks that were given out and not released, in the order they were obtained. -/
structure LockedDht where
  dht : Dht
  held : List Lock

/-- Calls about friends. A lock is released with its key and its number. -/
inductive FriendCall where
  | addfriend (now : UInt64) (alloc : Bool) (publicKey : PublicKey) (callback : Option IpCallback)
  | delfriend (alloc : Bool) (lock : Lock)
  | addtoLists (env : DhtEnv) (ipPort : IpPort) (publicKey : PublicKey)

/-- Execute one call. -/
def LockedDht.exec (s : LockedDht) : FriendCall → Option LockedDht
  | .addfriend now alloc publicKey callback =>
    match dhtAddfriend now alloc s.dht publicKey callback with
    | (some number, dht) => some ⟨dht, s.held ++ [⟨publicKey, number, callback⟩]⟩
    | (none, dht) => some ⟨dht, s.held⟩
  | .delfriend alloc lock => some ⟨(dhtDelfriend alloc s.dht lock.publicKey lock.number).2, s.held.erase lock⟩
  | .addtoLists env ipPort publicKey => (addtoLists env s.dht ipPort publicKey).map fun (_, dht, _) => ⟨dht, s.held⟩

/-- A lock that is released was obtained and not released before. -/
def ReleasesHeld (s : LockedDht) : FriendCall → Prop
  | .delfriend _ lock => lock ∈ s.held
  | _ => True

/-- The lock that is released is the last one of its key, and a new friend leaves the number of friends below 2^16. -/
def ReleasesLast (s : LockedDht) : FriendCall → Prop
  | .addfriend _ _ publicKey _ => friendNumber s.dht publicKey = none → s.dht.friendsList.length + 1 < 2 ^ 16
  | .delfriend _ lock => (locksOf s.held lock.publicKey).getLast? = some lock
  | _ => True

/-- Runs from a DHT without friends. -/
inductive LockRun (ok : LockedDht → FriendCall → Prop) : LockedDht → Prop
  | start (dht : Dht) : dht.friendsList = [] → LockRun ok ⟨dht, []⟩
  | step {s s' : LockedDht} (call : FriendCall) : LockRun ok s → ok s call → s.exec call = some s' → LockRun ok s'

/-- `addto_lists` finds the address of the friend with a key. -/
def FindsFriend (env : DhtEnv) (dht : Dht) (ipPort : IpPort) (publicKey : PublicKey) : Prop :=
  ∃ friend ∈ dht.friendsList, friend.publicKey = publicKey ∧
    offerToFriend env publicKey (unembed ipPort) friend ≠ none

/-- The friend of every lock that is held is in the list, and `addto_lists` runs the callbacks of exactly these locks
when it finds the friend. -/
structure LocksServed (s : LockedDht) : Prop where
  kept : ∀ lock ∈ s.held, ∃ friend ∈ s.dht.friendsList, friend.publicKey = lock.publicKey
  called : ∀ env ipPort publicKey used dht callbacks,
    addtoLists env s.dht ipPort publicKey = some (used, dht, callbacks) → FindsFriend env s.dht ipPort publicKey →
      callbacks.Perm ((locksOf s.held publicKey).filterMap Lock.callback)

/-! ### Adding nodes -/

/-- Offering nodes to the friends changes no account. -/
theorem offerToFriends_account (env : DhtEnv) (publicKey : PublicKey) (ipPort : IpPort) (friends : List DhtFriend)
    (used : ℕ) (foundip : Option DhtFriend) :
    (offerToFriends env publicKey ipPort friends used foundip).1.map DhtFriend.account =
      friends.map DhtFriend.account := by
  induction friends generalizing used foundip with
  | nil => rfl
  | cons friend rest ih =>
    rw [offerToFriends]
    cases offerToFriend env publicKey ipPort friend with
    | none => simp only [map_cons, ih]
    | some list => simp only [map_cons, ih, DhtFriend.account]

/-- Friends with other keys are not found. -/
theorem offerToFriends_other (env : DhtEnv) (publicKey : PublicKey) (ipPort : IpPort) (friends : List DhtFriend)
    (used : ℕ) (foundip : Option DhtFriend) (h : ∀ friend ∈ friends, friend.publicKey ≠ publicKey) :
    (offerToFriends env publicKey ipPort friends used foundip).2.2 = foundip := by
  induction friends generalizing used foundip with
  | nil => rfl
  | cons friend rest ih =>
    obtain ⟨hfriend, hrest⟩ := forall_mem_cons.mp h
    rw [offerToFriends]
    cases offerToFriend env publicKey ipPort friend with
    | none => exact ih used foundip hrest
    | some list => simp only [if_neg (Ne.symm hfriend), ih (used + 1) foundip hrest]

/-- The friend that is found has the callbacks of the friend with the key. -/
theorem offerToFriends_found (env : DhtEnv) (publicKey : PublicKey) (ipPort : IpPort) (friends : List DhtFriend)
    (used : ℕ) (foundip : Option DhtFriend) (friend : DhtFriend) (hnodup : (friends.map DhtFriend.publicKey).Nodup)
    (hfriend : friend ∈ friends) (hkey : friend.publicKey = publicKey)
    (hoffer : offerToFriend env publicKey ipPort friend ≠ none) :
    ∃ found, (offerToFriends env publicKey ipPort friends used foundip).2.2 = some found ∧
      found.account = friend.account := by
  induction friends generalizing used foundip with
  | nil => exact absurd hfriend (by simp)
  | cons head rest ih =>
    rw [map_cons, nodup_cons] at hnodup
    rcases mem_cons.mp hfriend with rfl | hmem
    · obtain ⟨list, hlist⟩ := ne_none_iff_exists'.mp hoffer
      have hother : ∀ other ∈ rest, other.publicKey ≠ publicKey :=
        fun other hother heq => hnodup.1 (hkey ▸ heq ▸ List.mem_map_of_mem hother)
      rw [offerToFriends, hlist]
      simp only [if_pos hkey.symm, offerToFriends_other _ _ _ _ _ _ hother]
      exact ⟨_, rfl, rfl⟩
    · rw [offerToFriends]
      cases offerToFriend env publicKey ipPort head with
      | none => exact ih used foundip hnodup.2 hmem
      | some list => exact ih (used + 1) _ hnodup.2 hmem

/-- The close list leaves the friends as they are. -/
theorem offerToClose_friendsList {dht' : Dht} {ipPort : IpPort} {used : ℕ}
    (h : offerToClose now dht publicKey ipPort = some (used, dht')) : dht'.friendsList = dht.friendsList := by
  unfold offerToClose at h
  cases hlist : clientOrIpPortInList now dht.closeClientlist publicKey ipPort with
  | some list =>
    simp only [hlist, some.injEq, Prod.mk.injEq] at h
    rw [← h.2]
  | none =>
    simp only [hlist, map_eq_some_iff, Prod.mk.injEq, Prod.exists] at h
    obtain ⟨ok, dht'', hadd, -, rfl⟩ := h
    unfold addToClose at hadd
    cases hloop : addToCloseLoop now dht.closeClientlist (closeIndices dht.selfPublicKey publicKey) with
    | none => simp [hloop] at hadd
    | some found =>
      cases found with
      | none =>
        simp only [hloop, some.injEq, Prod.mk.injEq] at hadd
        rw [← hadd.2]
      | some i =>
        simp only [hloop, Bool.false_eq_true, if_false, some.injEq, Prod.mk.injEq] at hadd
        rw [← hadd.2]

/-- What `addto_lists` does to the friends, and the callbacks it runs. -/
theorem addtoLists_friends {env : DhtEnv} {dht' : Dht} {ipPort : IpPort} {used : ℕ} {callbacks : List IpCallback}
    (h : addtoLists env dht ipPort publicKey = some (used, dht', callbacks)) :
    ∃ start, dht'.friendsList = (offerToFriends env publicKey (unembed ipPort) dht.friendsList start none).1 ∧
      callbacks = ((offerToFriends env publicKey (unembed ipPort) dht.friendsList start none).2.2.map
        ipCallbacks).getD [] := by
  obtain ⟨⟨start, mid⟩, hclose, hresult⟩ := map_eq_some_iff.mp h
  rw [← offerToClose_friendsList hclose]
  simp only [Prod.mk.injEq] at hresult
  obtain ⟨-, rfl, rfl⟩ := hresult
  exact ⟨start, rfl, rfl⟩

/-- Valid locks are served. -/
theorem LocksValid.served (hvalid : LocksValid s.dht.friendsList s.held) : LocksServed s := by
  refine ⟨hvalid.covered, ?_⟩
  rintro env ipPort publicKey used dht callbacks hadd ⟨friend, hfriend, hkey, hoffer⟩
  obtain ⟨start, -, rfl⟩ := addtoLists_friends hadd
  obtain ⟨found, hfound, haccount⟩ :=
    offerToFriends_found env publicKey (unembed ipPort) s.dht.friendsList start none friend hvalid.nodup hfriend
      hkey hoffer
  rw [hfound, map_some, getD_some, ipCallbacks_eq, (DhtFriend.account_eq haccount).2.2,
    ← hvalid.locks friend hfriend, hkey]

/-! ### One call -/

/-- The friend that is found, in its place. -/
theorem friendNumber_getD {i : ℕ} (h : friendNumber dht publicKey = some i) :
    ∃ front friend rest, dht.friendsList = front ++ friend :: rest ∧ friend.publicKey = publicKey ∧
      (∀ default, dht.friendsList.getD i default = friend) ∧
      (∀ friend', dht.friendsList.set i friend' = front ++ friend' :: rest) ∧
      (swapRemove dht.friendsList i).Perm (front ++ rest) := by
  obtain ⟨front, friend, rest, hfriends, rfl, hkey⟩ := friendNumber_some h
  refine ⟨front, friend, rest, hfriends, hkey, ?_, ?_, ?_⟩
  · intro default
    simp [hfriends]
  · intro friend'
    simp [hfriends]
  · rw [hfriends]
    exact swapRemove_perm front friend rest

section

variable (hvalid : LocksValid s.dht.friendsList s.held)
include hvalid

variable {callback : Option IpCallback}

/-- A lock is taken on a friend. -/
theorem LocksValid.addfriend (hroom : friendNumber s.dht publicKey = none → s.dht.friendsList.length + 1 < 2 ^ 16)
    (h : s.exec (.addfriend now alloc publicKey callback) = some s') : LocksValid s'.dht.friendsList s'.held := by
  have hmax : dhtFriendMaxLocks = 32 := rfl
  cases hnum : friendNumber s.dht publicKey with
  | some i =>
    obtain ⟨front, friend, rest, hfriends, hkey, hget, hset, -⟩ := friendNumber_getD hnum
    have hfriend : friend ∈ s.dht.friendsList := by simp [hfriends]
    simp only [LockedDht.exec, dhtAddfriend, hnum, hget, hset] at h
    by_cases hfull : friend.lockCount.toNat = dhtFriendMaxLocks
    · simp only [if_pos hfull, some.injEq] at h
      exact h ▸ hvalid
    · simp only [if_neg hfull, some.injEq] at h
      have hlt : friend.lockCount.toNat < dhtFriendMaxLocks := lt_of_le_of_ne (hvalid.count_le friend hfriend) hfull
      have hcount : (friend.addLock callback).lockCount.toNat = friend.lockCount.toNat + 1 := by
        change (friend.lockCount + 1).toNat = _
        rw [UInt16.toNat_add]
        change (friend.lockCount.toNat + 1) % 65536 = _
        omega
      have hlocks := hvalid.locks friend hfriend
      rw [hfriends] at hvalid
      rw [← h]
      refine hvalid.replace rfl ?_ (by omega) (by omega) ?_ ?_
      · rw [locksOf_append, if_pos hkey.symm, hlocks, DhtFriend.locks_addLock friend callback hlt, hkey]
      · intro other hother
        rw [locksOf_append, if_neg (fun heq => hother (hkey.trans heq)), append_nil]
      · intro lock hlock
        rcases mem_append.mp hlock with hold | hnew
        · exact .inr hold
        · rw [mem_singleton.mp hnew]
          exact .inl hkey.symm
  | none =>
    simp only [LockedDht.exec, dhtAddfriend, hnum] at h
    cases alloc with
    | false =>
      simp only [Bool.not_false, if_true, some.injEq] at h
      exact h ▸ hvalid
    | true =>
      simp only [Bool.not_true, Bool.false_eq_true, if_false, some.injEq] at h
      rw [← h]
      have hlength := hroom hnum
      have hall (friend : DhtFriend) :
        countFriends (s.dht.friendsList ++ [friend]) = s.dht.friendsList ++ [friend] := by
        rw [countFriends, length_append, length_singleton, Nat.mod_eq_of_lt hlength]
        exact take_of_length_le (by simp)
      simp only [hall]
      refine hvalid.append (fun other hother => friendNumber_none hnum other hother) ?_ rfl rfl
      exact DhtFriend.locks_addLock (.fresh publicKey) callback (Nat.succ_pos 31)

/-- The last lock on a friend is given back. -/
theorem LocksValid.delfriend {lock : Lock} (hlast : (locksOf s.held lock.publicKey).getLast? = some lock)
    (h : s.exec (.delfriend alloc lock) = some s') : LocksValid s'.dht.friendsList s'.held := by
  have hmem : lock ∈ s.held := (mem_filter.mp (mem_of_getLast? hlast)).1
  cases hnum : friendNumber s.dht lock.publicKey with
  | none =>
    obtain ⟨friend, hfriend, hkey⟩ := hvalid.covered lock hmem
    exact absurd hkey (friendNumber_none hnum friend hfriend)
  | some i =>
    obtain ⟨front, friend, rest, hfriends, hkey, hget, hset, hswap⟩ := friendNumber_getD hnum
    have hfriend : friend ∈ s.dht.friendsList := by simp [hfriends]
    have hlocks := hvalid.locks friend hfriend
    have hle := hvalid.count_le friend hfriend
    rw [← hkey, hlocks] at hlast
    obtain ⟨hnumber, hsplit, hpos, hcount⟩ := friend.locks_delLock lock hle hlast
    have hrest : locksOf (s.held.erase lock) friend.publicKey = (friend.delLock lock.number).locks := by
      have hnodup := friend.locks_nodup
      rw [locksOf_erase, hlocks, hsplit]
      rw [hsplit, nodup_append] at hnodup
      rw [erase_append_right _ (fun hin => hnodup.2.2 lock hin lock (by simp) rfl), erase_cons_head,
        append_nil]
    have hothers : ∀ publicKey, friend.publicKey ≠ publicKey →
        locksOf (s.held.erase lock) publicKey = locksOf s.held publicKey :=
      fun publicKey hne => locksOf_erase_of_ne _ _ (fun heq => hne (hkey.trans heq))
    have hnonzero : lock.number ≠ 0 := by
      intro hzero
      rw [← hnumber, hzero] at hpos
      exact absurd hpos (by decide)
    rw [hfriends] at hvalid
    simp only [LockedDht.exec, dhtDelfriend, hnum, hget, hset, some.injEq] at h
    rw [← h]
    by_cases hstill : friend.lockCount - 1 ≠ 0
    · rw [if_pos ⟨hstill, hnonzero⟩]
      have hstill' : (friend.delLock lock.number).lockCount.toNat ≠ 0 :=
        fun hzero => hstill (UInt16.toNat_inj.mp hzero)
      exact hvalid.replace rfl hrest (by omega) (by omega) hothers fun old hold => .inr (mem_of_mem_erase hold)
    · rw [if_neg (fun hboth => hstill hboth.1)]
      refine hvalid.remove hswap hothers fun old hold => ⟨fun hold' => ?_, mem_of_mem_erase hold⟩
      have hzero : (friend.delLock lock.number).lockCount.toNat = 0 := congrArg UInt16.toNat (not_not.mp hstill)
      have hin : old ∈ locksOf (s.held.erase lock) friend.publicKey := mem_filter.mpr ⟨hold, by simpa using hold'⟩
      rw [hrest, DhtFriend.locks, hzero] at hin
      exact absurd hin (by simp)

/-- A call keeps the locks valid. -/
theorem LocksValid.exec {call : FriendCall} (hok : ReleasesLast s call) (h : s.exec call = some s') :
    LocksValid s'.dht.friendsList s'.held := by
  cases call with
  | addfriend now alloc publicKey callback => exact hvalid.addfriend hok h
  | delfriend alloc lock => exact hvalid.delfriend hok h
  | addtoLists env ipPort publicKey =>
    simp only [LockedDht.exec, map_eq_some_iff, Prod.exists] at h
    obtain ⟨used, dht, callbacks, hadd, rfl⟩ := h
    obtain ⟨start, hfriends, -⟩ := addtoLists_friends hadd
    refine hvalid.of_account ?_
    rw [hfriends]
    exact offerToFriends_account env publicKey (unembed ipPort) s.dht.friendsList start none

end

/-! ### Runs -/

/-- As long as locks are released last first, the friends of the locks that are held stay, and the callbacks of exactly
these locks are run. -/
theorem locks_served_of_releasesLast {s : LockedDht} (hrun : LockRun ReleasesLast s) : LocksServed s := by
  apply LocksValid.served
  induction hrun with
  | start dht hempty => exact ⟨by simp [hempty], by simp [hempty], by simp [hempty], by simp [hempty], by simp⟩
  | step call _ hok hexec ih => exact ih.exec hok hexec

/-- A lock that is given out. -/
theorem LockedDht.exec_addfriend {number : UInt16}
    (h : (dhtAddfriend now alloc s.dht publicKey callback).1 = some number) :
    s.exec (.addfriend now alloc publicKey callback) =
      some ⟨(dhtAddfriend now alloc s.dht publicKey callback).2, s.held ++ [⟨publicKey, number, callback⟩]⟩ := by
  rw [LockedDht.exec]
  revert h
  rcases dhtAddfriend now alloc s.dht publicKey callback with ⟨result, dht⟩
  rintro (rfl : result = some number)
  rfl

/-- A lock of the friend with the key 5, 5, …, 5. The callbacks are told apart by their numbers. -/
def friendLock (number : UInt16) : Lock :=
  ⟨List.Vector.replicate 32 5, number, some ⟨1, 1, Int32.ofNat number.toNat⟩⟩

/-- A DHT after that friend was added once more. -/
def addFriendLock (dht : Dht) (number : UInt16) : Dht :=
  (dhtAddfriend 1000 true dht (friendLock number).publicKey (friendLock number).callback).2

/-- A DHT with two locks of the friend. -/
def twoLocks : LockedDht :=
  ⟨addFriendLock (addFriendLock (.new (List.Vector.replicate 32 1)) 1) 2, [friendLock 1, friendLock 2]⟩

/-- The DHT after one of the locks was released. -/
def twoLocks.release (number : UInt16) : LockedDht :=
  ⟨(dhtDelfriend true twoLocks.dht (friendLock number).publicKey number).2, twoLocks.held.erase (friendLock number)⟩

/-- A run that takes two locks and releases one of them. -/
theorem twoLocks.run {ok : LockedDht → FriendCall → Prop} (number : UInt16)
    (hadd : ∀ s publicKey callback, s.dht.friendsList.length ≤ 1 → ok s (.addfriend 1000 true publicKey callback))
    (hrelease : ok twoLocks (.delfriend true (friendLock number))) : LockRun ok (twoLocks.release number) := by
  have hfirst : LockRun ok ⟨addFriendLock (.new (List.Vector.replicate 32 1)) 1, [friendLock 1]⟩ :=
    .step (.addfriend 1000 true (friendLock 1).publicKey (friendLock 1).callback)
      (.start (.new (List.Vector.replicate 32 1)) rfl) (hadd _ _ _ (Nat.zero_le 1))
      (LockedDht.exec_addfriend (by decide +kernel))
  have hsecond : LockRun ok twoLocks :=
    .step (.addfriend 1000 true (friendLock 2).publicKey (friendLock 2).callback) hfirst
      (hadd _ _ _ (by decide +kernel)) (LockedDht.exec_addfriend (by decide +kernel))
  exact .step (.delfriend true (friendLock number)) hsecond hrelease rfl

/-- The second lock is released first: the callback of the first one is run. -/
theorem locks_served_of_releasesLast_twoLocks :
    (addtoLists .calm (twoLocks.release 2).dht publicAddress (friendLock 1).publicKey).map (fun result => result.2.2) =
        some [⟨1, 1, 1⟩] ∧
      LocksServed (twoLocks.release 2) := by
  have hlast : (locksOf twoLocks.held (friendLock 2).publicKey).getLast? = some (friendLock 2) := by decide +kernel
  refine ⟨by decide +kernel, locks_served_of_releasesLast (twoLocks.run 2 ?_ hlast)⟩
  intro s publicKey callback hlength _
  omega

/-- The first lock is released first: the friend is found and the callback of the second lock, which is still held, is
not run. -/
theorem locks_not_served : ∃ s, LockRun ReleasesHeld s ∧ ¬LocksServed s := by
  have hheld : friendLock 1 ∈ twoLocks.held := mem_cons_self
  refine ⟨twoLocks.release 1, twoLocks.run 1 (fun _ _ _ _ => trivial) hheld, ?_⟩
  intro hserved
  have hcallbacks : (addtoLists .calm (twoLocks.release 1).dht publicAddress (friendLock 2).publicKey).map
      (fun result => result.2.2) = some [] := by decide +kernel
  obtain ⟨⟨used, dht, callbacks⟩, hadd, rfl⟩ := map_eq_some_iff.mp hcallbacks
  have hperm := hserved.called .calm publicAddress (friendLock 2).publicKey used dht [] hadd
    ⟨_, mem_cons_self, rfl, by decide +kernel⟩
  exact absurd hperm (by decide +kernel)

end Toxcore
