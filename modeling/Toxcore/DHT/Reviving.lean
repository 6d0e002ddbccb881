import Toxcore.DHT.CloseList

/-!
# Reviving the close list

`do_Close` sets the timestamps of the close list back when it takes all its nodes for dead. How many of them are not
is counted in a `uint8_t`, but the list has more addresses than that counts.
-/

namespace Toxcore

/-- An address of an entry is not past `KILL_NODE_TIMEOUT`. -/
def alive {n : ℕ} (now : UInt64) (list : ClientList n) (v6 : Bool) (i : Fin n) : Bool :=
  !isTimeout now ((list i).assoc v6).timestamp killNodeTimeout

/-- How many addresses of some entries are not past `KILL_NODE_TIMEOUT`. -/
def aliveCount {n : ℕ} (now : UInt64) (list : ClientList n) (indices : List (Fin n)) : ℕ :=
  indices.countP (alive now list true) + indices.countP (alive now list false)

/-- Two lists agree on the timestamps of all addresses. -/
def SameTimes {n : ℕ} (list list' : ClientList n) : Prop :=
  ∀ i v6, ((list' i).assoc v6).timestamp = ((list i).assoc v6).timestamp

theorem modifyAssoc_timestamp (client : ClientData) (v6 v6' : Bool) (time : UInt64) :
    ((client.modifyAssoc v6 fun assoc => { assoc with lastPinged := time }).assoc v6').timestamp =
      (client.assoc v6').timestamp := by
  cases v6 <;> cases v6' <;> rfl

variable {n : ℕ}

/-- Looking at an address changes no timestamp, and counts the address if it is alive. -/
theorem pingAssoc_times (now : UInt64) (publicKey : PublicKey) (s : PingLoop n) (i : Fin n) (v6 : Bool) :
    SameTimes s.list (pingAssoc now publicKey s i v6).list ∧
      (pingAssoc now publicKey s i v6).notKill.toNat =
        (s.notKill.toNat + if alive now s.list v6 i then 1 else 0) % 256 := by
  have hupdate : SameTimes s.list (Function.update s.list i
      ((s.list i).modifyAssoc v6 fun assoc => { assoc with lastPinged := now })) := by
    intro j v6'
    by_cases hji : j = i
    · rw [hji, Function.update_self, modifyAssoc_timestamp]
    · rw [Function.update_of_ne hji]
  unfold pingAssoc alive
  dsimp only
  split
  · rename_i hdead
    rw [hdead]
    exact ⟨fun _ _ => rfl, (Nat.mod_eq_of_lt s.notKill.toNat_lt).symm⟩
  · rename_i halive
    rw [Bool.not_eq_true] at halive
    rw [halive]
    split
    · split
      · exact ⟨hupdate, rfl⟩
      · exact ⟨fun _ _ => rfl, rfl⟩
    · split
      · exact ⟨hupdate, rfl⟩
      · exact ⟨fun _ _ => rfl, rfl⟩

/-- Entries of the same times are alive alike. -/
theorem alive_of_sameTimes {list list' : ClientList n} (h : SameTimes list list') (now : UInt64) (v6 : Bool) :
    alive now list' v6 = alive now list v6 := by
  funext i
  rw [alive, alive, h i v6]

/-- The loop changes no timestamp, and counts the addresses that are alive. -/
theorem pingLoop_times (now : UInt64) (publicKey : PublicKey) (list : ClientList n) (indices : List (Fin n))
    (s : PingLoop n) (h : SameTimes list s.list) :
    SameTimes list (indices.foldl (fun s i =>
      pingAssoc now publicKey (pingAssoc now publicKey s i true) i false) s).list ∧
      (indices.foldl (fun s i => pingAssoc now publicKey (pingAssoc now publicKey s i true) i false) s).notKill.toNat =
        (s.notKill.toNat + aliveCount now list indices) % 256 := by
  induction indices generalizing s with
  | nil => exact ⟨h, (Nat.mod_eq_of_lt s.notKill.toNat_lt).symm⟩
  | cons i rest ih =>
    obtain ⟨htimes6, hcount6⟩ := pingAssoc_times now publicKey s i true
    obtain ⟨htimes4, hcount4⟩ := pingAssoc_times now publicKey (pingAssoc now publicKey s i true) i false
    have hmiddle : SameTimes list (pingAssoc now publicKey s i true).list := fun j v6 => (htimes6 j v6).trans (h j v6)
    obtain ⟨htimes, hcount⟩ := ih _ fun j v6 => (htimes4 j v6).trans (hmiddle j v6)
    refine ⟨htimes, ?_⟩
    rw [alive_of_sameTimes hmiddle] at hcount4
    rw [alive_of_sameTimes h] at hcount6
    rw [List.foldl_cons, hcount, hcount4, hcount6, aliveCount, aliveCount, List.countP_cons, List.countP_cons]
    omega

/-- The addresses of a close list that are not past `KILL_NODE_TIMEOUT`. -/
def aliveAddresses {n : ℕ} (now : UInt64) (list : ClientList n) : ℕ := aliveCount now list (List.finRange n)

/-- No address counts where none is alive. -/
theorem aliveAddresses_eq_zero_iff (now : UInt64) (list : ClientList n) :
    aliveAddresses now list = 0 ↔ ∀ i v6, alive now list v6 i = false := by
  rw [aliveAddresses, aliveCount, Nat.add_eq_zero_iff, List.countP_eq_zero, List.countP_eq_zero]
  constructor
  · rintro ⟨h6, h4⟩ i v6
    cases v6 with
    | true => exact Bool.eq_false_iff.mpr (h6 i (List.mem_finRange i))
    | false => exact Bool.eq_false_iff.mpr (h4 i (List.mem_finRange i))
  · intro h
    exact ⟨fun i _ => Bool.eq_false_iff.mp (h i true), fun i _ => Bool.eq_false_iff.mp (h i false)⟩

/-- What `do_ping_and_sendnode_requests` leaves of the close list, and what it counts. -/
theorem doPingAndSendnodeRequests_times (env : DhtEnv) (lastgetnode : UInt64) (publicKey : PublicKey)
    (list : ClientList n) (bootstrapTimes : UInt32) :
    SameTimes list (doPingAndSendnodeRequests env lastgetnode publicKey list bootstrapTimes false).list ∧
      (doPingAndSendnodeRequests env lastgetnode publicKey list bootstrapTimes false).notKill.toNat =
        aliveAddresses env.unixTime list % 256 := by
  obtain ⟨htimes, hcount⟩ := pingLoop_times env.unixTime publicKey list (List.finRange n) ⟨list, 0, 0, false, [], []⟩
    fun _ _ => rfl
  have hstart : (0 : UInt8).toNat + aliveCount env.unixTime list (List.finRange n) = aliveAddresses env.unixTime list :=
    Nat.zero_add _
  rw [hstart] at hcount
  unfold doPingAndSendnodeRequests pingLoop
  dsimp only [Bool.false_and]
  split
  · split
    · exact ⟨htimes, hcount⟩
    · exact ⟨htimes, hcount⟩
  · exact ⟨htimes, hcount⟩

theorem reviveAssoc_timestamp (badonly : UInt64) (assoc : IpptsPng) :
    (reviveAssoc badonly assoc).timestamp = if assoc.timestamp ≠ 0 then badonly else assoc.timestamp := by
  unfold reviveAssoc
  split
  · rfl
  · rfl

/-- The times of a revived node. -/
theorem revived_timestamp (badonly : UInt64) (client : ClientData) (v6 : Bool) :
    (({ client with
        assoc4 := reviveAssoc badonly client.assoc4, assoc6 := reviveAssoc badonly client.assoc6 } : ClientData).assoc
      v6).timestamp = if (client.assoc v6).timestamp ≠ 0 then badonly else (client.assoc v6).timestamp := by
  cases v6 with
  | true => exact reviveAssoc_timestamp badonly client.assoc6
  | false => exact reviveAssoc_timestamp badonly client.assoc4

/-- A timestamp after `do_Close`. -/
theorem doClose_timestamp (env : DhtEnv) (dht : Dht) (i : Fin lclientList) (v6 : Bool) :
    (((doClose env dht).2.closeClientlist i).assoc v6).timestamp =
      if aliveAddresses env.unixTime dht.closeClientlist % 256 = 0 ∧
        ((dht.closeClientlist i).assoc v6).timestamp ≠ 0 then
        env.unixTime - badNodeTimeout
      else ((dht.closeClientlist i).assoc v6).timestamp := by
  obtain ⟨htimes, hcount⟩ := doPingAndSendnodeRequests_times env dht.closeLastgetnodes dht.selfPublicKey
    dht.closeClientlist dht.closeBootstrapTimes
  have htime := htimes i v6
  generalize hresult : doPingAndSendnodeRequests env dht.closeLastgetnodes dht.selfPublicKey dht.closeClientlist
    dht.closeBootstrapTimes false = result at hcount htime
  generalize aliveAddresses env.unixTime dht.closeClientlist = count at hcount
  have hzero : result.notKill = 0 ↔ count % 256 = 0 := by
    rw [← hcount, ← UInt8.toNat_inj, UInt8.toNat_zero]
  simp only [doClose, hresult, hzero]
  generalize env.unixTime - badNodeTimeout = badonly
  by_cases hdead : count % 256 = 0
  · rw [if_pos hdead]
    have hrevived := revived_timestamp badonly (result.list i) v6
    rw [hrevived, htime]
    simp only [hdead, true_and]
  · rw [if_neg hdead, if_neg fun h => hdead h.1, htime]

/-- `do_Close` revives only a dead list: every timestamp that it changes becomes the one of a node that is just bad,
and it changes none while an address is alive. The second part holds exactly if the number of addresses alive is 0 or
not a multiple of 256, or there is nothing left to change. -/
theorem doClose_revives_iff (env : DhtEnv) (dht : Dht) :
    ((∀ i v6, (((doClose env dht).2.closeClientlist i).assoc v6).timestamp ≠
      ((dht.closeClientlist i).assoc v6).timestamp →
          (((doClose env dht).2.closeClientlist i).assoc v6).timestamp = env.unixTime - badNodeTimeout) ∧
        ((∃ i v6, alive env.unixTime dht.closeClientlist v6 i = true) →
          SameTimes dht.closeClientlist (doClose env dht).2.closeClientlist)) ↔
      (aliveAddresses env.unixTime dht.closeClientlist % 256 = 0 → aliveAddresses env.unixTime dht.closeClientlist = 0 ∨
        ∀ i v6, ((dht.closeClientlist i).assoc v6).timestamp ≠ 0 →
          ((dht.closeClientlist i).assoc v6).timestamp = env.unixTime - badNodeTimeout) := by
  have hvalue (i : Fin lclientList) (v6 : Bool)
      (hchanged : (((doClose env dht).2.closeClientlist i).assoc v6).timestamp ≠
        ((dht.closeClientlist i).assoc v6).timestamp) :
      (((doClose env dht).2.closeClientlist i).assoc v6).timestamp = env.unixTime - badNodeTimeout := by
    rw [doClose_timestamp] at hchanged ⊢
    split at hchanged
    · rename_i hrevived
      rw [if_pos hrevived]
    · contradiction
  rw [and_iff_right hvalue]
  constructor
  · intro hkeeps hmultiple
    by_cases hzero : aliveAddresses env.unixTime dht.closeClientlist = 0
    · exact .inl hzero
    · right
      intro i v6 hset
      have hsome : ∃ i v6, alive env.unixTime dht.closeClientlist v6 i = true := by
        by_contra hnone
        push Not at hnone
        exact hzero ((aliveAddresses_eq_zero_iff _ _).mpr fun i v6 => Bool.eq_false_iff.mpr (hnone i v6))
      have hsame := hkeeps hsome i v6
      rw [doClose_timestamp, if_pos ⟨hmultiple, hset⟩] at hsame
      exact hsame.symm
  · rintro hcondition ⟨i₀, v6₀, halive⟩ i v6
    rw [doClose_timestamp]
    split
    · rename_i hrevived
      rcases hcondition hrevived.1 with hzero | hnothing
      · rw [(aliveAddresses_eq_zero_iff _ _).mp hzero i₀ v6₀] at halive
        contradiction
      · exact (hnothing i v6 hrevived.2).symm
    · rfl

/-- A close list with 256 nodes that were heard from just now. -/
def manyNodes : Dht :=
  { Dht.new .zero with closeClientlist := fun i =>
      if i.val < 256 then ⟨.zero, { IpptsPng.zero with timestamp := 1000 }, .zero⟩ else .zero }

/-- With 256 nodes alive, their timestamps are set back. -/
theorem manyNodes_revived : alive 1000 manyNodes.closeClientlist false 0 = true ∧
    (((doClose DhtEnv.calm manyNodes).2.closeClientlist 0).assoc false).timestamp = 878 := by
  have hcount : aliveAddresses 1000 manyNodes.closeClientlist = 256 := by decide +kernel
  refine ⟨by decide, ?_⟩
  rw [doClose_timestamp, if_pos]
  · rfl
  · exact ⟨by rw [show DhtEnv.calm.unixTime = 1000 from rfl, hcount], by decide⟩

end Toxcore
