import Toxcore.NetCrypto.Connections

/-!
# Routes: what the table of connections is for

The part of the connection table that decides where an incoming packet goes is, for each slot, whether
it is in use, the real key of the peer, and an address for each of the two address families. A table
of routes is valid with an address index when live keys are distinct and the index maps exactly the
addresses that are set. The four ways in which the code changes the table keep it valid.
-/

namespace Toxcore

open ByteStrings Function List

/-- The address families a connection keeps an address for. -/
inductive AddressFamily where
  | v4
  | v6
  deriving DecidableEq

/-- The family byte. -/
def AddressFamily.code : AddressFamily → UInt8
  | .v4 => afInet
  | .v6 => afInet6

/-- A slot of the table, as far as routing goes. -/
@[ext] structure Route where
  live : Bool
  publicKey : PublicKey
  address : AddressFamily → IpPort

/-- The route of a connection. -/
def routeOf (conn : CryptoConnection) : Route where
  live := decide (conn.status ≠ .noConnection)
  publicKey := conn.publicKey
  address
    | .v4 => conn.ipPortv4
    | .v6 => conn.ipPortv6

/-- The routes of a table. -/
def NetCrypto.routes (c : NetCrypto) : List Route := c.cryptoConnections.map routeOf

namespace Route

/-- The route has the address that is stored as these bytes. -/
def Owns (route : Route) (x : Bytes) : Prop :=
  ∃ family, (route.address family).ip.family ≠ 0 ∧ x = (route.address family).stored

/-- The route has no address. -/
def Unset (route : Route) : Prop := ∀ family, (route.address family).ip.family = 0

/-- The route with another address. -/
def setAddress (route : Route) (family : AddressFamily) (ipPort : IpPort) : Route :=
  { route with address := update route.address family ipPort }

/-- An address belongs to its family, or is not set. -/
def FamiliesRight (route : Route) : Prop :=
  ∀ family, (route.address family).ip.family = 0 ∨ (route.address family).ip.family = family.code

variable {route : Route}

theorem Unset.not_owns (h : route.Unset) (x : Bytes) : ¬route.Owns x := by
  rintro ⟨family, hset, -⟩
  exact hset (h family)

/-- Addresses of different families are stored differently. -/
theorem FamiliesRight.family_eq (h : route.FamiliesRight) {a b : AddressFamily}
    (hset : (route.address a).ip.family ≠ 0) (heq : (route.address a).stored = (route.address b).stored) : a = b := by
  have haddress := congrArg (·.ip.family) (IpPort.stored_injective heq)
  have ha := (h a).resolve_left hset
  have hb := (h b).resolve_left (haddress ▸ hset)
  rw [ha, hb] at haddress
  cases a <;> cases b <;> first | rfl | exact absurd haddress (by decide)

/-- What a route owns after one of its addresses was replaced. -/
theorem FamiliesRight.owns_setAddress (h : route.FamiliesRight) (family : AddressFamily) (ipPort : IpPort) (x : Bytes) :
    (route.setAddress family ipPort).Owns x ↔
      (ipPort.ip.family ≠ 0 ∧ x = ipPort.stored) ∨ (route.Owns x ∧ x ≠ (route.address family).stored) := by
  constructor
  · rintro ⟨other, hset, rfl⟩
    by_cases hother : other = family
    · subst hother
      simp only [setAddress, update_self] at hset ⊢
      exact .inl ⟨hset, trivial⟩
    · simp only [setAddress, update_of_ne hother] at hset ⊢
      exact .inr ⟨⟨other, hset, rfl⟩, fun heq => hother (h.family_eq hset heq)⟩
  · rintro (⟨hset, rfl⟩ | ⟨⟨other, hset, rfl⟩, hne⟩)
    · refine ⟨family, ?_⟩
      simpa only [setAddress, update_self, and_true] using hset
    · have hother : other ≠ family := by
        rintro rfl
        exact hne rfl
      refine ⟨other, ?_⟩
      simpa only [setAddress, update_of_ne hother, and_true] using hset

end Route

/-- The table of routes and the index from addresses agree. -/
structure RoutesValid (list : BsList) (routes : List Route) : Prop where
  wellFormed : list.WellFormed
  size : list.elementSize = 32
  families : ∀ (i : ℕ) route, routes[i]? = some route → route.FamiliesRight
  dead : ∀ (i : ℕ) route, routes[i]? = some route → route.live = false → route.Unset
  keys : ∀ (i j : ℕ) a b, routes[i]? = some a → routes[j]? = some b → a.live = true → b.live = true →
    a.publicKey = b.publicKey → i = j
  maps : ∀ x (id : ℤ), list.Maps x id ↔ ∃ (i : ℕ) (route : Route), id = i ∧ routes[i]? = some route ∧ route.Owns x

namespace RoutesValid

variable {list : BsList} {routes : List Route}

variable {i : ℕ} {route : Route} {list' : BsList}

section

variable (h : RoutesValid list routes)
include h

/-- The bytes the index maps to a slot, from the route there. -/
theorem maps_iff (hroute : routes[i]? = some route) (x : Bytes) : list.Maps x i ↔ route.Owns x := by
  rw [h.maps]
  constructor
  · rintro ⟨j, route', hij, hroute', howns⟩
    obtain rfl := Int.ofNat_inj.mp hij
    obtain rfl := Option.some_inj.mp (hroute.symm.trans hroute')
    exact howns
  · intro howns
    exact ⟨i, route, rfl, hroute, howns⟩

/-- The index agrees with a table in which one route was replaced, if it does so for that route. -/
theorem maps_set {route' : Route} (hroute : routes[i]? = some route) (hself : ∀ x, list'.Maps x i ↔ route'.Owns x)
    (hother : ∀ x (id : ℤ), id ≠ i → (list'.Maps x id ↔ list.Maps x id)) (x : Bytes) (id : ℤ) :
    list'.Maps x id ↔
      ∃ (j : ℕ) (r : Route), id = j ∧ (routes.set i route')[j]? = some r ∧ r.Owns x := by
  have hlt := (List.getElem?_eq_some_iff.mp hroute).1
  by_cases hid : id = i
  · subst hid
    rw [hself]
    constructor
    · intro howns
      exact ⟨i, route', rfl, getElem?_set_self hlt, howns⟩
    · rintro ⟨j, r, hij, hr, howns⟩
      obtain rfl := Int.ofNat_inj.mp hij
      rw [getElem?_set_self hlt] at hr
      exact Option.some_inj.mp hr ▸ howns
  · rw [hother x id hid, h.maps]
    constructor
    · rintro ⟨j, r, rfl, hr, howns⟩
      have hij : i ≠ j := fun hij => hid (by rw [hij])
      exact ⟨j, r, rfl, by rwa [getElem?_set_ne hij], howns⟩
    · rintro ⟨j, r, rfl, hr, howns⟩
      have hij : i ≠ j := fun hij => hid (by rw [hij])
      exact ⟨j, r, rfl, by rwa [getElem?_set_ne hij] at hr, howns⟩

/-- A slot without addresses may change hands, if no other live slot has the key. -/
theorem setIdentity (hroute : routes[i]? = some route) (route' : Route) (hunset : route.Unset)
    (haddress : route'.address = route.address)
    (hfresh : route'.live = true → ∀ (j : ℕ) r, routes[j]? = some r → r.live = true →
      r.publicKey = route'.publicKey → j = i) : RoutesValid list (routes.set i route') := by
  have hunset' : route'.Unset := fun family => by rw [haddress]; exact hunset family
  refine ⟨h.wellFormed, h.size, ?_, ?_, ?_, h.maps_set hroute ?_ (fun _ _ _ => Iff.rfl)⟩
  · intro j r hr
    rcases getElem?_set_cases hr with ⟨-, rfl⟩ | ⟨-, hold⟩
    · exact fun family => .inl (hunset' family)
    · exact h.families j r hold
  · intro j r hr hdead
    rcases getElem?_set_cases hr with ⟨-, rfl⟩ | ⟨-, hold⟩
    · exact hunset'
    · exact h.dead j r hold hdead
  · intro j k a b ha hb halive hblive hkey
    rcases getElem?_set_cases ha with ⟨rfl, rfl⟩ | ⟨-, hold⟩ <;>
      rcases getElem?_set_cases hb with ⟨rfl, rfl⟩ | ⟨-, hold'⟩
    · rfl
    · exact (hfresh halive k b hold' hblive hkey.symm).symm
    · exact hfresh hblive j a hold halive hkey
    · exact h.keys j k a b hold hold' halive hblive hkey
  · intro x
    rw [h.maps_iff hroute]
    exact iff_of_false (hunset.not_owns x) (hunset'.not_owns x)

/-- A free slot may be added at the end. -/
theorem append (hdead : route.live = false) (hunset : route.Unset) : RoutesValid list (routes ++ [route]) := by
  have hcases : ∀ (j : ℕ) r, (routes ++ [route])[j]? = some r → r = route ∨ routes[j]? = some r := by
    intro j r hr
    rcases Nat.lt_or_ge j routes.length with hlt | hge
    · rw [getElem?_append_left hlt] at hr
      exact .inr hr
    · rw [getElem?_append_right hge] at hr
      exact .inl (mem_singleton.mp (mem_of_getElem? hr))
  refine ⟨h.wellFormed, h.size, ?_, ?_, ?_, ?_⟩
  · intro j r hr
    rcases hcases j r hr with rfl | hold
    · exact fun family => .inl (hunset family)
    · exact h.families j r hold
  · intro j r hr hrdead
    rcases hcases j r hr with rfl | hold
    · exact hunset
    · exact h.dead j r hold hrdead
  · intro j k a b ha hb halive hblive hkey
    rcases hcases j a ha with rfl | hold
    · rw [hdead] at halive
      contradiction
    · rcases hcases k b hb with rfl | hold'
      · rw [hdead] at hblive
        contradiction
      · exact h.keys j k a b hold hold' halive hblive hkey
  · intro x id
    rw [h.maps]
    constructor
    · rintro ⟨j, r, hid, hr, howns⟩
      refine ⟨j, r, hid, ?_, howns⟩
      rwa [getElem?_append_left (List.getElem?_eq_some_iff.mp hr).1]
    · rintro ⟨j, r, hid, hr, howns⟩
      rcases hcases j r hr with rfl | hold
      · exact absurd howns (hunset.not_owns x)
      · exact ⟨j, r, hid, hold, howns⟩

end

/-- Free slots may be cut off the end. -/
theorem trim {kept dropped : List Route} (h : RoutesValid list (kept ++ dropped))
    (hdead : ∀ route ∈ dropped, route.live = false) : RoutesValid list kept := by
  have hkept : ∀ (j : ℕ) r, kept[j]? = some r → (kept ++ dropped)[j]? = some r := fun j r hr => by
    rwa [getElem?_append_left (List.getElem?_eq_some_iff.mp hr).1]
  refine ⟨h.wellFormed, h.size, fun j r hr => h.families j r (hkept j r hr),
    fun j r hr => h.dead j r (hkept j r hr),
    fun j k a b ha hb => h.keys j k a b (hkept j a ha) (hkept k b hb), ?_⟩
  intro x id
  rw [h.maps]
  constructor
  · rintro ⟨j, r, hid, hr, howns⟩
    refine ⟨j, r, hid, ?_, howns⟩
    rcases Nat.lt_or_ge j kept.length with hlt | hge
    · rwa [getElem?_append_left hlt] at hr
    · have hmem : r ∈ dropped := by
        rw [getElem?_append_right hge] at hr
        exact mem_of_getElem? hr
      have hunset := h.dead j r hr (hdead r hmem)
      exact absurd howns (hunset.not_owns x)
  · rintro ⟨j, r, hid, hr, howns⟩
    exact ⟨j, r, hid, hkept j r hr, howns⟩

/-- One address of a route may change along with the entries of the index for its slot. -/
theorem setAddress (h : RoutesValid list routes) (hroute : routes[i]? = some route) {family : AddressFamily}
    {ipPort : IpPort} (hfamily : ipPort.ip.family = 0 ∨ (route.live = true ∧ ipPort.ip.family = family.code))
    (hwell : list'.WellFormed) (hsize : list'.elementSize = 32)
    (hself : ∀ x, list'.Maps x i ↔ (route.setAddress family ipPort).Owns x)
    (hother : ∀ x (id : ℤ), id ≠ i → (list'.Maps x id ↔ list.Maps x id)) :
    RoutesValid list' (routes.set i (route.setAddress family ipPort)) := by
  have hsame : ∀ (n : ℕ) r, (routes.set i (route.setAddress family ipPort))[n]? = some r →
      ∃ r', routes[n]? = some r' ∧ r'.live = r.live ∧ r'.publicKey = r.publicKey := by
    intro n r hr
    rcases getElem?_set_cases hr with ⟨rfl, rfl⟩ | ⟨-, hold⟩
    · exact ⟨route, hroute, rfl, rfl⟩
    · exact ⟨r, hold, rfl, rfl⟩
  refine ⟨hwell, hsize, ?_, ?_, ?_, h.maps_set hroute hself hother⟩
  · intro j r hr
    rcases getElem?_set_cases hr with ⟨-, rfl⟩ | ⟨-, hold⟩
    · intro other
      by_cases heq : other = family
      · subst heq
        simp only [Route.setAddress, update_self]
        exact hfamily.imp_right And.right
      · simp only [Route.setAddress, update_of_ne heq]
        exact h.families i route hroute other
    · exact h.families j r hold
  · intro j r hr hdead
    rcases getElem?_set_cases hr with ⟨-, rfl⟩ | ⟨-, hold⟩
    · have hdead' : route.live = false := hdead
      intro other
      by_cases heq : other = family
      · subst heq
        simp only [Route.setAddress, update_self]
        refine hfamily.resolve_right fun hlive => ?_
        rw [hdead'] at hlive
        exact absurd hlive.1 Bool.false_ne_true
      · simp only [Route.setAddress, update_of_ne heq]
        exact h.dead i route hroute hdead' other
    · exact h.dead j r hold hdead
  · intro j k a b ha hb halive hblive hkey
    obtain ⟨a', ha', halive', hakey⟩ := hsame j a ha
    obtain ⟨b', hb', hblive', hbkey⟩ := hsame k b hb
    exact h.keys j k a' b' ha' hb' (halive'.trans halive) (hblive'.trans hblive) (by rw [hakey, hbkey, hkey])

/-- A live slot takes a new address, added to the index before the old one is removed. -/
theorem replaceAddress (h : RoutesValid list routes) (hroute : routes[i]? = some route) (hlive : route.live = true)
    {family : AddressFamily} {ipPort : IpPort} (hfamily : ipPort.ip.family = family.code) (hwell : list'.WellFormed)
    (hsize : list'.elementSize = list.elementSize) (hadded : list.Added list' ipPort.stored i) (alloc : Bool) :
    RoutesValid (bsListRemove alloc list' (route.address family).stored i).2
      (routes.set i (route.setAddress family ipPort)) := by
  have hset : ipPort.ip.family ≠ 0 := by
    rw [hfamily]
    cases family <;> decide
  have hright := h.families i route hroute
  have hstored : (route.address family).stored.length = list'.elementSize := by
    rw [IpPort.stored_length, hsize, h.size]
  obtain ⟨hwell', hsize', hmaps'⟩ := hwell.bsListRemove_maps hstored alloc (i : ℤ)
  have hnew : ipPort.stored ≠ (route.address family).stored := by
    intro heq
    refine hadded.fresh i ((h.maps_iff hroute _).mpr ⟨family, ?_, heq⟩)
    rwa [← IpPort.stored_injective heq]
  refine h.setAddress hroute (.inr ⟨hlive, hfamily⟩) hwell' (by rw [hsize', hsize, h.size]) ?_ ?_
  · intro x
    rw [hmaps', hadded.maps, h.maps_iff hroute, hright.owns_setAddress]
    constructor
    · rintro ⟨⟨rfl, -⟩ | howns, hne⟩
      · exact .inl ⟨hset, rfl⟩
      · exact .inr ⟨howns, fun heq => hne ⟨heq, rfl⟩⟩
    · rintro (⟨-, rfl⟩ | ⟨howns, hne⟩)
      · exact ⟨.inl ⟨rfl, rfl⟩, fun heq => hnew heq.1⟩
      · exact ⟨.inr howns, fun heq => hne heq.1⟩
  · intro x id hid
    rw [hmaps', hadded.maps]
    exact ⟨fun hmaps => hmaps.1.resolve_left fun heq => hid heq.2,
      fun hold => ⟨.inr hold, fun heq => hid heq.2⟩⟩

/-- An address is taken out of the index and cleared. -/
theorem clearAddress (h : RoutesValid list routes) (hroute : routes[i]? = some route) (family : AddressFamily)
    (alloc : Bool) :
    RoutesValid (bsListRemove alloc list (route.address family).stored i).2
      (routes.set i (route.setAddress family .zero)) := by
  have hstored : (route.address family).stored.length = list.elementSize := by
    rw [IpPort.stored_length, h.size]
  obtain ⟨hwell', hsize', hmaps'⟩ := h.wellFormed.bsListRemove_maps hstored alloc (i : ℤ)
  refine h.setAddress hroute (.inl rfl) hwell' (by rw [hsize', h.size]) ?_ ?_
  · intro x
    rw [hmaps', h.maps_iff hroute, (h.families i route hroute).owns_setAddress]
    constructor
    · rintro ⟨howns, hne⟩
      exact .inr ⟨howns, fun heq => hne ⟨heq, rfl⟩⟩
    · rintro (⟨hset, -⟩ | ⟨howns, hne⟩)
      · exact absurd rfl hset
      · exact ⟨howns, fun heq => hne heq.1⟩
  · intro x id hid
    rw [hmaps']
    exact ⟨And.left, fun hold => ⟨hold, fun heq => hid heq.2⟩⟩

end RoutesValid

end Toxcore
