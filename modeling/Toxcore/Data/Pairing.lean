import Mathlib.Logic.Basic
import Mathlib.Tactic.TypeStar

/-!
# Ports joined in pairs

A table has places, and the owner of a place has a key. Each place has ports; a port in use names a key, and either
waits for the owner of that key or is joined to a port of the owner's place. `Paired` says that joined ports point at
each other, and that two owners who name each other are joined. The operations are those of a switchboard: an owner
takes or leaves a place, and a port is requested or released.
-/

namespace Pairing

variable {K ι P : Type*}

/-- A port of a place. -/
inductive Port (K ι P : Type*) where
  | unused
  | waiting (key : K)
  | joined (key : K) (place : ι) (port : P)

/-- The key that a port names. -/
def Port.names : Port K ι P → Option K
  | .unused => none
  | .waiting key => some key
  | .joined key _ _ => some key

@[simp, grind =] theorem Port.names_unused : (Port.unused : Port K ι P).names = none := rfl

@[simp, grind =] theorem Port.names_waiting (key : K) : (Port.waiting key : Port K ι P).names = some key := rfl

@[simp, grind =] theorem Port.names_joined (key : K) (place : ι) (port : P) :
    (Port.joined key place port).names = some key := rfl

/-- Who owns the places, and what their ports are. -/
structure Table (K ι P : Type*) where
  owner : ι → Option K
  port : ι → P → Port K ι P

/-- The ports of a table fit together. -/
structure Paired (t : Table K ι P) : Prop where
  owner_injective : ∀ c d key, t.owner c = some key → t.owner d = some key → c = d
  vacant : ∀ c, t.owner c = none → ∀ i, t.port c i = .unused
  distinct : ∀ c i j key, (t.port c i).names = some key → (t.port c j).names = some key → i = j
  foreign : ∀ c key, t.owner c = some key → ∀ i, (t.port c i).names ≠ some key
  joined : ∀ c i key d j, t.port c i = .joined key d j →
    t.owner d = some key ∧ ∃ own, t.owner c = some own ∧ t.port d j = .joined own c i
  complete : ∀ c d own key i j, t.owner c = some own → t.owner d = some key → (t.port c i).names = some key →
    (t.port d j).names = some own → t.port c i = .joined key d j

namespace Table

variable [DecidableEq ι] [DecidableEq P]

/-- A place gets an owner, or loses it. -/
def setOwner (t : Table K ι P) (c : ι) (key : Option K) : Table K ι P :=
  { t with owner := fun c' => if c' = c then key else t.owner c' }

/-- A port is changed. -/
def setPort (t : Table K ι P) (c : ι) (i : P) (port : Port K ι P) : Table K ι P :=
  { t with port := fun c' i' => if c' = c ∧ i' = i then port else t.port c' i' }

/-- A port is no longer used; the port it was joined to waits. -/
def release (t : Table K ι P) (c : ι) (i : P) : Table K ι P :=
  match t.port c i, t.owner c with
  | .joined _ d j, some own => (t.setPort d j (.waiting own)).setPort c i .unused
  | _, _ => t.setPort c i .unused

/-- Two ports are joined. -/
def join (t : Table K ι P) (c : ι) (i : P) (own : K) (d : ι) (j : P) (key : K) : Table K ι P :=
  (t.setPort c i (.joined key d j)).setPort d j (.joined own c i)

variable (t : Table K ι P) (c d : ι) (i j : P) (port : Port K ι P) (key : Option K)

omit [DecidableEq P] in
@[simp, grind =] theorem setOwner_owner : (t.setOwner c key).owner d = if d = c then key else t.owner d := rfl

omit [DecidableEq P] in
@[simp, grind =] theorem setOwner_port : (t.setOwner c key).port d j = t.port d j := rfl

@[simp, grind =] theorem setPort_owner : (t.setPort c i port).owner d = t.owner d := rfl

@[simp, grind =] theorem setPort_port :
    (t.setPort c i port).port d j = if d = c ∧ j = i then port else t.port d j := rfl

/-- The last write to a port counts. -/
theorem setPort_setPort (port' : Port K ι P) : (t.setPort c i port).setPort c i port' = t.setPort c i port' := by
  simp only [setPort, mk.injEq, true_and]
  funext c' i'
  split <;> rfl

end Table

namespace Paired

variable [DecidableEq ι] [DecidableEq P] {t : Table K ι P} {c d : ι} {i j : P} {own key : K}

section

variable (h : Paired t)
include h

omit [DecidableEq P] in
/-- The owner of a new key takes a place. -/
theorem occupy (hvacant : t.owner c = none) (hnew : ∀ d, t.owner d ≠ some key) :
    Paired (t.setOwner c (some key)) where
  owner_injective := by
    intro c' d' key' hc hd
    have := h.owner_injective c' d' key'
    grind
  vacant := by
    intro c' hc
    have := h.vacant c'
    grind
  distinct := h.distinct
  foreign := by
    intro c' key' hc i
    have := h.foreign c' key'
    have := h.vacant c'
    grind
  joined := by
    intro c' i key' d' j hport
    have := h.joined _ _ _ _ _ hport
    have := h.vacant _ hvacant
    grind
  complete := by
    intro c' d' own' key' i j hc hd hi hj
    have := h.complete c' d' own' key' i j
    have := h.vacant _ hvacant
    grind

omit [DecidableEq P] in
/-- The owner of a place without ports in use leaves it. -/
theorem vacate (hunused : ∀ i, t.port c i = .unused) : Paired (t.setOwner c none) where
  owner_injective := by
    intro c' d' key' hc hd
    have := h.owner_injective c' d' key'
    grind
  vacant := by
    intro c' hc
    have := h.vacant c'
    grind
  distinct := h.distinct
  foreign := by
    intro c' key' hc i
    have := h.foreign c' key'
    grind
  joined := by
    intro c' i key' d' j hport
    have := h.joined _ _ _ _ _ hport
    grind
  complete := by
    intro c' d' own' key' i j hc hd hi hj
    have := h.complete c' d' own' key' i j
    grind

omit [DecidableEq ι] [DecidableEq P] in
/-- Where no port of an owner waits for another one who does not name it back, no port of the first names the second. -/
theorem not_named (hown : t.owner c = some own) (hnew : ∀ j, (t.port c j).names ≠ some key)
    (hfree : ∀ d, t.owner d = some key → ∀ j, t.port d j ≠ .waiting own) (hkey : t.owner d = some key) (j : P) :
    (t.port d j).names ≠ some own := by
  intro hnames
  cases hport : t.port d j with
  | unused => simp [hport] at hnames
  | waiting own' =>
    rw [hport, Port.names_waiting, Option.some_inj] at hnames
    exact hfree d hkey j (hnames ▸ hport)
  | joined own' c' i' =>
    rw [hport, Port.names_joined, Option.some_inj] at hnames
    obtain ⟨hc', key', hkey', hback⟩ := h.joined _ _ _ _ _ hport
    have hc : c' = c := h.owner_injective _ _ own (hnames ▸ hc') hown
    rw [hkey, Option.some_inj] at hkey'
    apply hnew i'
    rw [← hc, hback, Port.names_joined, hkey']

/-- A port waits for the owner of a key that no port of its place names, and that has no port waiting for it. -/
theorem request (hown : t.owner c = some own) (hunused : t.port c i = .unused) (hforeign : own ≠ key)
    (hnew : ∀ j, (t.port c j).names ≠ some key) (hfree : ∀ d, t.owner d = some key → ∀ j, t.port d j ≠ .waiting own) :
    Paired (t.setPort c i (.waiting key)) where
  owner_injective := h.owner_injective
  vacant := by
    intro c' hc
    have := h.vacant c'
    grind
  distinct := by
    intro c' i' j' key' hi hj
    have := h.distinct c' i' j' key'
    grind
  foreign := by
    intro c' key' hc i'
    have := h.foreign c' key'
    grind
  joined := by
    intro c' i' key' d' j' hport
    have := h.joined c' i' key' d' j'
    grind
  complete := by
    intro c' d' own' key' i' j' hc hd hi hj
    have := h.complete c' d' own' key' i' j'
    have := h.not_named hown hnew hfree (d := c')
    have := h.not_named hown hnew hfree (d := d')
    grind

/-- A port is joined to one that waits for the owner of its place. -/
theorem join (hown : t.owner c = some own) (hunused : t.port c i = .unused) (hforeign : own ≠ key)
    (hnew : ∀ j, (t.port c j).names ≠ some key) (hkey : t.owner d = some key) (hwaiting : t.port d j = .waiting own) :
    Paired (t.join c i own d j key) where
  owner_injective := h.owner_injective
  vacant := by
    intro c' hc
    have := h.vacant c'
    grind [Table.join]
  distinct := by
    intro c' i' j' key' hi hj
    have := h.distinct c' i' j' key'
    grind [Table.join]
  foreign := by
    intro c' key' hc i'
    have := h.foreign c' key'
    grind [Table.join]
  joined := by
    intro c' i' key' d' j' hport
    have := h.joined c' i' key' d' j'
    grind [Table.join]
  complete := by
    intro c' d' own' key' i' j' hc hd hi hj
    have := h.complete c' d' own' key' i' j'
    have := h.owner_injective c c' own
    have := h.owner_injective c d' own
    have := h.owner_injective d c' key
    have := h.owner_injective d d' key
    have := h.distinct c' i' i
    have := h.distinct d' j' j
    have := h.distinct c' i' j
    grind [Table.join]

/-- A port that waits is released. -/
theorem releaseWaiting (hport : t.port c i = .waiting key) : Paired (t.setPort c i .unused) where
  owner_injective := h.owner_injective
  vacant := by
    intro c' hc
    have := h.vacant c'
    grind
  distinct := by
    intro c' i' j' key' hi hj
    have := h.distinct c' i' j' key'
    grind
  foreign := by
    intro c' key' hc i'
    have := h.foreign c' key'
    grind
  joined := by
    intro c' i' key' d' j' hport
    have := h.joined c' i' key' d' j'
    grind
  complete := by
    intro c' d' own' key' i' j' hc hd hi hj
    have := h.complete c' d' own' key' i' j'
    grind

/-- A port that is joined is released, and the other one waits. -/
theorem releaseJoined (hown : t.owner c = some own) (hport : t.port c i = .joined key d j) :
    Paired ((t.setPort d j (.waiting own)).setPort c i .unused) := by
  obtain ⟨hkey, own', hown', hback⟩ := h.joined _ _ _ _ _ hport
  obtain rfl : own' = own := Option.some_inj.mp (hown'.symm.trans hown)
  constructor
  case owner_injective => exact h.owner_injective
  case vacant =>
    intro c' hc
    have := h.vacant c'
    grind
  case distinct =>
    intro c' i' j' key' hi hj
    have := h.distinct c' i' j' key'
    grind
  case foreign =>
    intro c' key' hc i'
    have := h.foreign c' key'
    grind
  case joined =>
    intro c' i' key' d' j' hport
    have := h.joined c' i' key' d' j'
    grind
  case complete =>
    intro c' d' own'' key' i' j' hc hd hi hj
    have := h.complete c' d' own'' key' i' j'
    have := h.complete c' d' own'' key' i' j
    have := h.complete c' d' own'' key' j j'
    have := h.distinct c i i' key
    have := h.distinct c i j' key
    have := h.owner_injective c c' own' hown
    have := h.owner_injective c d' own' hown
    grind

end

/-- Releasing an unused port changes nothing. -/
theorem release_of_unused (hport : t.port c i = .unused) : t.release c i = t := by
  simp only [Table.release, hport, Table.setPort]
  congr
  funext c' i'
  by_cases hplace : c' = c ∧ i' = i
  · rw [if_pos hplace, hplace.1, hplace.2, hport]
  · rw [if_neg hplace]

/-- A port is released. -/
theorem release (h : Paired t) (c : ι) (i : P) : Paired (t.release c i) := by
  cases hport : t.port c i with
  | unused => rwa [release_of_unused hport]
  | waiting key =>
    simp only [Table.release, hport]
    exact h.releaseWaiting hport
  | joined key d j =>
    obtain ⟨-, own, hown, -⟩ := h.joined _ _ _ _ _ hport
    simp only [Table.release, hport, hown]
    exact h.releaseJoined hown hport

/-- The port that is released is unused, and the other unused ports stay so. -/
theorem release_unused (h : Paired t) (hunused : i = j ∨ t.port c i = .unused) :
    (t.release c j).port c i = .unused := by
  cases hport : t.port c j with
  | unused => grind [Table.release]
  | waiting key => grind [Table.release]
  | joined key d j' =>
    obtain ⟨hkey, own, hown, hback⟩ := h.joined _ _ _ _ _ hport
    have hother : d ≠ c := by
      rintro rfl
      exact h.foreign d key hkey j (by rw [hport, Port.names_joined])
    grind [Table.release]

/-- The ports of a place are released one by one. -/
theorem releaseAll (c : ι) (ports : List P) (h : Paired t) :
    Paired (ports.foldl (fun t i => t.release c i) t) ∧
      ∀ i, i ∈ ports ∨ t.port c i = .unused → (ports.foldl (fun t i => t.release c i) t).port c i = .unused := by
  induction ports generalizing t with
  | nil => exact ⟨h, fun i hi => hi.resolve_left List.not_mem_nil⟩
  | cons j ports ih =>
    obtain ⟨hpaired, hunused⟩ := ih (h.release c j)
    refine ⟨hpaired, fun i hi => hunused i ?_⟩
    rcases hi with hi | hi
    · rcases List.mem_cons.mp hi with rfl | hi
      · exact .inr (h.release_unused (.inl rfl))
      · exact .inl hi
    · exact .inr (h.release_unused (.inr hi))

end Paired

end Pairing
