import Unimoc.Cyphal.Node
import Mathlib.Data.List.GetD

/-! The register services of the node: the index of a list request over all providers, and the
name of an access. -/
namespace Unimoc.Cyphal.Registers

structure RegisterFlags where
  isMutable : Bool
  isPersistent : Bool
deriving DecidableEq, Repr

/-- A provider of registers in a state `S`, with values `V`. -/
structure RegisterProvider (S V : Type) where
  count : Nat
  name : Nat → List UInt8
  read : Nat → S → RegisterFlags × V
  write : Nat → V → S → RegisterWriteResult × S

structure AccessResponse (V : Type) where
  value : V
  flags : RegisterFlags

def nameCapacity : Nat := 255

variable {S V : Type}

/-- The provider and the index in it, the first that has the name. -/
def findRegister (name : List UInt8) : List (RegisterProvider S V) → Option (Nat × Nat)
  | [] => none
  | provider :: rest =>
    match (List.range provider.count).find? fun i => provider.name i = name with
    | some i => some (0, i)
    | none => (findRegister name rest).map fun found => (found.1 + 1, found.2)

/-- The counts of the earlier providers are taken off the index. -/
def listName : List (RegisterProvider S V) → Nat → List UInt8
  | [], _ => []
  | provider :: rest, index =>
    if index < provider.count then (provider.name index).take nameCapacity
    else listName rest (index - provider.count)

def handleRegisterList (providers : List (RegisterProvider S V)) (index : UInt16) : List UInt8 :=
  listName providers index.toNat

/-- Writes a value that is not empty to a mutable register, then reads it. -/
def RegisterProvider.access (provider : RegisterProvider S V) (isEmpty : V → Bool) (index : Nat) (value : V)
    (s : S) : AccessResponse V × S :=
  let (flags, _) := provider.read index s
  let s := if !isEmpty value && flags.isMutable then (provider.write index value s).2 else s
  (⟨(provider.read index s).2, flags⟩, s)

/-- An unknown name is answered with the empty value. -/
def handleRegisterAccess (providers : List (RegisterProvider S V)) (isEmpty : V → Bool) (empty : V)
    (name : List UInt8) (value : V) (s : S) : AccessResponse V × S :=
  match findRegister name providers with
  | none => (⟨empty, false, false⟩, s)
  | some (k, i) =>
    match providers[k]? with
    | none => (⟨empty, false, false⟩, s)
    | some provider => provider.access isEmpty i value s

/-! ### The registers of all providers -/

/-- Register `i` of provider `k` has the name. -/
def Named (providers : List (RegisterProvider S V)) (k i : Nat) (name : List UInt8) : Prop :=
  ∃ provider, providers[k]? = some provider ∧ i < provider.count ∧ provider.name i = name

def total (providers : List (RegisterProvider S V)) : Nat := (providers.map (·.count)).sum

/-- The place of a register among all of them. -/
def position (providers : List (RegisterProvider S V)) (k i : Nat) : Nat := total (providers.take k) + i

/-- No two registers have one name, and every name fits. -/
structure WellNamed (providers : List (RegisterProvider S V)) : Prop where
  distinct : ∀ {k i k' i' name}, Named providers k i name → Named providers k' i' name → k = k' ∧ i = i'
  nonempty : ∀ {k i name}, Named providers k i name → name ≠ []
  short : ∀ {k i name}, Named providers k i name → name.length ≤ nameCapacity

variable {provider : RegisterProvider S V} {providers : List (RegisterProvider S V)} {k i : Nat} {name : List UInt8}

@[simp] theorem named_cons_zero :
    Named (provider :: providers) 0 i name ↔ i < provider.count ∧ provider.name i = name := by
  simp [Named]

@[simp] theorem named_cons_succ : Named (provider :: providers) (k + 1) i name ↔ Named providers k i name := Iff.rfl

@[simp] theorem position_cons_zero : position (provider :: providers) 0 i = i := by
  simp [position, total]

@[simp] theorem position_cons_succ :
    position (provider :: providers) (k + 1) i = provider.count + position providers k i := by
  simp [position, total, Nat.add_assoc]

@[simp] theorem total_cons : total (provider :: providers) = provider.count + total providers := by
  simp [total]

theorem position_total (named : Named providers k i name) : position providers k i < total providers := by
  induction providers generalizing k with
  | nil =>
    obtain ⟨provider, listed, -⟩ := named
    cases listed
  | cons provider rest ih =>
    cases k with
    | zero =>
      rw [named_cons_zero] at named
      rw [position_cons_zero, total_cons]
      omega
    | succ k =>
      have inside := ih (named_cons_succ.mp named)
      rw [position_cons_succ, total_cons]
      omega

/-! ### The list request -/

theorem list_position (named : Named providers k i name) :
    listName providers (position providers k i) = name.take nameCapacity := by
  induction providers generalizing k with
  | nil =>
    obtain ⟨provider, listed, -⟩ := named
    cases listed
  | cons provider rest ih =>
    cases k with
    | zero =>
      obtain ⟨inside, rfl⟩ := named_cons_zero.mp named
      rw [position_cons_zero, listName, if_pos inside]
    | succ k =>
      have beyond : ¬provider.count + position rest k i < provider.count := by omega
      rw [position_cons_succ, listName, if_neg beyond, Nat.add_sub_cancel_left]
      exact ih (named_cons_succ.mp named)

theorem named_at {index : Nat} (inside : index < total providers) :
    ∃ k i name, Named providers k i name ∧ position providers k i = index := by
  induction providers generalizing index with
  | nil => exact absurd inside (Nat.not_lt_zero index)
  | cons provider rest ih =>
    rw [total_cons] at inside
    by_cases here : index < provider.count
    · exact ⟨0, index, _, named_cons_zero.mpr ⟨here, rfl⟩, position_cons_zero⟩
    · obtain ⟨k, i, name, named, placed⟩ := @ih (index - provider.count) (by omega)
      refine ⟨k + 1, i, name, named_cons_succ.mpr named, ?_⟩
      rw [position_cons_succ, placed]
      omega

theorem list_beyond {index : Nat} (beyond : total providers ≤ index) : listName providers index = [] := by
  induction providers generalizing index with
  | nil => rfl
  | cons provider rest ih =>
    rw [total_cons] at beyond
    rw [listName, if_neg (by omega)]
    exact ih (by omega)

/-! ### The access -/

theorem find_named (found : findRegister name providers = some (k, i)) : Named providers k i name := by
  induction providers generalizing k with
  | nil => cases found
  | cons provider rest ih =>
    unfold findRegister at found
    split at found
    · rename_i j first
      cases found
      have inside := List.mem_range.mp (List.mem_of_find?_eq_some first)
      have same := List.find?_some first
      exact named_cons_zero.mpr ⟨inside, of_decide_eq_true same⟩
    · obtain ⟨later, place, same⟩ := Option.map_eq_some_iff.mp found
      cases same
      exact named_cons_succ.mpr (ih place)

theorem find_none (missed : findRegister name providers = none) : ¬Named providers k i name := by
  induction providers generalizing k with
  | nil =>
    rintro ⟨provider, listed, -⟩
    cases listed
  | cons provider rest ih =>
    unfold findRegister at missed
    split at missed
    · cases missed
    · rename_i absent
      cases k with
      | zero =>
        rw [named_cons_zero]
        rintro ⟨inside, same⟩
        have differ := List.find?_eq_none.mp absent i (List.mem_range.mpr inside)
        exact differ (decide_eq_true same)
      | succ k =>
        rw [named_cons_succ]
        exact ih (Option.map_eq_none_iff.mp missed)

theorem find_register (wellNamed : WellNamed providers) (named : Named providers k i name) :
    findRegister name providers = some (k, i) := by
  cases found : findRegister name providers with
  | none => exact absurd named (find_none found)
  | some place =>
    obtain ⟨sameProvider, sameIndex⟩ := wellNamed.distinct (find_named found) named
    rw [← sameProvider, ← sameIndex]

theorem access_named (wellNamed : WellNamed providers) (listed : providers[k]? = some provider)
    (inside : i < provider.count) (isEmpty : V → Bool) (empty value : V) (s : S) :
    handleRegisterAccess providers isEmpty empty (provider.name i) value s =
      provider.access isEmpty i value s := by
  unfold handleRegisterAccess
  rw [find_register wellNamed ⟨provider, listed, inside, rfl⟩]
  simp only [listed]

theorem access_unnamed (unnamed : ∀ k i, ¬Named providers k i name) (isEmpty : V → Bool) (empty value : V) (s : S) :
    handleRegisterAccess providers isEmpty empty name value s = (⟨empty, false, false⟩, s) := by
  unfold handleRegisterAccess
  cases found : findRegister name providers with
  | none => rfl
  | some place => exact absurd (find_named found) (unnamed place.1 place.2)

/-! ### Both services -/

/-- Every register is listed at one index, every listed name is that of one register which an access
of the name reaches; the indices of the request end at 65535. -/
theorem register_services (providers : List (RegisterProvider S V)) (wellNamed : WellNamed providers)
    (few : total providers ≤ 65536) :
    (∀ {k i name}, Named providers k i name → ∃! index, handleRegisterList providers index = name) ∧
    (∀ index : UInt16, total providers ≤ index.toNat → handleRegisterList providers index = []) ∧
    (∀ index : UInt16, index.toNat < total providers → ∃ k provider i, providers[k]? = some provider ∧
      i < provider.count ∧ handleRegisterList providers index = provider.name i ∧
      findRegister (handleRegisterList providers index) providers = some (k, i) ∧
      ∀ isEmpty empty value s,
        handleRegisterAccess providers isEmpty empty (handleRegisterList providers index) value s =
          provider.access isEmpty i value s) ∧
    ∀ name, (∀ k i, ¬Named providers k i name) → findRegister name providers = none ∧
      ∀ isEmpty empty value s,
        handleRegisterAccess providers isEmpty empty name value s = (⟨empty, false, false⟩, s) := by
  have listed {index : UInt16} {k i name} (named : Named providers k i name)
      (placed : position providers k i = index.toNat) : handleRegisterList providers index = name := by
    unfold handleRegisterList
    rw [← placed, list_position named, List.take_of_length_le (wellNamed.short named)]
  refine ⟨?_, ?_, ?_, ?_⟩
  · intro k i name named
    have inside := position_total named
    have place : (UInt16.ofNat (position providers k i)).toNat = position providers k i :=
      Nat.mod_eq_of_lt (Nat.lt_of_lt_of_le inside few)
    refine ⟨UInt16.ofNat (position providers k i), listed named place.symm, ?_⟩
    intro index same
    rcases Nat.lt_or_ge index.toNat (total providers) with within | beyond
    · obtain ⟨k', i', name', named', placed⟩ := named_at within
      have one : name' = name := (listed named' placed).symm.trans same
      obtain ⟨rfl, rfl⟩ := wellNamed.distinct named (one ▸ named')
      apply UInt16.toNat_inj.mp
      rw [place, placed]
    · have empty : name = [] := same.symm.trans (list_beyond beyond)
      exact absurd empty (wellNamed.nonempty named)
  · intro index beyond
    exact list_beyond beyond
  · intro index within
    obtain ⟨k, i, name, named, placed⟩ := named_at within
    have found := find_register wellNamed named
    obtain ⟨provider, stands, inside, rfl⟩ := id named
    rw [listed named placed]
    refine ⟨k, provider, i, stands, inside, rfl, found, ?_⟩
    intro isEmpty empty value s
    exact access_named wellNamed stands inside isEmpty empty value s
  · intro name unnamed
    constructor
    · cases found : findRegister name providers with
      | none => rfl
      | some place => exact absurd (find_named found) (unnamed place.1 place.2)
    · intro isEmpty empty value s
      exact access_unnamed unnamed isEmpty empty value s

def numbered (count : Nat) : RegisterProvider Unit Unit where
  count := count
  name i := [UInt8.ofNat i, UInt8.ofNat (i / 256), UInt8.ofNat (i / 65536)]
  read _ _ := (⟨false, false⟩, ())
  write _ _ s := (.readOnly, s)

theorem numbered_distinct {i j : Nat} (first : i < 2 ^ 24) (second : j < 2 ^ 24)
    (same : (numbered 0).name i = (numbered 0).name j) : i = j := by
  simp only [numbered, List.cons.injEq, and_true] at same
  obtain ⟨low, middle, high⟩ := same
  have low := congrArg UInt8.toNat low
  have middle := congrArg UInt8.toNat middle
  have high := congrArg UInt8.toNat high
  simp only [UInt8.toNat_ofNat'] at low middle high
  omega

theorem numbered_wellNamed {count : Nat} (few : count ≤ 2 ^ 24) : WellNamed [numbered count] := by
  have first {k i name} (named : Named [numbered count] k i name) :
      k = 0 ∧ i < count ∧ (numbered 0).name i = name := by
    cases k with
    | zero => exact ⟨rfl, named_cons_zero.mp named⟩
    | succ k =>
      obtain ⟨provider, listed, -⟩ := named
      cases listed
  constructor
  · intro k i k' i' name named named'
    obtain ⟨rfl, inside, same⟩ := first named
    obtain ⟨rfl, inside', same'⟩ := first named'
    exact ⟨rfl, numbered_distinct (by omega) (by omega) (same.trans same'.symm)⟩
  · intro k i name named
    obtain ⟨-, -, rfl⟩ := first named
    exact List.cons_ne_nil _ _
  · intro k i name named
    obtain ⟨-, -, rfl⟩ := first named
    exact Nat.le_of_ble_eq_true rfl

theorem register_services_numbered : handleRegisterList [numbered 2] 2 = [] :=
  (register_services [numbered 2] (numbered_wellNamed (by decide)) (by decide)).2.1 2 (by decide)

/-- One register more than the request has indices. -/
theorem register_services_beyond :
    WellNamed [numbered 65537] ∧ Named [numbered 65537] 0 65536 ((numbered 0).name 65536) ∧
    ∀ index : UInt16, handleRegisterList [numbered 65537] index ≠ (numbered 0).name 65536 := by
  refine ⟨numbered_wellNamed (by decide), named_cons_zero.mpr ⟨Nat.lt_succ_self 65536, rfl⟩, ?_⟩
  intro index
  have bound : index.toNat < 65536 := index.toNat_lt
  have inside : index.toNat < (numbered 65537).count := Nat.lt_succ_of_lt bound
  unfold handleRegisterList
  rw [listName, if_pos inside]
  intro same
  have equal := numbered_distinct (by omega) (by decide) same
  omega

end Unimoc.Cyphal.Registers
