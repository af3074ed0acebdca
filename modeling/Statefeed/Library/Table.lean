import Mathlib.Data.List.AList
import Mathlib.Algebra.Order.BigOperators.Group.List
import Mathlib.Algebra.Order.Ring.Nat
import Mathlib.Tactic.Common

set_option autoImplicit false

structure Table (K V : Type) where
  assoc : AList fun _ : K => V

namespace Table

variable {K V : Type}

instance : EmptyCollection (Table K V) := ⟨⟨∅⟩⟩

def keys (table : Table K V) : List K := table.assoc.keys

def total (table : Table K V) (weight : V → Nat) : Nat :=
  (table.assoc.entries.map fun entry => weight entry.2).sum

def size (table : Table K V) : Nat := table.total fun _ => 1

def count (table : Table K V) (holds : V → Bool) : Nat :=
  table.total fun value => if holds value then 1 else 0

theorem keys_nodup (table : Table K V) : table.keys.Nodup := table.assoc.keys_nodup

theorem size_eq_keys_length (table : Table K V) : table.size = table.keys.length := by
  simp [size, total, keys, AList.keys, List.keys]

variable [DecidableEq K]

def get (table : Table K V) (key : K) : Option V := table.assoc.lookup key

def insert (table : Table K V) (key : K) (value : V) : Table K V :=
  ⟨table.assoc.insert key value⟩

def erase (table : Table K V) (key : K) : Table K V := ⟨table.assoc.erase key⟩

def modify (table : Table K V) (key : K) (update : V → V) : Table K V :=
  match table.get key with
  | some value => table.insert key (update value)
  | none => table

variable (table : Table K V) (key other : K) (value : V) (weight : V → Nat)

@[simp] theorem get_empty : (∅ : Table K V).get key = none := rfl

@[simp, grind =] theorem get_insert :
    (table.insert key value).get other = if other = key then some value else table.get other := by
  by_cases same : other = key
  · subst same; simp [get, insert]
  · simp [get, insert, same]

@[simp, grind =] theorem get_erase :
    (table.erase key).get other = if other = key then none else table.get other := by
  by_cases same : other = key
  · subst same; simp [get, erase]
  · simp [get, erase, same]

@[simp, grind =] theorem get_modify (update : V → V) :
    (table.modify key update).get other =
      if other = key then (table.get key).map update else table.get other := by
  unfold modify
  cases present : table.get key with
  | none => by_cases same : other = key <;> simp [same, present]
  | some found => by_cases same : other = key <;> simp [same]

theorem mem_keys : key ∈ table.keys ↔ (table.get key).isSome := by
  unfold keys get
  rw [AList.lookup_isSome, AList.mem_keys]

theorem total_erase :
    (table.erase key).total weight + (table.get key).elim 0 weight = table.total weight := by
  have aux (entries : List (Sigma fun _ : K => V)) :
      ((entries.kerase key).map fun entry => weight entry.2).sum +
        (entries.dlookup key).elim 0 weight = (entries.map fun entry => weight entry.2).sum := by
    induction entries with
    | nil => rfl
    | cons entry rest ih =>
      obtain ⟨first, stored⟩ := entry
      by_cases same : key = first
      · subst same; simp [List.kerase_cons_eq, Nat.add_comm]
      · rw [List.kerase_cons_ne same, List.dlookup_cons_ne _ _ same]
        simp only [List.map_cons, List.sum_cons]
        omega
  exact aux table.assoc.entries

theorem total_insert :
    (table.insert key value).total weight + (table.get key).elim 0 weight =
      table.total weight + weight value := by
  have erased := total_erase table key weight
  have inserted : (table.insert key value).total weight =
      weight value + (table.erase key).total weight := by
    simp only [total, insert, AList.entries_insert, List.map_cons, List.sum_cons]
    rfl
  omega

theorem total_modify (update : V → V) :
    (table.modify key update).total weight + (table.get key).elim 0 weight =
      table.total weight + (table.get key).elim 0 fun found => weight (update found) := by
  unfold modify
  cases present : table.get key with
  | none => rfl
  | some found =>
    have inserted := total_insert table key (update found) weight
    rw [present] at inserted
    exact inserted

def keysWhere (holds : V → Bool) : List K := table.keys.filter fun key => (table.get key).any holds

theorem mem_keysWhere (holds : V → Bool) :
    key ∈ table.keysWhere holds ↔ (table.get key).any holds = true := by
  unfold keysWhere
  rw [List.mem_filter, mem_keys]
  cases table.get key <;> simp

theorem length_keysWhere (holds : V → Bool) :
    (table.keysWhere holds).length = table.count holds := by
  have aux (entries : List (Sigma fun _ : K => V)) (inside : entries ⊆ table.assoc.entries) :
      (entries.keys.filter fun key => (table.get key).any holds).length =
        (entries.map fun entry => if holds entry.2 then 1 else 0).sum := by
    induction entries with
    | nil => rfl
    | cons entry rest ih =>
      obtain ⟨key, stored⟩ := entry
      have found : table.get key = some stored :=
        AList.mem_lookup_iff.mpr (inside List.mem_cons_self)
      have tail := ih fun other member => inside (List.mem_cons_of_mem _ member)
      rw [List.keys_cons, List.filter_cons, found, List.map_cons, List.sum_cons]
      by_cases present : holds stored = true
      · simp [present, tail, Nat.add_comm]
      · simp [present, tail]
  exact aux table.assoc.entries fun _ => id

theorem count_congr {holds other : V → Bool}
    (same : ∀ key value, table.get key = some value → holds value = other value) :
    table.count holds = table.count other := by
  unfold count total
  congr 1
  apply List.map_congr_left
  rintro ⟨key, stored⟩ member
  have agree := same key stored (AList.mem_lookup_iff.mpr member)
  simp [agree]

theorem elim_indicator (stored : Option V) (holds : V → Bool) :
    stored.elim 0 (fun found => if holds found then 1 else 0) = (stored.any holds).toNat := by
  cases stored with
  | none => rfl
  | some found => cases present : holds found <;> simp [present]

theorem count_erase (holds : V → Bool) :
    (table.erase key).count holds + ((table.get key).any holds).toNat = table.count holds := by
  rw [← elim_indicator]
  exact total_erase table key _

theorem count_insert (holds : V → Bool) :
    (table.insert key value).count holds + ((table.get key).any holds).toNat =
      table.count holds + (holds value).toNat := by
  have inserted := total_insert table key value fun found => if holds found then 1 else 0
  rw [elim_indicator] at inserted
  rw [count, inserted]
  cases holds value <;> rfl

theorem count_modify (holds : V → Bool) (update : V → V) :
    (table.modify key update).count holds + ((table.get key).any holds).toNat =
      table.count holds + ((table.get key).any fun found => holds (update found)).toNat := by
  have modified := total_modify table key (fun found => if holds found then 1 else 0) update
  rw [elim_indicator, elim_indicator (table.get key) fun found => holds (update found)] at modified
  exact modified

theorem size_erase : (table.erase key).size + (table.get key).isSome.toNat = table.size := by
  have erased := total_erase table key fun _ => 1
  unfold size
  cases present : table.get key with
  | none => simpa [present] using erased
  | some found => simpa [present] using erased

theorem size_insert :
    (table.insert key value).size + (table.get key).isSome.toNat = table.size + 1 := by
  have inserted := total_insert table key value fun _ => 1
  unfold size
  cases present : table.get key with
  | none => simpa [present] using inserted
  | some found => simpa [present] using inserted

@[simp] theorem size_modify (update : V → V) : (table.modify key update).size = table.size := by
  have modified := total_modify table key (fun _ => 1) update
  exact Nat.add_right_cancel modified

theorem exists_of_count_pos {holds : V → Bool} (positive : 0 < table.count holds) :
    ∃ key value, table.get key = some value ∧ holds value = true := by
  by_contra none
  apply Nat.ne_of_gt positive
  apply List.sum_eq_zero
  intro weight member
  obtain ⟨⟨key, value⟩, inside, rfl⟩ := List.mem_map.mp member
  have stored : table.get key = some value := AList.mem_lookup_iff.mpr inside
  by_cases present : holds value = true
  · exact absurd ⟨key, value, stored, present⟩ none
  · exact if_neg present

theorem exists_of_count_gt {holds : V → Bool} (excluded : List K)
    (more : excluded.length < table.count holds) :
    ∃ key value, key ∉ excluded ∧ table.get key = some value ∧ holds value = true := by
  induction excluded generalizing table with
  | nil =>
    obtain ⟨key, value, found⟩ := exists_of_count_pos table more
    exact ⟨key, value, List.not_mem_nil, found⟩
  | cons first rest ih =>
    have erased := count_erase table first holds
    have atMost := Bool.toNat_le ((table.get first).any holds)
    rw [List.length_cons] at more
    obtain ⟨key, value, outside, stored, present⟩ := ih (table.erase first) (by omega)
    rw [get_erase] at stored
    split at stored
    · cases stored
    · next different =>
      refine ⟨key, value, ?_, stored, present⟩
      rw [List.mem_cons, not_or]
      exact ⟨different, outside⟩

section Collect

variable {α : Type} {items : List α} (keyOf : α → K) (valueOf : α → V)

def collect (items : List α) (table : Table K V) : Table K V :=
  items.foldl (fun collected item => collected.insert (keyOf item) (valueOf item)) table

theorem get_collect_of_not_mem (missing : key ∉ items.map keyOf) :
    (collect keyOf valueOf items table).get key = table.get key := by
  induction items generalizing table with
  | nil => rfl
  | cons first rest ih =>
    rw [List.map_cons, List.mem_cons, not_or] at missing
    have collected := ih (table.insert (keyOf first) (valueOf first)) missing.2
    rw [get_insert, if_neg missing.1] at collected
    exact collected

theorem get_collect_cases {value : V}
    (found : (collect keyOf valueOf items table).get key = some value) :
    table.get key = some value ∨ ∃ item ∈ items, valueOf item = value := by
  induction items generalizing table with
  | nil => exact .inl found
  | cons first rest ih =>
    rcases ih (table.insert (keyOf first) (valueOf first)) found with earlier | ⟨item, member, same⟩
    · rw [get_insert] at earlier
      split at earlier
      · exact .inr ⟨first, List.mem_cons_self, Option.some.inj earlier⟩
      · exact .inl earlier
    · exact .inr ⟨item, List.mem_cons_of_mem _ member, same⟩

theorem get_collect_of_mem (distinct : (items.map keyOf).Nodup) {item : α} (member : item ∈ items) :
    (collect keyOf valueOf items table).get (keyOf item) = some (valueOf item) := by
  induction items generalizing table with
  | nil => cases member
  | cons first rest ih =>
    rw [List.map_cons, List.nodup_cons] at distinct
    rcases List.mem_cons.mp member with rfl | later
    · have collected := get_collect_of_not_mem (table.insert (keyOf item) (valueOf item))
        (keyOf item) keyOf valueOf distinct.1
      rw [get_insert, if_pos rfl] at collected
      exact collected
    · exact ih _ distinct.2 later

end Collect

end Table
