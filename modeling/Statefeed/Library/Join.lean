import Mathlib.Data.Multiset.Bind

set_option autoImplicit false

namespace Join

open List

variable {α β γ κ : Type} [DecidableEq κ]

theorem flatMap_swap (xs : List α) (ys : List β) (emit : α → β → List γ) :
    (xs.flatMap fun x => ys.flatMap (emit x)) ~ ys.flatMap fun y => xs.flatMap fun x => emit x y := by
  rw [← Multiset.coe_eq_coe]
  simp only [← Multiset.coe_bind]
  exact Multiset.bind_bind _ _

variable (keyOf : β → κ) {items : List β} (emit : β → List γ)

def select (items : List β) (key : κ) : List γ :=
  items.flatMap fun item => if keyOf item = key then emit item else []

theorem select_of_not_mem {key : κ} (missing : key ∉ items.map keyOf) :
    select keyOf emit items key = [] := by
  unfold select
  apply List.flatMap_eq_nil_iff.mpr
  intro item member
  apply if_neg
  rintro rfl
  exact missing (List.mem_map_of_mem member)

theorem select_of_mem (distinct : (items.map keyOf).Nodup) {item : β} (member : item ∈ items) :
    select keyOf emit items (keyOf item) = emit item := by
  induction items with
  | nil => cases member
  | cons first rest ih =>
    rw [List.map_cons, List.nodup_cons] at distinct
    have split : select keyOf emit (first :: rest) (keyOf item) =
        (if keyOf first = keyOf item then emit first else []) ++
          select keyOf emit rest (keyOf item) := List.flatMap_cons
    rw [split]
    rcases List.mem_cons.mp member with rfl | later
    · rw [if_pos rfl, select_of_not_mem keyOf emit distinct.1, List.append_nil]
    · have different : keyOf first ≠ keyOf item := by
        intro same
        exact distinct.1 (same ▸ List.mem_map_of_mem later)
      rw [if_neg different, List.nil_append]
      exact ih distinct.2 later

theorem scan_perm {keys : List κ} (nodup : keys.Nodup) (distinct : (items.map keyOf).Nodup)
    (lookup : κ → List γ)
    (found : ∀ item ∈ items, keyOf item ∈ keys → lookup (keyOf item) = emit item)
    (unfiled : ∀ key ∈ keys, key ∉ items.map keyOf → lookup key = [])
    (absent : ∀ item ∈ items, keyOf item ∉ keys → emit item = []) :
    keys.flatMap lookup ~ items.flatMap emit := by
  have byKey : keys.flatMap lookup = keys.flatMap (select keyOf emit items) := by
    apply List.flatMap_congr
    intro key member
    by_cases filed : key ∈ items.map keyOf
    · obtain ⟨item, inside, rfl⟩ := List.mem_map.mp filed
      rw [found item inside member, select_of_mem keyOf emit distinct inside]
    · rw [unfiled key member filed, select_of_not_mem keyOf emit filed]
  have byItem : items.flatMap emit =
      items.flatMap fun item => select id (fun _ => emit item) keys (keyOf item) := by
    apply List.flatMap_congr
    intro item member
    by_cases filed : keyOf item ∈ keys
    · exact (@select_of_mem _ _ _ _ id keys (fun _ => emit item) (by simpa using nodup) _
        filed).symm
    · rw [absent item member filed, select_of_not_mem]
      simpa using filed
  rw [byKey, byItem]
  refine (flatMap_swap _ _ _).trans (Perm.of_eq ?_)
  apply List.flatMap_congr
  intro item _
  apply List.flatMap_congr
  intro key _
  simp only [id, eq_comm]

end Join
