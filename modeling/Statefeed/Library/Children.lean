import Statefeed.Library.Table

set_option autoImplicit false

namespace Table

variable {K : Type} [DecidableEq K]

def listed (index : Table K (List K)) (parent : K) : List K := (index.get parent).getD []

def detach (index : Table K (List K)) (parent child : K) : Table K (List K) :=
  match index.get parent with
  | none => index
  | some children =>
    let kept := children.filter (· ≠ child)
    if kept = [] then index.erase parent else index.insert parent kept

variable {index : Table K (List K)} {parent child above other : K}

theorem mem_listed : child ∈ index.listed parent ↔
    ∃ children, index.get parent = some children ∧ child ∈ children := by
  unfold listed
  cases index.get parent <;> simp

theorem listed_insert (children : List K) : (index.insert parent children).listed above =
    if above = parent then children else index.listed above := by
  unfold listed
  rw [get_insert]
  split <;> rfl

theorem mem_listed_attach :
    other ∈ (index.insert parent (index.listed parent ++ [child])).listed above ↔
      other ∈ index.listed above ∨ above = parent ∧ other = child := by
  rw [listed_insert]
  by_cases same : above = parent
  · simp [same]
  · simp [same]

theorem mem_listed_erase :
    other ∈ (index.erase parent).listed above ↔ other ∈ index.listed above ∧ above ≠ parent := by
  unfold listed
  rw [get_erase]
  by_cases same : above = parent
  · simp [same]
  · simp [same]

theorem mem_listed_detach :
    other ∈ (index.detach parent child).listed above ↔
      other ∈ index.listed above ∧ ¬ (above = parent ∧ other = child) := by
  unfold detach
  cases stored : index.get parent with
  | none =>
    dsimp only
    constructor
    · intro member
      refine ⟨member, ?_⟩
      rintro ⟨rfl, _⟩
      simp [listed, stored] at member
    · exact And.left
  | some children =>
    dsimp only
    by_cases same : above = parent
    · subst same
      split
      · next empty =>
        have none : ∀ found ∈ children, found = child := by simpa using empty
        rw [mem_listed_erase]
        simp only [listed, stored, Option.getD_some]
        constructor
        · rintro ⟨_, different⟩
          exact absurd rfl different
        · rintro ⟨member, other⟩
          exact absurd (none _ member) (by simpa using other)
      · simp [listed, stored]
    · have untouched : (if children.filter (· ≠ child) = [] then index.erase parent
          else index.insert parent (children.filter (· ≠ child))).listed above =
          index.listed above := by
        unfold listed
        split
        · rw [get_erase, if_neg same]
        · rw [get_insert, if_neg same]
      rw [untouched]
      simp [same]

theorem total_detach_le (index : Table K (List K)) (parent child : K) :
    (index.detach parent child).total List.length ≤ index.total List.length := by
  unfold detach
  cases stored : index.get parent with
  | none => exact Nat.le_refl _
  | some children =>
    have shorter := List.length_filter_le (fun other => decide (other ≠ child)) children
    have erased := total_erase index parent List.length
    have inserted := total_insert index parent (children.filter (· ≠ child)) List.length
    simp only [stored, Option.elim_some] at erased inserted
    dsimp only
    split
    · omega
    · omega

theorem total_erase_listed (index : Table K (List K)) (parent : K) :
    (index.erase parent).total List.length + (index.listed parent).length =
      index.total List.length := by
  have erased := total_erase index parent List.length
  unfold listed
  cases stored : index.get parent with
  | none => simpa [stored] using erased
  | some children => simpa [stored] using erased

def Tidy (index : Table K (List K)) : Prop :=
  ∀ parent children, index.get parent = some children → children ≠ [] ∧ children.Nodup

theorem Tidy.nodup (tidy : index.Tidy) (parent : K) : (index.listed parent).Nodup := by
  unfold listed
  cases stored : index.get parent with
  | none => exact List.nodup_nil
  | some children => exact (tidy parent children stored).2

theorem Tidy.erase (tidy : index.Tidy) (parent : K) : (index.erase parent).Tidy := by
  intro above children stored
  rw [get_erase] at stored
  split at stored
  · cases stored
  · exact tidy above children stored

theorem Tidy.insert (tidy : index.Tidy) (parent : K) {children : List K} (filled : children ≠ [])
    (distinct : children.Nodup) : (index.insert parent children).Tidy := by
  intro above found stored
  rw [get_insert] at stored
  split at stored
  · cases stored
    exact ⟨filled, distinct⟩
  · exact tidy above found stored

theorem Tidy.detach (tidy : index.Tidy) (parent child : K) : (index.detach parent child).Tidy := by
  unfold Table.detach
  cases stored : index.get parent with
  | none => exact tidy
  | some children =>
    dsimp only
    split
    · exact tidy.erase parent
    · next filled => exact tidy.insert parent filled ((tidy parent children stored).2.filter _)

theorem Tidy.attach (tidy : index.Tidy) {parent child : K} (absent : child ∉ index.listed parent) :
    (index.insert parent (index.listed parent ++ [child])).Tidy := by
  apply tidy.insert parent
  · simp
  · exact List.nodup_append.mpr ⟨tidy.nodup parent, List.nodup_singleton child, by
      rintro found member last same rfl
      rw [List.mem_singleton.mp same] at member
      exact absent member⟩

end Table
