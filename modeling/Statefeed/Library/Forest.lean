import Mathlib.Logic.Relation
import Mathlib.Tactic.Common

set_option autoImplicit false

namespace Forest

variable {K σ V : Type}

def prune (children : σ → K → List K) (visit : K → σ → σ) : Nat → List K → σ → σ
  | 0, _, state => state
  | _ + 1, [], state => state
  | fuel + 1, key :: pending, state =>
    prune children visit fuel ((children state key).reverse ++ pending) (visit key state)

def Below (children : σ → K → List K) (state : σ) (root key : K) : Prop :=
  Relation.ReflTransGen (fun parent child => child ∈ children state parent) root key

section

variable {children : σ → K → List K} {visit : K → σ → σ} {weight : σ → Nat}

theorem prune_rule {motive : List K → σ → Prop}
    (lighter : ∀ key state, weight (visit key state) + (children state key).length ≤ weight state)
    (step : ∀ key pending state, motive (key :: pending) state →
      motive ((children state key).reverse ++ pending) (visit key state))
    (fuel : Nat) (pending : List K) (state : σ) (enough : pending.length + weight state ≤ fuel)
    (start : motive pending state) : motive [] (prune children visit fuel pending state) := by
  induction fuel generalizing pending state with
  | zero =>
    have empty : pending = [] := List.length_eq_zero_iff.mp (by omega)
    subst empty
    exact start
  | succ fuel ih =>
    cases pending with
    | nil => exact start
    | cons key pending =>
      have shrinks := lighter key state
      apply ih _ _ _ (step key pending state start)
      simp only [List.length_append, List.length_reverse, List.length_cons] at enough ⊢
      omega

end

structure Removes (children : σ → K → List K) (visit : K → σ → σ) (get : σ → K → Option V) :
    Prop where
  fewer : ∀ key state parent child, child ∈ children (visit key state) parent →
    child ∈ children state parent
  kept : ∀ key state parent child, child ∈ children state parent → parent ≠ key → child ≠ key →
    child ∈ children (visit key state) parent
  gone : ∀ key state, get (visit key state) key = none
  elsewhere : ∀ key state other, other ≠ key → get (visit key state) other = get state other

section

variable {children : σ → K → List K} {visit : K → σ → σ} {get : σ → K → Option V}
  {state : σ}

theorem Below.visited (removes : Removes children visit get) {key root other : K}
    (different : other ≠ key) (below : Below children state root other) :
    (∃ child ∈ children state key, Below children (visit key state) child other) ∨
      root ≠ key ∧ Below children (visit key state) root other := by
  induction below using Relation.ReflTransGen.head_induction_on with
  | refl => exact .inr ⟨different, .refl⟩
  | @head parent child edge _ ih =>
    rcases ih with found | ⟨distinct, onward⟩
    · exact .inl found
    · by_cases same : parent = key
      · subst same
        exact .inl ⟨child, edge, onward⟩
      · exact .inr ⟨same, .head (removes.kept key state parent child edge same distinct) onward⟩

variable {weight : σ → Nat}

theorem prune_invariant {motive : σ → Prop} (removes : Removes children visit get)
    (lighter : ∀ key state, weight (visit key state) + (children state key).length ≤ weight state)
    {root : K} {fuel : Nat} (enough : 1 + weight state ≤ fuel)
    (step : ∀ key after, Below children state root key → motive after → motive (visit key after))
    (start : motive state) : motive (prune children visit fuel [root] state) := by
  refine (prune_rule (motive := fun pending after => motive after ∧
    (∀ key ∈ pending, Below children state root key) ∧
      ∀ parent child, child ∈ children after parent → child ∈ children state parent) lighter
    (fun key pending after holds => ?_) fuel [root] state enough
    ⟨start, fun key member => ?_, fun _ _ => id⟩).1
  · obtain ⟨invariant, below, fewer⟩ := holds
    have reached := below key List.mem_cons_self
    refine ⟨step key after reached invariant, fun child member => ?_, fun parent child member => ?_⟩
    · rcases List.mem_append.mp member with inside | old
      · exact reached.tail (fewer key child (List.mem_reverse.mp inside))
      · exact below child (List.mem_cons_of_mem _ old)
    · exact fewer parent child (removes.fewer key after parent child member)
  · rw [List.mem_singleton.mp member]
    exact .refl

theorem mem_children_prune (removes : Removes children visit get)
    (lighter : ∀ key state, weight (visit key state) + (children state key).length ≤ weight state)
    {root parent child : K} {fuel : Nat} (enough : 1 + weight state ≤ fuel)
    (edge : child ∈ children state parent) (apart : ¬ Below children state root parent)
    (apartChild : ¬ Below children state root child) :
    child ∈ children (prune children visit fuel [root] state) parent := by
  apply prune_invariant (motive := fun after => child ∈ children after parent) removes lighter
    enough _ edge
  intro key after reached present
  apply removes.kept key after parent child present
  · exact fun here => apart (here ▸ reached)
  · exact fun here => apartChild (here ▸ reached)

theorem get_prune_of_not_below (removes : Removes children visit get)
    (lighter : ∀ key state, weight (visit key state) + (children state key).length ≤ weight state)
    {root other : K} {fuel : Nat} (enough : 1 + weight state ≤ fuel)
    (apart : ¬ Below children state root other) :
    get (prune children visit fuel [root] state) other = get state other := by
  apply prune_invariant (motive := fun after => get after other = get state other) removes lighter
    enough _ rfl
  intro key after reached same
  exact (removes.elsewhere key after other fun here => apart (here ▸ reached)).trans same

theorem get_prune_of_below (removes : Removes children visit get)
    (lighter : ∀ key state, weight (visit key state) + (children state key).length ≤ weight state)
    {root other : K} {fuel : Nat} (enough : 1 + weight state ≤ fuel)
    (below : Below children state root other) :
    get (prune children visit fuel [root] state) other = none := by
  have ended := prune_rule (motive := fun pending after => get after other = none ∨
    ∃ key ∈ pending, Below children after key other) lighter
    (fun key pending after holds => ?_) fuel [root] state enough
    (.inr ⟨root, List.mem_singleton_self _, below⟩)
  · rcases ended with gone | ⟨key, member, _⟩
    · exact gone
    · exact absurd member List.not_mem_nil
  · by_cases here : other = key
    · exact .inl (here ▸ removes.gone key after)
    rcases holds with gone | ⟨first, member, reached⟩
    · exact .inl ((removes.elsewhere key after other here).trans gone)
    · rcases reached.visited removes here with ⟨child, inside, onward⟩ | ⟨distinct, onward⟩
      · exact .inr ⟨child, List.mem_append_left _ (List.mem_reverse.mpr inside), onward⟩
      · rcases List.mem_cons.mp member with same | old
        · exact absurd same distinct
        · exact .inr ⟨first, List.mem_append_right _ old, onward⟩

end

end Forest
