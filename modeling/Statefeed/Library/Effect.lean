import Mathlib.Order.Defs.Unbundled
import Mathlib.Tactic.Common

set_option autoImplicit false

namespace Effect

theorem bind_unit_ok {ε : Type} {first next : Except ε Unit}
    (accepted : (first >>= fun _ => next) = .ok ()) : first = .ok () ∧ next = .ok () := by
  cases first with
  | ok _ => exact ⟨rfl, accepted⟩
  | error _ => cases accepted

def Op (σ ε α : Type) := σ → Except ε α × σ

namespace Op

variable {σ τ ε α β : Type}

def pure (value : α) : Op σ ε α := fun state => (.ok value, state)

def bind (first : Op σ ε α) (next : α → Op σ ε β) : Op σ ε β := fun state =>
  match first state with
  | (.ok value, after) => next value after
  | (.error failure, after) => (.error failure, after)

instance : Monad (Op σ ε) where
  pure := Op.pure
  bind := Op.bind

def get : Op σ ε σ := fun state => (.ok state, state)

def modify (update : σ → σ) : Op σ ε Unit := fun state => (.ok (), update state)

def throw (failure : ε) : Op σ ε α := fun state => (.error failure, state)

def ofExcept (result : Except ε α) : Op σ ε α := fun state => (result, state)

def step (transition : σ → α × σ) : Op σ ε α := fun state =>
  (.ok (transition state).1, (transition state).2)

def focus (view : τ → σ) (replace : σ → τ → τ) (inner : Op σ ε α) : Op τ ε α := fun state =>
  ((inner (view state)).1, replace (inner (view state)).2 state)

def forEach (items : List β) (body : β → Op σ ε Unit) : Op σ ε Unit :=
  match items with
  | [] => Op.pure ()
  | item :: rest => Op.bind (body item) fun _ => forEach rest body

def attempt (op : Op σ ε α) : Op σ ε (Except ε α) := fun state => (.ok (op state).1, (op state).2)

def Ensures (op : Op σ ε α) (state : σ) (post : α → σ → Prop) (fail : ε → σ → Prop) : Prop :=
  match op state with
  | (.ok value, after) => post value after
  | (.error failure, after) => fail failure after

variable {state : σ} {post : α → σ → Prop} {fail : ε → σ → Prop}

theorem ensures_of_returns {op : Op σ ε α} {value : α} {after : σ}
    (returns : op state = (.ok value, after)) : op.Ensures state post fail ↔ post value after := by
  unfold Ensures
  rw [returns]

@[simp] theorem ensures_get {post : σ → σ → Prop} :
    (get : Op σ ε σ).Ensures state post fail ↔ post state state := Iff.rfl

@[simp] theorem ensures_modify {post : Unit → σ → Prop} (update : σ → σ) :
    (modify update : Op σ ε Unit).Ensures state post fail ↔ post () (update state) := Iff.rfl

@[simp] theorem ensures_step (transition : σ → α × σ) :
    (step transition : Op σ ε α).Ensures state post fail ↔
      post (transition state).1 (transition state).2 := Iff.rfl

theorem ensures_attempt {op : Op σ ε α} {post : Except ε α → σ → Prop} :
    op.attempt.Ensures state post fail ↔
      op.Ensures state (fun value => post (.ok value)) (fun failure => post (.error failure)) := by
  unfold Ensures attempt
  rcases op state with ⟨result, after⟩
  cases result <;> rfl

theorem ensures_bind {post : β → σ → Prop} (first : Op σ ε α) (next : α → Op σ ε β) :
    (first >>= next).Ensures state post fail ↔
      first.Ensures state (fun value after => (next value).Ensures after post fail) fail := by
  change Ensures (Op.bind first next) state post fail ↔ _
  unfold Ensures Op.bind
  rcases first state with ⟨result, after⟩
  cases result <;> rfl

theorem ensures_focus {τ : Type} {post : α → τ → Prop} {fail : ε → τ → Prop} {outer : τ}
    (view : τ → σ) (replace : σ → τ → τ) (inner : Op σ ε α) :
    (focus view replace inner).Ensures outer post fail ↔
      inner.Ensures (view outer) (fun value after => post value (replace after outer))
        (fun failure after => fail failure (replace after outer)) := by
  unfold Ensures focus
  rcases inner (view outer) with ⟨result, after⟩
  cases result <;> rfl

theorem ensures_ofExcept (result : Except ε α) :
    (ofExcept result : Op σ ε α).Ensures state post fail ↔
      (∀ value, result = .ok value → post value state) ∧
        ∀ failure, result = .error failure → fail failure state := by
  cases result <;> simp [Ensures, ofExcept]

theorem Ensures.mono {op : Op σ ε α} {post' : α → σ → Prop} {fail' : ε → σ → Prop}
    (ensures : op.Ensures state post fail)
    (onReturn : ∀ value after, post value after → post' value after)
    (onFailure : ∀ failure after, fail failure after → fail' failure after) :
    op.Ensures state post' fail' := by
  unfold Ensures at *
  split
  · next eq => rw [eq] at ensures; exact onReturn _ _ ensures
  · next eq => rw [eq] at ensures; exact onFailure _ _ ensures

theorem Ensures.and {op : Op σ ε α} {post' : α → σ → Prop} {fail' : ε → σ → Prop}
    (left : op.Ensures state post fail) (right : op.Ensures state post' fail') :
    op.Ensures state (fun value after => post value after ∧ post' value after)
      (fun failure after => fail failure after ∧ fail' failure after) := by
  unfold Ensures at *
  split
  · next eq => rw [eq] at left right; exact ⟨left, right⟩
  · next eq => rw [eq] at left right; exact ⟨left, right⟩

theorem ensures_congr {op other : Op σ ε α} (same : op state = other state) :
    op.Ensures state post fail ↔ other.Ensures state post fail := by
  unfold Ensures
  rw [same]

theorem ensures_any (op : Op σ ε α) (state : σ) :
    op.Ensures state (fun _ _ => True) (fun _ _ => True) := by
  unfold Ensures
  split <;> trivial

theorem Ensures.elim {op : Op σ ε α} {goal : σ → Prop}
    (ensures : op.Ensures state (fun _ => goal) (fun _ => goal)) : goal (op state).2 := by
  unfold Ensures at ensures
  split at ensures
  · next eq => rw [eq]; exact ensures
  · next eq => rw [eq]; exact ensures

theorem Ensures.of_ok {op : Op σ ε α} (ensures : op.Ensures state post fail) {value : α}
    (returned : (op state).1 = .ok value) : post value (op state).2 := by
  unfold Ensures at ensures
  split at ensures
  · next eq => rw [eq] at returned ⊢; cases returned; exact ensures
  · next eq => rw [eq] at returned; cases returned

theorem Ensures.of_error {op : Op σ ε α} (ensures : op.Ensures state post fail) {failure : ε}
    (returned : (op state).1 = .error failure) : fail failure (op state).2 := by
  unfold Ensures at ensures
  split at ensures
  · next eq => rw [eq] at returned; cases returned
  · next eq => rw [eq] at returned ⊢; cases returned; exact ensures

theorem bind_of_returns {first : Op σ ε α} {next : α → Op σ ε β} {value : α} {after : σ}
    (returns : first state = (.ok value, after)) : (first >>= next) state = next value after := by
  change Op.bind first next state = _
  unfold Op.bind
  rw [returns]

theorem bind_of_fails {first : Op σ ε α} {next : α → Op σ ε β} {failure : ε} {after : σ}
    (fails : first state = (.error failure, after)) :
    (first >>= next) state = (.error failure, after) := by
  change Op.bind first next state = _
  unfold Op.bind
  rw [fails]

theorem refused_of_ensures {op : Op σ ε α}
    (ensures : op.Ensures state (fun _ _ => False) (fun _ after => after = state)) :
    ∃ failure, op state = (.error failure, state) := by
  unfold Ensures at ensures
  split at ensures
  · exact ensures.elim
  · next failure after eq =>
    rw [eq, ensures]
    exact ⟨failure, rfl⟩

theorem Ensures.forEach {items : List β} {body : β → Op σ ε Unit} {inv : σ → Prop}
    (start : inv state)
    (each : ∀ item ∈ items, ∀ s, inv s → (body item).Ensures s (fun _ => inv) fail) :
    (Op.forEach items body).Ensures state (fun _ => inv) fail := by
  induction items generalizing state with
  | nil => exact start
  | cons item rest ih =>
    change (body item >>= fun _ => Op.forEach rest body).Ensures state _ _
    rw [ensures_bind]
    refine (each item (by simp) state start).mono (fun _ after holds => ?_) (fun _ _ => id)
    exact ih holds fun other member => each other (List.mem_cons_of_mem _ member)

section

variable {holds : ε → Prop}

def Raises (holds : ε → Prop) (op : Op σ ε α) : Prop :=
  ∀ state failure, (op state).1 = .error failure → holds failure

theorem raises_of_ensures {op : Op σ ε α}
    (ensures : ∀ state, op.Ensures state (fun _ _ => True) fun failure _ => holds failure) :
    op.Raises holds :=
  fun state _ failed => (ensures state).of_error failed

theorem Raises.ensures {op : Op σ ε α} (raises : op.Raises holds) (state : σ) :
    op.Ensures state (fun _ _ => True) fun failure _ => holds failure := by
  have raised := raises state
  unfold Ensures
  split
  · trivial
  · next failure after eq => exact raised failure (by rw [eq])

theorem raises_pure (value : α) : (Pure.pure value : Op σ ε α).Raises holds := nofun

theorem raises_throw {failure : ε} (raised : holds failure) :
    (throw failure : Op σ ε α).Raises holds := by
  intro _ other failed
  cases failed
  exact raised

theorem raises_modify (update : σ → σ) : (modify update : Op σ ε Unit).Raises holds := nofun

theorem raises_step (transition : σ → α × σ) : (step transition : Op σ ε α).Raises holds := nofun

theorem Raises.bind {first : Op σ ε α} {next : α → Op σ ε β} (before : first.Raises holds)
    (after : ∀ value, (next value).Raises holds) : (first >>= next).Raises holds := by
  refine raises_of_ensures fun state => ?_
  rw [ensures_bind]
  exact (before.ensures state).mono (fun value middle _ => (after value).ensures middle)
    (fun _ _ => id)

theorem raises_get {next : σ → Op σ ε α} (after : ∀ value, (next value).Raises holds) :
    ((get : Op σ ε σ) >>= next).Raises holds :=
  Raises.bind nofun after

theorem Raises.focus {inner : Op σ ε α} (raises : inner.Raises holds) (view : τ → σ)
    (replace : σ → τ → τ) : (Op.focus view replace inner).Raises holds :=
  fun state failure failed => raises (view state) failure failed

theorem Raises.forEach {items : List β} {body : β → Op σ ε Unit}
    (each : ∀ item, (body item).Raises holds) : (Op.forEach items body).Raises holds := by
  induction items with
  | nil => exact raises_pure ()
  | cons item rest ih => exact Raises.bind (each item) fun _ => ih

theorem raises_ofExcept {result : Except ε α}
    (raises : ∀ failure, result = .error failure → holds failure) :
    (ofExcept result : Op σ ε α).Raises holds :=
  fun _ failure failed => raises failure failed

end

section

variable {relates : σ → σ → Prop}

def Within (relates : σ → σ → Prop) (op : Op σ ε α) : Prop :=
  ∀ state, op.Ensures state (fun _ => relates state) (fun _ => relates state)

variable [IsPreorder σ relates]

theorem within_pure (value : α) : (Pure.pure value : Op σ ε α).Within relates :=
  fun state => refl_of relates state

theorem within_throw (failure : ε) : (throw failure : Op σ ε α).Within relates :=
  fun state => refl_of relates state

theorem within_get : (get : Op σ ε σ).Within relates := fun state => refl_of relates state

theorem within_ofExcept (result : Except ε α) : (ofExcept result : Op σ ε α).Within relates := by
  intro state
  rw [ensures_ofExcept]
  exact ⟨fun _ _ => refl_of relates state, fun _ _ => refl_of relates state⟩

theorem Within.bind {first : Op σ ε α} {next : α → Op σ ε β} (before : first.Within relates)
    (after : ∀ value, (next value).Within relates) : (first >>= next).Within relates := by
  intro state
  rw [ensures_bind]
  refine (before state).mono (fun value middle reached => ?_) (fun _ _ => id)
  exact (after value middle).mono (fun _ _ => trans_of relates reached)
    (fun _ _ => trans_of relates reached)

end

end Op

end Effect
