import Mathlib.Data.List.Induction
import Mathlib.Tactic.Common
import Statefeed.Library.History

set_option autoImplicit false

variable {σ α : Type}

inductive Trace (emits : σ → α → σ → Prop) (start : σ) : List α → σ → Prop
  | nil : Trace emits start [] start
  | concat {log : List α} {state after : σ} {item : α} (trace : Trace emits start log state)
      (emitted : emits state item after) : Trace emits start (log ++ [item]) after

namespace Trace

variable {emits : σ → α → σ → Prop} {start state : σ} {log : List α}

theorem concat_inv {item : α} (trace : Trace emits start (log ++ [item]) state) :
    ∃ before, Trace emits start log before ∧ emits before item state := by
  generalize whole : log ++ [item] = full at trace
  cases trace with
  | nil => simp at whole
  | concat trace emitted =>
    obtain ⟨rfl, same⟩ := List.append_inj' whole rfl
    cases same
    exact ⟨_, trace, emitted⟩

theorem nil_inv (trace : Trace emits start [] state) : state = start := by
  generalize empty : ([] : List α) = full at trace
  cases trace with
  | nil => rfl
  | concat _ _ => simp at empty

theorem split {before after : List α} (trace : Trace emits start (before ++ after) state) :
    ∃ middle, Trace emits start before middle ∧ Trace emits middle after state := by
  induction after using List.reverseRecOn generalizing state with
  | nil => exact ⟨state, by simpa using trace, .nil⟩
  | append_singleton after item ih =>
    rw [← List.append_assoc] at trace
    obtain ⟨previous, trace, emitted⟩ := trace.concat_inv
    obtain ⟨middle, first, second⟩ := ih trace
    exact ⟨middle, first, second.concat emitted⟩

theorem append {before after : List α} {middle : σ} (first : Trace emits start before middle)
    (second : Trace emits middle after state) : Trace emits start (before ++ after) state := by
  induction second with
  | nil => simpa using first
  | concat _ emitted ih =>
    rw [← List.append_assoc]
    exact ih.concat emitted

theorem cons_inv {item : α} (trace : Trace emits start (item :: log) state) :
    ∃ middle, emits start item middle ∧ Trace emits middle log state := by
  have whole : Trace emits start ([item] ++ log) state := trace
  obtain ⟨middle, first, rest⟩ := whole.split
  have single : Trace emits start ([] ++ [item]) middle := first
  obtain ⟨origin, empty, emitted⟩ := single.concat_inv
  rw [empty.nil_inv] at emitted
  exact ⟨middle, emitted, rest⟩

theorem each (trace : Trace emits start log state) :
    History.Each (fun before item =>
      ∃ origin after, Trace emits start before origin ∧ emits origin item after) log := by
  intro before item after whole
  rw [whole] at trace
  obtain ⟨origin, first, rest⟩ := trace.split
  obtain ⟨next, emitted, _⟩ := rest.cons_inv
  exact ⟨origin, next, first, emitted⟩

theorem invariant (trace : Trace emits start log state) (holds : List α → σ → Prop)
    (init : holds [] start)
    (preserved : ∀ log state item after, holds log state → emits state item after →
      holds (log ++ [item]) after) : holds log state := by
  induction trace with
  | nil => exact init
  | concat _ emitted ih => exact preserved _ _ _ _ ih emitted

end Trace
