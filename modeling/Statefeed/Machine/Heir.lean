import Statefeed.Machine.Representation
import Statefeed.Store.Head
import Statefeed.Stream.Refinement

set_option autoImplicit false

namespace Statefeed.Machine

def Phase.heir : Phase → Option B256
  | .placed _ next | .trimming _ next | .retiring _ _ _ next => next.heir
  | .heading projection _ _ => some projection.block.hash
  | _ => none

def Phase.Awaits (hash : B256) (store : Store) : Phase → Prop
  | .placed _ next => Store.Outlasts hash store ∧ Store.Lingers hash store ∧ next.Resumes
  | .trimming _ next => Store.Lingers hash store ∧ next.Resumes
  | .retiring _ _ _ next => next.Awaits hash store
  | .heading _ _ _ => Store.Seated hash store
  | _ => True

def Awaited (state : State) : Prop :=
  ∀ hash, state.phase.heir = some hash → state.phase.Awaits hash state.publisher.store

theorem awaits_of_seated {hash : B256} {store : Store} {next : Phase} (last : next.Resumes)
    (heir : next.heir = some hash) (seated : Store.Seated hash store) :
    next.Awaits hash store := by
  cases next with
  | heading =>
    cases heir
    exact seated
  | _ => first | exact last.elim | cases heir

theorem awaited_of_none {state : State} (heirless : state.phase.heir = none) : Awaited state := by
  intro hash heir
  rw [heirless] at heir
  cases heir

theorem heir_afterFence (view : ForkchoiceMeta) (store : Store) :
    (afterFence view store).1.heir = none := by
  rcases afterFence_phase view store with same | same
  · rw [same]
    rfl
  · rw [same]
    rfl

variable {chain : B256 → BlockMeta} {world : Env → Prop} {offers : Publisher → Input → Prop}
  {cache metadata : Nat}

theorem awaited_step (room : 2 ≤ cache ∧ 2 ≤ metadata) {state after : State}
    (before : Stored chain cache metadata state) (later : Stored chain cache metadata after)
    (awaited : Awaited state) (step : Step world offers state after) : Awaited after := by
  cases step with
  | @trimProjections p projection next evicted store trimmed =>
    intro hash heir
    obtain ⟨outlasts, lingers, last⟩ := awaited hash heir
    have left := lingers.trimProjectionCache outlasts projection.block.hash
    rw [trimmed] at left
    exact ⟨left, last⟩
  | @trimMetadata p generation next removed store trimmed =>
    intro hash heir
    obtain ⟨lingers, last⟩ := awaited hash heir
    have left := lingers.trimMetadata
    rw [trimmed] at left
    exact @awaits_of_seated hash store next last heir left
  | retire => exact awaited
  | retired => exact awaited
  | adopt =>
    have fits := before.situated.fits trivial
    intro hash heir
    cases heir
    refine ⟨?_, ?_, trivial⟩
    · refine Store.outlasts_placeCandidate _ _ ?_ ?_ later.formed
      · exact room.1.trans_eq before.cacheLimit.symm
      · exact fits.cached.trans_eq before.cacheLimit.symm
    · refine Store.lingers_placeCandidate _ _ ?_ ?_ later.formed
      · exact room.2.trans_eq before.metadataLimit.symm
      · exact fits.kept.trans_eq before.metadataLimit.symm
  | fence => exact awaited_of_none (heir_afterFence _ _)
  | _ => exact awaited_of_none rfl

end Statefeed.Machine
