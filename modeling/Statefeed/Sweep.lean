import Statefeed.Store.Sweep
import Statefeed.Machine.Representation

set_option autoImplicit false

namespace Statefeed

/-- A sweep follows no edge twice if no walk that it ends as unknown leaves its path to a record
still pending, and, where block numbers are consecutive, only if. -/
theorem finality_sweep_linear {chain : B256 → BlockMeta} {env : Env}
    {options : Publisher.ServiceOptions} {watchSet : WatchSet} {start : Publisher}
    {state : Machine.State} (chained : Chained chain env)
    (started : Publisher.startService env options watchSet = some start)
    (reached : Machine.Steps (Chained chain) (Numbered chain) ⟨.idle, start⟩ state)
    (checkpoint : CheckpointMeta) :
    (state.publisher.store.Conclusive checkpoint →
      state.publisher.store.SweepsLinearly checkpoint) ∧
    ((∀ hash, 0 < (chain hash).number →
        (chain (chain hash).parentHash).number + 1 = (chain hash).number) →
      (state.publisher.store.SweepsLinearly checkpoint ↔
        state.publisher.store.Conclusive checkpoint)) := by
  have stored := (Machine.stored_steps (fun _ _ => id) chained started reached).2
  refine ⟨stored.formed.sweepsLinearly, fun consecutive => ?_⟩
  exact ⟨stored.formed.conclusive consecutive, stored.formed.sweepsLinearly⟩

namespace Sample

def baseless : List Input :=
  [3, 4, 5, 6, 7, 8, 9, 10].map fun hash => .event (executed hash 1)

theorem foretold_baseless (p : Publisher) (input : Input) (member : input ∈ baseless) :
    Machine.Allowed (Chained block) (fun _ => Foretold block) p (env 1 0) input := by
  obtain ⟨hash, _, rfl⟩ := List.mem_map.mp member
  exact ⟨sample_chained 1 0, sample_foretold_executed hash 1⟩

def executedAll (hashes : List B256) : Loop :=
  hashes.foldl (fun loop hash => handled (executed hash 1) loop) (.start start)

def brokenChain : Loop := executedAll [2, 3, 6, 7]

theorem brokenChain_reached :
    Machine.Steps (Chained block) (Numbered block) ⟨.idle, start⟩ (.ofLoop brokenChain) := by
  have executing (loop : Loop) (hash : B256) (idle : loop.control = .idle)
      (unwrapped : loop.publisher.store.nextIncarnation + 1 < 2 ^ 64) :
      Loop.Round (Machine.Allowed (Chained block) (Numbered block)) loop
        (handled (executed hash 1) loop) :=
    round_handled idle ⟨sample_chained 1 0, unwrapped, sample_foretold_executed hash 1⟩
  have first := executing (executedAll []) 2 rfl (by decide +kernel)
  have second := executing (executedAll [2]) 3 (by decide +kernel) (by decide +kernel)
  have third := executing (executedAll [2, 3]) 6 (by decide +kernel) (by decide +kernel)
  have fourth := executing (executedAll [2, 3, 6]) 7 (by decide +kernel) (by decide +kernel)
  exact Machine.reaches_steps ((((Relation.ReflTransGen.single first).tail second).tail third).tail
    fourth)

theorem brokenChain_conclusive : brokenChain.publisher.store.Conclusive ⟨1, 1⟩ :=
  Store.conclusive_of_settlesAll 10 (by decide +kernel)

end Sample

theorem finality_sweep_repeats :
    Publisher.startService (Sample.env 1 0) Sample.options Sample.watchSet = some Sample.start ∧
    ∃ loop, Loop.Reaches (Machine.Allowed (Chained Sample.block) (fun _ => Foretold Sample.block))
        Sample.start loop ∧
      let store := loop.publisher.store
      let sweep := (store.beginFinalitySweep ⟨1, 1⟩).processBudgets [100]
      loop.control = .idle ∧ sweep.store.finalitySweep = none ∧ ¬ sweep.edges.Nodup ∧
        sweep.work = 37 ∧ 2 * (store.metadataOrder.length + store.metadataLen) = 36 := by
  refine ⟨Sample.started, ?_⟩
  exact Sample.exists_of_run Sample.start _ Sample.foretold_baseless (by decide +kernel)

theorem finality_sweep_linear_sample :
    Sample.brokenChain.publisher.store.Conclusive ⟨1, 1⟩ ∧
    ((Sample.brokenChain.publisher.store.beginFinalitySweep ⟨1, 1⟩).processBudgets [2, 10]).edges =
        [(2, 1), (3, 2), (7, 6)] ∧
      ((Sample.brokenChain.publisher.store.beginFinalitySweep ⟨1, 1⟩).processBudgets
        [2, 10]).edges.Nodup := by
  have linear := (finality_sweep_linear (sample_chained 1 0) Sample.started
    Sample.brokenChain_reached ⟨1, 1⟩).1 Sample.brokenChain_conclusive
  exact ⟨Sample.brokenChain_conclusive, by decide +kernel, (linear [2, 10]).1⟩

end Statefeed
