import Statefeed.Anchoring
import Statefeed.Model.Reloader
import Statefeed.Recovery

set_option autoImplicit false

namespace Statefeed

open Effect

theorem WatchSet.matchesConfig_iff {watchSet : WatchSet} {configured : List WatchConfig} :
    watchSet.matchesConfig configured = true ↔ watchSet.configured = configured := by
  obtain ⟨generation, keys⟩ := watchSet
  have pairs (first second : List WatchConfig) (offset : Nat) (same : first.length = second.length) :
      (((first.mapIdx fun index key =>
        ({ keyId := (index + offset) % 2 ^ 32, id := key.id, address := key.address,
           slot := key.slot } : WatchKey)).zip second).all fun pair =>
        pair.1.id == pair.2.id && pair.1.address == pair.2.address && pair.1.slot == pair.2.slot) =
          true ↔ first = second := by
    induction first generalizing second offset with
    | nil =>
      cases second with
      | nil => simp
      | cons => cases same
    | cons key rest ih =>
      cases second with
      | nil => cases same
      | cons other others =>
        have tail := ih others (offset + 1) (Nat.succ.inj same)
        obtain ⟨id, address, slot⟩ := key
        obtain ⟨otherId, otherAddress, otherSlot⟩ := other
        simp only [List.mapIdx_cons, List.zip_cons_cons, List.all_cons, Bool.and_eq_true, beq_iff_eq,
          List.cons.injEq, WatchConfig.mk.injEq, and_assoc]
        rw [← tail]
        simp only [Nat.add_assoc, Nat.add_comm 1 offset]
  unfold matchesConfig
  rw [Bool.and_eq_true, beq_iff_eq, length_keys]
  constructor
  · rintro ⟨same, equal⟩
    exact (pairs keys configured 0 same).mp equal
  · rintro rfl
    exact ⟨rfl, (pairs keys keys 0 rfl).mpr rfl⟩

/-- The dictionaries that were announced, with their generations, in order. -/
def announcements (frames : List PublishedFrame) : List (Generation × Wire.ConfigActivated) :=
  frames.filterMap fun frame =>
    match frame.envelope.event with
    | some (.configActivated dictionary) => some (frame.envelope.configGeneration, dictionary)
    | _ => none

theorem announcements_append (frames more : List PublishedFrame) :
    announcements (frames ++ more) = announcements frames ++ announcements more :=
  List.filterMap_append

namespace Machine

def Ordinary (_ : Publisher) (input : Input) : Prop := ∀ watchSet, input ≠ .activation watchSet

structure Steady (p : Publisher) (state : State) : Prop where
  active : state.publisher.active = p.active
  watchSet : state.publisher.activeWatchSet = p.activeWatchSet
  carries : state.phase.Carries (·.watchSet = p.active)
  announced : announcements state.publisher.shared.frames =
    announcements p.shared.frames

theorem steady_step {world : Env → Prop} {p : Publisher} {state after : State}
    (steady : Steady p state) (step : Step world Ordinary state after) : Steady p after := by
  obtain ⟨active, watchSet, carries, announced⟩ := steady
  have quiet {frame : PublishedFrame} {frames : List PublishedFrame}
      (plain : announcements [frame] = [])
      (same : announcements frames = announcements p.shared.frames) :
      announcements (frames ++ [frame]) = announcements p.shared.frames := by
    rw [announcements_append, plain, List.append_nil, same]
  cases step with
  | validate | reject => exact ⟨active, watchSet, trivial, quiet rfl announced⟩
  | @announce _ _ _ _ _ _ _ _ _ _ _ _ _ assembled =>
    subst assembled
    exact ⟨active, watchSet, ⟨active, trivial⟩, quiet rfl announced⟩
  | trimProjections => exact ⟨active, watchSet, carries.2, announced⟩
  | trimMetadata | retired => exact ⟨active, watchSet, carries, announced⟩
  | retire => exact ⟨active, watchSet, carries, quiet rfl announced⟩
  | adopt _ _ _ _ _ _ dictionary =>
    have same := (watchSet_of_dictionary dictionary).trans active
    exact ⟨active, watchSet, ⟨same, same⟩, announced⟩
  | head => exact ⟨carries, watchSet, trivial, quiet rfl announced⟩
  | fence => exact ⟨active, watchSet, carries_afterFence _ _ _, quiet rfl announced⟩
  | gap | retryGap => exact ⟨active, watchSet, trivial, quiet rfl announced⟩
  | anchor _ loads =>
    have same := (watchSet_of_dictionary loads.dictionary).trans active
    exact ⟨same, watchSet, trivial, quiet rfl announced⟩
  | activate _ admitted => exact absurd rfl (admitted _)
  | _ => exact ⟨active, watchSet, trivial, announced⟩

theorem steady_round {env : Env} {input : Input} {loop after : Loop}
    (ordinary : ∀ watchSet, input ≠ .activation watchSet)
    (taken : Loop.next env input loop = some after) :
    Steady loop.publisher (.ofLoop after) := by
  have steps : Steps (fun _ => True) Ordinary (.ofLoop loop) (.ofLoop after) :=
    round_steps ⟨env, input, ⟨trivial, ordinary⟩, taken⟩
  refine steps_invariant steps ⟨rfl, rfl, ?_, rfl⟩ fun _ _ => steady_step
  cases control : loop.control <;> simp only [State.ofLoop, control] <;> trivial

end Machine

namespace Publisher

theorem handleControl_newer {env : Env} {watchSet : WatchSet} {p after : Publisher}
    {activated : Bool} (newer : p.active.generation < watchSet.generation)
    (handled : handleControl env watchSet p = (.ok activated, after)) :
    (activated = false ∧ after = p) ∨
      activated = true ∧ after.active = watchSet ∧ after.activeWatchSet = watchSet ∧
        announcements after.shared.frames =
          announcements p.shared.frames ++ [(watchSet.generation, configActivated watchSet)] := by
  have ensured : (activate env watchSet).Ensures p
      (fun _ after => after.active = watchSet ∧ after.activeWatchSet = watchSet ∧
        announcements after.shared.frames =
          announcements p.shared.frames ++ [(watchSet.generation, configActivated watchSet)])
      (fun _ after => after = p) := by
    refine Machine.activate_ensures env watchSet _ _ (fun _ _ _ => rfl)
      (fun older => absurd older (not_le.mpr newer)) fun loaded _ loads _ => ?_
    refine ⟨watchSet_of_dictionary loads.dictionary, rfl, ?_⟩
    change announcements ((_ ++ [_]) ++ [_]) = _
    rw [announcements_append, announcements_append]
    exact List.append_nil _
  unfold handleControl at handled
  unfold Op.Ensures at ensured
  rcases outcome : activate env watchSet p with ⟨result, final⟩
  rw [outcome] at handled ensured
  cases result with
  | ok => cases handled; exact .inr ⟨rfl, ensured⟩
  | error => cases handled; exact .inl ⟨rfl, ensured⟩

theorem handleControl_ok {env : Env} {watchSet : WatchSet} {p : Publisher}
    (returned : (activate env watchSet p).1 = .ok ()) :
    handleControl env watchSet p = (.ok true, (activate env watchSet p).2) := by
  unfold handleControl
  split
  · next outcome => rw [outcome]
  · next outcome =>
    rw [outcome] at returned
    cases returned

theorem handleControl_stale {env : Env} {watchSet : WatchSet} {p after : Publisher}
    {activated : Bool} (older : watchSet.generation ≤ p.active.generation)
    (handled : handleControl env watchSet p = (.ok activated, after)) : after = p := by
  unfold handleControl at handled
  rw [activate_stale older] at handled
  cases handled
  rfl

end Publisher

namespace Reload

variable {allowed : Publisher → Env → Input → Prop} {reload after : Reload} {watchSet : WatchSet}

structure Free (reload : Reload) : Prop where
  control : reload.control = none
  held : reload.held = none
  next : reload.nextGeneration = reload.watchSet.generation + 1

inductive Outstanding (reload : Reload) (watchSet : WatchSet) : Prop
  | queued (control : reload.control = some watchSet) (held : reload.held = none)
      (answer : reload.completion = .pending)
      (next : watchSet.generation = reload.watchSet.generation + 1) : Outstanding reload watchSet
  | taken (control : reload.control = none) (held : reload.held = some watchSet)
      (answer : reload.completion = .pending)
      (next : watchSet.generation = reload.watchSet.generation + 1) : Outstanding reload watchSet
  | activated (control : reload.control = none) (held : reload.held = none)
      (answer : reload.completion = .done true) (installed : reload.watchSet = watchSet) :
      Outstanding reload watchSet
  | refused (control : reload.control = none) (held : reload.held = none)
      (answer : reload.completion = .done false)
      (next : watchSet.generation = reload.watchSet.generation + 1) : Outstanding reload watchSet
  | dropped (control : reload.control = none) (held : reload.held = none)
      (answer : reload.completion = .dropped) (stopped : reload.connected = false)
      (next : watchSet.generation = reload.watchSet.generation + 1) : Outstanding reload watchSet

theorem Free.congr (free : reload.Free) (control : after.control = reload.control)
    (held : after.held = reload.held) (next : after.nextGeneration = reload.nextGeneration)
    (loop : after.loop = reload.loop) : after.Free :=
  ⟨control.trans free.control, held.trans free.held,
    next.trans (by rw [watchSet, loop]; exact free.next)⟩

theorem Outstanding.congr (outstanding : reload.Outstanding watchSet)
    (control : after.control = reload.control) (held : after.held = reload.held)
    (completion : after.completion = reload.completion)
    (gone : reload.connected = false → after.connected = false)
    (same : after.watchSet = reload.watchSet) : after.Outstanding watchSet := by
  cases outstanding with
  | queued queued free answer next =>
    exact .queued (control.trans queued) (held.trans free) (completion.trans answer) (same ▸ next)
  | taken free taken answer next =>
    exact .taken (control.trans free) (held.trans taken) (completion.trans answer) (same ▸ next)
  | activated free idle answer installed =>
    exact .activated (control.trans free) (held.trans idle) (completion.trans answer)
      (same.trans installed)
  | refused free idle answer next =>
    exact .refused (control.trans free) (held.trans idle) (completion.trans answer) (same ▸ next)
  | dropped free idle answer stopped next =>
    exact .dropped (control.trans free) (held.trans idle) (completion.trans answer)
      (gone stopped) (same ▸ next)

def Aligned (reload : Reload) : Prop := reload.publisher.active = reload.watchSet

structure Unmoved (reload after : Reload) : Prop where
  watchSet : after.watchSet = reload.watchSet
  aligned : reload.Aligned → after.Aligned
  announced : announcements after.publisher.shared.frames =
    announcements reload.publisher.shared.frames

theorem unmoved_of_loop (same : after.loop = reload.loop) : Unmoved reload after := by
  refine ⟨?_, fun aligned => ?_, ?_⟩
  · rw [watchSet, watchSet, same]
  · rw [Aligned, publisher, watchSet, same]
    exact aligned
  · rw [publisher, publisher, same]

theorem unmoved_of_round {env : Env} {input : Input}
    (ordinary : ∀ watchSet, input ≠ .activation watchSet)
    (taken : Loop.next env input reload.loop = some after.loop) : Unmoved reload after := by
  have steady := Machine.steady_round ordinary taken
  refine ⟨steady.watchSet, fun aligned => ?_, steady.announced⟩
  exact (steady.active.trans aligned).trans steady.watchSet.symm

theorem Free.thread (free : reload.Free) (publishes : Publishes allowed reload after) :
    after.Free ∧ Unmoved reload after := by
  have held := free.held
  have control := free.control
  cases publishes with
  | take _ _ queued => rw [control] at queued; cases queued
  | handle taken => rw [held] at taken; cases taken
  | round _ _ ordinary _ taken =>
    have unmoved : Unmoved reload { reload with loop := _ } := unmoved_of_round ordinary taken
    exact ⟨⟨control, held, by rw [unmoved.watchSet]; exact free.next⟩, unmoved⟩
  | stop => exact ⟨⟨control, rfl, free.next⟩, unmoved_of_loop rfl⟩
  | discard _ queued => rw [control] at queued; cases queued

structure Installed (reload after : Reload) (watchSet : WatchSet) : Prop where
  asked : reload.held = some watchSet
  answer : after.completion = .done true
  switched : after.watchSet = watchSet
  aligned : after.Aligned
  next : watchSet.generation = reload.watchSet.generation + 1
  announced : announcements after.publisher.shared.frames =
    announcements reload.publisher.shared.frames ++
      [(watchSet.generation, configActivated watchSet)]

theorem Outstanding.thread (aligned : reload.Aligned) (outstanding : reload.Outstanding watchSet)
    (publishes : Publishes allowed reload after) :
    after.Outstanding watchSet ∧ (Unmoved reload after ∨ Installed reload after watchSet) := by
  cases publishes with
  | take _ free queued =>
    refine ⟨?_, .inl (unmoved_of_loop rfl)⟩
    cases outstanding with
    | queued control _ answer next =>
      rw [control] at queued
      cases queued
      exact .taken rfl rfl answer next
    | taken control | activated control | refused control | dropped control =>
      rw [control] at queued
      cases queued
  | handle taken _ _ handled =>
    cases outstanding with
    | queued _ held | activated _ held | refused _ held | dropped _ held =>
      rw [held] at taken
      cases taken
    | taken control held answer next =>
      rw [held] at taken
      cases taken
      -- A proposal is one past the active generation, so it is never stale.
      have newer : reload.publisher.active.generation < watchSet.generation := by
        rw [aligned, next]
        exact Nat.lt_succ_self _
      rcases Publisher.handleControl_newer newer handled with
        ⟨rfl, rfl⟩ | ⟨rfl, active, switched, announced⟩
      · exact ⟨.refused control rfl rfl next, .inl ⟨rfl, id, rfl⟩⟩
      · refine ⟨.activated control rfl rfl switched, .inr ⟨held, rfl, switched, ?_, next, announced⟩⟩
        exact active.trans switched.symm
  | round _ _ ordinary _ taken =>
    have unmoved : Unmoved reload { reload with loop := _ } := unmoved_of_round ordinary taken
    exact ⟨outstanding.congr rfl rfl rfl id unmoved.watchSet, .inl unmoved⟩
  | stop =>
    refine ⟨?_, .inl (unmoved_of_loop rfl)⟩
    -- A thread that stops drops the request it has taken, and with it the answer.
    cases held : reload.held with
    | none => exact outstanding.congr rfl held.symm rfl (fun _ => rfl) rfl
    | some =>
      cases outstanding with
      | taken control _ _ next => exact .dropped control rfl rfl rfl next
      | queued _ free | activated _ free | refused _ free | dropped _ free =>
        cases free.symm.trans held
  | discard stopped queued =>
    refine ⟨?_, .inl (unmoved_of_loop rfl)⟩
    cases outstanding with
    | queued _ held _ next => exact .dropped rfl held rfl stopped next
    | taken control | activated control | refused control | dropped control =>
      rw [control] at queued
      cases queued

def Noticed (reload : Reload) : Prop :=
  reload.lastRead = reload.file ∨ 0 < reload.undelivered ∨ reload.events = true ∨
    reload.missed = true

/-- The contents last read configure this dictionary. -/
def Reads (reload : Reload) (watch : List WatchConfig) : Prop :=
  ConfigFile.load reload.lastRead = some ⟨reload.settings, watch⟩

def HasRead (reload : Reload) (watch : List WatchConfig) : Prop :=
  ∃ contents ∈ reload.reads, ConfigFile.load contents = some ⟨reload.settings, watch⟩

theorem Reads.hasRead {watch : List WatchConfig} (read : reload.Reads watch) :
    reload.HasRead watch := by
  unfold Reads lastRead at read
  cases reads : reload.reads with
  | nil =>
    rw [reads] at read
    cases read
  | cons contents earlier =>
    rw [reads] at read
    exact ⟨contents, reads ▸ List.mem_cons_self, read⟩

theorem HasRead.mono {watch : List WatchConfig} (read : reload.HasRead watch)
    (settings : after.settings = reload.settings) (more : reload.reads ⊆ after.reads) :
    after.HasRead watch := by
  obtain ⟨contents, member, loaded⟩ := read
  exact ⟨contents, more member, settings ▸ loaded⟩

def Settled (reload : Reload) : Prop :=
  ∀ watch, reload.Reads watch → reload.watchSet.configured = watch

structure Proposes (reload : Reload) (watchSet : WatchSet) : Prop where
  read : reload.Reads watchSet.configured
  generation : watchSet.generation = reload.nextGeneration

def Consistent (reload : Reload) : ReloadStage → Prop
  | .registering | .waiting => reload.Free ∧ reload.Noticed ∧ reload.Settled
  | .coalescing | .draining | .loading => reload.Free
  | .comparing watch => reload.Free ∧ reload.Noticed ∧ reload.Reads watch
  | .requesting watchSet | .retrying watchSet =>
    reload.Free ∧ reload.Noticed ∧ reload.Proposes watchSet
  | .awaiting watchSet =>
    reload.Noticed ∧ reload.Proposes watchSet ∧ reload.Outstanding watchSet
  | .stopped =>
    reload.Free ∨ ∃ watchSet, reload.Proposes watchSet ∧ reload.Outstanding watchSet

structure Kept (reload after : Reload) : Prop where
  stage : after.stage = reload.stage
  noticed : reload.Noticed → after.Noticed
  reads : ∀ watch, after.Reads watch ↔ reload.Reads watch
  next : after.nextGeneration = reload.nextGeneration

theorem Kept.proposes (kept : Kept reload after) (proposes : reload.Proposes watchSet) :
    after.Proposes watchSet :=
  ⟨(kept.reads _).mpr proposes.read, proposes.generation.trans kept.next.symm⟩

theorem kept_thread (publishes : Publishes allowed reload after) : Kept reload after := by
  cases publishes <;> exact ⟨rfl, id, fun _ => Iff.rfl, rfl⟩

theorem kept_outside (disturbs : Disturbs reload after) : Kept reload after := by
  cases disturbs with
  | write | touch => exact ⟨rfl, fun _ => .inr (.inl (Nat.succ_pos _)), fun _ => Iff.rfl, rfl⟩
  | writeUnwatched => exact ⟨rfl, fun _ => .inr (.inr (.inr rfl)), fun _ => Iff.rfl, rfl⟩
  | deliver => exact ⟨rfl, fun _ => .inr (.inr (.inl rfl)), fun _ => Iff.rfl, rfl⟩
  | hangUp | shutDown => exact ⟨rfl, id, fun _ => Iff.rfl, rfl⟩

def Moves (reload after : Reload) : Prop :=
  Unmoved reload after ∨
    ∃ watchSet, reload.Proposes watchSet ∧ Installed reload after watchSet

theorem Consistent.keep (consistent : reload.Consistent reload.stage) (kept : Kept reload after)
    (free : reload.Free → after.Free ∧ Unmoved reload after)
    (outstanding : ∀ watchSet, reload.Outstanding watchSet →
      after.Outstanding watchSet ∧ (Unmoved reload after ∨ Installed reload after watchSet)) :
    after.Consistent after.stage ∧ Moves reload after := by
  rw [kept.stage]
  -- Only a request that is out lets the other side install a dictionary.
  cases stage : reload.stage with
  | registering | waiting =>
    rw [stage] at consistent
    obtain ⟨unasked, noticed, settled⟩ := consistent
    obtain ⟨unasked, unmoved⟩ := free unasked
    refine ⟨⟨unasked, kept.noticed noticed, fun watch read => ?_⟩, .inl unmoved⟩
    rw [unmoved.watchSet]
    exact settled watch ((kept.reads watch).mp read)
  | coalescing | draining | loading =>
    rw [stage] at consistent
    obtain ⟨unasked, unmoved⟩ := free consistent
    exact ⟨unasked, .inl unmoved⟩
  | comparing watch =>
    rw [stage] at consistent
    obtain ⟨unasked, noticed, read⟩ := consistent
    obtain ⟨unasked, unmoved⟩ := free unasked
    exact ⟨⟨unasked, kept.noticed noticed, (kept.reads watch).mpr read⟩, .inl unmoved⟩
  | requesting watchSet | retrying watchSet =>
    rw [stage] at consistent
    obtain ⟨unasked, noticed, proposes⟩ := consistent
    obtain ⟨unasked, unmoved⟩ := free unasked
    exact ⟨⟨unasked, kept.noticed noticed, kept.proposes proposes⟩, .inl unmoved⟩
  | awaiting watchSet =>
    rw [stage] at consistent
    obtain ⟨noticed, proposes, asked⟩ := consistent
    obtain ⟨asked, moves⟩ := outstanding _ asked
    exact ⟨⟨kept.noticed noticed, kept.proposes proposes, asked⟩,
      moves.imp id fun installed => ⟨_, proposes, installed⟩⟩
  | stopped =>
    rw [stage] at consistent
    rcases consistent with unasked | ⟨watchSet, proposes, asked⟩
    · obtain ⟨unasked, unmoved⟩ := free unasked
      exact ⟨.inl unasked, .inl unmoved⟩
    · obtain ⟨asked, moves⟩ := outstanding _ asked
      exact ⟨.inr ⟨_, kept.proposes proposes, asked⟩,
        moves.imp id fun installed => ⟨_, proposes, installed⟩⟩

theorem Consistent.thread (aligned : reload.Aligned) (consistent : reload.Consistent reload.stage)
    (publishes : Publishes allowed reload after) :
    after.Consistent after.stage ∧ Moves reload after :=
  consistent.keep (kept_thread publishes) (fun free => free.thread publishes)
    fun _ outstanding => outstanding.thread aligned publishes

theorem Consistent.outside (consistent : reload.Consistent reload.stage)
    (disturbs : Disturbs reload after) : after.Consistent after.stage ∧ Moves reload after := by
  refine consistent.keep (kept_outside disturbs) (fun free => ?_) fun _ outstanding => ?_
  · cases disturbs <;> exact ⟨free.congr rfl rfl rfl rfl, unmoved_of_loop rfl⟩
  · cases disturbs <;>
      exact ⟨outstanding.congr rfl rfl rfl id rfl, .inl (unmoved_of_loop rfl)⟩

theorem loaded_consistent (free : reload.Free) (read : reload.lastRead = reload.file) :
    reload.Consistent reload.loaded := by
  unfold loaded
  split
  · next rejected =>
    refine ⟨free, .inl read, fun watch accepted => ?_⟩
    rw [Reads, read, rejected] at accepted
    cases accepted
  · next file accepted =>
    split_ifs with differs
    · refine ⟨free, .inl read, fun watch other => ?_⟩
      rw [Reads, read, accepted] at other
      cases other
      exact absurd rfl differs
    · refine ⟨free, .inl read, ?_⟩
      rw [Reads, read, accepted, ← not_not.mp differs]

theorem compared_consistent {watch : List WatchConfig} (free : reload.Free)
    (noticed : reload.Noticed) (read : reload.Reads watch) :
    reload.Consistent (reload.compared watch) := by
  unfold compared
  split_ifs with same
  · refine ⟨free, noticed, fun other accepted => ?_⟩
    rw [Reads, read] at accepted
    cases accepted
    exact WatchSet.matchesConfig_iff.mp same
  · exact ⟨free, noticed, read, rfl⟩

theorem submit_consistent (free : reload.Free) (noticed : reload.Noticed)
    (proposes : reload.Proposes watchSet) :
    (reload.submit watchSet).Consistent (reload.submit watchSet).stage := by
  unfold submit
  split
  · refine ⟨noticed, ⟨proposes.read, proposes.generation⟩, .queued rfl free.held rfl ?_⟩
    exact proposes.generation.trans free.next
  · exact ⟨free.congr rfl rfl rfl rfl, noticed, proposes.read, proposes.generation⟩
  · exact .inl (free.congr rfl rfl rfl rfl)

theorem Consistent.task (consistent : reload.Consistent reload.stage)
    (unexhausted : reload.watchSet.generation < usizeMax) (advances : Advances reload after) :
    after.Consistent after.stage := by
  cases advances with
  | register registering =>
    rw [registering] at consistent
    -- The generation counter starts one above the installed dictionary.
    obtain ⟨free, noticed, settled⟩ := consistent
    exact ⟨⟨free.control, free.held, Nat.min_eq_left unexhausted⟩, noticed, settled⟩
  | unwatched registering =>
    rw [registering] at consistent
    exact .inl (consistent.1.congr rfl rfl rfl rfl)
  | signalled waiting | notified waiting =>
    rw [waiting] at consistent
    exact consistent.1.congr rfl rfl rfl rfl
  | coalesced coalescing =>
    rw [coalescing] at consistent
    exact Free.congr consistent rfl rfl rfl rfl
  | drain draining =>
    rw [draining] at consistent
    dsimp only
    rw [draining]
    exact Free.congr consistent rfl rfl rfl rfl
  | drained draining =>
    rw [draining] at consistent
    exact Free.congr consistent rfl rfl rfl rfl
  | load loading =>
    rw [loading] at consistent
    exact loaded_consistent (Free.congr consistent rfl rfl rfl rfl) rfl
  | compare comparing =>
    rw [comparing] at consistent
    obtain ⟨free, noticed, read⟩ := consistent
    exact compared_consistent (free.congr rfl rfl rfl rfl) noticed read
  | request requesting =>
    rw [requesting] at consistent
    obtain ⟨free, noticed, proposes⟩ := consistent
    exact submit_consistent free noticed proposes
  | activated awaiting answer =>
    rw [awaiting] at consistent
    obtain ⟨noticed, proposes, outstanding⟩ := consistent
    cases outstanding with
    | queued _ _ pending | taken _ _ pending => rw [pending] at answer; cases answer
    | refused _ _ other | dropped _ _ other => rw [answer] at other; cases other
    | activated control held _ installed =>
      -- The counter only moves on after an activation, and saturates where a `usize` does.
      have next : saturatingAdd reload.nextGeneration 1 = reload.watchSet.generation + 1 := by
        rw [← proposes.generation, ← installed]
        exact Nat.min_eq_left unexhausted
      refine ⟨⟨control, held, next⟩, noticed, fun watch read => ?_⟩
      have same := proposes.read.symm.trans read
      cases same
      exact congrArg WatchSet.configured installed
  | refused awaiting answer =>
    rw [awaiting] at consistent
    obtain ⟨noticed, proposes, outstanding⟩ := consistent
    cases outstanding with
    | queued _ _ pending | taken _ _ pending => rw [pending] at answer; cases answer
    | activated _ _ other | dropped _ _ other => rw [answer] at other; cases other
    -- A refusal keeps the counter, so the retry proposes the same generation.
    | refused control held _ next =>
      exact ⟨⟨control, held, proposes.generation.symm.trans next⟩, noticed, proposes.read,
        proposes.generation⟩
  | abandoned awaiting =>
    rw [awaiting] at consistent
    obtain ⟨_, proposes, outstanding⟩ := consistent
    -- The task is gone, but its request may still be answered.
    exact .inr ⟨_, ⟨proposes.read, proposes.generation⟩, outstanding.congr rfl rfl rfl id rfl⟩
  | resignalled retrying | superseded retrying =>
    rw [retrying] at consistent
    exact consistent.1.congr rfl rfl rfl rfl
  | again retrying =>
    rw [retrying] at consistent
    obtain ⟨free, noticed, proposes⟩ := consistent
    exact ⟨free.congr rfl rfl rfl rfl, noticed, proposes.read, proposes.generation⟩
  | exit listens =>
    cases stage : reload.stage with
    | waiting | retrying =>
      rw [stage] at consistent
      exact .inl (consistent.1.congr rfl rfl rfl rfl)
    | coalescing =>
      rw [stage] at consistent
      exact .inl (Free.congr consistent rfl rfl rfl rfl)
    | awaiting =>
      rw [stage] at consistent
      obtain ⟨_, proposes, outstanding⟩ := consistent
      exact .inr ⟨_, ⟨proposes.read, proposes.generation⟩, outstanding.congr rfl rfl rfl id rfl⟩
    | _ =>
      rw [stage] at listens
      exact listens.elim

theorem advances_loop (advances : Advances reload after) : after.loop = reload.loop := by
  cases advances with
  | request =>
    unfold submit
    split <;> rfl
  | _ => rfl

theorem disturbs_loop (disturbs : Disturbs reload after) : after.loop = reload.loop := by
  cases disturbs <;> rfl

theorem settings_step (step : Step allowed reload after) : after.settings = reload.settings := by
  cases step with
  | task advances =>
    cases advances with
    | request =>
      unfold submit
      split <;> rfl
    | _ => rfl
  | thread publishes => cases publishes <;> rfl
  | outside disturbs => cases disturbs <;> rfl

theorem reads_step (step : Step allowed reload after) : reload.reads ⊆ after.reads := by
  cases step with
  | task advances =>
    cases advances with
    | request =>
      unfold submit
      split <;> exact List.Subset.refl _
    | load => exact List.subset_cons_self _ _
    | _ => exact List.Subset.refl _
  | thread publishes => cases publishes <;> exact List.Subset.refl _
  | outside disturbs => cases disturbs <;> exact List.Subset.refl _

theorem advances_answer {activated : Bool} (advances : Advances reload after)
    (answer : after.completion = .done activated) : reload.completion = .done activated := by
  cases advances with
  | request =>
    revert answer
    unfold submit
    split <;> simp
  | activated | refused => cases answer
  | _ => exact answer

theorem disturbs_answer (disturbs : Disturbs reload after) :
    after.completion = reload.completion := by
  cases disturbs <;> rfl

/-- What a step does to the dictionary, and how that is acknowledged. -/
inductive Acknowledged (reload after : Reload) : Prop
  | quiet (unmoved : Unmoved reload after)
      (unanswered : ∀ activated, after.completion = .done activated →
        reload.completion = .done activated) : Acknowledged reload after
  | refused {watchSet : WatchSet} (asked : reload.held = some watchSet)
      (answer : after.completion = .done false) (same : after.publisher = reload.publisher) :
      Acknowledged reload after
  | installed {watchSet : WatchSet} (installed : Installed reload after watchSet) :
      Acknowledged reload after

theorem Consistent.taken (consistent : reload.Consistent reload.stage)
    (held : reload.held = some watchSet) :
    watchSet.generation = reload.watchSet.generation + 1 := by
  have unasked (free : reload.Free) : False := by cases free.held.symm.trans held
  have asked {other : WatchSet} (outstanding : reload.Outstanding other) :
      watchSet.generation = reload.watchSet.generation + 1 := by
    cases outstanding with
    | taken _ taken _ next =>
      cases taken.symm.trans held
      exact next
    | queued _ free | activated _ free | refused _ free | dropped _ free =>
      cases free.symm.trans held
  cases stage : reload.stage with
  | coalescing | draining | loading =>
    rw [stage] at consistent
    exact (unasked consistent).elim
  | registering | waiting | comparing | requesting | retrying =>
    rw [stage] at consistent
    exact (unasked consistent.1).elim
  | awaiting =>
    rw [stage] at consistent
    exact asked consistent.2.2
  | stopped =>
    rw [stage] at consistent
    rcases consistent with free | ⟨_, _, outstanding⟩
    · exact (unasked free).elim
    · exact asked outstanding

theorem acknowledged_step (aligned : reload.Aligned) (consistent : reload.Consistent reload.stage)
    (step : Step allowed reload after) : Acknowledged reload after := by
  cases step with
  | task advances =>
    exact .quiet (unmoved_of_loop (advances_loop advances)) fun _ => advances_answer advances
  | outside disturbs =>
    exact .quiet (unmoved_of_loop (disturbs_loop disturbs))
      fun _ answer => (disturbs_answer disturbs).symm.trans answer
  | thread publishes =>
    cases publishes with
    | take => exact .quiet (unmoved_of_loop rfl) fun _ => id
    | round _ _ ordinary _ taken => exact .quiet (unmoved_of_round ordinary taken) fun _ => id
    | stop =>
      refine .quiet (unmoved_of_loop rfl) fun activated answer => ?_
      cases held : reload.held with
      | none => simpa [held] using answer
      | some => simp [held] at answer
    | discard => exact .quiet (unmoved_of_loop rfl) fun _ answer => by cases answer
    | handle held _ _ handled =>
      have next := consistent.taken held
      have newer := Nat.lt_of_lt_of_eq (Nat.lt_succ_self reload.watchSet.generation) next.symm
      rw [← aligned] at newer
      rcases Publisher.handleControl_newer newer handled with
        ⟨rfl, rfl⟩ | ⟨rfl, active, switched, announced⟩
      · exact .refused held rfl rfl
      · exact .installed ⟨held, rfl, switched, active.trans switched.symm, next, announced⟩

theorem ascends_step (aligned : reload.Aligned) (step : Step allowed reload after) :
    after.Aligned ∧ reload.watchSet.generation ≤ after.watchSet.generation := by
  have unmoved (moves : Unmoved reload after) :
      after.Aligned ∧ reload.watchSet.generation ≤ after.watchSet.generation :=
    ⟨moves.aligned aligned, moves.watchSet ▸ Nat.le_refl _⟩
  cases step with
  | task advances => exact unmoved (unmoved_of_loop (advances_loop advances))
  | outside disturbs => exact unmoved (unmoved_of_loop (disturbs_loop disturbs))
  | thread publishes =>
    cases publishes with
    | take | stop | discard => exact unmoved (unmoved_of_loop rfl)
    | round _ _ ordinary _ taken => exact unmoved (unmoved_of_round ordinary taken)
    | @handle env watchSet activated publisher _ _ _ handled =>
      rcases Nat.lt_or_ge reload.publisher.active.generation watchSet.generation with newer | older
      · rcases Publisher.handleControl_newer newer handled with
          ⟨_, rfl⟩ | ⟨_, active, switched, _⟩
        · exact unmoved ⟨rfl, id, rfl⟩
        · refine ⟨active.trans switched.symm, ?_⟩
          rw [aligned, ← switched] at newer
          exact newer.le
      · cases Publisher.handleControl_stale older handled
        exact unmoved ⟨rfl, id, rfl⟩

/-- The dictionaries announced after the first one: one for each generation, the last of them the
active one, and each compiled from a file that was read. -/
structure Announces (reload : Reload)
    (announced : List (Generation × Wire.ConfigActivated)) : Prop where
  generations : announced.map Prod.fst = List.range' 2 (reload.watchSet.generation - 1)
  latest : ∀ entry, announced.getLast? = some entry →
    entry = (reload.watchSet.generation, configActivated reload.watchSet)
  sourced : ∀ entry ∈ announced, ∃ watch, reload.HasRead watch ∧
    entry.2 = configActivated (.compile entry.1 watch)

structure Sound (reload : Reload) : Prop where
  aligned : reload.Aligned
  read : reload.HasRead reload.watchSet.configured
  consistent : reload.Consistent reload.stage
  counted : 1 ≤ reload.watchSet.generation
  announced : reload.Announces (announcements reload.publisher.shared.frames)

theorem HasRead.valid {watch : List WatchConfig} (read : reload.HasRead watch) :
    (Config.mk reload.settings.config watch).validate = .ok () := by
  obtain ⟨_, _, loaded⟩ := read
  exact of_decide_eq_true (Option.filter_eq_some_iff.mp loaded).2

theorem Announces.install {announced : List (Generation × Wire.ConfigActivated)}
    (announces : reload.Announces announced) (counted : 1 ≤ reload.watchSet.generation)
    (next : after.watchSet.generation = reload.watchSet.generation + 1)
    (read : after.HasRead after.watchSet.configured)
    (keeps : ∀ watch, reload.HasRead watch → after.HasRead watch) :
    after.Announces
      (announced ++ [(after.watchSet.generation, configActivated after.watchSet)]) := by
  refine ⟨?_, fun entry last => ?_, fun entry member => ?_⟩
  · rw [List.map_append, announces.generations, next]
    generalize reload.watchSet.generation = generation at counted
    obtain ⟨count, rfl⟩ := Nat.exists_eq_add_of_le' counted
    rw [Nat.add_sub_cancel, Nat.add_sub_cancel, List.range'_concat, one_mul, Nat.add_comm 2 count]
    rfl
  · rw [List.getLast?_concat] at last
    exact (Option.some.inj last).symm
  · rcases List.mem_append.mp member with earlier | last
    · obtain ⟨watch, known, same⟩ := announces.sourced entry earlier
      exact ⟨watch, keeps watch known, same⟩
    · cases List.mem_singleton.mp last
      exact ⟨_, read, rfl⟩

theorem Sound.moves (sound : reload.Sound) (aligned : after.Aligned)
    (keeps : ∀ watch, reload.HasRead watch → after.HasRead watch)
    (consistent : after.Consistent after.stage) (moves : Moves reload after) : after.Sound := by
  rcases moves with unmoved | ⟨watchSet, proposes, installed⟩
  · refine ⟨aligned, ?_, consistent, ?_, ?_⟩
    · rw [unmoved.watchSet]
      exact keeps _ sound.read
    · rw [unmoved.watchSet]
      exact sound.counted
    · obtain ⟨generations, latest, sourced⟩ := sound.announced
      rw [unmoved.announced]
      refine ⟨?_, ?_, fun entry member => ?_⟩
      · rw [unmoved.watchSet]
        exact generations
      · rw [unmoved.watchSet]
        exact latest
      · obtain ⟨watch, known, same⟩ := sourced entry member
        exact ⟨watch, keeps watch known, same⟩
  · have next := installed.next
    have read := keeps _ proposes.read.hasRead
    have announced := installed.announced
    rw [← installed.switched] at next read announced
    refine ⟨aligned, read, consistent, ?_, ?_⟩
    · rw [next]
      exact Nat.le_add_left 1 _
    · rw [announced]
      exact sound.announced.install sound.counted next read keeps

theorem sound_step (sound : reload.Sound) (unexhausted : reload.watchSet.generation < usizeMax)
    (step : Step allowed reload after) : after.Sound := by
  have aligned := (ascends_step sound.aligned step).1
  have keeps (watch : List WatchConfig) (read : reload.HasRead watch) : after.HasRead watch :=
    read.mono (settings_step step) (reads_step step)
  cases step with
  | task advances =>
    exact sound.moves aligned keeps (sound.consistent.task unexhausted advances)
      (.inl (unmoved_of_loop (advances_loop advances)))
  | thread publishes =>
    obtain ⟨consistent, moves⟩ := sound.consistent.thread sound.aligned publishes
    exact sound.moves aligned keeps consistent moves
  | outside disturbs =>
    obtain ⟨consistent, moves⟩ := sound.consistent.outside disturbs
    exact sound.moves aligned keeps consistent moves

section

variable {env : Env} {chainId : Nat} {genesisHash : B256} {bootId : Bytes}
  {contents : Option ConfigFile} {begun : Reload}

theorem launch_eq_some (launched : launch env chainId genesisHash bootId contents = some begun) :
    ∃ file loaded, ConfigFile.load contents = some file ∧
      Publisher.Starts env { stream := file.stream.config, chainId, genesisHash, bootId }
        (.compile 1 file.watch) loaded ∧
      begun = .start (.initial env { stream := file.stream.config, chainId, genesisHash, bootId }
        (.compile 1 file.watch) loaded) file.stream contents := by
  obtain ⟨file, read, launched⟩ := Option.bind_eq_some_iff.mp launched
  obtain ⟨publisher, started, launched⟩ := Option.bind_eq_some_iff.mp launched
  obtain ⟨loaded, starts, rfl⟩ := Publisher.startService_eq_some.mp started
  cases launched
  exact ⟨file, loaded, read, starts, rfl⟩

theorem sound_launch (launched : launch env chainId genesisHash bootId contents = some begun) :
    begun.Sound := by
  obtain ⟨file, loaded, read, starts, rfl⟩ := launch_eq_some launched
  refine ⟨watchSet_of_dictionary starts.dictionary, ⟨contents, List.mem_singleton_self _, read⟩,
    ⟨⟨rfl, rfl, rfl⟩, .inl rfl, fun watch other => ?_⟩, Nat.le_refl 1, rfl, ?_, ?_⟩
  · exact congrArg ConfigFile.watch (Option.some.inj (read.symm.trans other))
  · exact fun _ none => by cases none
  · exact fun _ member => absurd member List.not_mem_nil

theorem sound_reaches (sound : begun.Sound) (reached : Reaches allowed begun reload)
    (unexhausted : reload.watchSet.generation < usizeMax) : reload.Sound := by
  have run : reload.Aligned ∧ (reload.watchSet.generation < usizeMax → reload.Sound) := by
    clear unexhausted
    induction reached with
    | refl => exact ⟨sound.aligned, fun _ => sound⟩
    | @tail before after _ step ih =>
      obtain ⟨aligned, ascends⟩ := ascends_step ih.1 step
      refine ⟨aligned, fun unexhausted => ?_⟩
      have bounded : before.watchSet.generation < usizeMax := ascends.trans_lt unexhausted
      exact sound_step (ih.2 bounded) bounded step
  exact run.2 unexhausted

end

theorem rounds_reaches {begun : Reload} (reached : Reaches allowed begun reload) :
    Relation.ReflTransGen (Loop.Round fun _ _ _ => True) begun.loop reload.loop := by
  induction reached with
  | refl => exact .refl
  | tail _ step ih =>
    cases step with
    | task advances => rw [advances_loop advances]; exact ih
    | outside disturbs => rw [disturbs_loop disturbs]; exact ih
    | thread publishes =>
      cases publishes with
      | take | stop | discard => exact ih
      | round _ _ _ _ taken => exact ih.tail ⟨_, _, trivial, taken⟩
      | @handle env watchSet _ _ _ _ idle handled =>
        refine ih.tail ⟨env, .activation watchSet, trivial, ?_⟩
        unfold Loop.next
        rw [idle]
        dsimp only
        rw [handled]
        rfl

structure Working (allowed : Publisher → Env → Input → Prop) (begun : Reload) (now : Env) :
    Prop where
  launched : ∃ env chainId genesisHash bootId contents, bootId.length = 16 ∧
    launch env chainId genesisHash bootId contents = some begun
  bounded : begun.settings.config.maxFrameBytes < 2 ^ 32
  admitted : ∀ p input, allowed p now input
  serves : ∀ watchSet, Machine.Serves now watchSet

section

variable {begun : Reload} {now : Env}

theorem settings_reaches (reached : Reaches allowed begun reload) :
    reload.settings = begun.settings := by
  induction reached with
  | refl => rfl
  | tail _ step ih => exact (settings_step step).trans ih

theorem Working.sound (working : Working allowed begun now) (reached : Reaches allowed begun reload)
    (unexhausted : reload.watchSet.generation < usizeMax) : reload.Sound := by
  obtain ⟨_, _, _, _, _, _, launched⟩ := working.launched
  exact sound_reaches (sound_launch launched) reached unexhausted

theorem Working.framed (working : Working allowed begun now)
    (reached : Reaches allowed begun reload) :
    Machine.Framed begun.settings.config reload.publisher.shared := by
  obtain ⟨env, chainId, genesisHash, bootId, contents, boot, launched⟩ := working.launched
  obtain ⟨file, loaded, _, _, rfl⟩ := launch_eq_some launched
  have grows := Machine.grows_reaches (rounds_reaches reached)
  exact ⟨grows.limit, (congrArg List.length grows.boot).trans boot⟩

theorem Working.known (working : Working allowed begun now)
    (reached : Reaches allowed begun reload) {announced : Bool} {reason : String}
    (recovering : reload.loop.control = .recovering announced reason) : reason ∈ gapReasons := by
  obtain ⟨env, chainId, genesisHash, bootId, contents, _, launched⟩ := working.launched
  obtain ⟨file, loaded, _, _, rfl⟩ := launch_eq_some launched
  exact Loop.reason_reaches (rounds_reaches reached) recovering

theorem Working.fits (working : Working allowed begun now) (reached : Reaches allowed begun reload)
    (unexhausted : reload.watchSet.generation < usizeMax) :
    Machine.Fits begun.settings.config reload.publisher.active := by
  have sound := working.sound reached unexhausted
  have valid := sound.read.valid
  rw [settings_reaches reached, ← sound.aligned] at valid
  exact Config.valid_of_validate valid

theorem Working.calm (working : Working allowed begun now) (reached : Reaches allowed begun reload)
    (unexhausted : reload.watchSet.generation < usizeMax) (running : reload.connected = true) :
    ∃ loop : Loop, loop.control = .idle ∧
      loop.publisher.activeWatchSet = reload.watchSet ∧ Reaches allowed reload { reload with loop } := by
  cases control : reload.loop.control with
  | idle => exact ⟨reload.loop, control, rfl, .refl⟩
  | recovering announced reason =>
    obtain ⟨loaded, _, retried⟩ := @Machine.retry_of_serves now reload.publisher _ announced reason
      (working.known reached control) working.bounded (working.framed reached)
      (working.fits reached unexhausted) (working.serves _)
    have taken : Loop.next now .retry reload.loop =
        some (Loop.retry now announced reason reload.publisher) := by
      unfold Loop.next
      rw [control]
      rfl
    have ordinary (watchSet : WatchSet) : Input.retry ≠ .activation watchSet := by
      intro same
      cases same
    have unmoved : Unmoved reload
        { reload with loop := Loop.retry now announced reason reload.publisher } :=
      unmoved_of_round ordinary taken
    refine ⟨Loop.retry now announced reason reload.publisher, by rw [retried]; rfl,
      unmoved.watchSet, ?_⟩
    exact .single (.thread (.round running (working.admitted _ _) ordinary (fun _ => .inr rfl) taken))

structure Onward (allowed : Publisher → Env → Input → Prop) (reload after : Reload) : Prop where
  reached : Reaches allowed reload after
  file : after.file = reload.file
  undelivered : after.undelivered = reload.undelivered
  events : reload.events = false → after.events = false
  missed : reload.missed = false → after.missed = false
  hangup : after.hangup = reload.hangup
  connected : after.connected = reload.connected

theorem Onward.trans {last : Reload} (first : Onward allowed reload after)
    (second : Onward allowed after last) : Onward allowed reload last where
  reached := first.reached.trans second.reached
  file := second.file.trans first.file
  undelivered := second.undelivered.trans first.undelivered
  events empty := second.events (first.events empty)
  missed watched := second.missed (first.missed watched)
  hangup := second.hangup.trans first.hangup
  connected := second.connected.trans first.connected

structure Live (allowed : Publisher → Env → Input → Prop) (begun : Reload) (now : Env)
    (reload : Reload) : Prop where
  working : Working allowed begun now
  reached : Reaches allowed begun reload
  running : reload.connected = true

theorem Live.onward (live : Live allowed begun now reload) (onward : Onward allowed reload after) :
    Live allowed begun now after :=
  ⟨live.working, live.reached.trans onward.reached, onward.connected.trans live.running⟩

def Finishes (allowed : Publisher → Env → Input → Prop) (reload : Reload) (watchSet : WatchSet) :
    Prop :=
  ∃ after, Onward allowed reload after ∧ after.stage = .waiting ∧ after.watchSet = watchSet

theorem Onward.finishes (onward : Onward allowed reload after)
    (finishes : Finishes allowed after watchSet) : Finishes allowed reload watchSet := by
  obtain ⟨last, further, rest⟩ := finishes
  exact ⟨last, onward.trans further, rest⟩

theorem Live.finish_taken (live : Live allowed begun now reload)
    (unexhausted : watchSet.generation < usizeMax) (awaiting : reload.stage = .awaiting watchSet)
    (proposes : reload.Proposes watchSet) (held : reload.held = some watchSet)
    (next : watchSet.generation = reload.watchSet.generation + 1) :
    Finishes allowed reload watchSet := by
  obtain ⟨working, reached, running⟩ := live
  have earlier : reload.watchSet.generation < usizeMax := by
    rw [next] at unexhausted
    exact Nat.lt_of_succ_lt unexhausted
  obtain ⟨calm, idle, same, calmed⟩ := working.calm reached earlier running
  have fits : Machine.Fits begun.settings.config watchSet := by
    have valid := proposes.read.hasRead.valid
    rw [settings_reaches reached] at valid
    exact Config.valid_of_validate valid
  have framed := working.framed (reached.trans calmed)
  have returned := Machine.activate_of_serves working.bounded framed fits (working.serves watchSet)
  have unmoved : Reload.watchSet { reload with loop := calm } = reload.watchSet := same
  have aligned := (working.sound (reached.trans calmed) (unmoved.symm ▸ earlier)).aligned
  have newer : calm.publisher.active.generation < watchSet.generation := by
    rw [next, ← unmoved]
    exact Nat.lt_succ_of_le (congrArg WatchSet.generation aligned).le
  obtain ⟨loaded, _, activated⟩ := Publisher.activate_newer newer returned
  have handled := Publisher.handleControl_ok returned
  have answered := calmed.tail (.thread (.handle held (working.admitted _ _) idle handled))
  exact ⟨_, ⟨answered.tail (.task (@Advances.activated { reload with
    loop := ⟨_, .idle⟩, held := none, completion := .done true } watchSet awaiting rfl)), rfl, rfl, id, id, rfl, rfl⟩,
    rfl, activated.switched⟩

theorem Live.finish_queued (live : Live allowed begun now reload)
    (unexhausted : watchSet.generation < usizeMax) (awaiting : reload.stage = .awaiting watchSet)
    (proposes : reload.Proposes watchSet) (control : reload.control = some watchSet)
    (held : reload.held = none) (next : watchSet.generation = reload.watchSet.generation + 1) :
    Finishes allowed reload watchSet := by
  have taken : Onward allowed reload { reload with control := none, held := some watchSet } :=
    ⟨.single (.thread (.take live.running held control)), rfl, rfl, id, id, rfl, rfl⟩
  exact taken.finishes ((live.onward taken).finish_taken unexhausted awaiting
    ⟨proposes.read, proposes.generation⟩ rfl next)

theorem Live.finish_requesting (live : Live allowed begun now reload)
    (unexhausted : watchSet.generation < usizeMax) (requesting : reload.stage = .requesting watchSet)
    (free : reload.Free) (proposes : reload.Proposes watchSet) :
    Finishes allowed reload watchSet := by
  have queued : reload.submit watchSet =
      { reload with control := some watchSet, completion := .pending, stage := .awaiting watchSet } := by
    unfold submit requestActivation
    rw [live.running, free.control]
    rfl
  have submitted : Onward allowed reload
      { reload with control := some watchSet, completion := .pending, stage := .awaiting watchSet } :=
    ⟨queued ▸ .single (.task (.request requesting)), rfl, rfl, id, id, rfl, rfl⟩
  exact submitted.finishes ((live.onward submitted).finish_queued unexhausted rfl
    ⟨proposes.read, proposes.generation⟩ rfl free.held (proposes.generation.trans free.next))

theorem Live.finish_retrying (live : Live allowed begun now reload)
    (unexhausted : watchSet.generation < usizeMax) (retrying : reload.stage = .retrying watchSet)
    (free : reload.Free) (proposes : reload.Proposes watchSet) :
    Finishes allowed reload watchSet := by
  have again : Onward allowed reload { reload with stage := .requesting watchSet } :=
    ⟨.single (.task (.again retrying)), rfl, rfl, id, id, rfl, rfl⟩
  exact again.finishes ((live.onward again).finish_requesting unexhausted rfl
    (free.congr rfl rfl rfl rfl) ⟨proposes.read, proposes.generation⟩)

def Rests (allowed : Publisher → Env → Input → Prop) (reload : Reload) : Prop :=
  ∃ after, Onward allowed reload after ∧ after.stage = .waiting ∧
    after.watchSet.generation ≤ reload.watchSet.generation + 1

theorem Onward.rests (onward : Onward allowed reload after)
    (same : after.watchSet = reload.watchSet) (rests : Rests allowed after) :
    Rests allowed reload := by
  obtain ⟨last, further, waiting, bound⟩ := rests
  exact ⟨last, onward.trans further, waiting, same ▸ bound⟩

theorem Finishes.rests (finishes : Finishes allowed reload watchSet)
    (next : watchSet.generation = reload.watchSet.generation + 1) : Rests allowed reload := by
  obtain ⟨after, onward, waiting, switched⟩ := finishes
  exact ⟨after, onward, waiting, by rw [switched, next]⟩

theorem Live.rests_retrying (live : Live allowed begun now reload)
    (unexhausted : reload.watchSet.generation + 1 < usizeMax)
    (retrying : reload.stage = .retrying watchSet) (free : reload.Free)
    (proposes : reload.Proposes watchSet) : Rests allowed reload := by
  have next := proposes.generation.trans free.next
  exact (live.finish_retrying (next ▸ unexhausted) retrying free proposes).rests next

theorem Live.rests_requesting (live : Live allowed begun now reload)
    (unexhausted : reload.watchSet.generation + 1 < usizeMax)
    (requesting : reload.stage = .requesting watchSet) (free : reload.Free)
    (proposes : reload.Proposes watchSet) : Rests allowed reload := by
  have next := proposes.generation.trans free.next
  exact (live.finish_requesting (next ▸ unexhausted) requesting free proposes).rests next

theorem Live.rests_awaiting (live : Live allowed begun now reload)
    (unexhausted : reload.watchSet.generation + 1 < usizeMax)
    (awaiting : reload.stage = .awaiting watchSet) (proposes : reload.Proposes watchSet)
    (outstanding : reload.Outstanding watchSet) : Rests allowed reload := by
  cases outstanding with
  | queued control held _ next =>
    exact (live.finish_queued (next ▸ unexhausted) awaiting proposes control held next).rests next
  | taken _ held _ next =>
    exact (live.finish_taken (next ▸ unexhausted) awaiting proposes held next).rests next
  | activated _ _ answer =>
    exact ⟨_, ⟨.single (.task (.activated awaiting answer)), rfl, rfl, id, id, rfl, rfl⟩, rfl,
      Nat.le_succ _⟩
  | refused control held answer next =>
    have refused : Onward allowed reload
        { reload with completion := .idle, stage := .retrying watchSet } :=
      ⟨.single (.task (.refused awaiting answer)), rfl, rfl, id, id, rfl, rfl⟩
    exact refused.rests rfl ((live.onward refused).rests_retrying unexhausted rfl
      ⟨control, held, proposes.generation.symm.trans next⟩ ⟨proposes.read, proposes.generation⟩)
  | dropped _ _ _ stopped =>
    rw [live.running] at stopped
    cases stopped

theorem Live.rests_comparing (live : Live allowed begun now reload)
    (unexhausted : reload.watchSet.generation + 1 < usizeMax) {watch : List WatchConfig}
    (comparing : reload.stage = .comparing watch) (free : reload.Free)
    (read : reload.Reads watch) : Rests allowed reload := by
  have compared : Onward allowed reload { reload with stage := reload.compared watch } :=
    ⟨.single (.task (.compare comparing)), rfl, rfl, id, id, rfl, rfl⟩
  by_cases same : reload.watchSet.matchesConfig watch = true
  · refine ⟨_, compared, ?_, Nat.le_succ _⟩
    exact if_pos same
  · have requesting : reload.compared watch =
        .requesting (.compile reload.nextGeneration watch) := if_neg same
    exact compared.rests rfl ((live.onward compared).rests_requesting unexhausted requesting
      (free.congr rfl rfl rfl rfl) ⟨read, rfl⟩)

theorem loaded_cases (reload : Reload) :
    reload.loaded = .waiting ∨ ∃ watch, reload.loaded = .comparing watch := by
  unfold loaded
  split
  · exact .inl rfl
  · split_ifs
    · exact .inl rfl
    · exact .inr ⟨_, rfl⟩

theorem Onward.refl (reload : Reload) : Onward allowed reload reload := ⟨.refl, rfl, rfl, id, id, rfl, rfl⟩

theorem Live.rests_loading (live : Live allowed begun now reload)
    (unexhausted : reload.watchSet.generation + 1 < usizeMax) (loading : reload.stage = .loading) :
    ∃ after, Onward allowed reload after ∧ after.stage = .waiting ∧
      after.watchSet.generation ≤ reload.watchSet.generation + 1 ∧ after.missed = false := by
  have loaded : Onward allowed reload
      { reload with
        stage := reload.loaded, reads := reload.file :: reload.reads, missed := false } :=
    ⟨.single (.task (.load loading)), rfl, rfl, id, fun _ => rfl, rfl, rfl⟩
  have rests : Rests allowed { reload with
      stage := reload.loaded, reads := reload.file :: reload.reads, missed := false } := by
    rcases reload.loaded_cases with waiting | ⟨watch, comparing⟩
    · exact ⟨_, .refl _, waiting, Nat.le_succ _⟩
    · have arrived := live.onward loaded
      have sound := arrived.working.sound arrived.reached (Nat.lt_of_succ_lt unexhausted)
      have consistent := sound.consistent
      dsimp only at consistent
      rw [comparing] at consistent
      obtain ⟨free, _, read⟩ := consistent
      exact arrived.rests_comparing unexhausted comparing (free.congr rfl rfl rfl rfl) read
  obtain ⟨after, onward, waiting, bound⟩ := rests
  exact ⟨after, loaded.trans onward, waiting, bound, onward.missed rfl⟩

theorem Live.rests_draining (live : Live allowed begun now reload)
    (unexhausted : reload.watchSet.generation + 1 < usizeMax) (draining : reload.stage = .draining) :
    ∃ after, Onward allowed reload after ∧ after.stage = .waiting ∧
      after.watchSet.generation ≤ reload.watchSet.generation + 1 ∧ after.missed = false ∧
      after.events = false := by
  have empty : Onward allowed reload { reload with events := false } := by
    cases ready : reload.events with
    | true => exact ⟨.single (.task (.drain draining ready)), rfl, rfl, fun _ => rfl, id, rfl, rfl⟩
    | false =>
      have same : ({ reload with events := false } : Reload) = reload := by rw [← ready]
      rw [same]
      exact .refl _
  have drained : Onward allowed { reload with events := false }
      { reload with events := false, stage := .loading } :=
    ⟨.single (.task (.drained draining rfl)), rfl, rfl, id, id, rfl, rfl⟩
  have ready := empty.trans drained
  obtain ⟨after, onward, waiting, bound, fresh⟩ := (live.onward ready).rests_loading unexhausted rfl
  exact ⟨after, ready.trans onward, waiting, bound, fresh, onward.events rfl⟩

theorem Live.rests_coalescing (live : Live allowed begun now reload)
    (unexhausted : reload.watchSet.generation + 1 < usizeMax)
    (coalescing : reload.stage = .coalescing) :
    ∃ after, Onward allowed reload after ∧ after.stage = .waiting ∧
      after.watchSet.generation ≤ reload.watchSet.generation + 1 ∧ after.missed = false ∧
      after.events = false := by
  have coalesced : Onward allowed reload { reload with stage := .draining } :=
    ⟨.single (.task (.coalesced coalescing)), rfl, rfl, id, id, rfl, rfl⟩
  obtain ⟨after, onward, rest⟩ := (live.onward coalesced).rests_draining unexhausted rfl
  exact ⟨after, coalesced.trans onward, rest⟩

theorem Live.rests (live : Live allowed begun now reload)
    (unexhausted : reload.watchSet.generation + 1 < usizeMax) (alive : reload.stage ≠ .stopped) :
    Rests allowed reload := by
  have consistent :=
    (live.working.sound live.reached (Nat.lt_of_succ_lt unexhausted)).consistent
  cases stage : reload.stage with
  | registering =>
    have registered : Onward allowed reload
        { reload with
          nextGeneration := saturatingAdd reload.watchSet.generation 1
          stage := .waiting } :=
      ⟨.single (.task (.register stage)), rfl, rfl, id, id, rfl, rfl⟩
    exact ⟨_, registered, rfl, Nat.le_succ _⟩
  | waiting => exact ⟨reload, .refl _, stage, Nat.le_succ _⟩
  | coalescing =>
    obtain ⟨after, onward, waiting, bound, _⟩ := live.rests_coalescing unexhausted stage
    exact ⟨after, onward, waiting, bound⟩
  | draining =>
    obtain ⟨after, onward, waiting, bound, _⟩ := live.rests_draining unexhausted stage
    exact ⟨after, onward, waiting, bound⟩
  | loading =>
    obtain ⟨after, onward, waiting, bound, _⟩ := live.rests_loading unexhausted stage
    exact ⟨after, onward, waiting, bound⟩
  | comparing watch =>
    rw [stage] at consistent
    obtain ⟨free, _, read⟩ := consistent
    exact live.rests_comparing unexhausted stage free read
  | requesting watchSet =>
    rw [stage] at consistent
    obtain ⟨free, _, proposes⟩ := consistent
    exact live.rests_requesting unexhausted stage free proposes
  | retrying watchSet =>
    rw [stage] at consistent
    obtain ⟨free, _, proposes⟩ := consistent
    exact live.rests_retrying unexhausted stage free proposes
  | awaiting watchSet =>
    rw [stage] at consistent
    obtain ⟨_, proposes, outstanding⟩ := consistent
    exact live.rests_awaiting unexhausted stage proposes outstanding
  | stopped => exact absurd stage alive

theorem delivers (reload : Reload) :
    ∃ events, Reaches allowed reload { reload with undelivered := 0, events } := by
  obtain ⟨count, same⟩ : ∃ count, reload.undelivered = count := ⟨_, rfl⟩
  induction count generalizing reload with
  | zero =>
    refine ⟨reload.events, ?_⟩
    rw [← same]
    exact .refl
  | succ count ih =>
    have delivered : Step allowed reload
        { reload with undelivered := reload.undelivered - 1, events := true } :=
      .outside (.deliver (by omega))
    obtain ⟨events, rest⟩ := ih { reload with undelivered := reload.undelivered - 1, events := true }
      (by dsimp only; omega)
    exact ⟨events, .head delivered rest⟩

structure Quiet (allowed : Publisher → Env → Input → Prop) (reload after : Reload) : Prop where
  reached : Reaches allowed reload after
  file : after.file = reload.file
  waiting : after.stage = .waiting
  delivered : after.undelivered = 0
  taken : after.events = false
  watched : after.missed = false
  bounded : after.watchSet.generation < usizeMax

theorem Live.quiet_coalescing (live : Live allowed begun now reload)
    (unexhausted : reload.watchSet.generation + 1 < usizeMax) (delivered : reload.undelivered = 0)
    (coalescing : reload.stage = .coalescing) : ∃ after, Quiet allowed reload after := by
  obtain ⟨after, onward, waiting, bound, watched, taken⟩ :=
    live.rests_coalescing unexhausted coalescing
  exact ⟨after, onward.reached, onward.file, waiting, onward.undelivered.trans delivered, taken,
    watched, bound.trans_lt unexhausted⟩

theorem Quiet.following (reached : Reaches allowed reload after) (same : after.file = reload.file)
    {last : Reload} (quiet : Quiet allowed after last) : Quiet allowed reload last :=
  { quiet with reached := reached.trans quiet.reached, file := quiet.file.trans same }

theorem Live.quiet (live : Live allowed begun now reload)
    (unexhausted : reload.watchSet.generation + 2 < usizeMax) (alive : reload.stage ≠ .stopped)
    (known : reload.missed = false ∨ reload.hangup = true) :
    ∃ after, Quiet allowed reload after := by
  obtain ⟨events, delivered⟩ := @delivers allowed reload
  have arrived : Live allowed begun now { reload with undelivered := 0, events } :=
    ⟨live.working, live.reached.trans delivered, live.running⟩
  obtain ⟨middle, onward, waiting, bound⟩ := arrived.rests (Nat.lt_of_succ_lt unexhausted) alive
  have bounded : middle.watchSet.generation + 1 < usizeMax :=
    (Nat.succ_le_succ bound).trans_lt unexhausted
  have rested := delivered.trans onward.reached
  have further {next : Reload} (step : Step allowed middle next) (same : next.file = middle.file)
      (running : next.connected = middle.connected)
      (rest : Live allowed begun now next → ∃ after, Quiet allowed next after) :
      ∃ after, Quiet allowed reload after := by
    have reached := rested.tail step
    obtain ⟨after, quiet⟩ := rest ⟨live.working, live.reached.trans reached,
      running.trans (onward.connected.trans live.running)⟩
    exact ⟨after, quiet.following reached (same.trans onward.file)⟩
  cases ready : middle.events with
  | true =>
    exact further (.task (.notified waiting ready)) rfl rfl fun notified =>
      notified.quiet_coalescing bounded onward.undelivered rfl
  | false =>
    rcases known with watched | signalled
    · exact ⟨middle, rested, onward.file, waiting, onward.undelivered, ready,
        onward.missed watched, Nat.lt_of_succ_lt bounded⟩
    · have signalled : middle.hangup = true := onward.hangup.trans signalled
      exact further (.task (.signalled waiting signalled)) rfl rfl fun notified =>
        notified.quiet_coalescing bounded onward.undelivered rfl

end

end Reload

open Reload

namespace Sample

def file (watch : List WatchConfig) : ConfigFile := ⟨⟨.default, none⟩, watch⟩

def reloadBegun : Reload :=
  .start bootedStart ⟨.default, none⟩ (some (file watchSet.configured))

theorem reload_launched : Reload.launch (env 1 0) 1 0 (List.replicate 16 0)
    (some (file watchSet.configured)) = some reloadBegun := by
  have loaded : ConfigFile.load (some (file watchSet.configured)) =
      some (file watchSet.configured) := by decide
  unfold Reload.launch
  refine Option.bind_eq_some_iff.mpr ⟨_, loaded, ?_⟩
  exact Option.bind_eq_some_iff.mpr ⟨bootedStart, booted_started, rfl⟩

def edited : Reload :=
  { reloadBegun with
    stage := .waiting, file := some (file laterWatchSet.configured), undelivered := 1 }

theorem reaches_edited : Reload.Reaches (fun _ _ _ => True) reloadBegun edited :=
  have registered : Reload.Reaches (fun _ _ _ => True) reloadBegun
      { reloadBegun with stage := .waiting } := .single (.task (.register rfl))
  registered.tail (.outside (.write _ (by decide)))

def overlooked : Reload :=
  { reloadBegun with
    stage := .waiting, file := some (file laterWatchSet.configured), missed := true
    hangup := true }

end Sample

/-- In every state of a run the next request finds an empty queue and has the next generation. An
acknowledgement says what became of the request, and no other step touches the dictionary. The
stream has announced one dictionary for each generation, each from a file that was read and
accepted with the settings of the launch. -/
theorem reload_protocol {allowed : Publisher → Env → Input → Prop} {env : Env} {chainId : Nat}
    {genesisHash : B256} {bootId : Bytes} {contents : Option ConfigFile} {begun reload : Reload}
    (launched : launch env chainId genesisHash bootId contents = some begun)
    (reached : Reaches allowed begun reload)
    (unexhausted : reload.watchSet.generation < usizeMax) :
    (∀ watchSet, reload.stage = .requesting watchSet → reload.requestActivation ≠ .full ∧
      watchSet.generation = reload.watchSet.generation + 1) ∧
    (∀ watchSet, reload.stage = .awaiting watchSet →
      (reload.completion = .done true → reload.watchSet = watchSet) ∧
      (reload.completion = .done false →
        reload.watchSet.generation + 1 = watchSet.generation)) ∧
    (∀ after, Step allowed reload after → Acknowledged reload after) ∧
    reload.publisher.active = reload.watchSet ∧ reload.settings = begun.settings ∧
    reload.HasRead reload.watchSet.configured ∧
    reload.Announces (announcements reload.publisher.shared.frames) := by
  have sound := sound_reaches (sound_launch launched) reached unexhausted
  have consistent := sound.consistent
  refine ⟨fun watchSet requesting => ?_, fun watchSet awaiting => ?_,
    fun _ step => acknowledged_step sound.aligned consistent step, sound.aligned,
    settings_reaches reached, sound.read, sound.announced⟩
  · rw [requesting] at consistent
    obtain ⟨free, _, proposes⟩ := consistent
    refine ⟨?_, proposes.generation.trans free.next⟩
    unfold requestActivation
    rw [free.control]
    cases reload.connected <;> decide
  · rw [awaiting] at consistent
    obtain ⟨_, _, outstanding⟩ := consistent
    cases outstanding with
    | queued _ _ answer | taken _ _ answer | dropped _ _ answer => simp [answer]
    | activated _ _ answer installed => simp [answer, installed]
    | refused _ _ answer next => simp [answer, next]

namespace Sample

def asked : Reload :=
  { edited with
    undelivered := 0, reads := [edited.file, reloadBegun.file]
    stage := .awaiting laterWatchSet, held := some laterWatchSet, completion := .pending }

theorem reaches_asked : Reload.Reaches (fun _ _ _ => True) reloadBegun asked := by
  have notified := (reaches_edited.tail (.outside (.deliver (by decide)))).tail
    (.task (.notified rfl rfl))
  have read := ((notified.tail (.task (.coalesced rfl))).tail (.task (.drained rfl rfl))).tail
    (.task (.load rfl))
  have compared := read.tail (.task (@Advances.compare _ laterWatchSet.configured (by decide)))
  have requested := compared.tail (.task (@Advances.request _ laterWatchSet (by decide)))
  exact requested.tail (.thread (.take rfl rfl rfl))

def answered : Reload :=
  { asked with
    loop := ⟨(Publisher.activate (env 2 5) laterWatchSet bootedStart).2, .idle⟩
    held := none, completion := .done true }

theorem answers : Reload.Step (fun _ _ _ => True) asked answered :=
  .thread (.handle rfl trivial rfl (Publisher.handleControl_ok (by decide +kernel)))

end Sample

theorem reload_protocol_sample :
    Acknowledged Sample.asked Sample.answered ∧ Sample.answered.watchSet = Sample.laterWatchSet ∧
    announcements Sample.answered.publisher.shared.frames =
      [(2, configActivated Sample.laterWatchSet)] ∧
    Sample.answered.Announces [(2, configActivated Sample.laterWatchSet)] := by
  have announced : announcements Sample.answered.publisher.shared.frames =
      [(2, configActivated Sample.laterWatchSet)] := by decide +kernel
  obtain ⟨_, _, outcomes, _⟩ := reload_protocol Sample.reload_launched Sample.reaches_asked
    (by decide)
  obtain ⟨_, truthful, _, _, _, _, announces⟩ := reload_protocol Sample.reload_launched
    (Sample.reaches_asked.tail Sample.answers) (by decide +kernel)
  exact ⟨outcomes _ Sample.answers, (truthful _ rfl).1 rfl, announced, announced ▸ announces⟩

end Statefeed
