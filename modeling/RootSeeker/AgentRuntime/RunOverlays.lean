import RootSeeker.Core.Transition
import RootSeeker.McpPlane.ServerManager
import RootSeeker.Python.Repr

/-!
# Overlays of concurrent runs

Every run saves the manager's extra environment and provider, lays the secrets
of its playbook over the environment, invokes tools, and at the end clears the
overlay and restores what it saved.  What it saved is the base under whatever
overlay was in force, so the overlay of another run can come back as the base.
-/

namespace RootSeeker.AgentRuntime

open Python Contracts McpPlane Transition

/-- How far `run_once` has come, with what it saved. -/
inductive RunPhase where
  | notStarted
  | envRead (previousExtra : Environment)
  | providerRead (previousExtra : Environment) (previousProvider : Option EnvProvider)
  | overlaid (previousExtra : Environment) (previousProvider : Option EnvProvider)
  | cleared (previousExtra : Environment) (previousProvider : Option EnvProvider)
  | envRestored (previousProvider : Option EnvProvider)
  | finished

namespace RunPhase

def previousExtra : RunPhase → Option Environment
  | envRead extra | providerRead extra _ | overlaid extra _ | cleared extra _ => some extra
  | _ => none

def previousProvider : RunPhase → Option (Option EnvProvider)
  | providerRead _ provider | overlaid _ provider | cleared _ provider
  | envRestored provider => some provider
  | _ => none

def isOverlaid : RunPhase → Bool
  | overlaid _ _ => true
  | _ => false

/-- No operation of the run is under way. -/
def isDone : RunPhase → Bool
  | notStarted | finished => true
  | _ => false

end RunPhase

/-- The operations of a run on the manager. -/
inductive RunOp where
  | readExtraEnv
  | readProvider
  | setRunEnvOverlay
  | invoke (serverId : PyStr)
  | clearOverlay
  | restoreExtraEnv
  | restoreProvider
  deriving DecidableEq

/-- The manager and the runs that share it. -/
structure SharedRuns (ι : Type*) where
  manager : McpServerManager
  phase : ι → RunPhase

namespace SharedRuns

variable {ι : Type*} [DecidableEq ι]

def start (manager : McpServerManager) : SharedRuns ι where
  manager := manager
  phase _ := .notStarted

def move (state : SharedRuns ι) (run : ι) (phase : RunPhase)
    (manager : McpServerManager) : SharedRuns ι where
  manager := manager
  phase := Function.update state.phase run phase

/-- One operation of one run.  A run whose environment cannot be resolved clears the
overlay without having set one. -/
def step (std : Stdlib) (connect : McpServer → Environment → Except PyError Unit)
    (overlays : ι → Environment) (state : SharedRuns ι) (label : ι × RunOp) :
    Option (SharedRuns ι) :=
  let manager := state.manager
  let run := label.1
  match label.2, state.phase run with
  | .readExtraEnv, .notStarted =>
    some (state.move run (.envRead manager.effectiveEnv) manager.refresh)
  | .readProvider, .envRead extra =>
    some (state.move run (.providerRead extra manager.extraEnvProvider) manager)
  | .setRunEnvOverlay, .providerRead extra provider =>
    some (state.move run (.overlaid extra provider)
      (manager.setRunEnvOverlay (overlays run)))
  | .invoke serverId, .overlaid extra provider =>
    some (state.move run (.overlaid extra provider)
      (manager.invoke std connect serverId).2)
  | .clearOverlay, .providerRead extra provider =>
    some (state.move run (.cleared extra provider) (manager.setRunEnvOverlay []))
  | .clearOverlay, .overlaid extra provider =>
    some (state.move run (.cleared extra provider) (manager.setRunEnvOverlay []))
  | .restoreExtraEnv, .cleared extra provider =>
    some (state.move run (.envRestored provider) (manager.setExtraEnv extra))
  | .restoreProvider, .envRestored provider =>
    some (state.move run .finished (manager.setExtraEnvProvider provider))
  | _, _ => none

end SharedRuns

variable {ι : Type*} [DecidableEq ι]

/-- The interleavings of the runs. -/
abbrev Interleaves (std : Stdlib) (connect : McpServer → Environment → Except PyError Unit)
    (overlays : ι → Environment) (start : SharedRuns ι)
    (trace : Trace (SharedRuns ι) (ι × RunOp)) : Prop :=
  Follows (fun state label next =>
    SharedRuns.step std connect overlays state label = some next) start trace

/-- A run saves the environment while an overlay in force adds nothing to it, or while
a provider answers. -/
def SavesBase (state : SharedRuns ι) (label : ι × RunOp) : Prop :=
  label.2 = .readExtraEnv →
    state.manager.answer ≠ none ∨
      Dict.update state.manager.extraEnv state.manager.runEnvOverlay =
        state.manager.extraEnv

omit [DecidableEq ι] in
instance (state : SharedRuns ι) (label : ι × RunOp) : Decidable (SavesBase state label) :=
  inferInstanceAs (Decidable (_ → _ ∨ _))

/-- The effective environment is the one before, without the keys that only one run's
overlay has. -/
structure NothingLeaked (overlays : ι → Environment) (before after : McpServerManager) :
    Prop where
  restored : after.effectiveEnv = before.effectiveEnv
  noForeignKey : ∀ run key, key ∈ (overlays run).keys →
    (∀ other ≠ run, key ∉ (overlays other).keys) → key ∉ before.effectiveEnv.keys →
      key ∉ after.effectiveEnv.keys

/-! ## What every operation keeps -/

/-- What a run saved is what the manager started with; only the base is of no interest
while a provider answers. -/
structure RunPhase.Saved (before : McpServerManager) (phase : RunPhase) : Prop where
  extra : ∀ env ∈ phase.previousExtra, before.answer = none → env = before.extraEnv
  provider : ∀ provider ∈ phase.previousProvider, provider = before.extraEnvProvider

structure Contained (before : McpServerManager) (state : SharedRuns ι) : Prop where
  provider : state.manager.extraEnvProvider = before.extraEnvProvider
  base : before.answer = none → state.manager.extraEnv = before.extraEnv
  overlay : state.manager.runEnvOverlay = [] ∨ ∃ run, (state.phase run).isOverlaid = true
  saved : ∀ run, (state.phase run).Saved before

section Invariant

variable {std : Stdlib} {connect : McpServer → Environment → Except PyError Unit}
  {overlays : ι → Environment} {before : McpServerManager} {state next : SharedRuns ι}
  {run : ι}

omit [DecidableEq ι] in
theorem Contained.answer (hinv : Contained before state) :
    state.manager.answer = before.answer := by
  rw [McpServerManager.answer, McpServerManager.answer, hinv.provider]

theorem Contained.move (hinv : Contained before state) {phase : RunPhase}
    {manager : McpServerManager} (hprovider : manager.extraEnvProvider = before.extraEnvProvider)
    (hbase : before.answer = none → manager.extraEnv = before.extraEnv)
    (hoverlay : manager.runEnvOverlay = [] ∨ phase.isOverlaid = true ∨
      manager.runEnvOverlay = state.manager.runEnvOverlay ∧
        (state.phase run).isOverlaid = false) (hsaved : phase.Saved before) :
    Contained before (state.move run phase manager) where
  provider := hprovider
  base := hbase
  overlay := by
    rcases hoverlay with hempty | hphase | ⟨hsame, hother⟩
    · exact Or.inl hempty
    · exact Or.inr ⟨run, by simpa [SharedRuns.move] using hphase⟩
    · apply hinv.overlay.imp
      · exact hsame.trans
      · rintro ⟨owner, howner⟩
        have hne : owner ≠ run := by
          rintro rfl
          exact absurd (howner.symm.trans hother) (by decide)
        exact ⟨owner, by simpa [SharedRuns.move, hne] using howner⟩
  saved := by
    intro other
    by_cases hother : other = run
    · subst other
      simpa [SharedRuns.move] using hsaved
    · simpa [SharedRuns.move, hother] using hinv.saved other

omit [DecidableEq ι] in
/-- Refreshing keeps the base where no provider answers. -/
theorem Contained.refresh_base (hinv : Contained before state) (hanswer : before.answer = none) :
    state.manager.refresh.extraEnv = before.extraEnv := by
  rw [state.manager.refresh_of_no_answer (hinv.answer.trans hanswer)]
  exact hinv.base hanswer

theorem contained_step {label : ι × RunOp} (hinv : Contained before state)
    (hguard : SavesBase state label)
    (hstep : SharedRuns.step std connect overlays state label = some next) :
    Contained before next := by
  obtain ⟨run, op⟩ := label
  have hsaved := hinv.saved run
  simp only [SharedRuns.step] at hstep
  split at hstep
  case h_1 _ _ hphase =>
    -- the environment is saved: this is where another run's overlay could slip in
    obtain rfl := Option.some.inj hstep
    apply hinv.move
    · rw [McpServerManager.refresh_extraEnvProvider, hinv.provider]
    · exact hinv.refresh_base
    · exact Or.inr (Or.inr ⟨McpServerManager.refresh_runEnvOverlay _, by rw [hphase]; rfl⟩)
    · constructor
      · intro env henv hanswer
        obtain rfl := Option.some.inj henv
        have hnone := hinv.answer.trans hanswer
        have hclean := (hguard rfl).resolve_left (not_not_intro hnone)
        calc
          state.manager.effectiveEnv =
              Dict.update state.manager.extraEnv state.manager.runEnvOverlay := by
            rw [McpServerManager.effectiveEnv, McpServerManager.refreshExtraEnvLocked,
              McpServerManager.base, hnone]
            rfl
          _ = state.manager.extraEnv := hclean
          _ = before.extraEnv := hinv.base hanswer
      · intro provider hprovider
        exact absurd hprovider (by simp [RunPhase.previousProvider])
  case h_2 _ _ extra hphase =>
    obtain rfl := Option.some.inj hstep
    rw [hphase] at hsaved
    apply hinv.move hinv.provider hinv.base
    · exact Or.inr (Or.inr ⟨rfl, by rw [hphase]; rfl⟩)
    · constructor
      · exact hsaved.extra
      · intro provider hprovider
        exact (Option.some.inj hprovider).symm.trans hinv.provider
  case h_3 _ _ extra provider hphase =>
    obtain rfl := Option.some.inj hstep
    rw [hphase] at hsaved
    exact hinv.move hinv.provider hinv.base (Or.inr (Or.inl rfl)) ⟨hsaved.extra, hsaved.provider⟩
  case h_4 _ _ serverId extra provider hphase =>
    obtain rfl := Option.some.inj hstep
    rw [hphase] at hsaved
    obtain ⟨sessions, hsessions⟩ := state.manager.invoke_frame std connect serverId
    rw [hsessions]
    apply hinv.move
    · exact (McpServerManager.refresh_extraEnvProvider _).trans hinv.provider
    · exact hinv.refresh_base
    · exact Or.inr (Or.inl rfl)
    · exact ⟨hsaved.extra, hsaved.provider⟩
  case h_5 _ _ extra provider hphase =>
    obtain rfl := Option.some.inj hstep
    rw [hphase] at hsaved
    exact hinv.move hinv.provider hinv.base (Or.inl rfl) ⟨hsaved.extra, hsaved.provider⟩
  case h_6 _ _ extra provider hphase =>
    obtain rfl := Option.some.inj hstep
    rw [hphase] at hsaved
    exact hinv.move hinv.provider hinv.base (Or.inl rfl) ⟨hsaved.extra, hsaved.provider⟩
  case h_7 _ _ extra provider hphase =>
    obtain rfl := Option.some.inj hstep
    rw [hphase] at hsaved
    apply hinv.move
    · exact hinv.provider
    · exact hsaved.extra extra rfl
    · exact Or.inr (Or.inr ⟨rfl, by rw [hphase]; rfl⟩)
    · exact ⟨by simp [RunPhase.previousExtra], hsaved.provider⟩
  case h_8 _ _ provider hphase =>
    obtain rfl := Option.some.inj hstep
    rw [hphase] at hsaved
    apply hinv.move
    · exact hsaved.provider provider rfl
    · exact hinv.base
    · exact Or.inr (Or.inr ⟨rfl, by rw [hphase]; rfl⟩)
    · exact ⟨by simp [RunPhase.previousExtra], by simp [RunPhase.previousProvider]⟩
  case h_9 => exact absurd hstep (by simp)

end Invariant

/-- If every run saves the environment while no other overlay shows through, then once
all runs are done the environment is the one before. -/
theorem overlays_do_not_leak {std : Stdlib}
    {connect : McpServer → Environment → Except PyError Unit} {overlays : ι → Environment}
    {before : McpServerManager} (hclean : before.runEnvOverlay = [])
    {trace : Trace (SharedRuns ι) (ι × RunOp)}
    (hruns : Interleaves std connect overlays (SharedRuns.start before) trace)
    (hsaves : Guarded SavesBase (SharedRuns.start before) trace)
    (hdone : ∀ run, ((last (SharedRuns.start before) trace).phase run).isDone = true) :
    NothingLeaked overlays before (last (SharedRuns.start before) trace).manager := by
  have hstart : Contained before (SharedRuns.start before : SharedRuns ι) := by
    constructor
    · rfl
    · exact fun _ => rfl
    · exact Or.inl hclean
    · exact fun _ => ⟨by simp [SharedRuns.start, RunPhase.previousExtra],
        by simp [SharedRuns.start, RunPhase.previousProvider]⟩
  have hend := (invariant_of_guarded hruns hsaves hstart
    fun _ _ _ hinv hguard => contained_step hinv hguard).2
  generalize last (SharedRuns.start before) trace = final at hend hdone
  have hoverlay : final.manager.runEnvOverlay = [] := by
    apply hend.overlay.resolve_right
    rintro ⟨run, hrun⟩
    have hfinished := hdone run
    cases hphase : final.phase run <;> rw [hphase] at hrun hfinished <;>
      simp [RunPhase.isOverlaid, RunPhase.isDone] at hrun hfinished
  have hbase : final.manager.base = before.base := by
    rw [McpServerManager.base, McpServerManager.base, hend.answer]
    cases hanswer : before.answer with
    | none => exact hend.base hanswer
    | some loaded => rfl
  have hrestored : final.manager.effectiveEnv = before.effectiveEnv := by
    rw [McpServerManager.effectiveEnv, McpServerManager.effectiveEnv,
      McpServerManager.refreshExtraEnvLocked, McpServerManager.refreshExtraEnvLocked,
      hoverlay, hclean, hbase]
  exact ⟨hrestored, fun _ _ _ _ hforeign => hrestored ▸ hforeign⟩

/-! ## Two runs of one manager -/

def anyConnection : McpServer → Environment → Except PyError Unit :=
  fun _ _ => .ok ()

/-- The run `false` brings a secret, the run `true` nothing. -/
def secretOverlays : Bool → Environment
  | false => [(py "TOKEN", py "secret")]
  | true => []

def emptyManager : McpServerManager :=
  newManager [] none []

/-- The trace of operations on a manager without an environment of its own. -/
def secretTrace (labels : List (Bool × RunOp)) : Trace (SharedRuns Bool) (Bool × RunOp) :=
  (record (SharedRuns.step asciiStdlib anyConnection secretOverlays)
    (SharedRuns.start emptyManager) labels).getD []

theorem interleaves_secretTrace {labels : List (Bool × RunOp)}
    (hdefined : (record (SharedRuns.step asciiStdlib anyConnection secretOverlays)
      (SharedRuns.start emptyManager) labels).isSome = true) :
    Interleaves asciiStdlib anyConnection secretOverlays (SharedRuns.start emptyManager)
      (secretTrace labels) := by
  obtain ⟨trace, htrace⟩ := Option.isSome_iff_exists.mp hdefined
  rw [secretTrace, htrace]
  exact follows_of_record htrace

/-- Both runs save the environment before either of them changes it. -/
def savedFirst : List (Bool × RunOp) :=
  [(false, .readExtraEnv), (true, .readExtraEnv), (false, .readProvider),
    (true, .readProvider), (false, .setRunEnvOverlay), (true, .setRunEnvOverlay),
    (false, .clearOverlay), (false, .restoreExtraEnv), (true, .clearOverlay),
    (false, .restoreProvider), (true, .restoreExtraEnv), (true, .restoreProvider)]

theorem savedFirst_does_not_leak :
    NothingLeaked secretOverlays emptyManager
      (last (SharedRuns.start emptyManager) (secretTrace savedFirst)).manager := by
  apply overlays_do_not_leak rfl (interleaves_secretTrace (by decide))
  · decide
  · decide

/-- The second run saves the environment under the overlay of the first. -/
def savedBetween : List (Bool × RunOp) :=
  [(false, .readExtraEnv), (false, .readProvider), (false, .setRunEnvOverlay),
    (true, .readExtraEnv), (true, .readProvider), (true, .setRunEnvOverlay),
    (false, .clearOverlay), (false, .restoreExtraEnv), (false, .restoreProvider),
    (true, .clearOverlay), (true, .restoreExtraEnv), (true, .restoreProvider)]

theorem savedBetween_leaks :
    Interleaves asciiStdlib anyConnection secretOverlays (SharedRuns.start emptyManager)
        (secretTrace savedBetween) ∧
      (∀ run, ((last (SharedRuns.start emptyManager)
        (secretTrace savedBetween)).phase run).isDone = true) ∧
      ¬NothingLeaked secretOverlays emptyManager
        (last (SharedRuns.start emptyManager) (secretTrace savedBetween)).manager := by
  refine ⟨interleaves_secretTrace (by decide), by decide, ?_⟩
  intro hclean
  exact absurd hclean.restored (by decide)

end RootSeeker.AgentRuntime
