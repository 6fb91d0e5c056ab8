import ModalHost.Host.State
import ModalHost.Proofs.Queues
import Mathlib.Logic.Relation

/-! The ledger of a host is what its loading dialogs and their works can read or change, with where
scopes, dialogs and names point. `Ledger.Step` lists all that can happen to it. -/

namespace ModalHost

/-- What a call on a loading dialog does to its count. A call is one level of a work. -/
inductive Passage
  | enter
  | leave
  deriving DecidableEq, Repr

namespace Job

/-- The loading dialog that a job is about. -/
def loading? : Job → Option Nat
  | .setLoading i _ | .enter i _ _ | .leave i _ _ _ => some i
  | _ => none

/-- The call that a job enters or leaves, as a work and a level. -/
def passage? : Job → Option ((Nat × Nat) × Passage)
  | .enter _ w level => some ((w, level), .enter)
  | .leave _ w level _ => some ((w, level), .leave)
  | _ => none

def counted (job : Job) : Bool := job.loading?.isSome

end Job

namespace Event

def passage? : Event → Option ((Nat × Nat) × Passage)
  | .entered w level => some ((w, level), .enter)
  | .left w level => some ((w, level), .leave)
  | _ => none

def counted (e : Event) : Bool := e.passage?.isSome

end Event

namespace Work

def entered (level : Nat) (work : Work) : Work :=
  if work.stage = .entering level false then { work with stage := .entering level true } else work

def left (level : Nat) (work : Work) : Work :=
  if work.stage = .leaving level false then { work with stage := .leaving level true } else work

def leaves (loading w : Nat) : Nat → List Job
  | 0 => []
  | level + 1 => .leave loading w (level + 1) false :: leaves loading w level

/-- How the work number `w` starts: where it is then, and what it queues. -/
inductive Starts (w loading depth : Nat) : Stage → List Job → Prop
  | bare (none : depth = 0) : Starts w loading depth .inside []
  | wrapped (some : 0 < depth) :
      Starts w loading depth (.entering 1 false) [.enter loading w 1]

inductive Proceeds (work : Work) (w : Nat) (cancelled : Bool) : Stage → List Job → Prop
  | deeper (level : Nat) (done : Bool) (stage : work.stage = .entering level done)
      (through : done = true ∨ cancelled = true) (room : level < work.depth) :
      Proceeds work w cancelled (.entering (level + 1) false)
        [.enter work.loading w (level + 1)]
  | begun (level : Nat) (done : Bool) (stage : work.stage = .entering level done)
      (through : done = true ∨ cancelled = true) (full : work.depth ≤ level) :
      Proceeds work w cancelled .inside []
  | outward (level : Nat) (text : String) (given : work.outcome = some (.value text))
      (stage : work.stage = .inside ∧ level + 1 = work.depth ∨
        ∃ done, work.stage = .leaving (level + 2) done ∧ (done = true ∨ cancelled = true)) :
      Proceeds work w cancelled (.leaving (level + 1) false)
        [.leave work.loading w (level + 1) true]
  | returned (text : String) (given : work.outcome = some (.value text))
      (stage : work.stage = .inside ∧ work.depth = 0 ∨
        ∃ level done, level ≤ 1 ∧ work.stage = .leaving level done ∧
          (done = true ∨ cancelled = true)) :
      Proceeds work w cancelled .ended []
  | dropped (waits : work.stage ≠ .ended) :
      Proceeds work w cancelled .ended (leaves work.loading w work.armed)

end Work

structure Ledger where
  loadings : List Loading
  works : List Work
  /-- All scopes, each with those of its jobs that are about loading dialogs. -/
  scopes : List Scope
  /-- The enters and leaves that have run, the latest first. -/
  log : List Event
  /-- The scopes of the prompts. -/
  homes : List Nat
  /-- The scopes that names stand for. -/
  scopeNames : List Nat
  /-- The loading dialogs that names stand for. -/
  loadingNames : List Nat

namespace Ledger

def queued (γ : Ledger) (scope : Nat) : List Job := queueAt γ.scopes scope

def isCancelled (γ : Ledger) (scope : Nat) : Bool := cancelledAt γ.scopes scope

def launches (γ : Ledger) (scope : Nat) (jobs : List Job) : Ledger :=
  { γ with scopes := pushAll γ.scopes scope jobs }

def setStage (γ : Ledger) (w : Nat) (stage : Stage) : Ledger :=
  { γ with works := γ.works.modify w fun work => { work with stage } }

def perform (γ : Ledger) : Job → Ledger
  | .setLoading i shown => { γ with loadings := γ.loadings.modify i (·.setShown shown) }
  | .enter i w level =>
    { γ with
      loadings := γ.loadings.modify i (·.enter)
      works := γ.works.modify w (·.entered level)
      log := .entered w level :: γ.log }
  | .leave i w level awaited =>
    { γ with
      loadings := γ.loadings.modify i (·.leave)
      works := if awaited then γ.works.modify w (·.left level) else γ.works
      log := .left w level :: γ.log }
  | _ => γ

inductive Step (allowed : Job → Prop) (γ : Ledger) : Ledger → Prop
  | started (loading : Nat) (l : Loading) (found : γ.loadings[loading]? = some l) (name : String)
      (depth : Nat) (outcome : Option Outcome) (stage : Stage) (jobs : List Job)
      (how : Work.Starts γ.works.length loading depth stage jobs) :
      Step allowed γ ({ γ with
        works := γ.works ++ [⟨name, loading, depth, stage, outcome⟩] : Ledger }.launches l.scope
          jobs)
  | proceeded (w : Nat) (work : Work) (there : γ.works[w]? = some work) (l : Loading)
      (found : γ.loadings[work.loading]? = some l) (stage : Stage) (jobs : List Job)
      (how : work.Proceeds w (γ.isCancelled l.scope) stage jobs) :
      Step allowed γ ((γ.launches l.scope jobs).setStage w stage)
  | given (w : Nat) (work : Work) (there : γ.works[w]? = some work)
      (can : work.canFinish = true) (outcome : Outcome) :
      Step allowed γ { γ with
        works := γ.works.modify w fun work => { work with outcome := some outcome } }
  | toggled (i : Nat) (l : Loading) (found : γ.loadings[i]? = some l) (shown : Bool) :
      Step allowed γ (γ.launches l.scope [.setLoading i shown])
  | cancelled (root : Nat) :
      Step allowed γ { γ with scopes := γ.scopes.map (·.cancelBy root) }
  | branched (lineage : List Nat) (cancelled : Bool) :
      Step allowed γ { γ with scopes := γ.scopes ++ [⟨lineage, cancelled, []⟩] }
  | opened (scope : Nat) (inside : scope < γ.scopes.length) :
      Step allowed γ { γ with loadings := γ.loadings ++ [.new scope] }
  | housed (scope : Nat) (inside : scope < γ.scopes.length) :
      Step allowed γ { γ with homes := γ.homes ++ [scope] }
  | tended (i : Nat) (handle : Bool) :
      Step allowed γ { γ with loadings := γ.loadings.modify i fun l => { l with handle } }
  | renamed (scopeNames loadingNames : List Nat)
      (scopes : ∀ s ∈ scopeNames, s ∈ γ.scopeNames ∨ s < γ.scopes.length)
      (loadings : ∀ i ∈ loadingNames, i ∈ γ.loadingNames ∨ i < γ.loadings.length) :
      Step allowed γ { γ with scopeNames, loadingNames }
  | ran (scope : Nat) (lineage : List Nat) (job : Job) (jobs : List Job)
      (front : γ.scopes[scope]? = some ⟨lineage, false, job :: jobs⟩) (permitted : allowed job) :
      Step allowed γ ({ γ with
        scopes := γ.scopes.modify scope fun s => { s with queue := jobs } : Ledger }.perform job)

theorem Step.weaken {allowed wider : Job → Prop} {γ δ : Ledger} (step : Step allowed γ δ)
    (more : ∀ job, allowed job → wider job) : Step wider γ δ := by
  cases step with
  | started loading l found name depth outcome stage jobs how =>
      exact .started loading l found name depth outcome stage jobs how
  | proceeded w work there l found stage jobs how =>
      exact .proceeded w work there l found stage jobs how
  | given w work there can outcome => exact .given w work there can outcome
  | toggled i l found shown => exact .toggled i l found shown
  | cancelled root => exact .cancelled root
  | branched lineage cancelled => exact .branched lineage cancelled
  | opened scope inside => exact .opened scope inside
  | housed scope inside => exact .housed scope inside
  | tended i handle => exact .tended i handle
  | renamed scopeNames loadingNames scopes loadings =>
      exact .renamed scopeNames loadingNames scopes loadings
  | ran scope lineage job jobs front permitted =>
      exact .ran scope lineage job jobs front (more job permitted)

def Path (allowed : Job → Prop) : Ledger → Ledger → Prop :=
  Relation.ReflTransGen (Step allowed)

def blank : Ledger := ⟨[], [], [⟨[0], false, []⟩], [], [], [0], []⟩

def Reachable (γ : Ledger) : Prop := Path (fun _ => True) blank γ

theorem Reachable.step {allowed : Job → Prop} {γ δ : Ledger} (reachable : γ.Reachable)
    (step : Step allowed γ δ) : δ.Reachable :=
  reachable.tail (step.weaken fun _ _ => trivial)

theorem Reachable.path {allowed : Job → Prop} {γ δ : Ledger} (reachable : γ.Reachable)
    (path : Path allowed γ δ) : δ.Reachable := by
  induction path with
  | refl => exact reachable
  | tail _ step ih => exact ih.step step

end Ledger

namespace Host

def loadingIndex : DialogRef → Option Nat
  | .loading i => some i
  | _ => none

def ledger (h : Host) : Ledger where
  loadings := h.loadings
  works := h.works
  scopes := h.scopes.map (·.sift Job.counted)
  log := h.history.filter Event.counted
  homes := h.prompts.map (·.scope)
  scopeNames := h.names.scopes.map (·.2)
  loadingNames := (h.names.dialogs.map (·.2)).filterMap loadingIndex

end Host

end ModalHost
