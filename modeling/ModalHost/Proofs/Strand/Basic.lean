import ModalHost.Host.State
import ModalHost.Host.Dispatch
import Mathlib.Data.Set.Basic
import Mathlib.Logic.Relation

/-! The strand of a prompt is the part of a host that the prompt can read or change. `Strand.Step`
lists all that can happen to it, once for every prompt. -/

namespace ModalHost

def Job.prompt? : Job → Option Nat
  | .publish i _ _ | .setPrompt i _ | .settle i _ | .offer i _ => some i
  | _ => none

/-- Whether an event belongs to the history of a prompt. Cancellations and the ends of callers
belong to the history of every prompt. -/
def Event.concerns (i : Nat) : Event → Bool
  | .issued j _ _ | .accepted j _ _ | .hookRan j _ _ => j == i
  | .cancelled _ | .ended (.caller _) _ _ => true
  | _ => false

def Scope.only (i : Nat) (s : Scope) : Scope :=
  { s with queue := s.queue.filter (·.prompt? == some i) }

def Reply.ending : Reply → Ending
  | .decided decision => .decided decision
  | .superseded => .superseded

def tell (callers : List Caller) (caller : Option Nat) (reply : Reply) : List Caller :=
  caller.elim callers fun c => callers.modify c fun caller => { caller with reply := some reply }

namespace Prompt

def unpark (p : Prompt) (request : Nat) : Prompt :=
  if (p.callerOf request).isSome then { p with parked := none } else p

/-- What a job that is about a prompt makes of it, unless the job has to wait. -/
def perform? (p : Prompt) (owned : Bool) : Job → Option Prompt
  | .publish _ request visuals => some (p.publish request visuals)
  | .setPrompt _ true => some p.appear
  | .setPrompt _ false => some p.vanish
  | .settle _ request => some (p.settle request)
  | .offer _ tap =>
    if !owned then some p
    else if p.mailbox.isSome then none
    else some { p with mailbox := some (p.answer tap) }
  | _ => some p

end Prompt

structure Strand where
  prompt : Option Prompt
  /-- All scopes, each with those of its jobs that are about the prompt. -/
  scopes : List Scope
  callers : List Caller
  /-- What happened to the prompt, the latest event first. -/
  log : List Event
  /-- What the overlays showed that were taken of the prompt and are still about. -/
  pictures : Set Picture
  /-- The request whose delivery goes on; its hook runs, and the prompt is not yet to be hidden. -/
  due : Option Nat

namespace Strand

def queued (σ : Strand) (scope : Nat) : List Job := (σ.scopes[scope]?.map (·.queue)).getD []

def isCancelled (σ : Strand) (scope : Nat) : Bool := σ.scopes[scope]?.any (·.cancelled)

def owned (σ : Strand) (i : Nat) (p : Prompt) : Bool :=
  p.handle || σ.callers.any fun c => c.prompt == i && !c.ended

def launch (σ : Strand) (scope : Nat) (job : Job) : Strand :=
  { σ with scopes := σ.scopes.modify scope (·.push job) }

/-- Hides a prompt that nobody waits on any more, unless its hooks are to take care of it. -/
def relinquish (σ : Strand) (i : Nat) (p : Prompt) : Strand :=
  if !p.hooks.isEmpty then { σ with prompt := some p }
  else if σ.isCancelled p.scope then { σ with prompt := some p.vanish }
  else { σ with prompt := some p }.launch p.scope (.setPrompt i false)

def withdraw (σ : Strand) (i : Nat) (p : Prompt) (request : Nat) : Strand :=
  if p.parked.any (·.request == request) then σ.relinquish i { p with parked := none } else σ

def conclude (σ : Strand) (c : Nat) (name : String) (ending : Ending) : Strand :=
  { σ with
    callers := σ.callers.modify c fun caller => { caller with ended := true }
    log := .ended (.caller c) name ending :: σ.log }

/-- The jobs that calls may queue for a prompt, apart from the publishing of a request. A tap is
stamped with the newest request, and comes through a responder that can be about. -/
inductive MayQueue (σ : Strand) (i : Nat) (p : Prompt) : Job → Prop
  | toggle (shown : Bool) : MayQueue σ i p (.setPrompt i shown)
  | tap (decision : Decision) (picture : Option Picture)
      (known : ∀ taken, picture = some taken → taken ∈ σ.pictures) :
      MayQueue σ i p (.offer i ⟨decision, picture, p.issued⟩)

/-- All that can happen to the strand of the prompt `i`. Of the jobs of the prompt only those run
that are `allowed`. -/
inductive Step (i : Nat) (allowed : Job → Prop) (σ : Strand) : Strand → Prop
  | opened (absent : σ.prompt = none) (scope : Nat) (s : Snapshot) (hooks : Hooks Call)
      (inside : scope < σ.scopes.length) :
      Step i allowed σ { σ with
        prompt := some (.restore scope s hooks)
        log := .issued i 0 s.visuals :: σ.log }
  | asked (p : Prompt) (present : σ.prompt = some p) (visuals : Visuals)
      (waiting : Option String) :
      Step i allowed σ ({ σ with
        prompt := some { p with
          issued := p.issued + 1
          parked := waiting.map fun _ => ⟨p.issued + 1, σ.callers.length⟩ }
        callers := tell
          (waiting.elim σ.callers fun name => σ.callers ++ [.new name i (p.issued + 1)])
          (p.parked.map (·.caller)) .superseded
        log := .issued i (p.issued + 1) visuals :: σ.log : Strand }.launch p.scope
          (.publish i (p.issued + 1) visuals))
  | withdrawn (p : Prompt) (present : σ.prompt = some p) (c : Nat) (caller : Caller)
      (found : σ.callers[c]? = some caller) (own : caller.prompt = i)
      (waits : caller.ended = false) (ending : Ending)
      (cause : ending = .abandoned ∨ ending = .cancelled ∧ σ.isCancelled p.scope = true) :
      Step i allowed σ ((σ.withdraw i p caller.request).conclude c caller.name ending)
  | resumed (p : Prompt) (present : σ.prompt = some p) (c : Nat) (caller : Caller)
      (found : σ.callers[c]? = some caller) (own : caller.prompt = i)
      (waits : caller.ended = false) (reply : Reply) (told : caller.reply = some reply)
      (live : σ.isCancelled p.scope = false) :
      Step i allowed σ (σ.conclude c caller.name reply.ending)
  | queued (p : Prompt) (present : σ.prompt = some p) (job : Job) (may : σ.MayQueue i p job) :
      Step i allowed σ (σ.launch p.scope job)
  | tended (p : Prompt) (present : σ.prompt = some p) (hooks : Hooks Call) (handle : Bool) :
      Step i allowed σ { σ with prompt := some { p with hooks, handle } }
  | cancelled (root : Nat) :
      Step i allowed σ { σ with
        scopes := σ.scopes.map (·.cancelBy root)
        log := .cancelled root :: σ.log }
  | branched (above : Option Scope) (known : ∀ s, above = some s → s ∈ σ.scopes) :
      Step i allowed σ { σ with
        scopes := σ.scopes ++ [⟨σ.scopes.length :: (above.map (·.lineage)).getD [],
          above.any (·.cancelled), []⟩] }
  | ran (idle : σ.due = none) (p : Prompt) (present : σ.prompt = some p) (lineage : List Nat)
      (job : Job) (jobs : List Job)
      (front : σ.scopes[p.scope]? = some ⟨lineage, false, job :: jobs⟩)
      (permitted : allowed job) (next : Prompt) (done : p.perform? (σ.owned i p) job = some next) :
      Step i allowed σ { σ with
        prompt := some next
        scopes := σ.scopes.modify p.scope fun s => { s with queue := jobs } }
  | refused (idle : σ.due = none) (p : Prompt) (present : σ.prompt = some p) (a : Answer)
      (full : p.mailbox = some a)
      (cause : p.accepts a = false ∨ σ.isCancelled p.scope = true) :
      Step i allowed σ { σ with prompt := some { p with mailbox := none } }
  | accepted (idle : σ.due = none) (p : Prompt) (present : σ.prompt = some p) (a : Answer)
      (full : p.mailbox = some a) (counts : p.accepts a = true) (owned : σ.owned i p = true) :
      Step i allowed σ { σ with
        prompt := some ({ p with mailbox := none, phase := .resolving }.unpark a.request)
        callers := tell σ.callers (p.callerOf a.request) (.decided a.tap.decision)
        log := ((p.hooks.on a.tap.decision).map
            fun _ => Event.hookRan i p.hooks.tag a.tap.decision).toList ++
          .accepted i a (p.callerOf a.request) :: σ.log
        due := some a.request }
  | settled (p : Prompt) (present : σ.prompt = some p) (request : Nat)
      (owed : σ.due = some request) :
      Step i allowed σ ({ σ with due := none }.launch p.scope (.settle i request))
  | pictured (pictures : Set Picture)
      (taken : ∀ picture ∈ pictures, picture ∈ σ.pictures ∨
        ∃ p, σ.prompt = some p ∧ p.overlay = some picture) :
      Step i allowed σ { σ with pictures }
  | elsewhere (callers : List Caller) (events : List Event)
      (kept : ∀ (c : Nat) (caller : Caller), caller.prompt = i →
        (callers[c]? = some caller ↔ σ.callers[c]? = some caller))
      (grown : σ.callers.length ≤ callers.length)
      (foreign : ∀ e ∈ events, ∃ c caller name ending, callers[c]? = some caller ∧
        caller.prompt ≠ i ∧ e = .ended (.caller c) name ending) :
      Step i allowed σ { σ with callers, log := events ++ σ.log }

theorem Step.weaken {i : Nat} {allowed wider : Job → Prop} {σ τ : Strand}
    (step : Step i allowed σ τ) (more : ∀ job, allowed job → wider job) : Step i wider σ τ := by
  cases step with
  | opened absent scope s hooks inside => exact .opened absent scope s hooks inside
  | asked p present visuals waiting => exact .asked p present visuals waiting
  | withdrawn p present c caller found own waits ending cause =>
      exact .withdrawn p present c caller found own waits ending cause
  | resumed p present c caller found own waits reply told live =>
      exact .resumed p present c caller found own waits reply told live
  | queued p present job may => exact .queued p present job may
  | tended p present hooks handle => exact .tended p present hooks handle
  | cancelled root => exact .cancelled root
  | branched above known => exact .branched above known
  | ran idle p present lineage job jobs front permitted next done =>
      exact .ran idle p present lineage job jobs front (more job permitted) next done
  | refused idle p present a full cause => exact .refused idle p present a full cause
  | accepted idle p present a full counts owned => exact .accepted idle p present a full counts owned
  | settled p present request owed => exact .settled p present request owed
  | pictured pictures taken => exact .pictured pictures taken
  | elsewhere callers events kept grown foreign =>
      exact .elsewhere callers events kept grown foreign

def Path (i : Nat) (allowed : Job → Prop) : Strand → Strand → Prop :=
  Relation.ReflTransGen (Step i allowed)

def blank : Strand := ⟨none, [⟨[0], false, []⟩], [], [], ∅, none⟩

def Reachable (i : Nat) (σ : Strand) : Prop := Path i (fun _ => True) blank σ

theorem Reachable.step {i : Nat} {allowed : Job → Prop} {σ τ : Strand}
    (reachable : Reachable i σ) (step : Step i allowed σ τ) : Reachable i τ :=
  reachable.tail (step.weaken fun _ _ => trivial)

theorem Path.reachable {i : Nat} {allowed : Job → Prop} {σ τ : Strand} (path : Path i allowed σ τ)
    (reachable : Reachable i σ) : Reachable i τ := by
  induction path with
  | refl => exact reachable
  | tail _ step ih => exact ih.step step

end Strand

namespace Host

/-- What the overlays showed that were taken of a prompt and are kept in a responder or drawn. -/
def pictures (h : Host) (i : Nat) : Set Picture :=
  { picture | (∃ name, (name, ⟨i, some picture⟩) ∈ h.names.responders) ∨
    (.prompt i, .prompt picture) ∈ h.followers.map fun f => (f.source, f.frame) }

/-- The strand of a prompt, while the delivery of `due` goes on. -/
def strand (h : Host) (i : Nat) (due : Option Nat) : Strand where
  prompt := h.prompts[i]?
  scopes := h.scopes.map (Scope.only i)
  callers := h.callers
  log := h.history.filter (Event.concerns i)
  pictures := h.pictures i
  due

end Host

end ModalHost
