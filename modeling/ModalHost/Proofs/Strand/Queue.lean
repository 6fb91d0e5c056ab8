import ModalHost.Proofs.Queues
import ModalHost.Proofs.Strand.Basic

/-! What launches, dispatches and cancellations make of the queues of a strand, what the jobs of a
prompt make of it, and where the callers come from. -/

namespace ModalHost

theorem getElem?_tell (callers : List Caller) (told : Option Nat) (reply : Reply) (c : Nat) :
    (tell callers told reply)[c]? = callers[c]?.map fun caller =>
      if told = some c then { caller with reply := some reply } else caller := by
  cases told with
  | none => simp [tell]
  | some d =>
      by_cases same : d = c
      · subst same
        simp [tell]
      · simp [tell, same]

@[simp] theorem length_tell (callers : List Caller) (told : Option Nat) (reply : Reply) :
    (tell callers told reply).length = callers.length := by
  cases told <;> simp [tell]

theorem tell_origin (callers : List Caller) (told : Option Nat) (reply : Reply) (c : Nat)
    (now : Caller) (there : (tell callers told reply)[c]? = some now) :
    ∃ former, callers[c]? = some former ∧ former.prompt = now.prompt ∧
      former.request = now.request ∧ former.ended = now.ended ∧
      (told = some c ∧ now.reply = some reply ∨ told ≠ some c ∧ now.reply = former.reply) := by
  rw [getElem?_tell, Option.map_eq_some_iff] at there
  rcases there with ⟨former, before, rfl⟩
  refine ⟨former, before, ?_⟩
  by_cases same : told = some c
  · simp [same]
  · simp [same]

theorem asked_origin (callers : List Caller) (waiting : Option String) (i request : Nat)
    (told : Option Nat) (reply : Reply) (c : Nat) (now : Caller)
    (there : (tell (waiting.elim callers fun name => callers ++ [.new name i request]) told
      reply)[c]? = some now) :
    (∃ former, callers[c]? = some former ∧ former.prompt = now.prompt ∧
        former.request = now.request ∧ former.ended = now.ended ∧
        (told = some c ∧ now.reply = some reply ∨ told ≠ some c ∧ now.reply = former.reply)) ∨
      (c = callers.length ∧ waiting.isSome = true ∧ now.request = request ∧ now.ended = false ∧
        (told ≠ some c → now.reply = none)) := by
  rcases tell_origin _ _ _ _ _ there with ⟨former, before, prompt, wanted, ended, replied⟩
  cases waiting with
  | none => exact .inl ⟨former, before, prompt, wanted, ended, replied⟩
  | some name =>
      rw [Option.elim_some, List.getElem?_append] at before
      split at before
      · exact .inl ⟨former, before, prompt, wanted, ended, replied⟩
      · rename_i beyond
        have last : c - callers.length = 0 ∧ Caller.new name i request = former := by
          simpa [List.getElem?_singleton] using before
        rcases last with ⟨at_end, rfl⟩
        refine .inr ⟨by omega, rfl, wanted.symm, ended.symm, ?_⟩
        intro other
        rcases replied with ⟨same, -⟩ | ⟨-, same⟩
        · exact absurd same other
        · exact same

theorem conclude_origin (callers : List Caller) (c d : Nat) (now : Caller)
    (there : (callers.modify c fun caller => { caller with ended := true })[d]? = some now) :
    ∃ former, callers[d]? = some former ∧ former.prompt = now.prompt ∧
      former.request = now.request ∧ former.reply = now.reply ∧
      (now.ended = true ↔ former.ended = true ∨ d = c) := by
  rw [List.getElem?_modify, Option.map_eq_map, Option.map_eq_some_iff] at there
  rcases there with ⟨former, before, rfl⟩
  refine ⟨former, before, ?_⟩
  by_cases same : c = d
  · simp [same]
  · simp [same, Ne.symm same]

namespace Prompt

theorem appear_eq (p : Prompt) : ∃ shown phase, p.appear = { p with shown, phase } := by
  unfold appear
  split
  · exact ⟨p.shown, p.phase, rfl⟩
  · exact ⟨_, _, rfl⟩

theorem settle_eq (p : Prompt) (request : Nat) :
    ∃ shown phase, p.settle request = { p with shown, phase } := by
  unfold settle
  split
  · exact ⟨_, _, rfl⟩
  · exact ⟨p.shown, p.phase, rfl⟩

theorem publish_eq (p : Prompt) (request : Nat) (visuals : Visuals) :
    ∃ shown phase, p.publish request visuals =
      { p with published := request, visuals := p.visuals.publish visuals, shown, phase } := by
  unfold publish
  split
  · exact ⟨_, _, rfl⟩
  · obtain ⟨shown, phase, same⟩ :=
      appear_eq { p with published := request, visuals := p.visuals.publish visuals }
    exact ⟨shown, phase, same⟩

theorem callerOf_eq_some (p : Prompt) (request c : Nat) :
    p.callerOf request = some c ↔ p.parked = some ⟨request, c⟩ := by
  simp only [callerOf, Option.map_eq_some_iff, Option.filter_eq_some_iff, beq_iff_eq]
  constructor
  · rintro ⟨q, ⟨held, rfl⟩, rfl⟩
    exact held
  · intro held
    exact ⟨_, ⟨held, rfl⟩, rfl⟩

theorem unpark_eq (p : Prompt) (request : Nat) :
    ∃ parked, p.unpark request = { p with parked } ∧ (parked = none ∨ parked = p.parked) := by
  unfold unpark
  split
  · exact ⟨none, rfl, .inl rfl⟩
  · exact ⟨p.parked, rfl, .inr rfl⟩

/-- All that a job can make of a prompt: it publishes, it shows or hides, or it fills the
mailbox. -/
theorem perform_cases (p next : Prompt) (owned : Bool) (job : Job)
    (done : p.perform? owned job = some next) :
    (∃ j request visuals, job = .publish j request visuals ∧ next = p.publish request visuals) ∨
      (∃ shown phase, (∀ j request visuals, job ≠ .publish j request visuals) ∧
        (∀ j tap, job ≠ .offer j tap) ∧ next = { p with shown, phase }) ∨
      (∃ j tap mailbox, job = .offer j tap ∧ next = { p with mailbox } ∧
        (mailbox = p.mailbox ∨ mailbox = some (p.answer tap))) := by
  cases job with
  | publish j request visuals =>
      have value := Option.some.inj done
      subst value
      exact .inl ⟨j, request, visuals, rfl, rfl⟩
  | setPrompt j shown =>
      cases shown with
      | false =>
          have value := Option.some.inj done
          subst value
          exact .inr (.inl ⟨_, _, nofun, nofun, rfl⟩)
      | true =>
          have value := Option.some.inj done
          subst value
          rcases p.appear_eq with ⟨shown, phase, same⟩
          exact .inr (.inl ⟨shown, phase, nofun, nofun, same⟩)
  | settle j request =>
      have value := Option.some.inj done
      subst value
      rcases p.settle_eq request with ⟨shown, phase, same⟩
      exact .inr (.inl ⟨shown, phase, nofun, nofun, same⟩)
  | offer j tap =>
      refine .inr (.inr ?_)
      cases owned with
      | false =>
          obtain rfl : p = next := by simpa [perform?] using done
          exact ⟨j, tap, p.mailbox, rfl, rfl, .inl rfl⟩
      | true =>
          cases full : p.mailbox with
          | some a => simp [perform?, full] at done
          | none =>
              obtain rfl : { p with mailbox := some (p.answer tap) } = next := by
                simpa [perform?, full] using done
              exact ⟨j, tap, _, rfl, rfl, .inr rfl⟩
  | _ =>
      have value := Option.some.inj done
      subst value
      exact .inr (.inl ⟨p.shown, p.phase, nofun, nofun, rfl⟩)

theorem perform_frame (p next : Prompt) (owned : Bool) (job : Job)
    (done : p.perform? owned job = some next) :
    next.scope = p.scope ∧ next.parked = p.parked ∧ next.issued = p.issued := by
  rcases perform_cases p next owned job done with
    ⟨j, request, visuals, rfl, rfl⟩ | ⟨shown, phase, -, -, rfl⟩ | ⟨j, tap, mailbox, rfl, rfl, -⟩
  · rcases p.publish_eq request visuals with ⟨shown, phase, same⟩
    rw [same]
    exact ⟨rfl, rfl, rfl⟩
  · exact ⟨rfl, rfl, rfl⟩
  · exact ⟨rfl, rfl, rfl⟩

end Prompt

namespace Strand

variable (σ : Strand)

@[simp] theorem callers_launch (scope : Nat) (job : Job) :
    (σ.launch scope job).callers = σ.callers := rfl

@[simp] theorem log_launch (scope : Nat) (job : Job) : (σ.launch scope job).log = σ.log := rfl

@[simp] theorem pictures_launch (scope : Nat) (job : Job) :
    (σ.launch scope job).pictures = σ.pictures := rfl

@[simp] theorem queued_conclude (c : Nat) (name : String) (ending : Ending) (scope : Nat) :
    (σ.conclude c name ending).queued scope = σ.queued scope := rfl

@[simp] theorem log_conclude (c : Nat) (name : String) (ending : Ending) :
    (σ.conclude c name ending).log = .ended (.caller c) name ending :: σ.log := rfl

@[simp] theorem pictures_conclude (c : Nat) (name : String) (ending : Ending) :
    (σ.conclude c name ending).pictures = σ.pictures := rfl

def isOpen (scope : Nat) : Bool := σ.scopes[scope]?.any (!·.cancelled)

theorem queued_launch (scope other : Nat) (job : Job) :
    (σ.launch scope job).queued other =
      if other = scope ∧ σ.isOpen scope = true then σ.queued other ++ [job]
      else σ.queued other :=
  queueAt_push σ.scopes other scope job

theorem queued_launch_self (scope : Nat) (job : Job) :
    (σ.launch scope job).queued scope = σ.queued scope ∨
      (σ.launch scope job).queued scope = σ.queued scope ++ [job] := by
  rw [queued_launch]
  split
  · exact .inr rfl
  · exact .inl rfl

theorem queued_pop (scope other : Nat) (jobs : List Job) (s : Scope)
    (found : σ.scopes[scope]? = some s) (prompt : Option Prompt) :
    ({ σ with
      prompt
      scopes := σ.scopes.modify scope fun s => { s with queue := jobs } } : Strand).queued other =
      if other = scope then jobs else σ.queued other :=
  queueAt_pop σ.scopes other scope jobs (List.getElem?_eq_some_iff.mp found).1

theorem queued_cancel (root scope : Nat) (log : List Event) :
    ({ σ with scopes := σ.scopes.map (·.cancelBy root), log } : Strand).queued scope = [] ∨
      ({ σ with scopes := σ.scopes.map (·.cancelBy root), log } : Strand).queued scope =
        σ.queued scope :=
  queueAt_cancel σ.scopes scope root

theorem queued_branch (lineage : List Nat) (cancelled : Bool) (scope : Nat) :
    ({ σ with scopes := σ.scopes ++ [⟨lineage, cancelled, []⟩] } : Strand).queued scope =
      σ.queued scope :=
  queueAt_branch σ.scopes scope lineage cancelled

end Strand

end ModalHost
