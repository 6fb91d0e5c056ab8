import ModalHost.Proofs.Strand.Mooring

/-! What a step adds to the log of a strand. -/

namespace ModalHost

theorem suffix_of_append {α : Type} (x : α) (earlier events log : List α)
    (split : x :: earlier <:+ events ++ log) (absent : x ∉ events) : x :: earlier <:+ log := by
  induction events with
  | nil => exact split
  | cons e events ih =>
      rw [List.cons_append, List.suffix_cons_iff] at split
      rcases split with same | before
      · exact absurd (List.cons.inj same).1 (List.ne_of_not_mem_cons absent)
      · exact ih before (List.not_mem_of_not_mem_cons absent)

namespace Strand

variable {i : Nat} {allowed : Job → Prop} {σ τ : Strand}

inductive Logs (i : Nat) (σ τ : Strand) : List Event → Prop
  | nothing : Logs i σ τ []
  | request (request : Nat) (visuals : Visuals) : Logs i σ τ [.issued i request visuals]
  | cancellation (root : Nat) : Logs i σ τ [.cancelled root]
  | ending (p : Prompt) (present : σ.prompt = some p) (c : Nat) (caller : Caller)
      (found : σ.callers[c]? = some caller) (own : caller.prompt = i)
      (waits : caller.ended = false) (ending : Ending)
      (cause : ending = .abandoned ∨ ending = .cancelled ∧ σ.isCancelled p.scope = true ∨
        ∃ reply, caller.reply = some reply ∧ ending = reply.ending)
      (concluded : τ.callers = σ.callers.modify c fun caller => { caller with ended := true }) :
      Logs i σ τ [.ended (.caller c) caller.name ending]
  | answer (p : Prompt) (present : σ.prompt = some p) (a : Answer) (full : p.mailbox = some a)
      (counts : p.accepts a = true)
      (notified : τ.prompt =
        some ({ p with mailbox := none, phase := .resolving }.unpark a.request))
      (told : τ.callers = tell σ.callers (p.callerOf a.request) (.decided a.tap.decision)) :
      Logs i σ τ (((p.hooks.on a.tap.decision).map
        fun _ => Event.hookRan i p.hooks.tag a.tap.decision).toList ++
          [.accepted i a (p.callerOf a.request)])
  | foreign (events : List Event)
      (others : ∀ e ∈ events, ∃ c caller name ending, τ.callers[c]? = some caller ∧
        caller.prompt ≠ i ∧ e = .ended (.caller c) name ending) : Logs i σ τ events

theorem Step.logs (step : Step i allowed σ τ) :
    ∃ events, τ.log = events ++ σ.log ∧ Logs i σ τ events := by
  cases step with
  | opened absent scope s hooks => exact ⟨_, rfl, .request 0 s.visuals⟩
  | asked p present visuals => exact ⟨[_], rfl, .request (p.issued + 1) visuals⟩
  | withdrawn p present c caller found own waits ending cause =>
      refine ⟨[.ended (.caller c) caller.name ending], ?_, ?_⟩
      · rw [log_conclude, log_withdraw]
        rfl
      · refine .ending p present c caller found own waits ending ?_ ?_
        · rcases cause with abandoned | cancelled
          · exact .inl abandoned
          · exact .inr (.inl cancelled)
        · simp only [conclude, callers_withdraw]
  | resumed p present c caller found own waits reply told =>
      exact ⟨[_], rfl, .ending p present c caller found own waits reply.ending
        (.inr (.inr ⟨reply, told, rfl⟩)) rfl⟩
  | cancelled root => exact ⟨[_], rfl, .cancellation root⟩
  | accepted _ p present a full counts =>
      refine ⟨_, ?_, .answer p present a full counts rfl rfl⟩
      rw [List.append_assoc]
      rfl
  | elsewhere callers events kept grown foreign => exact ⟨events, rfl, .foreign events foreign⟩
  | queued | tended | branched | ran | refused | settled | pictured => exact ⟨[], rfl, .nothing⟩

theorem Step.log_grows (step : Step i allowed σ τ) : σ.log <:+ τ.log := by
  rcases step.logs with ⟨events, grown, -⟩
  rw [grown]
  exact List.suffix_append events σ.log

theorem Path.log_grows (path : Path i allowed σ τ) : σ.log <:+ τ.log := by
  induction path with
  | refl => exact List.suffix_refl _
  | tail _ step ih => exact ih.trans step.log_grows

end Strand

end ModalHost
