import ModalHost.Proofs.Strand.Projection
import ModalHost.Host.Requests

/-! What a call makes of the strand of a prompt. -/

namespace ModalHost.Host

variable (h : Host) (i : Nat) (due : Option Nat)

theorem prompt_evict (p : Prompt) (present : h.prompts[i]? = some p) :
    (h.evict i).prompts[i]? = some { p with parked := none } := by
  unfold evict
  cases slot : p.parked with
  | none =>
      have same : { p with parked := none } = p := by rw [← slot]
      simp [present, slot, same]
  | some parked => simp [present, slot]

theorem strand_evict (p : Prompt) (present : h.prompts[i]? = some p) :
    (h.evict i).strand i due = { h.strand i due with
      prompt := some { p with parked := none }
      callers := tell h.callers (p.parked.map (·.caller)) .superseded } := by
  unfold evict
  cases slot : p.parked with
  | none =>
      have same : { p with parked := none } = p := by rw [← slot]
      simp [present, slot, same, tell, strand]
  | some parked =>
      simp [present, slot, strand_updatePrompt, strand_updateCaller, tell]

theorem strand_evict_other (j : Nat) (other : j ≠ i) (p : Prompt)
    (present : h.prompts[j]? = some p) :
    (h.evict j).strand i due = { h.strand i due with
      callers := tell h.callers (p.parked.map (·.caller)) .superseded } := by
  unfold evict
  cases slot : p.parked with
  | none => simp [present, slot, tell, strand]
  | some parked =>
      simp [present, slot, strand_updatePrompt_other _ _ _ _ other, strand_updateCaller, tell]

theorem strand_issue (p : Prompt) (present : h.prompts[i]? = some p) (parked : Option Parked)
    (visuals : Visuals) :
    (h.issue i parked visuals).strand i due = ({ h.strand i due with
      prompt := some { p with issued := p.issued + 1, parked }
      callers := tell h.callers (p.parked.map (·.caller)) .superseded
      log := .issued i (p.issued + 1) visuals :: (h.strand i due).log : Strand }.launch p.scope
        (.publish i (p.issued + 1) visuals)) := by
  simp only [issue, present]
  rw [strand_launch _ _ _ _ _ rfl, strand_record _ _ _ _ (by simp [Event.concerns]),
    strand_updatePrompt, prompt_evict h i p present, strand_evict h i due p present]
  rfl

theorem strand_issue_other (j : Nat) (other : j ≠ i) (p : Prompt)
    (present : h.prompts[j]? = some p) (parked : Option Parked) (visuals : Visuals) :
    (h.issue j parked visuals).strand i due = { h.strand i due with
      callers := tell h.callers (p.parked.map (·.caller)) .superseded } := by
  simp only [issue, present]
  rw [strand_launch_other _ _ _ _ _ (by simpa [Job.prompt?] using other),
    strand_record_other _ _ _ _ (by simpa [Event.concerns] using other),
    strand_updatePrompt_other _ _ _ _ other, strand_evict_other h i due j other p present]

theorem strand_withdraw (p : Prompt) (present : h.prompts[i]? = some p) (request : Nat) :
    (h.withdraw i request).strand i due = (h.strand i due).withdraw i p request := by
  simp only [withdraw, present, Strand.withdraw, Strand.relinquish, isCancelled_strand]
  by_cases held : p.parked.any (·.request == request) = true
  · rw [if_pos held, if_pos held]
    cases cared : p.hooks.isEmpty with
    | false => simp [strand_updatePrompt, present]
    | true =>
        cases dead : h.isCancelled p.scope with
        | false =>
            simp only [isCancelled_updatePrompt, dead, Bool.not_true, Bool.false_eq_true, if_false]
            rw [strand_launch _ _ _ _ _ rfl, strand_updatePrompt, present]
            rfl
        | true => simp [dead, strand_updatePrompt, present]
  · rw [if_neg held, if_neg held]

theorem strand_withdraw_other (j : Nat) (other : j ≠ i) (request : Nat) :
    (h.withdraw j request).strand i due = h.strand i due := by
  unfold withdraw
  cases h.prompts[j]? with
  | none => rfl
  | some p =>
      have job : (Job.setPrompt j false).prompt? ≠ some i := by simpa [Job.prompt?] using other
      dsimp only
      split
      · split
        · exact strand_updatePrompt_other _ _ _ _ other _
        · split
          · rw [strand_updatePrompt_other _ _ _ _ other, strand_updatePrompt_other _ _ _ _ other]
          · rw [strand_launch_other _ _ _ _ _ job, strand_updatePrompt_other _ _ _ _ other]
      · rfl

theorem callers_withdraw (j request : Nat) : (h.withdraw j request).callers = h.callers := by
  unfold withdraw
  cases h.prompts[j]? with
  | none => rfl
  | some p =>
      dsimp only
      split
      · split
        · rfl
        · split <;> rfl
      · rfl

theorem strand_endCaller (c : Nat) (caller : Caller) (found : h.callers[c]? = some caller)
    (ending : Ending) :
    (h.endCaller c ending).strand i due = (h.strand i due).conclude c caller.name ending := by
  simp only [endCaller, found]
  rw [strand_record _ _ _ _ rfl, strand_updateCaller]
  rfl

end ModalHost.Host
