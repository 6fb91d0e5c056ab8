import ModalHost.Proofs.Strand.Mooring

/-! A prompt is on screen exactly while it is not idle, and never with the sentinel. -/

namespace ModalHost

namespace Prompt

/-- The visibility of a prompt agrees with its phase and its visuals. -/
structure Coherent (p : Prompt) : Prop where
  phase : p.shown.value = true ↔ p.phase ≠ .idle
  visuals : p.shown.value = true → p.visuals.value.isEmpty = false

variable {p : Prompt}

theorem coherent_restore (scope : Nat) (s : Snapshot) (hooks : Hooks Call) :
    (restore scope s hooks).Coherent := by
  constructor
  · cases onScreen : s.onScreen <;> simp [restore, onScreen]
  · intro shown
    have onScreen : s.onScreen = true := shown
    simp only [Snapshot.onScreen, Bool.and_eq_true, Bool.not_eq_true'] at onScreen
    exact onScreen.2

theorem coherent_vanish (p : Prompt) : p.vanish.Coherent := by
  constructor <;> simp [vanish]

theorem Coherent.appear (coherent : p.Coherent) : p.appear.Coherent := by
  unfold Prompt.appear
  split
  · exact coherent
  · rename_i asks
    constructor
    · simp
    · intro _
      simpa using asks

theorem coherent_publish (p : Prompt) (request : Nat) (visuals : Visuals) :
    (p.publish request visuals).Coherent := by
  unfold publish
  cases sentinel : visuals.isEmpty with
  | true => exact coherent_vanish _
  | false => constructor <;> simp [Prompt.appear, sentinel]

theorem Coherent.settle (coherent : p.Coherent) (request : Nat) :
    (p.settle request).Coherent := by
  unfold Prompt.settle
  split
  · exact coherent_vanish p
  · exact coherent

theorem Coherent.perform (coherent : p.Coherent) (owned : Bool) (job : Job) (next : Prompt)
    (done : p.perform? owned job = some next) : next.Coherent := by
  cases job with
  | publish j request visuals =>
      have value := Option.some.inj done
      subst value
      exact coherent_publish p request visuals
  | setPrompt j shown =>
      cases shown with
      | false =>
          have value := Option.some.inj done
          subst value
          exact coherent_vanish p
      | true =>
          have value := Option.some.inj done
          subst value
          exact coherent.appear
  | settle j request =>
      have value := Option.some.inj done
      subst value
      exact coherent.settle request
  | offer j tap =>
      simp only [perform?] at done
      split at done
      · have value := Option.some.inj done
        subst value
        exact coherent
      · split at done
        · simp at done
        · have value := Option.some.inj done
          subst value
          exact ⟨coherent.phase, coherent.visuals⟩
  | _ =>
      have value := Option.some.inj done
      subst value
      exact coherent

theorem Coherent.resolving (coherent : p.Coherent) (awaits : p.phase = .awaitingInput)
    (request : Nat) :
    ({ p with mailbox := none, phase := .resolving }.unpark request).Coherent := by
  have shown : p.shown.value = true := coherent.phase.mpr (by simp [awaits])
  obtain ⟨parked, same, -⟩ :=
    unpark_eq { p with mailbox := none, phase := .resolving } request
  rw [same]
  constructor
  · simp [shown]
  · exact coherent.visuals

theorem accepts_iff (p : Prompt) (a : Answer) :
    p.accepts a = true ↔ a.request = p.issued ∧ p.phase = .awaitingInput := by
  simp [accepts]

end Prompt

namespace Strand

variable {i : Nat} {allowed : Job → Prop} {σ τ : Strand}

theorem Step.coherent (step : Step i allowed σ τ)
    (coherent : ∀ p, σ.prompt = some p → p.Coherent) (next : Prompt)
    (after : τ.prompt = some next) : next.Coherent := by
  cases step with
  | opened absent scope s hooks =>
      have value := Option.some.inj after
      subst value
      exact Prompt.coherent_restore scope s hooks
  | asked p present =>
      have value := Option.some.inj after
      subst value
      exact ⟨(coherent p present).phase, (coherent p present).visuals⟩
  | withdrawn p present c caller =>
      have before := coherent p present
      rcases prompt_withdraw p next present caller.request after with rfl | rfl | rfl
      · exact before
      · exact ⟨before.phase, before.visuals⟩
      · exact Prompt.coherent_vanish _
  | tended p present =>
      have value := Option.some.inj after
      subst value
      exact ⟨(coherent p present).phase, (coherent p present).visuals⟩
  | ran _ p present lineage job jobs front permitted made done =>
      have value := Option.some.inj after
      subst value
      exact (coherent p present).perform _ job _ done
  | refused _ p present =>
      have value := Option.some.inj after
      subst value
      exact ⟨(coherent p present).phase, (coherent p present).visuals⟩
  | accepted _ p present a full counts =>
      have value := Option.some.inj after
      subst value
      exact (coherent p present).resolving ((p.accepts_iff a).mp counts).2 a.request
  | _ => exact coherent next after

theorem Reachable.coherent (reachable : Reachable i σ) (p : Prompt)
    (present : σ.prompt = some p) : p.Coherent := by
  induction reachable generalizing p with
  | refl => simp [blank] at present
  | tail _ step ih => exact step.coherent ih p present

end Strand

end ModalHost
