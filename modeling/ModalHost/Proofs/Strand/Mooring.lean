import ModalHost.Proofs.Strand.Queue

/-! What never leaves a strand: the scope of its prompt, the callers of its prompt, and that jobs
of the prompt are queued on that scope only. -/

namespace ModalHost.Strand

variable {i : Nat} {allowed : Job → Prop} {σ τ : Strand}

theorem withdraw_cases (p : Prompt) (request : Nat) :
    (σ.withdraw i p request = σ ∧ p.parked.any (·.request == request) = false) ∨
      ((∃ q, p.parked = some q ∧ q.request = request) ∧
        (σ.withdraw i p request = { σ with prompt := some { p with parked := none } } ∨
          σ.withdraw i p request =
            { σ with prompt := some { p with parked := none }.vanish } ∨
          σ.withdraw i p request = { σ with prompt := some { p with parked := none } }.launch
            p.scope (.setPrompt i false))) := by
  unfold withdraw
  cases held : p.parked.any (·.request == request) with
  | false => exact .inl ⟨by simp, rfl⟩
  | true =>
      right
      constructor
      · simpa [Option.any_eq_true] using held
      · simp only [if_true, relinquish]
        split
        · exact .inl rfl
        · split
          · exact .inr (.inl rfl)
          · exact .inr (.inr rfl)

theorem prompt_withdraw (p next : Prompt) (present : σ.prompt = some p) (request : Nat)
    (after : (σ.withdraw i p request).prompt = some next) :
    next = p ∨ next = { p with parked := none } ∨ next = { p with parked := none }.vanish := by
  have cases := withdraw_cases (i := i) (σ := σ) p request
  rcases cases with ⟨same, -⟩ | ⟨-, same | same | same⟩ <;> rw [same] at after
  · exact .inl (Option.some.inj (after.symm.trans present))
  · exact .inr (.inl (Option.some.inj after.symm))
  · exact .inr (.inr (Option.some.inj after.symm))
  · exact .inr (.inl (Option.some.inj after.symm))

theorem withdraw_frame (p : Prompt) (request : Nat) :
    (σ.withdraw i p request).callers = σ.callers ∧ (σ.withdraw i p request).log = σ.log ∧
      (σ.withdraw i p request).pictures = σ.pictures := by
  have cases := withdraw_cases (i := i) (σ := σ) p request
  rcases cases with ⟨same, -⟩ | ⟨-, same | same | same⟩ <;> rw [same]
  · exact ⟨rfl, rfl, rfl⟩
  · exact ⟨rfl, rfl, rfl⟩
  · exact ⟨rfl, rfl, rfl⟩
  · exact ⟨rfl, rfl, rfl⟩

@[simp] theorem callers_withdraw (p : Prompt) (request : Nat) :
    (σ.withdraw i p request).callers = σ.callers := (withdraw_frame p request).1

@[simp] theorem log_withdraw (p : Prompt) (request : Nat) :
    (σ.withdraw i p request).log = σ.log := (withdraw_frame p request).2.1

@[simp] theorem pictures_withdraw (p : Prompt) (request : Nat) :
    (σ.withdraw i p request).pictures = σ.pictures := (withdraw_frame p request).2.2

theorem Step.prompt_stays (step : Step i allowed σ τ) (p : Prompt) (present : σ.prompt = some p) :
    ∃ next, τ.prompt = some next ∧ next.scope = p.scope := by
  cases step with
  | opened absent => simp [absent] at present
  | asked q here =>
      have value := Option.some.inj (here.symm.trans present)
      subst value
      exact ⟨_, rfl, rfl⟩
  | withdrawn q here c caller =>
      have value := Option.some.inj (here.symm.trans present)
      subst value
      have cases := withdraw_cases (i := i) (σ := σ) q caller.request
      rcases cases with ⟨same, -⟩ | ⟨-, same | same | same⟩ <;>
        simp only [conclude, same, launch]
      · exact ⟨q, here, rfl⟩
      · exact ⟨_, rfl, rfl⟩
      · exact ⟨_, rfl, rfl⟩
      · exact ⟨_, rfl, rfl⟩
  | resumed => exact ⟨p, present, rfl⟩
  | queued => exact ⟨p, present, rfl⟩
  | tended q here =>
      have value := Option.some.inj (here.symm.trans present)
      subst value
      exact ⟨_, rfl, rfl⟩
  | cancelled => exact ⟨p, present, rfl⟩
  | branched => exact ⟨p, present, rfl⟩
  | ran _ q here lineage job jobs front permitted next done =>
      have value := Option.some.inj (here.symm.trans present)
      subst value
      exact ⟨next, rfl, (Prompt.perform_frame _ _ _ _ done).1⟩
  | refused _ q here =>
      have value := Option.some.inj (here.symm.trans present)
      subst value
      exact ⟨_, rfl, rfl⟩
  | accepted _ q here a =>
      have value := Option.some.inj (here.symm.trans present)
      subst value
      obtain ⟨_, same, -⟩ :=
        Prompt.unpark_eq { q with mailbox := none, phase := .resolving } a.request
      exact ⟨_, rfl, by rw [same]⟩
  | settled => exact ⟨p, present, rfl⟩
  | pictured => exact ⟨p, present, rfl⟩
  | elsewhere => exact ⟨p, present, rfl⟩

theorem getElem?_conclude (c : Nat) (name : String) (ending : Ending) (d : Nat) :
    (σ.conclude c name ending).callers[d]? = σ.callers[d]?.map fun caller =>
      if c = d then { caller with ended := true } else caller := by
  by_cases same : c = d
  · subst same
    simp [conclude]
  · simp [conclude, same]

theorem Step.caller_stays (step : Step i allowed σ τ) (c : Nat) (caller : Caller)
    (found : σ.callers[c]? = some caller) (own : caller.prompt = i) :
    ∃ next, τ.callers[c]? = some next ∧ next.prompt = i ∧ next.request = caller.request ∧
      (caller.ended = true → next.ended = true) := by
  have told (told : Option Nat) (reply : Reply) : ∃ next,
      (tell σ.callers told reply)[c]? = some next ∧ next.prompt = i ∧
        next.request = caller.request ∧ (caller.ended = true → next.ended = true) := by
    rw [getElem?_tell, found]
    exact ⟨_, rfl, by dsimp only; split <;> exact ⟨own, rfl, id⟩⟩
  have concluded (d : Nat) (name : String) (ending : Ending) : ∃ next,
      (σ.conclude d name ending).callers[c]? = some next ∧ next.prompt = i ∧
        next.request = caller.request ∧ (caller.ended = true → next.ended = true) := by
    rw [getElem?_conclude, found]
    refine ⟨_, rfl, ?_⟩
    dsimp only
    split
    · exact ⟨own, rfl, fun _ => rfl⟩
    · exact ⟨own, rfl, id⟩
  cases step with
  | asked p here visuals waiting =>
      cases waiting with
      | none => exact told _ _
      | some name =>
          have known : (σ.callers ++ [Caller.new name i (p.issued + 1)])[c]? = some caller := by
            rw [List.getElem?_append_left (List.getElem?_eq_some_iff.mp found).1, found]
          simp only [launch, Option.elim_some, getElem?_tell, known]
          exact ⟨_, rfl, by dsimp only; split <;> exact ⟨own, rfl, id⟩⟩
  | withdrawn p here d ended other _ _ ending =>
      have same : ((σ.withdraw i p ended.request).conclude d ended.name ending).callers =
          (σ.conclude d ended.name ending).callers := by
        simp only [conclude, callers_withdraw]
      rw [same]
      exact concluded _ _ _
  | resumed => exact concluded _ _ _
  | accepted => exact told _ _
  | elsewhere callers events kept =>
      exact ⟨caller, (kept c caller own).mpr found, own, rfl, id⟩
  | _ => exact ⟨caller, found, own, rfl, id⟩

theorem Step.callers_grow (step : Step i allowed σ τ) :
    σ.callers.length ≤ τ.callers.length := by
  cases step with
  | asked p here visuals waiting => cases waiting <;> simp
  | withdrawn p here c caller => simp [conclude, callers_withdraw]
  | resumed => simp [conclude]
  | accepted => simp
  | elsewhere _ _ _ grown => exact grown
  | _ => exact Nat.le_refl _

theorem Step.caller_origin (step : Step i allowed σ τ) (c : Nat) (caller : Caller)
    (found : τ.callers[c]? = some caller) (own : caller.prompt = i) :
    (∃ former, σ.callers[c]? = some former ∧ former.prompt = i ∧
        former.request = caller.request ∧ (caller.ended = true → former.ended = true ∨
          ∃ name ending, .ended (.caller c) name ending ∈ τ.log)) ∨
      (c = σ.callers.length ∧ caller.ended = false ∧
        ∃ p, σ.prompt = some p ∧ caller.request = p.issued + 1) := by
  have concluded (d : Nat) (name : String) (ending : Ending)
      (logged : .ended (.caller d) name ending ∈ τ.log)
      (found : (σ.conclude d name ending).callers[c]? = some caller) : ∃ former,
      σ.callers[c]? = some former ∧ former.prompt = i ∧ former.request = caller.request ∧
        (caller.ended = true → former.ended = true ∨
          ∃ name ending, .ended (.caller c) name ending ∈ τ.log) := by
    rcases conclude_origin _ _ _ _ found with ⟨former, there, prompt, request, -, ended⟩
    refine ⟨former, there, prompt.trans own, request, ?_⟩
    intro finished
    rcases ended.mp finished with before | rfl
    · exact .inl before
    · exact .inr ⟨name, ending, logged⟩
  cases step with
  | asked p here visuals waiting =>
      rcases asked_origin _ _ _ _ _ _ _ _ found with
        ⟨former, there, prompt, request, ended, -⟩ | ⟨at_end, -, request, ended, -⟩
      · exact .inl ⟨former, there, prompt.trans own, request, fun finished =>
          .inl (ended.trans finished)⟩
      · exact .inr ⟨at_end, ended, p, here, request⟩
  | withdrawn p here d ended other _ _ ending =>
      have same : ((σ.withdraw i p ended.request).conclude d ended.name ending).callers =
          (σ.conclude d ended.name ending).callers := by
        simp only [conclude, callers_withdraw]
      rw [same] at found
      exact .inl (concluded _ _ _ List.mem_cons_self found)
  | resumed => exact .inl (concluded _ _ _ List.mem_cons_self found)
  | accepted =>
      rcases tell_origin _ _ _ _ _ found with ⟨former, there, prompt, request, ended, -⟩
      exact .inl ⟨former, there, prompt.trans own, request, fun finished =>
        .inl (ended.trans finished)⟩
  | elsewhere callers events kept =>
      exact .inl ⟨caller, (kept c caller own).mp found, own, rfl, .inl⟩
  | _ => exact .inl ⟨caller, found, own, rfl, .inl⟩

theorem front_of_scope (scope : Nat) (lineage : List Nat) (job : Job) (jobs : List Job)
    (front : σ.scopes[scope]? = some ⟨lineage, false, job :: jobs⟩) :
    σ.queued scope = job :: jobs := by
  simp [queued, front]

theorem Step.job_origin (step : Step i allowed σ τ) (scope : Nat) (job : Job)
    (member : job ∈ τ.queued scope) :
    job ∈ σ.queued scope ∨ job.prompt? = some i ∧ ∃ p, σ.prompt = some p ∧ p.scope = scope := by
  have launched (υ : Strand) (p : Prompt) (present : σ.prompt = some p) (new : Job)
      (about : new.prompt? = some i) (member : job ∈ (υ.launch p.scope new).queued scope)
      (same : υ.queued scope = σ.queued scope) :
      job ∈ σ.queued scope ∨ job.prompt? = some i ∧ ∃ p, σ.prompt = some p ∧ p.scope = scope := by
    rw [queued_launch, same] at member
    split at member
    · rename_i home
      rcases List.mem_append.mp member with before | added
      · exact .inl before
      · rw [List.mem_singleton.mp added]
        exact .inr ⟨about, p, present, home.1.symm⟩
    · exact .inl member
  cases step with
  | asked p here => exact launched _ p here _ rfl member rfl
  | withdrawn p here c caller =>
      have cases := withdraw_cases (i := i) (σ := σ) p caller.request
      rcases cases with ⟨same, -⟩ | ⟨-, same | same | same⟩ <;> rw [same] at member
      · exact .inl member
      · exact .inl member
      · exact .inl member
      · exact launched _ p here _ rfl member rfl
  | queued p here new may =>
      cases may with
      | toggle => exact launched _ p here _ rfl member rfl
      | tap => exact launched _ p here _ rfl member rfl
  | cancelled root =>
      rcases queued_cancel σ root scope (.cancelled root :: σ.log) with none | same
      · rw [none] at member
        simp at member
      · exact .inl (same ▸ member)
  | branched =>
      rw [queued_branch] at member
      exact .inl member
  | ran _ p here lineage first jobs front =>
      rw [queued_pop σ p.scope scope jobs _ front] at member
      split at member
      · rename_i home
        subst home
        exact .inl (front_of_scope _ _ _ _ front ▸ List.mem_cons_of_mem first member)
      · exact .inl member
  | settled p here request => exact launched _ p here _ rfl member rfl
  | _ => exact .inl member

/-- Jobs of a prompt are queued on its scope, its callers wait on it only, and the parked caller is
one of them. -/
structure Moored (i : Nat) (σ : Strand) : Prop where
  jobs (scope : Nat) (job : Job) : job ∈ σ.queued scope →
    job.prompt? = some i ∧ ∃ p, σ.prompt = some p ∧ p.scope = scope
  callers (c : Nat) (caller : Caller) : σ.callers[c]? = some caller → caller.prompt = i →
    ∃ p, σ.prompt = some p
  parked (p : Prompt) (q : Parked) : σ.prompt = some p → p.parked = some q →
    ∃ caller, σ.callers[q.caller]? = some caller ∧ caller.prompt = i

theorem moored_blank (i : Nat) : Moored i blank where
  jobs scope job member := by
    cases scope <;> simp [blank, queued] at member
  callers c caller found := by simp [blank] at found
  parked p q present := by simp [blank] at present

theorem Step.slot (step : Step i allowed σ τ) (p next : Prompt) (present : σ.prompt = some p)
    (after : τ.prompt = some next) :
    (next.parked = p.parked ∧ next.issued = p.issued) ∨ next.parked = none ∨
      (next.parked = some ⟨p.issued + 1, σ.callers.length⟩ ∧ next.issued = p.issued + 1 ∧
        ∃ caller, τ.callers[σ.callers.length]? = some caller ∧ caller.prompt = i) := by
  cases step with
  | opened absent => simp [absent] at present
  | asked q here visuals waiting =>
      have value := Option.some.inj (here.symm.trans present)
      subst value
      have value := Option.some.inj after
      subst value
      cases waiting with
      | none => exact .inr (.inl rfl)
      | some name =>
          refine .inr (.inr ⟨rfl, rfl, ?_⟩)
          simp only [launch, Option.elim_some, getElem?_tell, List.getElem?_concat_length]
          exact ⟨_, rfl, by dsimp only; split <;> rfl⟩
  | withdrawn q here c caller =>
      have value := Option.some.inj (here.symm.trans present)
      subst value
      rcases prompt_withdraw q next here caller.request after with rfl | rfl | rfl
      · exact .inl ⟨rfl, rfl⟩
      · exact .inr (.inl rfl)
      · exact .inr (.inl rfl)
  | tended q here =>
      have value := Option.some.inj (here.symm.trans present)
      subst value
      have value := Option.some.inj after
      subst value
      exact .inl ⟨rfl, rfl⟩
  | ran _ q here lineage job jobs front permitted made done =>
      have value := Option.some.inj (here.symm.trans present)
      subst value
      have value := Option.some.inj after
      subst value
      exact .inl (Prompt.perform_frame _ _ _ _ done).2
  | refused _ q here =>
      have value := Option.some.inj (here.symm.trans present)
      subst value
      have value := Option.some.inj after
      subst value
      exact .inl ⟨rfl, rfl⟩
  | accepted _ q here a =>
      have value := Option.some.inj (here.symm.trans present)
      subst value
      have value := Option.some.inj after
      subst value
      obtain ⟨parked, same, cleared | kept⟩ :=
        Prompt.unpark_eq { q with mailbox := none, phase := .resolving } a.request <;> rw [same]
      · exact .inr (.inl cleared)
      · exact .inl ⟨kept, rfl⟩
  | _ =>
      have value := Option.some.inj (present.symm.trans after)
      subst value
      exact .inl ⟨rfl, rfl⟩

theorem Step.moored (step : Step i allowed σ τ) (moored : Moored i σ) : Moored i τ where
  jobs scope job member := by
    have home : job.prompt? = some i ∧ ∃ p, σ.prompt = some p ∧ p.scope = scope := by
      rcases step.job_origin scope job member with before | new
      · exact moored.jobs scope job before
      · exact new
    rcases home with ⟨about, p, present, here⟩
    rcases step.prompt_stays p present with ⟨next, after, stays⟩
    exact ⟨about, next, after, stays.trans here⟩
  callers c caller found own := by
    have opened : ∃ p, σ.prompt = some p := by
      rcases step.caller_origin c caller found own with
        ⟨former, before, asked, -⟩ | ⟨-, -, p, here, -⟩
      · exact moored.callers c former before asked
      · exact ⟨p, here⟩
    rcases opened with ⟨p, present⟩
    rcases step.prompt_stays p present with ⟨next, after, -⟩
    exact ⟨next, after⟩
  parked next q after held := by
    cases present : σ.prompt with
    | none =>
        cases step with
        | opened absent scope s hooks =>
            have value := Option.some.inj after
            subst value
            simp [Prompt.restore] at held
        | _ => simp_all
    | some p =>
        rcases step.slot p next present after with ⟨same, -⟩ | cleared | ⟨new, -, caller⟩
        · rcases moored.parked p q present (same ▸ held) with ⟨caller, found, own⟩
          rcases step.caller_stays q.caller caller found own with ⟨now, there, asked, -, -⟩
          exact ⟨now, there, asked⟩
        · simp [cleared] at held
        · have value := Option.some.inj (new.symm.trans held)
          subst value
          exact caller

theorem Reachable.moored (reachable : Reachable i σ) : Moored i σ := by
  induction reachable with
  | refl => exact moored_blank i
  | tail _ step ih => exact step.moored ih

end ModalHost.Strand
