import ModalHost.Proofs.Lane.Basic

/-! How a lane closes after an answer, how it opens for its newest request, and how a caller comes
to wait on a prompt that is not open. -/

namespace ModalHost

/-- Whether a call on the prompt `i` queues such a job. -/
def Job.ofCall (i : Nat) : Job → Prop
  | .publish j _ _ | .setPrompt j _ | .offer j _ => j = i
  | _ => False

/-- Whether a job may bring a prompt on screen. -/
def Job.opens : Job → Bool
  | .publish _ _ _ | .setPrompt _ true => true
  | _ => false

theorem Prompt.perform_idle (p next : Prompt) (owned : Bool) (job : Job)
    (done : p.perform? owned job = some next) (hushed : job.opens = false)
    (idle : p.phase = .idle) : next.phase = .idle := by
  cases job with
  | publish i request visuals => cases hushed
  | setPrompt i shown =>
      cases shown with
      | false =>
          obtain rfl := Option.some.inj done
          rfl
      | true => cases hushed
  | settle i request =>
      obtain rfl := Option.some.inj done
      unfold settle
      split
      · rfl
      · exact idle
  | offer i tap =>
      rcases perform_cases p next owned _ done with
        ⟨_, _, _, other, -⟩ | ⟨_, _, -, other, -⟩ | ⟨_, _, mailbox, -, rfl, -⟩
      · cases other
      · exact absurd rfl (other i tap)
      · exact idle
  | _ =>
      obtain rfl := Option.some.inj done
      exact idle

theorem Prompt.perform_mailbox (p next : Prompt) (owned : Bool) (job : Job)
    (done : p.perform? owned job = some next) :
    next.mailbox = p.mailbox ∨
      (∃ i tap, job = .offer i tap) ∧ next.published = p.published := by
  rcases perform_cases p next owned job done with
    ⟨i, request, visuals, rfl, rfl⟩ | ⟨shown, phase, -, -, rfl⟩ | ⟨i, tap, mailbox, rfl, rfl, -⟩
  · obtain ⟨shown, phase, same⟩ := p.publish_eq request visuals
    rw [same]
    exact .inl rfl
  · exact .inl rfl
  · exact .inr ⟨⟨i, tap, rfl⟩, rfl⟩

namespace Lane

variable {i : Nat} {allowed called : Job → Prop} {L M : Lane}

theorem Step.issued_le (step : Step i allowed called L M) :
    L.prompt.issued ≤ M.prompt.issued := by
  cases step with
  | rests next rests | queues next rests => exact rests.issued.ge
  | asks => exact Nat.le_succ _
  | accepts | settles => exact Nat.le_refl _
  | runs idle job jobs front about permitted owned next done =>
      exact (L.prompt.perform_frame next owned job done).2.2.ge

theorem Path.issued_le (path : Path i allowed called L M) :
    L.prompt.issued ≤ M.prompt.issued := by
  induction path with
  | refl => exact Nat.le_refl _
  | tail _ step ih => exact ih.trans step.issued_le

/-- The lane of a prompt whose newest request was answered: nothing that opens the prompt comes
after its settling. -/
inductive Closing (i : Nat) (L : Lane) : Prop
  | ahead (before after : List Job)
      (queue : L.jobs = before ++ .settle i L.prompt.issued :: after)
      (hushed : ∀ job ∈ after, job.opens = false)
  | behind (idle : L.prompt.phase = .idle) (hushed : ∀ job ∈ L.jobs, job.opens = false)

theorem Closing.append (closing : L.Closing i) (job : Job) (hushed : job.opens = false)
    (due : Option Nat) : Closing i { L with jobs := L.jobs ++ [job], due } := by
  have extended (jobs : List Job) (quiet : ∀ old ∈ jobs, old.opens = false) :
      ∀ other ∈ jobs ++ [job], other.opens = false := by
    intro other member
    rcases List.mem_append.mp member with old | new
    · exact quiet other old
    · rw [List.mem_singleton.mp new]
      exact hushed
  cases closing with
  | ahead before after queue quiet =>
      refine .ahead before (after ++ [job]) ?_ (extended after quiet)
      rw [queue, List.append_assoc]
      rfl
  | behind idle quiet => exact .behind idle (extended _ quiet)

theorem Closing.rests (closing : L.Closing i) (next : Prompt) (rests : L.prompt.Rests next) :
    Closing i { L with prompt := next } := by
  cases closing with
  | ahead before after queue hushed =>
      rw [← rests.issued] at queue
      exact .ahead before after queue hushed
  | behind idle hushed => exact .behind (rests.phase.trans idle) hushed

theorem Step.closing (step : Step i allowed called L M) (silent : ¬called (.setPrompt i true))
    (same : M.prompt.issued = L.prompt.issued) (closing : L.Closing i) : M.Closing i := by
  cases step with
  | rests next rests => exact closing.rests next rests
  | asks =>
      have grown : L.prompt.issued + 1 = L.prompt.issued := same
      omega
  | queues next rests job plain may =>
      refine (closing.rests next rests).append job ?_ L.due
      rcases plain with ⟨shown, rfl⟩ | ⟨tap, rfl⟩
      · cases shown with
        | false => rfl
        | true => exact absurd may silent
      · rfl
  | accepts idle a full counts =>
      cases closing with
      | ahead before after queue hushed => exact .ahead before after queue hushed
      | behind idle hushed =>
          have awaits := ((L.prompt.accepts_iff a).mp counts).2
          cases idle.symm.trans awaits
  | settles request owed => exact closing.append (.settle i request) rfl none
  | runs idle job jobs front about permitted owned next done =>
      have issued := (L.prompt.perform_frame next owned job done).2.2
      cases closing with
      | ahead before after queue hushed =>
          rw [front] at queue
          cases before with
          | nil =>
              obtain ⟨rfl, rfl⟩ := List.cons.inj queue
              obtain rfl := Option.some.inj done
              exact .behind (by simp [Prompt.settle, Prompt.vanish]) hushed
          | cons first before =>
              obtain ⟨-, rfl⟩ := List.cons.inj queue
              rw [← issued]
              exact .ahead before after rfl hushed
      | behind idle hushed =>
          rw [front] at hushed
          have first := hushed job List.mem_cons_self
          exact .behind (L.prompt.perform_idle next owned job done first idle)
            fun other member => hushed other (List.mem_cons_of_mem job member)

theorem Path.closing (path : Path i allowed called L M) (silent : ¬called (.setPrompt i true))
    (same : M.prompt.issued = L.prompt.issued) (closing : L.Closing i) : M.Closing i := by
  induction path with
  | refl => exact closing
  | @tail between M path step ih =>
      have first := Path.issued_le path
      have second := step.issued_le
      exact step.closing silent (by omega) (ih (by omega))

theorem Closing.drained (closing : L.Closing i) (drained : L.jobs = []) :
    L.prompt.phase = .idle := by
  cases closing with
  | ahead before after queue =>
      rw [drained] at queue
      simp at queue
  | behind idle => exact idle

def Outdated (i request : Nat) (jobs : List Job) : Prop :=
  ∀ job ∈ jobs, ∃ s < request, job = .settle i s

/-- The newest request is still to be published, or it is open. Only settlings of older requests
come after it. -/
inductive Ripens (i request : Nat) (visuals : Visuals) (L : Lane) : Prop
  | ahead (before after : List Job) (queue : L.jobs = before ++ .publish i request visuals :: after)
      (behind : L.prompt.published < request)
      (older : ∀ j r v, .publish j r v ∈ before → r < request) (outdated : Outdated i request after)
  | opened (published : L.prompt.published = request) (visible : L.prompt.visuals.value = visuals)
      (awaits : L.prompt.phase = .awaitingInput) (outdated : Outdated i request L.jobs)

structure Opening (i request : Nat) (visuals : Visuals) (L : Lane) : Prop where
  newest : L.prompt.issued = request
  stale (a : Answer) : L.prompt.mailbox = some a → a.request < request
  due (s : Nat) : L.due = some s → s < request
  ripens : L.Ripens i request visuals

theorem Outdated.append {request : Nat} {jobs : List Job} (outdated : Outdated i request jobs)
    (s : Nat) (less : s < request) : Outdated i request (jobs ++ [.settle i s]) := by
  intro job member
  rcases List.mem_append.mp member with before | last
  · exact outdated job before
  · exact ⟨s, less, List.mem_singleton.mp last⟩

/-- The front job of a lane that opens runs: it is an older one, it publishes the newest request, or
it settles an older one in vain. -/
theorem Ripens.runs {request : Nat} {visuals : Visuals} (ripens : L.Ripens i request visuals)
    (newest : L.prompt.issued = request) (asks : visuals.isEmpty = false) (job : Job)
    (jobs : List Job) (front : L.jobs = job :: jobs) (owned : Bool) (next : Prompt)
    (done : L.prompt.perform? owned job = some next) :
    Ripens i request visuals { L with prompt := next, jobs } := by
  cases ripens with
  | ahead before after queue behind older outdated =>
      rw [front] at queue
      cases before with
      | nil =>
          obtain ⟨rfl, rfl⟩ := List.cons.inj queue
          obtain rfl := Option.some.inj done
          obtain ⟨shown, phase, same⟩ := L.prompt.publish_eq request visuals
          refine .opened ?_ ?_ ?_ outdated
          · rw [same]
          · rw [same, Cell.value_publish]
          · rw [Prompt.phase_publish, asks]
            rfl
      | cons first before =>
          obtain ⟨rfl, rfl⟩ := List.cons.inj queue
          have rest (j r : Nat) (v : Visuals) (member : Job.publish j r v ∈ before) : r < request :=
            older j r v (List.mem_cons_of_mem job member)
          refine .ahead before after rfl ?_ rest outdated
          by_cases publish : ∃ j r v, job = .publish j r v
          · obtain ⟨j, r, v, rfl⟩ := publish
            obtain rfl := Option.some.inj done
            obtain ⟨shown, phase, same⟩ := L.prompt.publish_eq r v
            rw [same]
            exact older j r v List.mem_cons_self
          · rw [(L.prompt.perform_published next owned job done
              fun j r v same => publish ⟨j, r, v, same⟩).1]
            exact behind
  | opened published visible awaits outdated =>
      rw [front] at outdated
      obtain ⟨s, less, rfl⟩ := outdated job List.mem_cons_self
      obtain rfl := Option.some.inj done
      have vain : L.prompt.settle s = L.prompt := by
        rw [Prompt.settle, if_neg (by omega)]
      rw [vain]
      exact .opened published visible awaits
        fun other member => outdated other (List.mem_cons_of_mem _ member)

theorem Ripens.before_offer {request : Nat} {visuals : Visuals}
    (ripens : L.Ripens i request visuals) (j : Nat) (tap : Tap) (jobs : List Job)
    (front : L.jobs = .offer j tap :: jobs) : L.prompt.published < request := by
  cases ripens with
  | ahead before after queue behind => exact behind
  | opened published visible awaits outdated =>
      rw [front] at outdated
      obtain ⟨s, -, same⟩ := outdated _ List.mem_cons_self
      cases same

theorem Step.opening {request : Nat} {visuals : Visuals} (step : Step i allowed called L M)
    (silent : ∀ job, job.ofCall i → ¬called job) (asks : visuals.isEmpty = false)
    (opening : L.Opening i request visuals) : M.Opening i request visuals := by
  cases step with
  | rests next rests =>
      refine ⟨rests.issued.trans opening.newest, ?_, opening.due, ?_⟩
      · intro a full
        rcases rests.mailbox with empty | same
        · rw [empty] at full
          cases full
        · exact opening.stale a (same ▸ full)
      · cases opening.ripens with
        | ahead before after queue behind older outdated =>
            exact .ahead before after queue (rests.published ▸ behind) older outdated
        | opened published visible awaits outdated =>
            exact .opened (rests.published.trans published)
              ((congrArg Cell.value rests.visuals).trans visible) (rests.phase.trans awaits)
              outdated
  | asks visuals parked may => exact absurd may (silent _ rfl)
  | queues next rests job plain may =>
      rcases plain with ⟨shown, rfl⟩ | ⟨tap, rfl⟩
      · exact absurd may (silent _ rfl)
      · exact absurd may (silent _ rfl)
  | accepts idle a full counts =>
      have older := opening.stale a full
      have newest := opening.newest
      have accepted := ((L.prompt.accepts_iff a).mp counts).1
      omega
  | settles s owed =>
      have less := opening.due s owed
      refine ⟨opening.newest, opening.stale, nofun, ?_⟩
      cases opening.ripens with
      | ahead before after queue behind older outdated =>
          refine .ahead before (after ++ [.settle i s]) ?_ behind older (outdated.append s less)
          rw [queue, List.append_assoc]
          rfl
      | opened published visible awaits outdated =>
          exact .opened published visible awaits (outdated.append s less)
  | runs idle job jobs front about permitted owned next done later posted =>
      have issued := (L.prompt.perform_frame next owned job done).2.2
      have ripens := opening.ripens.runs opening.newest asks job jobs front owned next done
      refine ⟨issued.trans opening.newest, ?_, opening.due, ripens⟩
      intro a full
      rcases L.prompt.perform_mailbox next owned job done with same | ⟨⟨j, tap, rfl⟩, published⟩
      · exact opening.stale a (same ▸ full)
      · have behind := opening.ripens.before_offer j tap jobs front
        have answered := posted a full
        omega

theorem Path.opening {request : Nat} {visuals : Visuals} (path : Path i allowed called L M)
    (silent : ∀ job, job.ofCall i → ¬called job) (asks : visuals.isEmpty = false)
    (opening : L.Opening i request visuals) : M.Opening i request visuals := by
  induction path with
  | refl => exact opening
  | tail _ step ih => exact step.opening silent asks ih

theorem Opening.drained {request : Nat} {visuals : Visuals}
    (opening : L.Opening i request visuals) (drained : L.jobs = []) :
    L.prompt.published = request ∧ L.prompt.visuals.value = visuals ∧
      L.prompt.phase = .awaitingInput := by
  cases opening.ripens with
  | ahead before after queue =>
      rw [drained] at queue
      simp at queue
  | opened published visible awaits => exact ⟨published, visible, awaits⟩

/-- A caller is parked at a prompt whose newest request is published, and was not the sentinel, but
is not open. -/
structure Stranded (L : Lane) : Prop where
  parked : L.prompt.parked ≠ none
  current : L.prompt.published = L.prompt.issued
  visible : L.prompt.visuals.value.isEmpty = false
  shut : L.prompt.phase ≠ .awaitingInput

/-- A job that runs strands no caller, unless it hides the prompt for a call: a request that is
published opens the prompt, and a settling is not for the request that the caller waits for. -/
theorem stranded_of_ran (kept : L.Kept i) (job : Job) (jobs : List Job)
    (front : L.jobs = job :: jobs) (about : job.prompt? = some i) (spared : job ≠ .setPrompt i false)
    (owned : Bool) (next : Prompt) (done : L.prompt.perform? owned job = some next)
    (stranded : Stranded { L with prompt := next, jobs }) :
    L.Stranded ∧ next.published = L.prompt.published := by
  obtain ⟨parked, current, visible, shut⟩ := stranded
  have frame := (L.prompt.perform_frame next owned job done).2
  have same (phase : next.phase = L.prompt.phase)
      (cells : next.published = L.prompt.published ∧ next.visuals = L.prompt.visuals) :
      L.Stranded ∧ next.published = L.prompt.published := by
    refine ⟨⟨frame.1 ▸ parked, ?_, cells.2 ▸ visible, phase ▸ shut⟩, cells.1⟩
    rw [← cells.1, ← frame.2]
    exact current
  cases job with
  | publish j request visuals =>
      obtain rfl := Option.some.inj done
      obtain ⟨shown, phase, made⟩ := L.prompt.publish_eq request visuals
      rw [made] at visible
      have asks : visuals.isEmpty = false := visible
      exact absurd (by rw [Prompt.phase_publish, asks]; rfl) shut
  | setPrompt j shown =>
      obtain rfl : j = i := Option.some.inj about
      cases shown with
      | false => exact absurd rfl spared
      | true =>
          obtain rfl := Option.some.inj done
          have cells := L.prompt.perform_published _ owned (.setPrompt j true) rfl nofun
          have asks : L.prompt.visuals.value.isEmpty = false := cells.2 ▸ visible
          exact absurd (by simp [Prompt.appear, asks]) shut
  | settle j request =>
      obtain rfl : j = i := Option.some.inj about
      obtain rfl := Option.some.inj done
      have owes : L.Owes j request := .inr (front ▸ List.mem_cons_self)
      have older : L.prompt.issued ≠ request := by
        rintro rfl
        exact parked (frame.1.trans (kept.alone owes))
      have vain : L.prompt.settle request = L.prompt := by
        rw [Prompt.settle, if_neg older]
      exact same (congrArg Prompt.phase vain)
        ⟨congrArg Prompt.published vain, congrArg Prompt.visuals vain⟩
  | offer j tap =>
      rcases L.prompt.perform_cases next owned _ done with
        ⟨_, _, _, other, -⟩ | ⟨_, _, -, other, -⟩ | ⟨_, _, mailbox, -, rfl, -⟩
      · cases other
      · exact absurd rfl (other j tap)
      · exact same rfl ⟨rfl, rfl⟩
  | _ => cases about

theorem Step.stranded (step : Step i allowed called L M) (spared : ¬allowed (.setPrompt i false))
    (kept : L.Kept i) (stranded : M.Stranded) :
    L.Stranded ∧ M.prompt.published = L.prompt.published := by
  have rested (next : Prompt) (rests : L.prompt.Rests next) (parked : next.parked ≠ none)
      (current : next.published = next.issued) (visible : next.visuals.value.isEmpty = false)
      (shut : next.phase ≠ .awaitingInput) :
      L.Stranded ∧ next.published = L.prompt.published := by
    refine ⟨⟨?_, ?_, ?_, ?_⟩, rests.published⟩
    · rcases rests.parked with gone | same
      · exact absurd gone parked
      · exact same ▸ parked
    · rw [← rests.published, ← rests.issued]
      exact current
    · exact rests.visuals ▸ visible
    · exact rests.phase ▸ shut
  obtain ⟨parked, current, visible, shut⟩ := stranded
  cases step with
  | rests next rests | queues next rests => exact rested next rests parked current visible shut
  | asks =>
      have bound := kept.bound
      have grown : L.prompt.published = L.prompt.issued + 1 := current
      omega
  | accepts => exact absurd rfl parked
  | settles => exact ⟨⟨parked, current, visible, shut⟩, rfl⟩
  | runs idle job jobs front about permitted owned next done =>
      apply stranded_of_ran kept job jobs front about _ owned next done
      · exact ⟨parked, current, visible, shut⟩
      · rintro rfl
        exact spared permitted

end Lane

end ModalHost
