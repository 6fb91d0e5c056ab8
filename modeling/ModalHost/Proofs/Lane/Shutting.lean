import ModalHost.Proofs.Strand.Awaiting

/-! How a lane goes on when the caller of its newest request has left: a prompt without hooks is
hidden unless something shows it again, nothing newer is hidden by that, and a prompt that is up
stays up for the answer. -/

namespace ModalHost

namespace Lane

variable {i request : Nat} {allowed called : Job → Prop} {L M : Lane}

/-- The lane of a prompt that is to be hidden: nothing that opens the prompt comes after the job
that hides it. -/
inductive Shutting (i : Nat) (L : Lane) : Prop
  | ahead (before after : List Job) (queue : L.jobs = before ++ .setPrompt i false :: after)
      (hushed : ∀ job ∈ after, job.opens = false)
  | behind (idle : L.prompt.phase = .idle) (hushed : ∀ job ∈ L.jobs, job.opens = false)

theorem hushed_concat {jobs : List Job} (hushed : ∀ job ∈ jobs, job.opens = false) (job : Job)
    (quiet : job.opens = false) : ∀ other ∈ jobs ++ [job], other.opens = false := by
  intro other member
  rcases List.mem_append.mp member with old | new
  · exact hushed other old
  · rw [List.mem_singleton.mp new]
    exact quiet

theorem Shutting.append (shutting : L.Shutting i) (job : Job) (quiet : job.opens = false)
    (next : Prompt) (phase : next.phase = L.prompt.phase) (due : Option Nat) :
    Shutting i ⟨next, L.jobs ++ [job], due⟩ := by
  cases shutting with
  | ahead before after queue hushed =>
      refine .ahead before (after ++ [job]) ?_ (hushed_concat hushed job quiet)
      rw [queue, List.append_assoc]
      rfl
  | behind idle hushed => exact .behind (phase.trans idle) (hushed_concat hushed job quiet)

theorem Step.shutting (step : Step i allowed called L M)
    (silent : ∀ job, job.prompt? = some i → called job → job.opens = false)
    (shutting : L.Shutting i) : M.Shutting i := by
  cases step with
  | rests next rests =>
      cases shutting with
      | ahead before after queue hushed => exact .ahead before after queue hushed
      | behind idle hushed => exact .behind (rests.phase.trans idle) hushed
  | asks visuals parked may => cases silent _ rfl may
  | queues next rests job plain may =>
      refine shutting.append job (silent job ?_ may) next rests.phase L.due
      rcases plain with ⟨shown, rfl⟩ | ⟨tap, rfl⟩ <;> rfl
  | accepts idle a full counts =>
      cases shutting with
      | ahead before after queue hushed => exact .ahead before after queue hushed
      | behind idle hushed =>
          have awaits := ((L.prompt.accepts_iff a).mp counts).2
          cases idle.symm.trans awaits
  | settles request owed => exact shutting.append (.settle i request) rfl L.prompt rfl none
  | runs idle job jobs front about permitted owned next done =>
      cases shutting with
      | ahead before after queue hushed =>
          rw [front] at queue
          cases before with
          | nil =>
              obtain ⟨rfl, rfl⟩ := List.cons.inj queue
              obtain rfl := Option.some.inj done
              exact .behind rfl hushed
          | cons first before =>
              obtain ⟨-, rfl⟩ := List.cons.inj queue
              exact .ahead before after rfl hushed
      | behind idle hushed =>
          rw [front] at hushed
          have first := hushed job List.mem_cons_self
          exact .behind (L.prompt.perform_idle next owned job done first idle)
            fun other member => hushed other (List.mem_cons_of_mem job member)

theorem Path.shutting (path : Path i allowed called L M)
    (silent : ∀ job, job.prompt? = some i → called job → job.opens = false)
    (shutting : L.Shutting i) : M.Shutting i := by
  induction path with
  | refl => exact shutting
  | tail _ step ih => exact step.shutting silent ih

theorem Shutting.drained (shutting : L.Shutting i) (drained : L.jobs = []) :
    L.prompt.phase = .idle := by
  cases shutting with
  | ahead before after queue =>
      rw [drained] at queue
      simp at queue
  | behind idle => exact idle

structure Fenced (i request : Nat) (before after : List Job) (L : Lane) : Prop where
  queue : L.jobs = before ++ after
  older (j r : Nat) (v : Visuals) : .publish j r v ∈ before → r ≤ request
  behind : before ≠ [] → L.prompt.published ≤ request

theorem Fenced.append {before after : List Job} (fenced : L.Fenced i request before after)
    (job : Job) (next : Prompt) (published : next.published = L.prompt.published)
    (due : Option Nat) : Fenced i request before (after ++ [job]) ⟨next, L.jobs ++ [job], due⟩ where
  queue := by rw [fenced.queue, List.append_assoc]
  older := fenced.older
  behind more := published ▸ fenced.behind more

theorem Fenced.grows {before after : List Job} (fenced : L.Fenced i request before after)
    (path : Path i (fun _ => False) called L M) : ∃ after, M.Fenced i request before after := by
  induction path with
  | refl => exact ⟨after, fenced⟩
  | @tail between M path step ih =>
      obtain ⟨after, fenced⟩ := ih
      cases step with
      | rests next rests =>
          exact ⟨after, fenced.queue, fenced.older,
            fun more => rests.published ▸ fenced.behind more⟩
      | asks visuals parked =>
          exact ⟨_, fenced.append (.publish i (between.prompt.issued + 1) visuals)
            { between.prompt with issued := between.prompt.issued + 1, parked } rfl between.due⟩
      | queues next rests job plain =>
          exact ⟨_, fenced.append job next rests.published between.due⟩
      | accepts => exact ⟨after, fenced.queue, fenced.older, fenced.behind⟩
      | settles answered owed =>
          exact ⟨_, fenced.append (.settle i answered) between.prompt rfl none⟩
      | runs idle job jobs front about permitted => exact permitted.elim

theorem Fenced.runs {before after : List Job} (fenced : L.Fenced i request before after) (job : Job)
    (jobs : List Job) (front : L.jobs = job :: jobs) (owned : Bool) (next : Prompt)
    (done : L.prompt.perform? owned job = some next) (due : Option Nat) :
    ∃ after, Fenced i request before.tail after ⟨next, jobs, due⟩ := by
  have queue := front.symm.trans fenced.queue
  cases before with
  | nil => exact ⟨jobs, rfl, nofun, fun more => absurd rfl more⟩
  | cons first before =>
      obtain ⟨rfl, rfl⟩ := List.cons.inj queue
      refine ⟨after, rfl,
        fun j r v member => fenced.older j r v (List.mem_cons_of_mem job member), fun _ => ?_⟩
      by_cases publish : ∃ j r v, job = .publish j r v
      · obtain ⟨j, r, v, rfl⟩ := publish
        obtain rfl := Option.some.inj done
        obtain ⟨shown, phase, same⟩ := L.prompt.publish_eq r v
        rw [same]
        exact fenced.older j r v List.mem_cons_self
      · rw [(L.prompt.perform_published next owned job done
          fun j r v same => publish ⟨j, r, v, same⟩).1]
        exact fenced.behind (List.cons_ne_nil job before)

theorem Path.unparked (path : Path i allowed called L M)
    (same : M.prompt.issued = L.prompt.issued) (free : L.prompt.parked = none) :
    M.prompt.parked = none := by
  induction path with
  | refl => exact free
  | @tail between M path step ih =>
      have first := Path.issued_le path
      have second := step.issued_le
      have before := ih (by omega)
      cases step with
      | rests next rests | queues next rests =>
          exact rests.parked.elim id fun kept => kept.trans before
      | asks =>
          have grown : between.prompt.issued + 1 = L.prompt.issued := same
          omega
      | accepts => rfl
      | settles => exact before
      | runs idle job jobs front about permitted owned next done =>
          exact (between.prompt.perform_frame next owned job done).2.1.trans before

theorem Step.owes (step : Step i allowed called L M) (owes : M.Owes i request) :
    L.Owes i request ∨ M.due = some request := by
  cases step with
  | rests => exact .inl owes
  | asks visuals parked => exact .inl (owes.of_append rfl _ rfl nofun)
  | queues next rests job plain =>
      refine .inl (owes.of_append rfl job rfl fun s => ?_)
      rcases plain with ⟨shown, rfl⟩ | ⟨tap, rfl⟩ <;> nofun
  | accepts => exact owes.symm.imp .inr id
  | settles answered owed => exact .inl (owes.of_settled owed)
  | runs idle job jobs front => exact .inl (owes.of_front front)

structure Up (request : Nat) (L : Lane) : Prop where
  newest : L.prompt.issued = request
  published : L.prompt.published = request
  awaits : L.prompt.phase = .awaitingInput

theorem Up.runs (up : L.Up request) (unowed : ¬L.Owes i request) (job : Job) (jobs : List Job)
    (front : L.jobs = job :: jobs) (about : job.prompt? = some i) (spared : job.directs i = false)
    (owned : Bool) (next : Prompt) (done : L.prompt.perform? owned job = some next) :
    next.phase = L.prompt.phase ∧ next.published = L.prompt.published := by
  cases job with
  | publish j r v | setPrompt j shown =>
      obtain rfl := Option.some.inj about
      simp [Job.directs] at spared
  | settle j r =>
      obtain rfl := Option.some.inj about
      obtain rfl := Option.some.inj done
      have older : L.prompt.issued ≠ r := by
        rintro rfl
        exact unowed (.inr (up.newest ▸ front ▸ List.mem_cons_self))
      rw [Prompt.settle, if_neg older]
      exact ⟨rfl, rfl⟩
  | offer j tap =>
      rcases L.prompt.perform_cases next owned _ done with
        ⟨_, _, _, other, -⟩ | ⟨_, _, -, other, -⟩ | ⟨_, _, mailbox, -, rfl, -⟩
      · cases other
      · exact absurd rfl (other j tap)
      · exact ⟨rfl, rfl⟩
  | _ => cases about

theorem Step.up (step : Step i allowed called L M)
    (spared : ∀ job, allowed job → job.directs i = false) (newest : M.prompt.issued = request)
    (undue : M.due ≠ some request) (unowed : ¬L.Owes i request) (up : L.Up request) :
    M.Up request := by
  cases step with
  | rests next rests | queues next rests =>
      exact ⟨newest, rests.published.trans up.published, rests.phase.trans up.awaits⟩
  | asks =>
      have grown : L.prompt.issued + 1 = request := newest
      have now := up.newest
      omega
  | accepts idle a full counts =>
      exact absurd (congrArg some (((L.prompt.accepts_iff a).mp counts).1.trans up.newest)) undue
  | settles => exact ⟨newest, up.published, up.awaits⟩
  | runs idle job jobs front about permitted owned next done =>
      obtain ⟨phase, published⟩ :=
        up.runs unowed job jobs front about (spared job permitted) owned next done
      exact ⟨newest, published.trans up.published, phase.trans up.awaits⟩

end Lane

namespace Strand

variable {i request : Nat} {allowed further : Job → Prop} {σ ρ τ : Strand}

theorem due_withdraw (p : Prompt) (asked : Nat) : (σ.withdraw i p asked).due = σ.due := by
  rcases withdraw_cases (i := i) (σ := σ) p asked with ⟨same, -⟩ | ⟨-, same | same | same⟩ <;>
    rw [same]
  rfl

theorem Step.due_of_unanswered (step : Step i allowed σ τ)
    (unanswered : ModalHost.acceptances i request τ.log = ModalHost.acceptances i request σ.log)
    (before : σ.due ≠ some request) : τ.due ≠ some request := by
  cases step with
  | accepted idle p present a full counts =>
      rintro ⟨⟩
      dsimp only at unanswered
      rw [acceptances_delivery, if_pos rfl] at unanswered
      omega
  | withdrawn p present c caller =>
      intro owed
      exact before ((due_withdraw p caller.request).symm.trans owed)
  | settled => nofun
  | _ => exact before

theorem Path.unanswered (first : Path i allowed σ ρ) (second : Path i further ρ τ)
    (unanswered : ModalHost.acceptances i request τ.log = ModalHost.acceptances i request σ.log) :
    ModalHost.acceptances i request ρ.log = ModalHost.acceptances i request σ.log :=
  Nat.le_antisymm (unanswered ▸ second.log_grows.sublist.countP_le)
    (Path.log_grows first).sublist.countP_le

theorem Path.unowed (path : Path i allowed σ τ) (reachable : Reachable i σ) (p q : Prompt)
    (present : σ.prompt = some p) (after : τ.prompt = some q)
    (live : τ.isCancelled q.scope = false)
    (unanswered : ModalHost.acceptances i request τ.log = ModalHost.acceptances i request σ.log)
    (unowed : ¬(σ.lane p).Owes i request) : ¬(τ.lane q).Owes i request := by
  induction path generalizing q with
  | refl =>
      obtain rfl := Option.some.inj (present.symm.trans after)
      exact unowed
  | @tail ρ τ path step ih =>
      obtain ⟨r, there, -⟩ := Path.goesOn path reachable p present
      obtain ⟨next, here, home⟩ := step.prompt_stays r there
      obtain rfl := Option.some.inj (here.symm.trans after)
      obtain ⟨s, now, -, lane⟩ := step.lane (Path.reachable path reachable) r there (home ▸ live)
      obtain rfl := Option.some.inj (now.symm.trans after)
      have counts := Path.unanswered path (.single step) unanswered
      have before := ih r there (step.persist.live (home ▸ live)) counts
      intro owes
      rcases lane.owes owes with owed | due
      · exact before owed
      · exact step.due_of_unanswered (unanswered.trans counts.symm)
          (fun due => before (.inl due)) due

/-- A prompt that is up stays up along a path on which no job publishes, shows or hides it, no newer
request is handed out, and no answer is accepted. -/
theorem Path.up (path : Path i allowed σ τ) (reachable : Reachable i σ)
    (spared : ∀ job, allowed job → job.directs i = false) (p q : Prompt)
    (present : σ.prompt = some p) (after : τ.prompt = some q) (newest : q.issued = request)
    (live : τ.isCancelled q.scope = false)
    (unanswered : ModalHost.acceptances i request τ.log = ModalHost.acceptances i request σ.log)
    (unowed : ¬(σ.lane p).Owes i request) (up : (σ.lane p).Up request) :
    (τ.lane q).Up request := by
  induction path generalizing q with
  | refl =>
      obtain rfl := Option.some.inj (present.symm.trans after)
      exact up
  | @tail ρ τ path step ih =>
      obtain ⟨r, there, course⟩ := Path.goesOn path reachable p present
      have reached := Path.reachable path reachable
      obtain ⟨next, here, home⟩ := step.prompt_stays r there
      obtain rfl := Option.some.inj (here.symm.trans after)
      have goes := step.goesOn reached.moored reached.scheduled r next there after
      have mid : r.issued = request :=
        Nat.le_antisymm (newest ▸ goes.issued) (up.newest ▸ course.issued)
      have counts := Path.unanswered path (.single step) unanswered
      have alive := step.persist.live (home ▸ live)
      have idle := Path.unowed path reachable p r present there alive counts unowed
      obtain ⟨s, now, -, lane⟩ := step.lane reached r there (home ▸ live)
      obtain rfl := Option.some.inj (now.symm.trans after)
      exact lane.up spared newest
        (step.due_of_unanswered (unanswered.trans counts.symm) fun due => idle (.inl due)) idle
        (ih r there mid alive counts)

end Strand

end ModalHost
