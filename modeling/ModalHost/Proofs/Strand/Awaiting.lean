import ModalHost.Proofs.Lane.Runs
import ModalHost.Proofs.Strand.Answers

/-! A prompt that waits for the answer to its newest request waits for it until an answer is accepted,
and no answer counts after that, unless requests are handed out or calls show or hide the prompt. -/

namespace ModalHost

def Tap.aims (tap : Tap) (request : Nat) : Bool := tap.picture.all (·.request == request)

/-- Whether a job is for the screen of a prompt: it publishes a request, or a call shows or hides the
prompt. -/
def Job.directs (i : Nat) : Job → Bool
  | .publish j _ _ | .setPrompt j _ => j == i
  | _ => false

theorem Prompt.answer_request (p : Prompt) (tap : Tap) :
    (p.answer tap).request = p.published ↔ tap.aims p.published = true := by
  unfold Prompt.answer Tap.aims
  cases tap.picture <;> simp

namespace Strand

structure Awaits (i request : Nat) (σ : Strand) (p : Prompt) : Prop where
  present : σ.prompt = some p
  newest : p.issued = request
  published : p.published = request
  phase : p.phase = .awaitingInput
  letter (a : Answer) : p.mailbox = some a → (a.request = request ↔ a.tap.aims request = true)
  unsettled : .settle i request ∉ σ.queued p.scope
  due : σ.due ≠ some request

variable {i request : Nat} {allowed : Job → Prop} {σ τ : Strand} {p q : Prompt}

theorem Awaits.keep (awaits : σ.Awaits i request p) (after : τ.prompt = some q)
    (issued : q.issued = p.issued) (published : q.published = p.published)
    (phase : q.phase = p.phase) (mailbox : q.mailbox = none ∨ q.mailbox = p.mailbox)
    (queue : .settle i request ∈ τ.queued q.scope → .settle i request ∈ σ.queued p.scope)
    (due : τ.due = some request → σ.due = some request) : τ.Awaits i request q where
  present := after
  newest := issued.trans awaits.newest
  published := published.trans awaits.published
  phase := phase.trans awaits.phase
  letter a full := by
    rcases mailbox with none | same
    · rw [none] at full
      cases full
    · exact awaits.letter a (same ▸ full)
  unsettled member := awaits.unsettled (queue member)
  due owed := awaits.due (due owed)

theorem settle_of_launch (scope other : Nat) (job : Job) (plain : job ≠ .settle i request)
    (member : .settle i request ∈ (σ.launch scope job).queued other) :
    .settle i request ∈ σ.queued other := by
  rw [queued_launch] at member
  split at member
  · rcases List.mem_append.mp member with old | new
    · exact old
    · exact absurd (List.mem_singleton.mp new).symm plain
  · exact member

theorem Awaits.withdraw (awaits : σ.Awaits i request p) (asked : Nat)
    (live : σ.isCancelled p.scope = false) (after : (σ.withdraw i p asked).prompt = some q) :
    (σ.withdraw i p asked).Awaits i request q := by
  have plain : Job.setPrompt i false ≠ .settle i request := by
    rintro ⟨⟩
  revert after
  unfold Strand.withdraw Strand.relinquish
  rw [live]
  split
  · split
    · rintro ⟨⟩
      exact awaits.keep rfl rfl rfl rfl (.inr rfl) id id
    · rintro ⟨⟩
      exact awaits.keep rfl rfl rfl rfl (.inr rfl)
        (settle_of_launch (σ := { σ with prompt := _ }) _ _ _ plain) id
  · intro there
    obtain rfl := Option.some.inj (awaits.present.symm.trans there)
    exact awaits

theorem Awaits.ran {owned : Bool} {job : Job} {jobs : List Job} (awaits : σ.Awaits i request p)
    (about : job.prompt? = some i) (queue : σ.queued p.scope = job :: jobs)
    (after : τ.prompt = some q) (popped : τ.queued q.scope = jobs) (due : τ.due = σ.due)
    (spared : job.directs i = false) (done : p.perform? owned job = some q) :
    τ.Awaits i request q := by
  have later (member : .settle i request ∈ τ.queued q.scope) :
      .settle i request ∈ σ.queued p.scope :=
    queue ▸ List.mem_cons_of_mem job (popped ▸ member)
  have owes (owed : τ.due = some request) : σ.due = some request := due ▸ owed
  cases job with
  | offer j tap =>
      simp only [Prompt.perform?] at done
      split at done
      · obtain rfl := Option.some.inj done
        exact awaits.keep after rfl rfl rfl (.inr rfl) later owes
      · split at done
        · cases done
        · obtain rfl := Option.some.inj done
          refine ⟨after, awaits.newest, awaits.published, awaits.phase, ?_,
            fun member => awaits.unsettled (later member), fun owed => awaits.due (owes owed)⟩
          rintro a ⟨⟩
          rw [← awaits.published]
          exact p.answer_request tap
  | settle j s =>
      obtain rfl : j = i := Option.some.inj about
      have other : s ≠ request := by
        rintro rfl
        exact awaits.unsettled (queue ▸ List.mem_cons_self)
      obtain rfl : p = q := by
        rw [← show p.settle s = p from if_neg (awaits.newest ▸ other.symm)]
        exact Option.some.inj done
      exact awaits.keep after rfl rfl rfl (.inr rfl) later owes
  | publish j s visuals =>
      obtain rfl : j = i := Option.some.inj about
      simp [Job.directs] at spared
  | setPrompt j shown =>
      obtain rfl : j = i := Option.some.inj about
      simp [Job.directs] at spared
  | _ => cases about

theorem Step.awaits (step : Step i allowed σ τ) (moored : Moored i σ)
    (spared : ∀ job, allowed job → job.directs i = false) (awaits : σ.Awaits i request p)
    (after : τ.prompt = some q) (newest : q.issued = request)
    (live : τ.isCancelled q.scope = false)
    (unanswered : ModalHost.acceptances i request τ.log = ModalHost.acceptances i request σ.log) :
    τ.Awaits i request q := by
  have same (r : Prompt) (there : σ.prompt = some r) : r = p :=
    Option.some.inj (there.symm.trans awaits.present)
  obtain ⟨next, here, home⟩ := step.prompt_stays p awaits.present
  obtain rfl := Option.some.inj (here.symm.trans after)
  have alive : σ.isCancelled p.scope = false := step.persist.live (home ▸ live)
  cases step with
  | opened absent =>
      rw [awaits.present] at absent
      cases absent
  | asked r there visuals waiting =>
      obtain rfl := same r there
      obtain rfl := Option.some.inj after
      have old := awaits.newest
      dsimp only at newest
      omega
  | withdrawn r there c caller found own waits ending cause =>
      obtain rfl := same r there
      have cleared := awaits.withdraw caller.request alive after
      exact cleared.keep after rfl rfl rfl (.inr rfl) id id
  | resumed r there =>
      obtain rfl := same r there
      obtain rfl := Option.some.inj (awaits.present.symm.trans after)
      exact awaits.keep after rfl rfl rfl (.inr rfl) id id
  | queued r there job may =>
      obtain rfl := same r there
      obtain rfl := Option.some.inj (awaits.present.symm.trans after)
      refine awaits.keep after rfl rfl rfl (.inr rfl) (settle_of_launch _ _ job ?_) id
      rintro rfl
      cases may
  | tended r there hooks handle =>
      obtain rfl := same r there
      obtain rfl := Option.some.inj after
      exact awaits.keep rfl rfl rfl rfl (.inr rfl) id id
  | cancelled root =>
      obtain rfl := Option.some.inj (awaits.present.symm.trans after)
      refine awaits.keep after rfl rfl rfl (.inr rfl) ?_ id
      intro member
      rcases queued_cancel σ root p.scope _ with empty | same
      · rw [empty] at member
        cases member
      · rwa [same] at member
  | branched above known =>
      obtain rfl := Option.some.inj (awaits.present.symm.trans after)
      refine awaits.keep after rfl rfl rfl (.inr rfl) ?_ id
      intro member
      rwa [queued_branch] at member
  | ran idle r there lineage job jobs front permitted made done =>
      obtain rfl := same r there
      obtain rfl := Option.some.inj after
      have queue := front_of_scope _ _ _ _ front
      have popped := queued_pop σ r.scope made.scope jobs _ front (some made)
      rw [if_pos home] at popped
      exact awaits.ran (moored.jobs r.scope job (queue ▸ List.mem_cons_self)).1 queue rfl popped
        rfl (spared job permitted) done
  | refused idle r there a full stale =>
      obtain rfl := same r there
      obtain rfl := Option.some.inj after
      exact awaits.keep rfl rfl rfl rfl (.inl rfl) id id
  | accepted idle r there a full counts =>
      obtain rfl := same r there
      have current := ((Prompt.accepts_iff r a).mp counts).1.trans awaits.newest
      dsimp only at unanswered
      rw [acceptances_delivery, if_pos current] at unanswered
      omega
  | settled r there s owed =>
      obtain rfl := same r there
      obtain rfl := Option.some.inj (awaits.present.symm.trans after)
      refine awaits.keep after rfl rfl rfl (.inr rfl) ?_ (by rintro ⟨⟩)
      refine settle_of_launch (σ := { σ with due := none }) r.scope r.scope (.settle i s) ?_
      rintro ⟨⟩
      exact awaits.due owed
  | pictured =>
      obtain rfl := Option.some.inj (awaits.present.symm.trans after)
      exact awaits.keep after rfl rfl rfl (.inr rfl) id id
  | elsewhere =>
      obtain rfl := Option.some.inj (awaits.present.symm.trans after)
      exact awaits.keep after rfl rfl rfl (.inr rfl) id id

theorem Path.awaits (path : Path i allowed σ τ) (reachable : Reachable i σ)
    (spared : ∀ job, allowed job → job.directs i = false) (awaits : σ.Awaits i request p)
    (after : τ.prompt = some q) (newest : q.issued = request)
    (live : τ.isCancelled q.scope = false)
    (unanswered : ModalHost.acceptances i request τ.log = ModalHost.acceptances i request σ.log) :
    τ.Awaits i request q := by
  induction path generalizing q with
  | refl =>
      obtain rfl := Option.some.inj (awaits.present.symm.trans after)
      exact awaits
  | @tail ρ τ path step ih =>
      obtain ⟨r, there, course⟩ := Path.goesOn path reachable p awaits.present
      have reached := Path.reachable path reachable
      obtain ⟨next, here, home⟩ := step.prompt_stays r there
      obtain rfl := Option.some.inj (here.symm.trans after)
      have goes := step.goesOn reached.moored reached.scheduled r next there after
      have mid : r.issued = request :=
        Nat.le_antisymm (newest ▸ goes.issued) (awaits.newest ▸ course.issued)
      have counts : ModalHost.acceptances i request ρ.log =
          ModalHost.acceptances i request σ.log :=
        Nat.le_antisymm (unanswered ▸ step.log_grows.sublist.countP_le)
          (Path.log_grows path).sublist.countP_le
      exact step.awaits reached.moored spared
        (ih there mid (step.persist.live (home ▸ live)) counts) after newest live
        (unanswered.trans counts.symm)

end Strand

theorem Lane.Path.issued {i : Nat} {allowed called : Job → Prop} {L M : Lane}
    (path : Lane.Path i allowed called L M)
    (quiet : ∀ request visuals, ¬called (.publish i request visuals)) :
    M.prompt.issued = L.prompt.issued := by
  induction path with
  | refl => rfl
  | tail _ step ih =>
      refine Eq.trans ?_ ih
      cases step with
      | rests next rests => exact rests.issued
      | asks visuals parked may => exact absurd may (quiet _ _)
      | queues next rests => exact rests.issued
      | accepts | settles => rfl
      | runs idle job jobs front about permitted owned next done =>
          exact (Prompt.perform_frame _ next owned job done).2.2

namespace Host

variable {h next : Host} {i : Nat}

theorem RunsWithout.path {kind : Job → Prop} (run : RunsWithout kind h next)
    (reachable : h.Reachable) : Strand.Path i (¬kind ·) (h.strand i none) (next.strand i none) := by
  have both : next.Reachable ∧ Strand.Path i (¬kind ·) (h.strand i none) (next.strand i none) := by
    induction run with
    | refl => exact ⟨reachable, .refl⟩
    | tail _ last ih =>
        obtain ⟨reached, path⟩ := ih
        obtain ⟨step, silent⟩ := last
        refine ⟨reached.tail step, path.trans (step.strand i reached.ledger.sound reached.woven ?_)⟩
        intro scope lineage job jobs front taken some_kind
        exact silent ⟨scope, lineage, job, jobs, front, some_kind, taken⟩
  exact both.2

end Host

end ModalHost
