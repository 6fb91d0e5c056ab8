import ModalHost.Proofs.Lane.Runs
import ModalHost.Proofs.Strand.History

/-! What becomes of a prompt after an answer to it was accepted. -/

namespace ModalHost.Host

variable {h : Host} {i : Nat}

theorem jobsOf_deliver (reachable : h.Reachable) (p : Prompt) (a : Answer)
    (accepting : h.Accepting i p a) (next : Host) (delivered : h.deliver? i = some next)
    (q : Prompt) (there : next.prompts[i]? = some q) (live : next.isCancelled q.scope = false) :
    ∃ before, next.jobsOf i q = before ++ [.settle i a.request] := by
  have step : h.Advances next := .move (.deliver i) next delivered
  have reached : next.Reachable := reachable.tail step
  have home : q.scope = p.scope := Leads.home (.single step) reachable p q accepting.present there
  have opens := reached.opens q there live
  have made := accepting.deliver.symm.trans delivered
  rw [accept_eq i p accepting.present a, Option.some.injEq] at made
  generalize ((p.hooks.on a.tap.decision).getD []).foldl call (h.heard i p a) = heard at made
  subst made
  rw [home, launch, openAt_push] at opens
  have queue : (heard.launch p.scope (.settle i a.request)).queued p.scope =
      heard.queued p.scope ++ [.settle i a.request] := by
    have pushed := queueAt_push heard.scopes p.scope p.scope (.settle i a.request)
    rwa [if_pos ⟨rfl, opens⟩] at pushed
  refine ⟨(heard.queued p.scope).filter (·.prompt? == some i), ?_⟩
  rw [jobsOf, home, queue, List.filter_append]
  simp [Job.prompt?]

theorem not_resolving_drained (reachable : h.Reachable) (p : Prompt)
    (present : h.prompts[i]? = some p) (live : h.isCancelled p.scope = false)
    (drained : h.jobsOf i p = []) : p.phase ≠ .resolving :=
  ((reachable.kept p present live).drained rfl drained).2

theorem hidden_after_answer (reachable : h.Reachable) (p : Prompt) (a : Answer)
    (accepting : h.Accepting i p a) (next later : Host) (delivered : h.deliver? i = some next)
    (run : RunsUnasked (· = .setPrompt i true) next later) (q : Prompt)
    (there : later.prompts[i]? = some q) (newest : q.issued = a.request)
    (live : later.isCancelled q.scope = false) (drained : later.jobsOf i q = []) :
    q.shown.value = false ∧ q.phase = .idle := by
  have step : h.Advances next := .move (.deliver i) next delivered
  have reached : next.Reachable := reachable.tail step
  obtain ⟨m, here, course⟩ :=
    (Leads.strand i (.single step) reachable).goesOn (reachable.woven i) p accepting.present
  have lane := run.lane reached m q here there live
  have answered : a.request = p.issued := ((p.accepts_iff a).mp accepting.counts).1
  have same : q.issued = m.issued := by
    have first := course.issued
    have second : m.issued ≤ q.issued := lane.issued_le
    omega
  have closing : (next.lane i m).Closing i := by
    have alive : next.isCancelled m.scope = false := by
      apply run.leads.live reached
      rw [← run.leads.home reached m q here there]
      exact live
    obtain ⟨before, queue⟩ := jobsOf_deliver reachable p a accepting next delivered m here alive
    rw [← newest, same] at queue
    exact .ahead before [] queue nofun
  have idle : q.phase = .idle :=
    (lane.closing (fun shows => shows rfl) same closing).drained drained
  refine ⟨?_, idle⟩
  have ended : later.Reachable := reached.trans run.leads
  have coherent := (ended.woven i).coherent q there
  rw [← Bool.not_eq_true, coherent.phase]
  exact fun open_now => open_now idle

theorem open_for_newest (reachable : h.Reachable) (p : Prompt) (present : h.prompts[i]? = some p)
    (visuals : Visuals) (asks : visuals.isEmpty = false) (before after : List Job)
    (queue : h.jobsOf i p = before ++ .publish i p.issued visuals :: after)
    (settlings : ∀ job ∈ after, ∃ s, job = .settle i s) (later : Host)
    (run : RunsUnasked (Job.ofCall i) h later) (q : Prompt) (there : later.prompts[i]? = some q)
    (live : later.isCancelled q.scope = false) (drained : later.jobsOf i q = []) :
    q.shown.value = true ∧ q.phase = .awaitingInput ∧ q.published = p.issued ∧
      q.visuals.value = visuals := by
  have lane := run.lane reachable p q present there live
  rw [run.leads.home reachable p q present there] at live
  have alive := run.leads.live reachable p.scope live
  have opening : (h.lane i p).Opening i p.issued visuals := by
    rw [← lane_strand]
    refine (reachable.woven i).opening p present (by simpa using alive) visuals before after ?_
      settlings
    rw [queued_strand]
    exact queue
  have opened := lane.opening (fun _ called => not_not_intro called) asks opening
  obtain ⟨published, visible, awaits⟩ := opened.drained drained
  have ended : later.Reachable := reachable.trans run.leads
  have coherent := (ended.woven i).coherent q there
  have awaiting : q.phase = .awaitingInput := awaits
  exact ⟨coherent.phase.mpr (by simp [awaiting]), awaits, published, visible⟩

theorem settle_outdated (p : Prompt) (present : h.prompts[i]? = some p)
    (request : Nat) (newer : p.issued ≠ request) (next : Host)
    (settles : RunsJob (· = .settle i request) h next) : next.prompts = h.prompts := by
  obtain ⟨scope, lineage, job, jobs, front, rfl, taken⟩ := settles
  have ran : next = (h.setQueue scope jobs).updatePrompt i (·.settle request) := by
    simp only [move?, dispatch?, front, runJob, Option.some.injEq] at taken
    exact taken.symm
  rw [ran, prompts_updatePrompt]
  apply modify_eq_self
  intro q here
  obtain rfl : p = q := Option.some.inj (present.symm.trans here)
  rw [Prompt.settle, if_neg newer]

/-- When no job of a prompt is left to run, no answer to it is being resolved. Once an answer was
accepted, the prompt ends hidden if no newer request is handed out and no call shows it. If a newer
request that asks something is handed out, the settling for the answer has no effect from then on,
and the prompt ends open for the newest request unless more is asked after it: `after` are the jobs
that were queued since, which are settlings only. -/
theorem resolution_hides_own_request (i : Nat) :
    (∀ (h : Host) (p : Prompt), h.Reachable → h.prompts[i]? = some p →
      h.isCancelled p.scope = false → h.jobsOf i p = [] → p.phase ≠ .resolving) ∧
    ∀ (h next : Host) (p : Prompt) (a : Answer), h.Reachable → h.Accepting i p a →
      h.deliver? i = some next →
      (∀ (later : Host) (q : Prompt), RunsUnasked (· = .setPrompt i true) next later →
        later.prompts[i]? = some q → q.issued = a.request →
        later.isCancelled q.scope = false → later.jobsOf i q = [] →
          q.shown.value = false ∧ q.phase = .idle) ∧
      ∀ (newer : Host) (m : Prompt) (visuals : Visuals) (before after : List Job),
        Leads next newer → newer.prompts[i]? = some m → a.request < m.issued →
        visuals.isEmpty = false →
        newer.jobsOf i m = before ++ .publish i m.issued visuals :: after →
        (∀ job ∈ after, ∃ s, job = .settle i s) →
          (∀ (settling settled : Host), Leads newer settling →
            RunsJob (· = .settle i a.request) settling settled →
              settled.prompts = settling.prompts) ∧
          ∀ (later : Host) (q : Prompt), RunsUnasked (Job.ofCall i) newer later →
            later.prompts[i]? = some q → later.isCancelled q.scope = false →
            later.jobsOf i q = [] →
              q.shown.value = true ∧ q.phase = .awaitingInput ∧ q.published = m.issued ∧
                q.visuals.value = visuals := by
  refine ⟨fun h p reachable present live drained =>
    not_resolving_drained reachable p present live drained, ?_⟩
  intro h next p a reachable accepting delivered
  refine ⟨fun later q run there newest live drained =>
    hidden_after_answer reachable p a accepting next later delivered run q there newest live
      drained, ?_⟩
  intro newer m visuals before after leads here handed asks queue settlings
  have reached : newer.Reachable :=
    (reachable.tail (.move (.deliver i) next delivered)).trans leads
  constructor
  · intro settling settled run settles
    obtain ⟨q, there, course⟩ := (run.strand i reached).goesOn (reached.woven i) m here
    have grown := course.issued
    exact settle_outdated q there a.request (by omega) settled settles
  · intro later q run there live drained
    exact open_for_newest reached m here visuals asks before after queue settlings later run q there
      live drained

def tapped (hooks : Hooks Call) : Host :=
  initial.run [.inl (.openDialog "d" "main" (.confirm hooks .blank)),
    .inl (.call (.showConfirm "d" (.ofTitle "One?"))), .inr (.dispatch 0),
    .inl (.call (.press (.fresh "d") .confirmed)), .inr (.dispatch 0)]

def chained : Hooks Call := ⟨"k", some [.showConfirm "d" (.ofTitle "Two?")], none⟩

theorem tapped_hides_or_chains :
    (∃ q : Prompt, ((tapped .none).run [.inr (.deliver 0), .inr (.dispatch 0)]).prompts[0]? =
      some q ∧ q.phase ≠ .resolving ∧ q.shown.value = false ∧ q.phase = .idle) ∧
    ∃ q : Prompt, ((tapped chained).run
        [.inr (.deliver 0), .inr (.dispatch 0), .inr (.dispatch 0)]).prompts[0]? = some q ∧
      q.shown.value = true ∧ q.phase = .awaitingInput ∧ q.published = 2 ∧
      q.visuals.value = .ofTitle "Two?" ∧
      ((tapped chained).run [.inr (.deliver 0), .inr (.dispatch 0)]).prompts[0]? = some q := by
  have hides := resolution_hides_own_request 0
  have reachable (hooks : Hooks Call) : (tapped hooks).Reachable := Reachable.run .refl _
  constructor
  · obtain ⟨p, a, accepting, first⟩ : ∃ p a, (tapped .none).Accepting 0 p a ∧ a.request = 1 :=
      ⟨_, _, ⟨rfl, rfl, rfl, rfl⟩, rfl⟩
    obtain ⟨q, there, newest, live, drained⟩ : ∃ q : Prompt,
        ((tapped .none).run [.inr (.deliver 0), .inr (.dispatch 0)]).prompts[0]? = some q ∧
        q.issued = 1 ∧ ((tapped .none).run [.inr (.deliver 0), .inr (.dispatch 0)]).isCancelled
          q.scope = false ∧
        ((tapped .none).run [.inr (.deliver 0), .inr (.dispatch 0)]).jobsOf 0 q = [] :=
      ⟨_, rfl, rfl, rfl, rfl⟩
    have run : RunsUnasked (· = .setPrompt 0 true) ((tapped .none).run [.inr (.deliver 0)])
        (((tapped .none).run [.inr (.deliver 0)]).run [.inr (.dispatch 0)]) := by
      apply RunsUnasked.run _ fun job => job matches .setPrompt _ _
      · rintro _ rfl
        rfl
      · decide
    have settled : ((tapped .none).run [.inr (.deliver 0), .inr (.dispatch 0)]).Reachable :=
      (reachable .none).run _
    exact ⟨q, there, hides.1 _ q settled there live drained,
      (hides.2 _ _ p a (reachable .none) accepting rfl).1 _ q run there (newest.trans first.symm)
        live drained⟩
  · obtain ⟨p, a, accepting, first⟩ : ∃ p a, (tapped chained).Accepting 0 p a ∧ a.request = 1 :=
      ⟨_, _, ⟨rfl, rfl, rfl, rfl⟩, rfl⟩
    obtain ⟨m, here, second, queue⟩ : ∃ m : Prompt,
        ((tapped chained).run [.inr (.deliver 0)]).prompts[0]? = some m ∧ m.issued = 2 ∧
        ((tapped chained).run [.inr (.deliver 0)]).jobsOf 0 m =
          [] ++ .publish 0 m.issued (.ofTitle "Two?") :: [.settle 0 1] :=
      ⟨_, rfl, rfl, rfl⟩
    obtain ⟨q, there, live, drained⟩ : ∃ q : Prompt, ((tapped chained).run
          [.inr (.deliver 0), .inr (.dispatch 0), .inr (.dispatch 0)]).prompts[0]? = some q ∧
        ((tapped chained).run
          [.inr (.deliver 0), .inr (.dispatch 0), .inr (.dispatch 0)]).isCancelled q.scope = false ∧
        ((tapped chained).run
          [.inr (.deliver 0), .inr (.dispatch 0), .inr (.dispatch 0)]).jobsOf 0 q = [] :=
      ⟨_, rfl, rfl, rfl⟩
    have run : RunsUnasked (Job.ofCall 0) ((tapped chained).run [.inr (.deliver 0)])
        (((tapped chained).run [.inr (.deliver 0)]).run
          [.inr (.dispatch 0), .inr (.dispatch 0)]) := by
      apply RunsUnasked.run _ fun job => !(job matches .settle _ _)
      · intro job called
        cases job <;> first | rfl | exact called.elim
      · decide
    have chains := (hides.2 _ _ p a (reachable chained) accepting rfl).2 _ m (.ofTitle "Two?") []
      [.settle 0 1] .refl here (by omega) (Visuals.not_isEmpty_ofTitle _) queue (by simp)
    have opens := chains.2 _ q run there live drained
    have settles : RunsJob (· = .settle 0 a.request)
        (((tapped chained).run [.inr (.deliver 0)]).run [.inr (.dispatch 0)])
        ((tapped chained).run [.inr (.deliver 0), .inr (.dispatch 0), .inr (.dispatch 0)]) :=
      ⟨0, [0], .settle 0 1, [], rfl, by rw [first], rfl⟩
    have vain := chains.1 _ _ (Leads.run _ _) settles
    rw [second] at opens
    exact ⟨q, there, opens.1, opens.2.1, opens.2.2.1, opens.2.2.2, vain ▸ there⟩

end ModalHost.Host
