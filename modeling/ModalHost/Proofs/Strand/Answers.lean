import ModalHost.Proofs.Strand.Endings
import ModalHost.Proofs.Strand.Timeline

/-! How often a request is answered: its prompt stays closed to it until a call shows it again. -/

namespace ModalHost

/-- Whether an event is the acceptance of an answer to a request. -/
def Event.answers (i request : Nat) : Event → Bool
  | .accepted j a _ => j == i && a.request == request
  | _ => false

/-- Whether an event is the acceptance of an answer that some caller was waiting for. -/
def Event.resumes (i request : Nat) : Event → Bool
  | .accepted j a resumed => j == i && a.request == request && resumed.isSome
  | _ => false

def acceptances (i request : Nat) (log : List Event) : Nat := log.countP (·.answers i request)

def resumptions (i request : Nat) (log : List Event) : Nat := log.countP (·.resumes i request)

def lastAnswered (i : Nat) : List Event → Option Nat
  | [] => none
  | .accepted j a _ :: earlier => if j = i then some a.request else lastAnswered i earlier
  | _ :: earlier => lastAnswered i earlier

/-- How often a hook ran for an answer to a request. -/
def firings (i request : Nat) : List Event → Nat
  | [] => 0
  | .hookRan j _ _ :: earlier =>
    (if j = i ∧ lastAnswered i earlier = some request then 1 else 0) + firings i request earlier
  | _ :: earlier => firings i request earlier

theorem acceptances_cons (i request : Nat) (e : Event) (log : List Event) :
    acceptances i request (e :: log) =
      acceptances i request log + if e.answers i request then 1 else 0 :=
  List.countP_cons

theorem acceptances_append (i request : Nat) (events log : List Event)
    (silent : ∀ e ∈ events, e.answers i request = false) :
    acceptances i request (events ++ log) = acceptances i request log := by
  have none : events.countP (·.answers i request) = 0 := by
    rw [List.countP_eq_zero]
    intro e member
    simp [silent e member]
  rw [acceptances, List.countP_append, none, Nat.zero_add]
  rfl

theorem acceptances_delivery (i request : Nat) (p : Prompt) (a : Answer) (resumed : Option Nat)
    (log : List Event) :
    acceptances i request (((p.hooks.on a.tap.decision).map
        fun _ => Event.hookRan i p.hooks.tag a.tap.decision).toList ++
          .accepted i a resumed :: log) =
      acceptances i request log + if a.request = request then 1 else 0 := by
  rw [acceptances_append, acceptances_cons]
  · simp [Event.answers]
  · intro e member
    rcases Option.map_eq_some_iff.mp (Option.mem_toList.mp member) with ⟨_, -, rfl⟩
    rfl

def Heard (i : Nat) (log : List Event) : Prop :=
  ∀ tag decision earlier, .hookRan i tag decision :: earlier <:+ log →
    ∃ a resumed before, earlier = .accepted i a resumed :: before

def justAnswered (i request : Nat) : List Event → Nat
  | [] => 0
  | e :: _ => if e.answers i request then 1 else 0

/-- The hook for an answer that has just been accepted is still to come, so it is counted ahead. -/
theorem firings_add_le (i request : Nat) (log : List Event) (heard : Heard i log) :
    firings i request log + justAnswered i request log ≤ acceptances i request log := by
  induction log with
  | nil => exact Nat.le_refl 0
  | cons e log ih =>
      have rest : Heard i log := fun tag decision earlier split =>
        heard tag decision earlier (split.trans (List.suffix_cons e log))
      have before := ih rest
      cases e with
      | hookRan j tag decision =>
          have ahead : (if j = i ∧ lastAnswered i log = some request then 1 else 0) ≤
              justAnswered i request log := by
            by_cases here : j = i
            · subst here
              rcases heard tag decision log (List.suffix_refl _) with ⟨a, resumed, former, rfl⟩
              simp [lastAnswered, justAnswered, Event.answers]
            · simp [here]
          rw [acceptances_cons, firings]
          simp only [justAnswered, Event.answers, Bool.false_eq_true, if_false]
          omega
      | accepted j a resumed =>
          rw [acceptances_cons, firings]
          · simp only [justAnswered]
            omega
          · simp
      | issued | cancelled | entered | left | started | marked | received | drew | ended =>
          rw [acceptances_cons, firings]
          · simp only [justAnswered, Event.answers, Bool.false_eq_true, if_false]
            omega
          · simp

theorem firings_le (i request : Nat) (log : List Event) (heard : Heard i log) :
    firings i request log ≤ acceptances i request log := by
  have counted := firings_add_le i request log heard
  omega

structure Prompt.Passed (p : Prompt) (request : Nat) : Prop where
  published : request ≤ p.published
  visible : p.published = request → p.visuals.value.isEmpty = false

def Prompt.Closed (p : Prompt) (request : Nat) : Prop :=
  p.issued = request → p.phase ≠ .awaitingInput

/-- How a prompt goes on: requests are handed out and published in order, and the prompt awaits
input again only for a newer request, or because a call shows it. -/
structure Prompt.GoesOn (p next : Prompt) (showing : Prop) : Prop where
  issued : p.issued ≤ next.issued
  published : p.published < next.published ∨
    next.published = p.published ∧ next.visuals.value = p.visuals.value
  phase : next.phase = .awaitingInput →
    p.phase = .awaitingInput ∨ p.published < next.published ∨ showing

namespace Prompt

theorem goesOn_same {p next : Prompt} {showing : Prop} (issued : next.issued = p.issued)
    (published : next.published = p.published) (visuals : next.visuals = p.visuals)
    (phase : next.phase = p.phase ∨ next.phase ≠ .awaitingInput) : p.GoesOn next showing where
  issued := issued.ge
  published := .inr ⟨published, congrArg Cell.value visuals⟩
  phase awaits := by
    rcases phase with same | other
    · exact .inl (same ▸ awaits)
    · exact absurd awaits other

theorem GoesOn.trans {p next last : Prompt} {showing : Prop} (first : p.GoesOn next showing)
    (second : next.GoesOn last showing) : p.GoesOn last showing where
  issued := first.issued.trans second.issued
  published := by
    rcases second.published with later | ⟨same, visuals⟩
    · rcases first.published with before | ⟨before, -⟩
      · exact .inl (before.trans later)
      · exact .inl (before ▸ later)
    · rcases first.published with before | ⟨before, shown⟩
      · exact .inl (same ▸ before)
      · exact .inr ⟨same.trans before, visuals.trans shown⟩
  phase awaits := by
    rcases second.phase awaits with open_before | later | shown
    · rcases first.phase open_before with before | newer | shown
      · exact .inl before
      · rcases second.published with later | ⟨same, -⟩
        · exact .inr (.inl (newer.trans later))
        · exact .inr (.inl (same ▸ newer))
      · exact .inr (.inr shown)
    · rcases first.published with newer | ⟨same, -⟩
      · exact .inr (.inl (newer.trans later))
      · exact .inr (.inl (same ▸ later))
    · exact .inr (.inr shown)

theorem Passed.goesOn {p next : Prompt} {showing : Prop} {request : Nat}
    (passed : p.Passed request) (course : p.GoesOn next showing) : next.Passed request := by
  have before := passed.published
  rcases course.published with later | ⟨same, visuals⟩
  · refine ⟨by omega, ?_⟩
    intro current
    omega
  · refine ⟨by omega, ?_⟩
    intro current
    rw [visuals]
    exact passed.visible (same.symm.trans current)

theorem Closed.goesOn {p next : Prompt} {showing : Prop} {request : Nat}
    (closed : p.Closed request) (passed : p.Passed request) (course : p.GoesOn next showing)
    (ahead : p.published ≤ p.issued) (bound : next.published ≤ next.issued) (silent : ¬showing) :
    next.Closed request := by
  intro newest awaits
  have before := passed.published
  have grow := course.issued
  rcases course.phase awaits with open_before | later | shown
  · exact closed (by omega) open_before
  · omega
  · exact silent shown

theorem goesOn_perform (i : Nat) (p next : Prompt) (owned : Bool) (job : Job)
    (about : job.prompt? = some i) (done : p.perform? owned job = some next)
    (later : ∀ request visuals, job = .publish i request visuals → p.published < request) :
    p.GoesOn next (job = .setPrompt i true) := by
  cases job with
  | publish j request visuals =>
      have here : j = i := Option.some.inj about
      subst here
      rw [← Option.some.inj done]
      rcases p.publish_eq request visuals with ⟨shown, phase, same⟩
      have less := later request visuals rfl
      rw [same]
      exact ⟨Nat.le_refl _, .inl less, fun _ => .inr (.inl less)⟩
  | setPrompt j shown =>
      have here : j = i := Option.some.inj about
      subst here
      cases shown with
      | false =>
          rw [← Option.some.inj done]
          exact goesOn_same rfl rfl rfl (.inr (by simp [vanish]))
      | true =>
          rcases p.appear_eq with ⟨shown, phase, same⟩
          rw [← Option.some.inj done, same]
          exact ⟨Nat.le_refl _, .inr ⟨rfl, rfl⟩, fun _ => .inr (.inr rfl)⟩
  | settle j request =>
      rw [← Option.some.inj done]
      unfold Prompt.settle
      split
      · exact goesOn_same rfl rfl rfl (.inr (by simp [vanish]))
      · exact goesOn_same rfl rfl rfl (.inl rfl)
  | offer j tap =>
      rcases perform_cases p next owned _ done with
        ⟨_, _, _, other, -⟩ | ⟨_, _, -, other, -⟩ | ⟨_, _, mailbox, -, same, -⟩
      · simp at other
      · exact absurd rfl (other j tap)
      · rw [same]
        exact goesOn_same rfl rfl rfl (.inl rfl)
  | _ => simp [Job.prompt?] at about

end Prompt

namespace Strand

variable {i : Nat} {allowed : Job → Prop} {σ τ : Strand}

theorem Step.goesOn (step : Step i allowed σ τ) (moored : Moored i σ) (scheduled : Scheduled i σ)
    (p next : Prompt) (present : σ.prompt = some p) (after : τ.prompt = some next) :
    p.GoesOn next (allowed (.setPrompt i true)) := by
  cases step with
  | opened absent => simp [absent] at present
  | asked q here =>
      have mine : q = p := Option.some.inj (here.symm.trans present)
      subst mine
      rw [← Option.some.inj after]
      exact ⟨Nat.le_succ _, .inr ⟨rfl, rfl⟩, .inl⟩
  | withdrawn q here c caller =>
      have mine : q = p := Option.some.inj (here.symm.trans present)
      subst mine
      rcases prompt_withdraw q next present caller.request after with rfl | rfl | rfl
      · exact Prompt.goesOn_same rfl rfl rfl (.inl rfl)
      · exact Prompt.goesOn_same rfl rfl rfl (.inl rfl)
      · exact Prompt.goesOn_same rfl rfl rfl (.inr (by simp [Prompt.vanish]))
  | tended q here | refused _ q here =>
      have mine : q = p := Option.some.inj (here.symm.trans present)
      subst mine
      rw [← Option.some.inj after]
      exact Prompt.goesOn_same rfl rfl rfl (.inl rfl)
  | ran _ q here lineage job jobs front permitted made done =>
      have mine : q = p := Option.some.inj (here.symm.trans present)
      subst mine
      rw [← Option.some.inj after]
      have queue := front_of_scope _ _ _ _ front
      have about : job.prompt? = some i :=
        (moored.jobs q.scope job (queue ▸ List.mem_cons_self)).1
      have orderly := (scheduled.present q present).orderly
      rw [queue] at orderly
      have course := Prompt.goesOn_perform i q made _ job about done (by
        rintro request visuals rfl
        exact orderly.1)
      refine ⟨course.issued, course.published, fun awaits => ?_⟩
      rcases course.phase awaits with before | newer | rfl
      · exact .inl before
      · exact .inr (.inl newer)
      · exact .inr (.inr permitted)
  | accepted _ q here a =>
      have mine : q = p := Option.some.inj (here.symm.trans present)
      subst mine
      rcases Prompt.unpark_eq { q with mailbox := none, phase := .resolving } a.request with
        ⟨parked, same, -⟩
      rw [← Option.some.inj after, same]
      exact Prompt.goesOn_same rfl rfl rfl (.inr (by simp))
  | resumed | queued | cancelled | branched | settled | pictured | elsewhere =>
      have mine : next = p := Option.some.inj (after.symm.trans present)
      rw [mine]
      exact Prompt.goesOn_same rfl rfl rfl (.inl rfl)

theorem Path.goesOn (path : Path i allowed σ τ) (reachable : Reachable i σ) (p : Prompt)
    (present : σ.prompt = some p) :
    ∃ next, τ.prompt = some next ∧ p.GoesOn next (allowed (.setPrompt i true)) := by
  induction path with
  | refl => exact ⟨p, present, Prompt.goesOn_same rfl rfl rfl (.inl rfl)⟩
  | tail path step ih =>
      have reached := Path.reachable path reachable
      obtain ⟨middle, there, first⟩ := ih
      obtain ⟨next, after, -⟩ := step.prompt_stays middle there
      have last := step.goesOn reached.moored reached.scheduled middle next there after
      exact ⟨next, after, first.trans last⟩

theorem Step.acceptances (step : Step i allowed σ τ) (request : Nat) :
    acceptances i request τ.log = acceptances i request σ.log ∨
      acceptances i request τ.log = acceptances i request σ.log + 1 ∧
        ∃ p a next, σ.prompt = some p ∧ p.mailbox = some a ∧ p.accepts a = true ∧
          a.request = request ∧ τ.prompt = some next ∧ next.phase = .resolving := by
  rcases step.logs with ⟨events, grown, logs⟩
  rw [grown]
  cases logs with
  | answer p present a full counts notified told =>
      rw [List.append_assoc, List.singleton_append, acceptances_delivery]
      by_cases mine : a.request = request
      · refine .inr ⟨by rw [if_pos mine], p, a, _, present, full, counts, mine, notified, ?_⟩
        rcases Prompt.unpark_eq { p with mailbox := none, phase := .resolving } a.request with
          ⟨parked, same, -⟩
        rw [same]
      · exact .inl (by rw [if_neg mine, Nat.add_zero])
  | foreign events others =>
      refine .inl (acceptances_append i request events σ.log ?_)
      intro e member
      rcases others e member with ⟨_, _, _, _, _, _, rfl⟩
      rfl
  | nothing => exact .inl rfl
  | request | cancellation | ending => exact .inl (acceptances_cons _ _ _ _)

def Past (i : Nat) (σ : Strand) : Prop :=
  ∀ request, 0 < ModalHost.acceptances i request σ.log →
    ∃ p, σ.prompt = some p ∧ p.Passed request

theorem Scheduled.passed (scheduled : Scheduled i σ) (p : Prompt) (present : σ.prompt = some p)
    (coherent : p.Coherent) (a : Answer) (full : p.mailbox = some a)
    (counts : p.accepts a = true) : p.Passed a.request where
  published := ((scheduled.present p present).answer a full).appeared
  visible _ := by
    have awaits := ((p.accepts_iff a).mp counts).2
    exact coherent.visuals (coherent.phase.mpr (by simp [awaits]))

theorem Step.past (step : Step i allowed σ τ) (reachable : Reachable i σ) (past : Past i σ) :
    Past i τ := by
  intro request answered
  have before : ∃ p, σ.prompt = some p ∧ p.Passed request := by
    rcases step.acceptances request with same | ⟨-, p, a, -, present, full, counts, rfl, -⟩
    · exact past request (same ▸ answered)
    · exact ⟨p, present, reachable.scheduled.passed p present (reachable.coherent p present) a full
        counts⟩
  rcases before with ⟨p, present, passed⟩
  rcases step.prompt_stays p present with ⟨next, after, -⟩
  exact ⟨next, after,
    passed.goesOn (step.goesOn reachable.moored reachable.scheduled p next present after)⟩

theorem Reachable.past (reachable : Reachable i σ) : Past i σ := by
  induction reachable with
  | refl => exact fun request answered => (Nat.lt_irrefl 0 answered).elim
  | tail before step ih => exact step.past before ih

/-- A request that was answered and is closed stays so while no call shows its prompt. -/
def Spent (request : Nat) (σ : Strand) : Prop :=
  ∃ p, σ.prompt = some p ∧ p.Passed request ∧ p.Closed request

theorem Step.spent (step : Step i allowed σ τ) (silent : ¬allowed (.setPrompt i true))
    (reachable : Reachable i σ) (next : Reachable i τ) (request : Nat)
    (spent : Spent request σ) :
    Spent request τ ∧
      ModalHost.acceptances i request τ.log = ModalHost.acceptances i request σ.log := by
  rcases spent with ⟨p, present, passed, closed⟩
  rcases step.prompt_stays p present with ⟨now, after, -⟩
  have course := step.goesOn reachable.moored reachable.scheduled p now present after
  have ahead := (reachable.scheduled.present p present).orderly.le
  have bound := (next.scheduled.present now after).orderly.le
  refine ⟨⟨now, after, passed.goesOn course, closed.goesOn passed course ahead bound silent⟩, ?_⟩
  rcases step.acceptances request with same | ⟨-, q, a, -, here, full, counts, rfl, -⟩
  · exact same
  · have mine : q = p := Option.some.inj (here.symm.trans present)
    subst mine
    have accepting := (q.accepts_iff a).mp counts
    exact absurd accepting.2 (closed accepting.1.symm)

theorem Step.spends (step : Step i allowed σ τ) (reachable : Reachable i σ) (request : Nat)
    (more : ModalHost.acceptances i request τ.log ≠ ModalHost.acceptances i request σ.log) :
    Spent request τ := by
  rcases step.acceptances request with
    same | ⟨-, p, a, next, present, full, counts, rfl, after, phase⟩
  · exact absurd same more
  · have passed := reachable.scheduled.passed p present (reachable.coherent p present) a full counts
    refine ⟨next, after, ?_, ?_⟩
    · exact passed.goesOn (step.goesOn reachable.moored reachable.scheduled p next present after)
    · intro _ awaits
      simp [phase] at awaits

theorem Path.spent (path : Path i allowed σ τ) (silent : ¬allowed (.setPrompt i true))
    (reachable : Reachable i σ) (request : Nat) (spent : Spent request σ) :
    Reachable i τ ∧ Spent request τ ∧
      ModalHost.acceptances i request τ.log = ModalHost.acceptances i request σ.log := by
  induction path with
  | refl => exact ⟨reachable, spent, rfl⟩
  | tail _ step ih =>
      rcases ih with ⟨reached, still, same⟩
      have next := reached.step step
      have last := step.spent silent reached next request still
      exact ⟨next, last.1, last.2.trans same⟩

/-- While no call shows a prompt, a request is answered once more at most. -/
theorem Path.acceptances (path : Path i allowed σ τ) (silent : ¬allowed (.setPrompt i true))
    (reachable : Reachable i σ) (request : Nat) :
    Reachable i τ ∧
      (ModalHost.acceptances i request τ.log = ModalHost.acceptances i request σ.log ∨
        ModalHost.acceptances i request τ.log = ModalHost.acceptances i request σ.log + 1 ∧
          Spent request τ) := by
  induction path with
  | refl => exact ⟨reachable, .inl rfl⟩
  | tail _ step ih =>
      rcases ih with ⟨reached, counted⟩
      have next := reached.step step
      refine ⟨next, ?_⟩
      rcases counted with same | ⟨more, spent⟩
      · rcases step.acceptances request with kept | ⟨more, -⟩
        · exact .inl (kept.trans same)
        · refine .inr ⟨by rw [more, same], step.spends reached request ?_⟩
          rw [more]
          omega
      · have last := step.spent silent reached next request spent
        exact .inr ⟨last.2.trans more, last.1⟩

theorem FirstAnswers.resumptions (first : FirstAnswers i σ) (request : Nat) (log : List Event)
    (part : log <:+ σ.log) : resumptions i request log ≤ 1 := by
  induction log with
  | nil => exact Nat.zero_le 1
  | cons e log ih =>
      have rest := ih ((List.suffix_cons e log).trans part)
      unfold ModalHost.resumptions at rest ⊢
      rw [List.countP_cons]
      cases resumed : e.resumes i request with
      | false => simpa using rest
      | true =>
          have none : log.countP (·.resumes i request) = 0 := by
            rw [List.countP_eq_zero]
            intro d member again
            cases e with
            | accepted j a caller =>
                cases d with
                | accepted k b other =>
                    simp only [Event.resumes, Bool.and_eq_true, beq_iff_eq] at resumed again
                    rcases resumed with ⟨⟨rfl, mine⟩, isSome⟩
                    rcases again with ⟨⟨rfl, his⟩, -⟩
                    rcases Option.isSome_iff_exists.mp isSome with ⟨c, rfl⟩
                    exact (first a c log part).2 b other member (his.trans mine.symm)
                | _ => simp [Event.resumes] at again
            | _ => simp [Event.resumes] at resumed
          simp [none]

theorem Step.heard (step : Step i allowed σ τ) (heard : Heard i σ.log) : Heard i τ.log := by
  intro tag decision earlier split
  rcases step.logs with ⟨events, grown, logs⟩
  rw [grown] at split
  cases logs with
  | answer p present a =>
      cases hook : p.hooks.on a.tap.decision with
      | none =>
          simp only [hook, Option.map_none, Option.toList_none, List.nil_append] at split
          exact heard tag decision earlier (suffix_of_append _ _ [_] _ split (by simp))
      | some calls =>
          simp only [hook, Option.map_some, Option.toList_some, List.cons_append,
            List.nil_append] at split
          rcases List.suffix_cons_iff.mp split with same | before
          · exact ⟨a, _, σ.log, (List.cons.inj same).2⟩
          · exact heard tag decision earlier (suffix_of_append _ _ [_] _ before (by simp))
  | foreign events others =>
      refine heard tag decision earlier (suffix_of_append _ _ events _ split ?_)
      intro member
      rcases others _ member with ⟨_, _, _, _, _, _, same⟩
      simp at same
  | nothing => exact heard tag decision earlier split
  | request | cancellation | ending =>
      exact heard tag decision earlier (suffix_of_append _ _ _ _ split (by simp))

theorem Reachable.heard (reachable : Reachable i σ) : Heard i σ.log := by
  induction reachable with
  | refl => exact fun tag decision earlier split => by simp [blank] at split
  | tail _ step ih => exact step.heard ih

end Strand

end ModalHost
