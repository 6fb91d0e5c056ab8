import ModalHost.Proofs.Flushes
import ModalHost.Proofs.Strand.Runs

/-! A dispatcher that lives is never stuck for good: what it waits for can move, and then it can move
itself. So where nothing can move, nothing is left. -/

namespace ModalHost.Host

variable {h : Host}

/-- The answer in the channel of a prompt. The channel goes with the consumer of the prompt. -/
def channel (h : Host) (i : Nat) : Option Answer :=
  if h.ownsPrompt i then h.prompts[i]?.bind (·.mailbox) else none

theorem front_of_queue (scope : Nat) (live : h.isCancelled scope = false) (job : Job)
    (jobs : List Job) (queue : h.queued scope = job :: jobs) :
    ∃ lineage, h.scopes[scope]? = some ⟨lineage, false, job :: jobs⟩ := by
  unfold queued at queue
  unfold isCancelled at live
  cases found : h.scopes[scope]? with
  | none => simp [found] at queue
  | some s =>
      obtain ⟨lineage, cancelled, jobs⟩ := s
      simp only [found, Option.map_some, Option.getD_some] at queue
      simp only [found, Option.any_some] at live
      exact ⟨lineage, by rw [live, queue]⟩

theorem dispatch_of_front (scope : Nat) (lineage : List Nat) (job : Job) (jobs : List Job)
    (front : h.scopes[scope]? = some ⟨lineage, false, job :: jobs⟩) :
    h.dispatch? scope = (h.setQueue scope jobs).runJob job := by
  simp only [dispatch?, front]

theorem runJob_goes (job : Job) (opened : job ≠ .hold false)
    (taken : ∀ i tap, job = .offer i tap → h.channel i = none) :
    ∃ next, h.runJob job = some next := by
  cases job with
  | setPrompt i shown => cases shown <;> exact ⟨_, rfl⟩
  | leave l w level awaited => cases awaited <;> exact ⟨_, rfl⟩
  | hold open_already =>
      cases open_already with
      | true => exact ⟨_, rfl⟩
      | false => exact absurd rfl opened
  | offer i tap =>
      have empty := taken i tap rfl
      simp only [channel, runJob] at empty ⊢
      cases owned : h.ownsPrompt i with
      | false => exact ⟨_, rfl⟩
      | true =>
          rw [if_pos owned] at empty
          have room : h.prompts[i]?.any (·.mailbox.isSome) = false := by
            cases present : h.prompts[i]? with
            | none => rfl
            | some p =>
                rw [present, Option.bind_some] at empty
                simp [empty]
          simp only [Bool.not_true, Bool.false_eq_true, if_false, room]
          exact ⟨_, rfl⟩
  | _ => exact ⟨_, rfl⟩

theorem channel_full (i : Nat) (a : Answer) (full : h.channel i = some a) :
    ∃ p, h.prompts[i]? = some p ∧ p.mailbox = some a ∧ h.ownsPrompt i = true := by
  unfold channel at full
  obtain ⟨owned, found⟩ := Option.ite_none_right_eq_some.mp full
  obtain ⟨p, present, there⟩ := Option.bind_eq_some_iff.mp found
  exact ⟨p, present, there, owned⟩

theorem deliver_of_channel (i : Nat) (a : Answer) (full : h.channel i = some a) :
    ∃ next, h.deliver? i = some next := by
  obtain ⟨p, present, there, owned⟩ := channel_full i a full
  simp only [deliver?, present, there, if_pos owned]
  exact ⟨_, rfl⟩

theorem ample_mailbox : Ample (fun _ => True) (fun _ => True) Prompt.mailbox where
  job _ _ := trivial
  event _ _ := trivial
  view _ _ same := congrArg Inlet.mailbox same

/-- A delivery empties the channel, and what is queued stays queued unless the hook cancels it. -/
theorem deliver_frees (i : Nat) (next : Host) (delivered : h.deliver? i = some next) (scope : Nat)
    (live : next.isCancelled scope = false) :
    next.channel i = none ∧ ∃ added, next.queued scope = h.queued scope ++ added := by
  obtain ⟨p, a, present, -, cases_of⟩ := deliver_cases i next delivered
  have edits : Edits (fun _ => True) (fun _ => True) Prompt.mailbox
      (h.updatePrompt i fun p => { p with mailbox := none }) next := by
    rcases cases_of with ⟨-, rfl⟩ | ⟨-, rfl⟩
    · exact ample_mailbox.accept i p present a (fun _ => trivial) (fun _ _ => trivial) fun _ _ => rfl
    · exact .refl
  constructor
  · have emptied : (next.prompts.map Prompt.mailbox)[i]? = some none := by
      rw [edits.views]
      simp [updatePrompt, present]
    unfold channel
    split
    · rw [List.getElem?_map] at emptied
      obtain ⟨q, there, empty⟩ := Option.map_eq_some_iff.mp emptied
      rw [there, Option.bind_some, empty]
    · rfl
  · rcases edits.queue scope with ⟨added, queue, -⟩ | ⟨dead, -⟩
    · exact ⟨added, queue⟩
    · exact absurd dead (Bool.eq_false_iff.mp live)

theorem dispatch_goes (scope : Nat) (lineage : List Nat) (job : Job) (jobs : List Job)
    (front : h.scopes[scope]? = some ⟨lineage, false, job :: jobs⟩) (opened : job ≠ .hold false)
    (taken : ∀ i tap, job = .offer i tap → h.channel i = none) :
    ∃ next, h.dispatch? scope = some next := by
  rw [dispatch_of_front scope lineage job jobs front]
  refine runJob_goes job opened fun i tap offer => ?_
  exact taken i tap offer

/-- A dispatcher that cannot run the job at the front of its queue, though it is not held, sends an
answer of a prompt of its scope whose channel is full. The consumer of that prompt can take what is
in the channel, and then the dispatcher can send the answer, unless the hook has cancelled it. -/
theorem front_moves (reachable : h.Reachable) (scope : Nat) (live : h.isCancelled scope = false)
    (unheld : .hold false ∉ h.queued scope) (job : Job) (jobs : List Job)
    (queue : h.queued scope = job :: jobs) :
    (∃ next, h.dispatch? scope = some next) ∨
      ∃ i tap p a next, job = .offer i tap ∧ h.prompts[i]? = some p ∧ p.scope = scope ∧
        h.channel i = some a ∧ h.deliver? i = some next ∧
        (next.isCancelled scope = false → ∃ later, next.dispatch? scope = some later) := by
  obtain ⟨lineage, front⟩ := front_of_queue scope live job jobs queue
  have opened : job ≠ .hold false := by
    rintro rfl
    exact unheld (queue ▸ List.mem_cons_self)
  by_cases taken : ∀ i tap, job = .offer i tap → h.channel i = none
  · exact .inl (dispatch_goes scope lineage job jobs front opened taken)
  · right
    simp only [not_forall] at taken
    obtain ⟨i, tap, rfl, full⟩ := taken
    obtain ⟨a, full⟩ := Option.ne_none_iff_exists'.mp full
    obtain ⟨p, present, home⟩ :=
      reachable.woven.tidy.jobs scope _ i (queue ▸ List.mem_cons_self) rfl
    obtain ⟨next, delivered⟩ := deliver_of_channel i a full
    refine ⟨i, tap, p, a, next, rfl, present, home, full, delivered, fun alive => ?_⟩
    obtain ⟨empty, added, grown⟩ := deliver_frees i next delivered scope alive
    rw [queue] at grown
    obtain ⟨lineage, ahead⟩ := front_of_queue scope alive _ _ grown
    refine dispatch_goes scope lineage _ _ ahead (by simp) ?_
    rintro j again ⟨⟩
    exact empty

theorem flush_over (reachable : h.Reachable) (scope : Nat) (live : h.isCancelled scope = false)
    (drained : h.queued scope = []) (w : Nat) (wait : Wait) (ran : Bool)
    (there : h.waits[w]? = some wait) (home : wait.scope = scope) (kind : wait.kind = .flush ran)
    (rests : h.advanceWait? w = none) :
    wait.ended = true ∧ (.ended (.wait w) wait.name .flushed ∈ h.history ∨
      .ended (.wait w) wait.name .abandoned ∈ h.history) := by
  have patient := reachable.patient
  have ended : wait.ended = true := by
    by_contra running
    rw [Bool.not_eq_true] at running
    cases ran with
    | true => simp [advanceWait?, there, kind, running] at rests
    | false =>
        subst home
        have due := patient.due w wait there kind running live
        change _ ∈ h.queued wait.scope at due
        rw [drained] at due
        cases due
  exact ⟨ended, patient.finished w wait ran there kind ended⟩

theorem drained_of_still (reachable : h.Reachable) (scope : Nat)
    (live : h.isCancelled scope = false) (unheld : .hold false ∉ h.queued scope)
    (still : h.StillOn scope) :
    h.queued scope = [] ∧
      ∀ i p, h.prompts[i]? = some p → p.scope = scope → h.channel i = none := by
  constructor
  · cases queue : h.queued scope with
    | nil => rfl
    | cons job jobs =>
        rcases front_moves reachable scope live unheld job jobs queue with
          ⟨next, runs⟩ | ⟨i, tap, p, a, next, -, present, home, -, delivered, -⟩
        · rw [still.dispatcher] at runs
          cases runs
        · rw [still.consumers i p present home] at delivered
          cases delivered
  · intro i p present home
    apply Option.eq_none_iff_forall_ne_some.mpr
    intro a full
    obtain ⟨next, delivered⟩ := deliver_of_channel i a full
    rw [still.consumers i p present home] at delivered
    cases delivered

/-- On a live scope without a held job, the dispatcher can run, or the consumer can receive whose
full channel it waits for, and after that the dispatcher can run; an answer for a dialog that is gone
does not keep it waiting, and a consumer can take whatever is in its channel. So where nothing can
move on the scope, its queue and the channels of its prompts are empty, and all flushes of it that
were not dropped have returned. -/
theorem dispatcher_never_stuck (reachable : h.Reachable) (scope : Nat)
    (live : h.isCancelled scope = false) (unheld : .hold false ∉ h.queued scope) :
    (∀ job jobs, h.queued scope = job :: jobs →
      (∃ next, h.dispatch? scope = some next) ∨
        ∃ i tap p a next, job = .offer i tap ∧ h.prompts[i]? = some p ∧ p.scope = scope ∧
          h.channel i = some a ∧ h.deliver? i = some next ∧
          (next.isCancelled scope = false → ∃ later, next.dispatch? scope = some later)) ∧
    (∀ i tap jobs, h.queued scope = .offer i tap :: jobs → h.ownsPrompt i = false →
      h.dispatch? scope = some (h.setQueue scope jobs)) ∧
    (∀ i a, h.channel i = some a → ∃ next, h.deliver? i = some next) ∧
    (h.StillOn scope →
      (∀ w wait, h.waits[w]? = some wait → wait.scope = scope → h.advanceWait? w = none) →
      h.queued scope = [] ∧
      (∀ i p, h.prompts[i]? = some p → p.scope = scope → h.channel i = none) ∧
      ∀ w wait ran, h.waits[w]? = some wait → wait.scope = scope → wait.kind = .flush ran →
        wait.ended = true ∧ (.ended (.wait w) wait.name .flushed ∈ h.history ∨
          .ended (.wait w) wait.name .abandoned ∈ h.history)) := by
  refine ⟨front_moves reachable scope live unheld, ?_, deliver_of_channel, ?_⟩
  · intro i tap jobs queue gone
    obtain ⟨lineage, front⟩ := front_of_queue scope live _ _ queue
    have lost : (h.setQueue scope jobs).ownsPrompt i = false := gone
    rw [dispatch_of_front scope lineage _ _ front]
    simp only [runJob, lost, Bool.not_false, if_true]
  · intro still rested
    obtain ⟨drained, empty⟩ := drained_of_still reachable scope live unheld still
    refine ⟨drained, empty, ?_⟩
    intro w wait ran there home kind
    exact flush_over reachable scope live drained w wait ran there home kind
      (rested w wait there home)

/-- Two taps are given to a prompt that waits for an answer, and a flush is started. The dispatcher
has sent the first of the answers and waits with the second. -/
def tapsBurst : List (Session.Step ⊕ Move) :=
  [.inl (.openDialog "d" "main" (.confirm .none .blank)),
    .inl (.call (.showConfirm "d" (.ofTitle "T"))), .inr (.dispatch 0),
    .inl (.call (.press (.fresh "d") .confirmed)), .inl (.call (.press (.fresh "d") .canceled)),
    .inl (.flush "main" "f"), .inr (.dispatch 0)]

def tapsDrained : List (Session.Step ⊕ Move) :=
  tapsBurst ++ [.inr (.deliver 0), .inr (.dispatch 0), .inr (.deliver 0), .inr (.dispatch 0),
    .inr (.dispatch 0), .inr (.advanceWait 0)]

theorem tapsDrained_still : (initial.run tapsDrained).StillOn 0 :=
  still_of_bounded 0 rfl (by decide) (by decide)

theorem tapsBurst_goes_on : (initial.run tapsBurst).dispatch? 0 = none ∧
    (∃ i next, (initial.run tapsBurst).deliver? i = some next ∧
      ∃ later, next.dispatch? 0 = some later) ∧
    (initial.run tapsDrained).queued 0 = [] ∧
    .ended (.wait 0) "f" .flushed ∈ (initial.run tapsDrained).history := by
  have burst := dispatcher_never_stuck (Reachable.run .refl tapsBurst) 0 rfl (by decide)
  have drained := dispatcher_never_stuck (Reachable.run .refl tapsDrained) 0 rfl (by decide)
  refine ⟨rfl, ?_, ?_⟩
  · rcases burst.1 _ _ rfl with ⟨next, runs⟩ | ⟨i, tap, p, a, next, offer, -, -, -, takes, frees⟩
    · cases runs
    · cases offer
      cases takes
      exact ⟨0, _, rfl, frees rfl⟩
  · have finished := drained.2.2.2 tapsDrained_still fun w wait there _ => by
      rcases w with _ | w
      · rfl
      · cases there
    refine ⟨finished.1, (finished.2.2 0 _ true rfl rfl rfl).2.resolve_right ?_⟩
    decide

end ModalHost.Host
