import ModalHost.Proofs.Strand.Weave
import ModalHost.Proofs.Moves

/-! Every move of a host takes the strand of every prompt along a path. -/

namespace ModalHost.Host

open Strand (Path Step)

variable {h : Host} (i : Nat) (due : Option Nat) {allowed : Job → Prop}

theorem strand_setQueue (scope : Nat) (queue : List Job) :
    (h.setQueue scope queue).strand i due = { h.strand i due with
      scopes := (h.strand i due).scopes.modify scope
        fun s => { s with queue := queue.filter (·.prompt? == some i) } } := by
  have scopes := map_modify (fun s : Scope => { s with queue })
    (fun s => { s with queue := queue.filter (·.prompt? == some i) }) (Scope.only i) scope h.scopes
    fun s => rfl
  simp only [strand, setQueue, pictures, scopes]

theorem strand_setQueue_other (scope : Nat) (s : Scope) (found : h.scopes[scope]? = some s)
    (queue : List Job)
    (same : queue.filter (·.prompt? == some i) = s.queue.filter (·.prompt? == some i)) :
    (h.setQueue scope queue).strand i due = h.strand i due := by
  have scopes : (h.setQueue scope queue).scopes.map (Scope.only i) =
      h.scopes.map (Scope.only i) := by
    apply List.ext_getElem?
    intro n
    simp only [setQueue, List.getElem?_map, List.getElem?_modify]
    by_cases here : scope = n
    · subst here
      simp [found, Scope.only, same]
    · cases h.scopes[n]? <;> simp [here]
  simp only [strand, scopes]
  rfl

theorem strand_runJob_other (job : Job) (other : job.prompt? ≠ some i) (next : Host)
    (ran : h.runJob job = some next) : next.strand i due = h.strand i due := by
  cases job with
  | publish j request visuals =>
      have value := Option.some.inj ran
      subst value
      exact strand_updatePrompt_other _ _ _ _ (by simpa [Job.prompt?] using other) _
  | setPrompt j shown =>
      have away : j ≠ i := by simpa [Job.prompt?] using other
      cases shown with
      | false =>
          have value := Option.some.inj ran
          subst value
          exact strand_updatePrompt_other _ _ _ _ away _
      | true =>
          have value := Option.some.inj ran
          subst value
          exact strand_updatePrompt_other _ _ _ _ away _
  | settle j request =>
      have value := Option.some.inj ran
      subst value
      exact strand_updatePrompt_other _ _ _ _ (by simpa [Job.prompt?] using other) _
  | offer j tap =>
      simp only [runJob] at ran
      split at ran
      · have value := Option.some.inj ran
        subst value
        rfl
      · split at ran
        · simp at ran
        · have value := Option.some.inj ran
          subst value
          exact strand_updatePrompt_other _ _ _ _ (by simpa [Job.prompt?] using other) _
  | setLoading l shown =>
      have value := Option.some.inj ran
      subst value
      rfl
  | enter l w level =>
      have value := Option.some.inj ran
      subst value
      rw [acknowledgeEnter, strand_updateWork, strand_record_other _ _ _ _ rfl,
        strand_updateLoading]
  | leave l w level awaited =>
      cases awaited with
      | false =>
          have value := Option.some.inj ran
          subst value
          rw [strand_record_other _ _ _ _ rfl, strand_updateLoading]
      | true =>
          have value := Option.some.inj ran
          subst value
          rw [acknowledgeLeave, strand_updateWork, strand_record_other _ _ _ _ rfl,
            strand_updateLoading]
  | setPanel k shown =>
      have value := Option.some.inj ran
      subst value
      rfl
  | hold opened =>
      cases opened with
      | false => simp [runJob] at ran
      | true =>
          have value := Option.some.inj ran
          subst value
          rfl
  | mark label =>
      have value := Option.some.inj ran
      subst value
      exact strand_record_other _ _ _ _ rfl
  | flushed w =>
      have value := Option.some.inj ran
      subst value
      rfl

theorem strand_runJob (p : Prompt) (present : h.prompts[i]? = some p) (job : Job)
    (about : job.prompt? = some i) (next : Host) (ran : h.runJob job = some next) :
    ∃ made, p.perform? (h.ownsPrompt i) job = some made ∧
      next.strand i due = { h.strand i due with prompt := some made } := by
  have changed (f : Prompt → Prompt) :
      (h.updatePrompt i f).strand i due = { h.strand i due with prompt := some (f p) } := by
    rw [strand_updatePrompt, present, Option.map_some]
  cases job with
  | publish j request visuals =>
      have value := Option.some.inj about
      subst value
      have value := Option.some.inj ran
      subst value
      exact ⟨_, rfl, changed _⟩
  | setPrompt j shown =>
      have value := Option.some.inj about
      subst value
      cases shown with
      | false =>
          have value := Option.some.inj ran
          subst value
          exact ⟨_, rfl, changed _⟩
      | true =>
          have value := Option.some.inj ran
          subst value
          exact ⟨_, rfl, changed _⟩
  | settle j request =>
      have value := Option.some.inj about
      subst value
      have value := Option.some.inj ran
      subst value
      exact ⟨_, rfl, changed _⟩
  | offer j tap =>
      have value := Option.some.inj about
      subst value
      simp only [runJob] at ran
      cases owned : h.ownsPrompt j with
      | false =>
          have value := Option.some.inj (by simpa [owned] using ran)
          subst value
          refine ⟨p, rfl, ?_⟩
          rw [← present]
          rfl
      | true =>
          cases full : p.mailbox with
          | some a => simp [owned, present, full] at ran
          | none =>
              have posted : some (h.updatePrompt j fun p =>
                  { p with mailbox := some (p.answer tap) }) = some next := by
                simpa [owned, present, full] using ran
              have value := Option.some.inj posted
              subst value
              exact ⟨_, by simp [Prompt.perform?, full], changed _⟩
  | _ => simp [Job.prompt?] at about

theorem strand_dispatch (tidy : h.Tidy) (scope : Nat) (next : Host)
    (ran : h.dispatch? scope = some next) :
    (next.strand i none = h.strand i none ∧ ∀ lineage job jobs,
        h.scopes[scope]? = some ⟨lineage, false, job :: jobs⟩ → job.prompt? ≠ some i) ∨
      ∃ (p : Prompt) (lineage : List Nat) (job : Job) (jobs : List Job) (made : Prompt),
        h.prompts[i]? = some p ∧ h.scopes[scope]? = some ⟨lineage, false, job :: jobs⟩ ∧
        job.prompt? = some i ∧
        (h.strand i none).scopes[p.scope]? =
          some ⟨lineage, false, job :: jobs.filter (·.prompt? == some i)⟩ ∧
        p.perform? ((h.strand i none).owned i p) job = some made ∧
        next.strand i none = { h.strand i none with
          prompt := some made
          scopes := (h.strand i none).scopes.modify p.scope
            fun s => { s with queue := jobs.filter (·.prompt? == some i) } } := by
  obtain ⟨lineage, job, jobs, found, ran⟩ := dispatch_cases scope next ran
  by_cases about : job.prompt? = some i
  · have queued : job ∈ h.queued scope := by simp [Host.queued, found]
    rcases tidy.jobs scope job i queued about with ⟨p, present, rfl⟩
    obtain ⟨made, done, strand⟩ :=
      strand_runJob i none p (h := h.setQueue p.scope jobs) present job about next ran
    refine .inr ⟨p, lineage, job, jobs, made, present, found, about, ?_, ?_, ?_⟩
    · simp [Host.strand, List.getElem?_map, found, Scope.only, about]
    · rw [owned_strand h i none p present]
      exact done
    · rw [strand, strand_setQueue]
  · left
    constructor
    · rw [strand_runJob_other i none job about next ran,
        strand_setQueue_other i none scope _ found jobs (by simp [about])]
    · intro lineage other jobs front
      cases found.symm.trans front
      exact about

theorem path_dispatch (tidy : h.Tidy) (scope : Nat) (next : Host)
    (ran : h.dispatch? scope = some next)
    (permitted : ∀ lineage job jobs, h.scopes[scope]? = some ⟨lineage, false, job :: jobs⟩ →
      job.prompt? = some i → allowed job) :
    Path i allowed (h.strand i none) (next.strand i none) := by
  rcases strand_dispatch i tidy scope next ran with
    ⟨same, -⟩ | ⟨p, lineage, job, jobs, made, present, found, about, front, done, strand⟩
  · rw [same]
    exact .refl
  · rw [strand]
    exact .single (.ran rfl p present lineage job _ front (permitted _ _ _ found about) made done)

theorem strand_resolve (p : Prompt) (present : h.prompts[i]? = some p) (request : Nat)
    (decision : Decision) :
    (h.resolve i request decision).strand i due = { h.strand i due with
      prompt := some (p.unpark request)
      callers := tell h.callers (p.callerOf request) (.decided decision) } := by
  unfold resolve Prompt.unpark
  cases slot : p.callerOf request with
  | none => simp [present, slot, tell, strand]
  | some c => simp [present, slot, strand_updatePrompt, strand_updateCaller, tell]

theorem strand_resolve_other (j : Nat) (other : j ≠ i) (p : Prompt)
    (present : h.prompts[j]? = some p) (request : Nat) (decision : Decision) :
    (h.resolve j request decision).strand i due = { h.strand i due with
      callers := tell h.callers (p.callerOf request) (.decided decision) } := by
  unfold resolve
  cases slot : p.callerOf request with
  | none => simp [present, slot, tell, strand]
  | some c =>
      simp [present, slot, strand_updatePrompt_other _ _ _ _ other, strand_updateCaller, tell]

theorem strand_notify (p : Prompt) (present : h.prompts[i]? = some p) (a : Answer) :
    (h.notify i p a).strand i due = { h.strand i due with
      prompt := some ({ p with mailbox := none, phase := .resolving }.unpark a.request)
      callers := tell h.callers (p.callerOf a.request) (.decided a.tap.decision)
      log := .accepted i a (p.callerOf a.request) :: (h.strand i due).log } := by
  unfold notify
  rw [strand_resolve i due { p with mailbox := none, phase := .resolving }
    (by simp [record, present]),
    strand_record _ _ _ _ (by simp [Event.concerns]), strand_updatePrompt, strand_updatePrompt]
  rfl

theorem strand_notify_other (j : Nat) (other : j ≠ i) (p : Prompt)
    (present : h.prompts[j]? = some p) (a : Answer) :
    (h.notify j p a).strand i due = { h.strand i due with
      callers := tell h.callers (p.callerOf a.request) (.decided a.tap.decision) } := by
  unfold notify
  rw [strand_resolve_other i due j other { p with mailbox := none, phase := .resolving }
    (by simp [record, present]),
    strand_record_other _ _ _ _ (by simpa [Event.concerns] using other),
    strand_updatePrompt_other _ _ _ _ other, strand_updatePrompt_other _ _ _ _ other]
  rfl

theorem strand_heard (p : Prompt) (present : h.prompts[i]? = some p) (a : Answer) :
    (h.heard i p a).strand i due = { h.strand i due with
      prompt := some ({ p with mailbox := none, phase := .resolving }.unpark a.request)
      callers := tell h.callers (p.callerOf a.request) (.decided a.tap.decision)
      log := ((p.hooks.on a.tap.decision).map
          fun _ => Event.hookRan i p.hooks.tag a.tap.decision).toList ++
        .accepted i a (p.callerOf a.request) :: (h.strand i due).log } := by
  unfold heard
  cases hook : p.hooks.on a.tap.decision with
  | none => exact strand_notify i due p present a
  | some calls =>
      dsimp only
      rw [strand_record _ _ _ _ (by simp [Event.concerns]), strand_notify i due p present a]
      rfl

theorem strand_heard_other (j : Nat) (other : j ≠ i) (p : Prompt)
    (present : h.prompts[j]? = some p) (a : Answer) :
    (h.heard j p a).strand i due = { h.strand i due with
      callers := tell h.callers (p.callerOf a.request) (.decided a.tap.decision) } := by
  unfold heard
  cases p.hooks.on a.tap.decision with
  | none => exact strand_notify_other i due j other p present a
  | some calls =>
      dsimp only
      rw [strand_record_other _ _ _ _ (by simpa [Event.concerns] using other),
        strand_notify_other i due j other p present a]

/-- An acceptance is a notification, the calls of the hook, and the queueing of the hiding. -/
theorem accept_eq (p : Prompt) (present : h.prompts[i]? = some p) (a : Answer) :
    (h.updatePrompt i fun p => { p with mailbox := none }).accept i p a =
      (((p.hooks.on a.tap.decision).getD []).foldl call (h.heard i p a)).launch p.scope
        (.settle i a.request) := by
  have after : (h.notify i p a).prompts[i]? = _ :=
    congrArg Strand.prompt (strand_notify i none p present a)
  obtain ⟨parked, same, -⟩ :=
    Prompt.unpark_eq { p with mailbox := none, phase := .resolving } a.request
  rw [same] at after
  change ((h.notify i p a).fire i a.tap.decision).launch p.scope (.settle i a.request) = _
  unfold fire heard
  rw [after]
  dsimp only
  cases p.hooks.on a.tap.decision with
  | none => rfl
  | some calls => rfl

def delivering (i request : Nat) : Nat → Option Nat := fun j => if j = i then some request else none

theorem path_heard (tidy : h.Tidy) (j : Nat) (p : Prompt) (a : Answer)
    (accepting : h.Accepting j p a) :
    Path i allowed (h.strand i none) ((h.heard j p a).strand i (delivering j a.request i)) := by
  have present := accepting.present
  by_cases same : j = i
  · subst same
    rw [delivering, if_pos rfl]
    have step : Step j allowed (h.strand j none) _ :=
      .accepted rfl p present a accepting.full accepting.counts
        (by rw [owned_strand h j none p present]; exact accepting.owned)
    have strand := strand_heard j none p present a
    have due : (h.heard j p a).strand j (some a.request) =
      { (h.heard j p a).strand j none with due := some a.request } := rfl
    rw [due, strand]
    exact .single step
  · rw [delivering, if_neg (Ne.symm same), strand_heard_other i none j same p present a]
    have foreign (c : Nat) (told : p.callerOf a.request = some c) :
        ∃ caller, h.callers[c]? = some caller ∧ caller.prompt ≠ i := by
      have held := (p.callerOf_eq_some a.request c).mp told
      rcases tidy.parked j p _ present held with ⟨caller, found, own⟩
      exact ⟨caller, found, own ▸ same⟩
    have step : Step i allowed (h.strand i none) _ := Strand.step_tell_elsewhere _ []
      (p.callerOf a.request) (.decided a.tap.decision) foreign (by simp)
    rw [List.append_nil] at step
    exact .single step

theorem path_calls {due : Nat → Option Nat} (woven : h.Woven due) (calls : List Call) :
    Path i allowed (h.strand i (due i)) ((calls.foldl call h).strand i (due i)) := by
  induction calls generalizing h with
  | nil => exact .refl
  | cons c calls ih =>
      exact (path_call i (due i) woven.tidy c).trans (ih (woven.call c))

theorem Woven.heard {i : Nat} {p : Prompt} {a : Answer} (woven : h.Woven fun _ => none)
    (accepting : h.Accepting i p a) :
    (h.heard i p a).Woven (delivering i a.request) :=
  fun j => (woven j).trans (path_heard j woven.tidy i p a accepting)

theorem path_scope {i : Nat} {σ τ : Strand} (path : Path i allowed σ τ) (p : Prompt)
    (present : σ.prompt = some p) : ∃ next, τ.prompt = some next ∧ next.scope = p.scope := by
  induction path with
  | refl => exact ⟨p, present, rfl⟩
  | tail _ step ih =>
      rcases ih with ⟨middle, there, same⟩
      rcases step.prompt_stays middle there with ⟨next, after, stays⟩
      exact ⟨next, after, stays.trans same⟩

theorem path_after (woven : h.Woven fun _ => none) (j : Nat) (p : Prompt) (a : Answer)
    (accepting : h.Accepting j p a) :
    Path i allowed ((h.heard j p a).strand i (delivering j a.request i))
      (((h.updatePrompt j fun p => { p with mailbox := none }).accept j p a).strand i none) := by
  have heard : Path i allowed (h.strand i none) _ := path_heard i woven.tidy j p a accepting
  have calls : Path i allowed ((h.heard j p a).strand i (delivering j a.request i)) _ :=
    path_calls i (woven.heard accepting) ((p.hooks.on a.tap.decision).getD [])
  rw [accept_eq j p accepting.present]
  by_cases same : j = i
  · subst same
    rw [strand_launch _ _ _ _ _ rfl]
    rcases path_scope (heard.trans calls) p accepting.present with ⟨last, there, here⟩
    rw [delivering, if_pos rfl] at calls there ⊢
    refine calls.tail ?_
    rw [← here]
    exact .settled last there a.request rfl
  · rw [strand_launch_other _ _ _ _ _ (by simpa [Job.prompt?] using same)]
    rw [delivering, if_neg (Ne.symm same)] at calls ⊢
    exact calls

theorem path_accept (woven : h.Woven fun _ => none) (j : Nat) (p : Prompt) (a : Answer)
    (accepting : h.Accepting j p a) :
    Path i allowed (h.strand i none)
      (((h.updatePrompt j fun p => { p with mailbox := none }).accept j p a).strand i none) :=
  (path_heard i woven.tidy j p a accepting).trans (path_after i woven j p a accepting)

theorem Accepting.deliver {j : Nat} {p : Prompt} {a : Answer} (accepting : h.Accepting j p a) :
    h.deliver? j =
      some ((h.updatePrompt j fun p => { p with mailbox := none }).accept j p a) := by
  simp [deliver?, accepting.present, accepting.full, accepting.owned, accepting.counts]

theorem path_deliver (woven : h.Woven fun _ => none) (j : Nat) (next : Host)
    (delivered : h.deliver? j = some next) :
    Path i allowed (h.strand i none) (next.strand i none) := by
  rcases deliver_cases j next delivered with
    ⟨p, a, present, full, ⟨accepting, rfl⟩ | ⟨counts, rfl⟩⟩
  · exact path_accept i woven j p a accepting
  · by_cases same : j = i
    · subst same
      rw [strand_updatePrompt, present]
      exact .single (.refused rfl p present a full (.inl counts))
    · rw [strand_updatePrompt_other _ _ _ _ same]
      exact .refl

theorem path_retire (j : Nat) (next : Host) (retired : h.retire? j = some next) :
    Path i allowed (h.strand i none) (next.strand i none) := by
  obtain ⟨p, a, present, full, -, dead, rfl⟩ := retire_cases j next retired
  by_cases same : j = i
  · subst same
    rw [strand_updatePrompt, present]
    exact .single (.refused rfl p present a full (.inr (by simpa using dead)))
  · rw [strand_updatePrompt_other _ _ _ _ same]
    exact .refl

end ModalHost.Host
