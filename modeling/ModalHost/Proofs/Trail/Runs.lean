import ModalHost.Proofs.Trail.Track

/-! A run by turns does to a prompt what its trail tells. -/

namespace ModalHost.Host

variable {i : Nat} {h next : Host}

theorem Follows.arrivals (quiet : Follows i h [] next)
    (kept : h.prompts[i]? = none → next.prompts[i]? = none) :
    Follows i h (h.arrivals i next) next := by
  have nobody : h.arrivals i next = [] := by
    unfold Host.arrivals
    cases absent : h.prompts[i]? with
    | none => rw [kept absent]
    | some p => rfl
  rwa [nobody]

theorem follows_same (prompts : next.prompts = h.prompts) (scopes : next.scopes = h.scopes)
    (history : next.history = h.history) : Follows i h (h.arrivals i next) next :=
  (follows_quiet (by rw [prompts]) (scopes ▸ .refl _) (fun k => .inl (by rw [scopes]))
    (by rw [history]) (by rw [history])).arrivals (by rw [prompts]; exact id)

theorem kept_of_edits (edits : Edits Untapped Unheard Prompt.inlet h next) :
    h.prompts[i]? = none → next.prompts[i]? = none := by
  intro absent
  have count := congrArg List.length edits.views
  rw [List.length_map, List.length_map] at count
  rw [List.getElem?_eq_none_iff] at absent ⊢
  exact count ▸ absent

theorem filterMap_openHold (jobs opened : List Job) (found : Scope.openHold jobs = some opened) :
    opened.filterMap (Job.tap? i) = jobs.filterMap (Job.tap? i) := by
  have kept (l : List Job) :
      (l.filter fun job => (job.tap? i).isSome).filterMap (Job.tap? i) = l.filterMap (Job.tap? i) := by
    rw [List.filterMap_filter]
    apply congrArg (List.filterMap · l)
    funext job
    cases job.tap? i <;> rfl
  rw [← kept opened, Scope.sift_openHold _ (fun _ => rfl) jobs opened found, kept]

theorem follows_release (scope : Nat) :
    Follows i h (h.arrivals i (h.release scope).1) (h.release scope).1 := by
  unfold release
  split
  · exact follows_same rfl rfl rfl
  · rename_i opened found
    have inside : scope < h.scopes.length := by
      by_contra beyond
      rw [queued, List.getElem?_eq_none (Nat.le_of_not_lt beyond)] at found
      cases found
    have quiet : Follows i h [] (h.setQueue scope opened) := by
      refine follows_quiet rfl (.pop scope opened) (fun k => .inl ?_) rfl rfl
      rw [setQueue, queueAt_pop _ _ _ _ inside]
      split
      · rename_i same
        rw [same]
        exact filterMap_openHold _ opened found
      · rfl
    exact quiet.arrivals id

theorem untapped_absent (woven : h.Woven fun _ => none) (absent : h.prompts[i]? = none) (k : Nat) :
    (queueAt h.scopes k).filterMap (Job.tap? i) = [] := by
  refine List.filterMap_eq_nil_iff.mpr fun job member => ?_
  cases job with
  | offer j tap =>
      refine if_neg ?_
      rintro rfl
      obtain ⟨p, there, -⟩ := woven.tidy.jobs k _ j member rfl
      rw [absent] at there
      cases there
  | _ => rfl

theorem follows_opened (woven : h.Woven fun _ => none) (absent : h.prompts[i]? = none) (scope : Nat)
    (s : Snapshot) (hooks : Hooks Call)
    (there : next.prompts[i]? = some (.restore scope s hooks)) (scopes : next.scopes = h.scopes)
    (answers : next.answersTo i = h.answersTo i) (fired : next.firedFor i = h.firedFor i) :
    Follows i h [.registered hooks] next := by
  have waiting : next.taps i = [] := by
    simp only [taps, there, Option.map_some, Option.getD_some]
    change (queueAt next.scopes scope).filterMap _ = []
    rw [scopes]
    exact untapped_absent woven absent scope
  have before : h.taps i = [] := by simp [taps, absent]
  have empty : h.mail i = [] ∧ next.mail i = [] := by
    unfold mail
    rw [absent, there]
    exact ⟨rfl, rfl⟩
  refine ⟨?_, ?_, ?_, ?_, ?_, ?_, by simp [absent], scopes ▸ .refl _⟩
  all_goals simp [hooksOf, there, Prompt.restore, before, waiting, empty, answers, fired, Entry.hooks,
    Entry.fires, List.filterMap_cons, Entry.sent?, Entry.taken?, Entry.passed?, Entry.tapped?,
    Entry.accepted?]

theorem follows_openPrompt (woven : h.Woven fun _ => none) (name : String) (scope : Nat)
    (s : Snapshot) (hooks : Hooks Call) :
    Follows i h (h.arrivals i (h.openPrompt name scope s hooks))
      (h.openPrompt name scope s hooks) := by
  have edits : Edits Untapped Unheard Prompt.inlet h (h.dropDialog name) :=
    ample_plain.dropDialog name
  have dropped := follows_edits (i := i) edits
  have count : (h.dropDialog name).prompts.length = h.prompts.length := by
    simpa using congrArg List.length edits.views
  have prompts : (h.openPrompt name scope s hooks).prompts =
      (h.dropDialog name).prompts ++ [Prompt.restore scope s hooks] := rfl
  have history : (h.openPrompt name scope s hooks).history =
      .issued (h.dropDialog name).prompts.length 0 s.visuals :: (h.dropDialog name).history := rfl
  by_cases last : i = h.prompts.length
  · have absent : h.prompts[i]? = none := List.getElem?_eq_none (Nat.le_of_eq last.symm)
    have there : (h.openPrompt name scope s hooks).prompts[i]? =
        some (.restore scope s hooks) := by
      rw [prompts, last, ← count, List.getElem?_concat_length]
    have answers := dropped.answers
    have fired := dropped.fired
    simp only [Entry.fires, List.filterMap_nil, List.append_nil] at answers fired
    have opened : Follows i h [.registered hooks] (h.openPrompt name scope s hooks) := by
      refine follows_opened woven absent scope s hooks there (scopes_dropDialog name) ?_ ?_
      · rw [← answers]
        simp [answersTo, history, List.filterMap_cons, Event.answer?]
      · rw [← fired]
        simp [firedFor, history, Event.fired]
    unfold Host.arrivals
    rw [absent, there]
    exact opened
  · have beside : (h.openPrompt name scope s hooks).prompts[i]? =
        (h.dropDialog name).prompts[i]? := by
      rw [prompts, List.getElem?_append]
      split
      · rfl
      · rename_i beyond
        rw [List.getElem?_eq_none (l := [_]) (by rw [List.length_singleton]; omega),
          List.getElem?_eq_none (Nat.le_of_not_lt beyond)]
    have appended : Follows i (h.dropDialog name) [] (h.openPrompt name scope s hooks) :=
      follows_quiet (by rw [beside]) (.refl _) (fun _ => .inl rfl) rfl rfl
    refine (dropped.trans appended).arrivals fun absent => ?_
    rw [beside]
    exact kept_of_edits edits absent

theorem follows_openDialog (woven : h.Woven fun _ => none) (name : String) (scope : Nat)
    (dialog : Session.NewDialog) :
    Follows i h (h.arrivals i (Session.openDialog h name scope dialog).1)
      (Session.openDialog h name scope dialog).1 := by
  have edits : Edits Untapped Unheard Prompt.inlet h (h.dropDialog name) :=
    ample_plain.dropDialog name
  -- The dialogs of the other kinds leave the prompts as they are.
  have other {next : Host} (added : Edits Untapped Unheard Prompt.inlet (h.dropDialog name) next) :
      Follows i h (h.arrivals i next) next :=
    (follows_edits (edits.trans added)).arrivals (kept_of_edits (edits.trans added))
  cases dialog with
  | loading => exact other (.single (.rest _ _ _ _ _ _))
  | panel kind visible => cases kind <;> exact other (.single (.rest _ _ _ _ _ _))
  | confirm hooks start =>
      cases start with
      | blank => exact follows_openPrompt woven name scope _ hooks
      | snapshot s => exact follows_openPrompt woven name scope s hooks
      | saved bytes =>
          simp only [Session.openDialog]
          split
          · exact follows_openPrompt woven name scope _ hooks
          · exact follows_same rfl rfl rfl

theorem follows_finish (task : TaskRef) (outcome : Outcome) :
    Follows i h (h.arrivals i (h.finish task outcome).1) (h.finish task outcome).1 := by
  cases task with
  | caller | follower => exact follows_same rfl rfl rfl
  | work w =>
      simp only [finish]
      split <;> exact follows_same rfl rfl rfl
  | wait w =>
      simp only [finish]
      split
      · split <;> exact follows_same rfl rfl rfl
      · exact follows_same rfl rfl rfl

theorem follows_act (woven : h.Woven fun _ => none) (s : Session.Step) :
    Follows i h (h.entriesOfTurn i (.inl s)) (Session.act h s).1 := by
  have named {α : Type} (found : Option α) (f : α → Host)
      (each : ∀ x, Follows i h (h.arrivals i (f x)) (f x)) :
      Follows i h (h.arrivals i (found.elim h f)) (found.elim h f) := by
    cases found with
    | none => exact follows_same rfl rfl rfl
    | some x => exact each x
  have answered {α β : Type} (found : Option α) (nothing : β) (f : α → Host × β)
      (each : ∀ x, Follows i h (h.arrivals i (f x).1) (f x).1) :
      Follows i h (h.arrivals i (found.elim (h, nothing) f).1) (found.elim (h, nothing) f).1 := by
    cases found with
    | none => exact follows_same rfl rfl rfl
    | some x => exact each x
  have small (edits : Edits Untapped Unheard Prompt.inlet h (Session.act h s).1) :
      Follows i h (h.arrivals i (Session.act h s).1) (Session.act h s).1 :=
    (follows_edits edits).arrivals (kept_of_edits edits)
  cases s with
  | call c => exact act_call h c ▸ follows_call woven c
  | openDialog name scope dialog =>
      exact answered _ _ _ fun s => follows_openDialog woven name s dialog
  | openScope name parent =>
      have quiet : Follows i h [] (Session.act h (.openScope name parent)).1 := by
        refine follows_quiet rfl (.branch _) (fun k => .inl ?_) rfl rfl
        dsimp only [Session.act, openScope]
        rw [queueAt_branch]
      exact quiet.arrivals id
  | release scope => exact answered _ _ _ fun s => follows_release s
  | finish task outcome => exact answered _ _ _ fun t => follows_finish t outcome
  | flush scope task =>
      refine named _ _ fun s => ?_
      have started : Follows i h [] (h.startWait task s (.flush false)) :=
        follows_quiet rfl (.refl _) (fun _ => .inl rfl) rfl rfl
      have queued : Edits Untapped Unheard Prompt.inlet (h.startWait task s (.flush false))
          (h.flush task s) := .single (.launched s _ fun _ => rfl)
      exact (started.trans (follows_edits queued)).arrivals id
  | whenCancelled scope task => exact named _ _ fun s => follows_same rfl rfl rfl
  | spawn scope task => exact named _ _ fun s => follows_same rfl rfl rfl
  | _ => exact small (ample_plain.act _ rfl nofun)

theorem follows_turn (woven : h.Woven fun _ => none) (turn : Session.Step ⊕ Move) :
    Follows i h (h.entriesOfTurn i turn) (h.run [turn]) := by
  cases turn with
  | inl s => exact follows_act woven s
  | inr m =>
      have turned : h.run [.inr m] = (h.move? m).getD h := rfl
      rw [turned]
      cases taken : h.move? m with
      | none =>
          simp only [entriesOfTurn, entriesOfMove_none m taken]
          exact .refl i h
      | some next => exact follows_move woven m taken

/-- Along a run, the trail of a prompt tells what becomes of its answers and its hooks. -/
theorem follows_run (reachable : h.Reachable) (turns : List (Session.Step ⊕ Move)) :
    Follows i h (trail i h turns) (h.run turns) := by
  induction turns generalizing h with
  | nil => exact .refl i h
  | cons turn turns ih =>
      exact (follows_turn reachable.woven turn).trans (ih (reachable.run [turn]))

end ModalHost.Host
