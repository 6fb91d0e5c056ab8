import ModalHost.Proofs.Follow.Basic
import ModalHost.Proofs.Strand.Moves
import ModalHost.Proofs.Ledger.Runs

/-! What calls, jobs and moves of a host leave to its followers. -/

namespace ModalHost.Host

variable {h next : Host}

theorem goes_record (e : Event) (other : e.drawing? = none) : h.Goes (h.record e) where
  prompts i p found := ⟨p, found, .refl p⟩
  loadings l loading found := ⟨loading, found, .refl _⟩
  ownsPrompt _ _ _ owned := owned
  ownsLoading _ _ _ owned := owned
  followers _ _ found _ := found
  history := ⟨[e], rfl, by simpa using other⟩
  dialogs := rfl
  held _ there := there

theorem goes_updatePrompt (i : Nat) (f : Prompt → Prompt) (before : ∀ p : Prompt, p.Before (f p))
    (same : ∀ p, (f p).handle = p.handle) : h.Goes (h.updatePrompt i f) where
  prompts j p found := by
    refine ⟨_, by rw [updatePrompt, List.getElem?_modify, found]; rfl, ?_⟩
    dsimp only
    split
    · exact before p
    · exact .refl p
  loadings l loading found := ⟨loading, found, .refl _⟩
  ownsPrompt j p found owned := by
    rwa [Host.ownsPrompt, updatePrompt, any_getElem?_modify f (·.handle) same] at owned
  ownsLoading _ _ _ owned := owned
  followers _ _ found _ := found
  history := ⟨[], rfl, by simp⟩
  dialogs := rfl
  held dialog there := by
    cases dialog with
    | prompt j => rwa [Host.held, updatePrompt, any_getElem?_modify f (·.handle) same]
    | loading l => exact there
    | panel k => exact there

theorem goes_updateLoading (l : Nat) (f : Loading → Loading)
    (before : ∀ loading : Loading, loading.shown.Before (f loading).shown)
    (same : ∀ loading, (f loading).handle = loading.handle) : h.Goes (h.updateLoading l f) where
  prompts i p found := ⟨p, found, .refl p⟩
  loadings j loading found := by
    refine ⟨_, by rw [updateLoading, List.getElem?_modify, found]; rfl, ?_⟩
    dsimp only
    split
    · exact before loading
    · exact .refl _
  ownsPrompt _ _ _ owned := owned
  ownsLoading j loading found owned := by
    rwa [Host.ownsLoading, updateLoading, any_getElem?_modify f (·.handle) same] at owned
  followers _ _ found _ := found
  history := ⟨[], rfl, by simp⟩
  dialogs := rfl
  held dialog there := by
    cases dialog with
    | prompt j => exact there
    | loading l => rwa [Host.held, updateLoading, any_getElem?_modify f (·.handle) same]
    | panel k => exact there

theorem goes_updateCaller (c : Nat) (f : Caller → Caller)
    (same : ∀ caller, (f caller).prompt = caller.prompt)
    (ends : ∀ caller, (f caller).ended = false → caller.ended = false) :
    h.Goes (h.updateCaller c f) where
  prompts i p found := ⟨p, found, .refl p⟩
  loadings l loading found := ⟨loading, found, .refl _⟩
  ownsPrompt i p found owned := by
    rw [Host.ownsPrompt, Bool.or_eq_true] at owned ⊢
    refine owned.imp_right (any_modify f _ h.callers c fun caller _ waits => ?_)
    rw [Bool.and_eq_true, Bool.not_eq_true'] at waits ⊢
    exact ⟨same caller ▸ waits.1, ends caller waits.2⟩
  ownsLoading _ _ _ owned := owned
  followers _ _ found _ := found
  history := ⟨[], rfl, by simp⟩
  dialogs := rfl
  held _ there := there

theorem goes_updateWork (w : Nat) (f : Work → Work)
    (same : ∀ work, (f work).loading = work.loading)
    (ends : ∀ work, h.works[w]? = some work → (f work).hasEnded = false → work.hasEnded = false) :
    h.Goes (h.updateWork w f) where
  prompts i p found := ⟨p, found, .refl p⟩
  loadings l loading found := ⟨loading, found, .refl _⟩
  ownsPrompt _ _ _ owned := owned
  ownsLoading l loading found owned := by
    rw [Host.ownsLoading, Bool.or_eq_true] at owned ⊢
    refine owned.imp_right (any_modify f _ h.works w fun work there waits => ?_)
    rw [Bool.and_eq_true, Bool.not_eq_true'] at waits ⊢
    exact ⟨same work ▸ waits.1, ends work there waits.2⟩
  followers _ _ found _ := found
  history := ⟨[], rfl, by simp⟩
  dialogs := rfl
  held _ there := there

theorem goes_endFollower (f : Nat) :
    h.Goes (h.updateFollower f fun x => { x with ended := true }) where
  prompts i p found := ⟨p, found, .refl p⟩
  loadings l loading found := ⟨loading, found, .refl _⟩
  ownsPrompt _ _ _ owned := owned
  ownsLoading _ _ _ owned := owned
  followers g x found running := by
    rw [updateFollower, List.getElem?_modify, Option.map_eq_map, Option.map_eq_some_iff] at found
    obtain ⟨y, there, rfl⟩ := found
    split at running
    · cases running
    · rename_i other
      rw [there, if_neg other]
  history := ⟨[], rfl, by simp⟩
  dialogs := rfl
  held _ there := there

theorem goes_enrol (name : String) (i request : Nat) (owned : h.ownsPrompt i = true) :
    h.Goes (h.enrol name i request) where
  prompts j p found := ⟨p, found, .refl p⟩
  loadings l loading found := ⟨loading, found, .refl _⟩
  ownsPrompt j p found still := by
    rw [Host.ownsPrompt, enrol, List.any_append, ← Bool.or_assoc, Bool.or_eq_true] at still
    rcases still with before | new
    · exact before
    · simp only [Caller.new, List.any_cons, List.any_nil, Bool.or_false, Bool.and_eq_true,
        beq_iff_eq] at new
      rwa [← new.1]
  ownsLoading _ _ _ owned := owned
  followers _ _ found _ := found
  history := ⟨[], rfl, by simp⟩
  dialogs := rfl
  held _ there := there

theorem goes_updateWait (w : Nat) (f : Wait → Wait) : h.Goes (h.updateWait w f) := .of_eq rfl

theorem goes_launch (scope : Nat) (job : Job) : h.Goes (h.launch scope job) := .of_eq rfl

theorem goes_updatePrompt_unseen (i : Nat) (f : Prompt → Prompt)
    (shown : ∀ p, (f p).shown = p.shown) (asking : ∀ p, (f p).asking = p.asking)
    (same : ∀ p, (f p).handle = p.handle) : h.Goes (h.updatePrompt i f) :=
  goes_updatePrompt i f (fun p => .of_eq (shown p) (asking p)) same

theorem goes_unpark (i c : Nat) (reply : Reply) :
    h.Goes ((h.updateCaller c fun caller => { caller with reply := some reply }).updatePrompt i
      fun p => { p with parked := none }) := by
  refine Goes.trans (goes_updateCaller c _ ?_ ?_) (goes_updatePrompt_unseen i _ ?_ ?_ ?_)
  · exact fun _ => rfl
  · exact fun _ waits => waits
  all_goals exact fun _ => rfl

theorem goes_evict (i : Nat) : h.Goes (h.evict i) := by
  unfold evict
  split
  · exact .refl h
  · exact goes_unpark i _ _

theorem goes_issue (i : Nat) (parked : Option Parked) (visuals : Visuals) :
    h.Goes (h.issue i parked visuals) := by
  unfold issue
  split
  · exact .refl h
  · rename_i p present
    dsimp only
    refine ((goes_evict i).trans (goes_updatePrompt_unseen i _ ?_ ?_ ?_)).trans
      ((goes_record _ rfl).trans (goes_launch p.scope _))
    all_goals exact fun _ => rfl

theorem goes_withdraw (i request : Nat) : h.Goes (h.withdraw i request) := by
  unfold withdraw
  split
  · exact .refl h
  · dsimp only
    split
    · have cleared : h.Goes (h.updatePrompt i fun p => { p with parked := none }) :=
        goes_updatePrompt_unseen i _ (fun _ => rfl) (fun _ => rfl) fun _ => rfl
      split
      · exact cleared
      · split
        · exact cleared.trans (goes_updatePrompt i _ Prompt.before_vanish fun _ => rfl)
        · exact cleared.trans (goes_launch _ _)
    · exact .refl h

theorem goes_endCaller (c : Nat) (ending : Ending) : h.Goes (h.endCaller c ending) := by
  unfold endCaller
  split
  · exact .refl h
  · refine Goes.trans (goes_updateCaller c _ ?_ ?_) (goes_record _ rfl)
    · exact fun _ => rfl
    · exact fun _ running => nomatch running

theorem goes_endCancelled (c : Nat) : h.Goes (h.endCancelled c) := by
  unfold endCancelled
  split
  · exact .refl h
  · exact (goes_withdraw _ _).trans (goes_endCaller c _)

theorem goes_await (i : Nat) (visuals : Visuals) (name : String) (owned : h.ownsPrompt i = true) :
    h.Goes (h.await i visuals name) := by
  cases present : h.prompts[i]? with
  | none =>
      simp only [await, present]
      exact .refl h
  | some p =>
      have asked := (goes_enrol name i (p.issued + 1) owned).trans
        (goes_issue i (some ⟨p.issued + 1, h.callers.length⟩) visuals)
      rw [await_eq h i p present]
      split
      · exact asked.trans (goes_endCancelled _)
      · exact asked

theorem goes_setShown (dialog : DialogRef) (shown : Bool) : h.Goes (h.setShown dialog shown) := by
  cases dialog with
  | prompt i =>
      simp only [setShown]
      cases h.prompts[i]? with
      | none => exact .refl h
      | some p => exact goes_launch _ _
  | loading l =>
      simp only [setShown]
      cases h.loadings[l]? with
      | none => exact .refl h
      | some loading => exact goes_launch _ _
  | panel k =>
      simp only [setShown]
      cases h.panels[k]? with
      | none => exact .refl h
      | some p => exact goes_launch _ _

theorem goes_press (r : Responder) (decision : Decision) : h.Goes (h.press r decision) := by
  unfold press
  split
  · exact .refl h
  · exact goes_launch _ _

theorem goes_cancel (scope : Nat) : h.Goes (h.cancel scope) :=
  (goes_record (.cancelled scope) rfl).trans (.of_eq rfl)

theorem goes_launchLeaves (loading w level : Nat) : h.Goes (h.launchLeaves loading w level) := by
  induction level generalizing h with
  | zero => exact .refl h
  | succ level ih =>
      unfold launchLeaves
      cases h.loadings[loading]? with
      | none => exact .refl h
      | some l => exact (goes_launch _ _).trans ih

theorem goes_endWork (w : Nat) : h.Goes (h.updateWork w fun work => { work with stage := .ended }) :=
  goes_updateWork w _ (fun _ => rfl) fun _ _ running => nomatch running

theorem goes_dropWork (w : Nat) (ending : Ending) : h.Goes (h.dropWork w ending) := by
  unfold dropWork
  split
  · exact .refl h
  · exact ((goes_launchLeaves _ w _).trans (goes_endWork w)).trans (goes_record _ rfl)

theorem goes_abandon (task : TaskRef) : h.Goes (h.abandon task) := by
  cases task with
  | caller c =>
      simp only [abandon]
      split
      · exact .refl h
      · split
        · exact .refl h
        · exact (goes_withdraw _ _).trans (goes_endCaller c _)
  | work w =>
      simp only [abandon]
      split
      · exact .refl h
      · exact goes_dropWork w _
  | wait w =>
      simp only [abandon]
      split
      · exact .refl h
      · split
        · exact .refl h
        · exact (goes_updateWait w _).trans (goes_record _ rfl)
  | follower f =>
      simp only [abandon]
      split
      · exact .refl h
      · split
        · exact .refl h
        · exact (goes_endFollower f).trans (goes_record _ rfl)

structure Named (h : Host) : Prop where
  held (name : String) (dialog : DialogRef) : (name, dialog) ∈ h.names.dialogs →
    h.held dialog = true
  unique (name other : String) (dialog : DialogRef) : (name, dialog) ∈ h.names.dialogs →
    (other, dialog) ∈ h.names.dialogs → name = other

theorem Named.goes (named : h.Named) (goes : h.Goes next) : next.Named where
  held name dialog member := by
    rw [goes.dialogs] at member
    exact goes.held dialog (named.held name dialog member)
  unique name other dialog := by
    rw [goes.dialogs]
    exact named.unique name other dialog

theorem Named.ownsPrompt (named : h.Named) (name : String) (i : Nat)
    (found : h.prompt? name = some i) : h.ownsPrompt i = true := by
  have entry : h.names.dialogs.find? name = some (.prompt i) := by
    unfold prompt? at found
    split at found
    · cases found
      assumption
    · cases found
  have held := named.held name (.prompt i) (Names.mem_of_find _ _ _ entry)
  rw [Host.ownsPrompt, Bool.or_eq_true]
  exact .inl held

theorem Named.ownsLoading (named : h.Named) (name : String) (l : Nat)
    (found : h.loading? name = some l) : h.ownsLoading l = true := by
  have entry : h.names.dialogs.find? name = some (.loading l) := by
    unfold loading? at found
    split at found
    · cases found
      assumption
    · cases found
  have held := named.held name (.loading l) (Names.mem_of_find _ _ _ entry)
  rw [Host.ownsLoading, Bool.or_eq_true]
  exact .inl held

theorem goes_call (named : h.Named) (call : Call) : h.Goes (h.call call) := by
  cases call with
  | showConfirm dialog visuals =>
      simp only [Host.call]
      cases h.prompt? dialog with
      | none => exact .refl h
      | some i => exact goes_issue i none visuals
  | await dialog visuals task =>
      simp only [Host.call]
      cases found : h.prompt? dialog with
      | none => exact .refl h
      | some i => exact goes_await i visuals task (named.ownsPrompt dialog i found)
  | abandon task =>
      simp only [Host.call]
      cases h.names.tasks.find? task with
      | none => exact .refl h
      | some found => exact goes_abandon found
  | setShown dialog shown =>
      simp only [Host.call]
      cases h.names.dialogs.find? dialog with
      | none => exact .refl h
      | some found => exact goes_setShown found shown
  | setHooks dialog hooks =>
      simp only [Host.call]
      cases h.prompt? dialog with
      | none => exact .refl h
      | some i =>
          exact goes_updatePrompt_unseen i _ (fun _ => rfl) (fun _ => rfl) fun _ => rfl
  | press responder decision =>
      simp only [Host.call]
      cases h.responder? responder with
      | none => exact .refl h
      | some r => exact goes_press r decision
  | cancel scope =>
      simp only [Host.call]
      cases h.names.scopes.find? scope with
      | none => exact .refl h
      | some root => exact goes_cancel root

theorem goes_setQueue (scope : Nat) (queue : List Job) : h.Goes (h.setQueue scope queue) := .of_eq rfl

theorem goes_entered (w level : Nat) : h.Goes (h.acknowledgeEnter w level) := by
  refine goes_updateWork w _ (fun work => ?_) fun work _ running => ?_
  · split <;> rfl
  · split at running
    · rename_i stage
      rw [Work.hasEnded, stage]
      rfl
    · exact running

theorem goes_left (w level : Nat) : h.Goes (h.acknowledgeLeave w level) := by
  refine goes_updateWork w _ (fun work => ?_) fun work _ running => ?_
  · split <;> rfl
  · split at running
    · rename_i stage
      rw [Work.hasEnded, stage]
      rfl
    · exact running

theorem goes_runJob (job : Job) (ran : h.runJob job = some next) : h.Goes next := by
  cases job with
  | publish i request visuals =>
      cases ran
      exact goes_updatePrompt i _ (fun p => p.before_publish request visuals) fun p =>
        p.handle_publish request visuals
  | setPrompt i shown =>
      cases shown with
      | true =>
          cases ran
          exact goes_updatePrompt i _ Prompt.before_appear Prompt.handle_appear
      | false =>
          cases ran
          exact goes_updatePrompt i _ Prompt.before_vanish Prompt.handle_vanish
  | settle i request =>
      cases ran
      exact goes_updatePrompt i _ (fun p => p.before_settle request) fun p =>
        p.handle_settle request
  | offer i tap =>
      simp only [runJob] at ran
      split at ran
      · cases ran
        exact .refl h
      · split at ran
        · cases ran
        · cases ran
          exact goes_updatePrompt_unseen i _ (fun _ => rfl) (fun _ => rfl) fun _ => rfl
  | setLoading l shown =>
      cases ran
      exact goes_updateLoading l _ (fun loading => loading.before_setShown shown) fun _ => rfl
  | enter l w level =>
      cases ran
      exact ((goes_updateLoading l _ Loading.before_enter fun _ => rfl).trans
        (goes_record _ rfl)).trans (goes_entered w level)
  | leave l w level awaited =>
      have left := (goes_updateLoading l _ Loading.before_leave fun _ => rfl).trans
        (goes_record (h := h.updateLoading l (·.leave)) (.left w level) rfl)
      cases awaited with
      | false =>
          cases ran
          exact left
      | true =>
          cases ran
          exact left.trans (goes_left w level)
  | setPanel k shown =>
      cases ran
      refine .of_eq ?_
      simp only [easel, updatePanel, List.length_modify]
  | hold opened =>
      cases opened with
      | true =>
          cases ran
          exact .refl h
      | false => cases ran
  | mark label =>
      cases ran
      exact goes_record _ rfl
  | flushed w =>
      cases ran
      exact .of_eq rfl

theorem goes_dispatch (scope : Nat) (ran : h.dispatch? scope = some next) : h.Goes next := by
  obtain ⟨lineage, job, jobs, front, done⟩ := dispatch_cases scope next ran
  exact (goes_setQueue scope jobs).trans (goes_runJob job done)

theorem goes_empty (i : Nat) : h.Goes (h.updatePrompt i fun p => { p with mailbox := none }) :=
  goes_updatePrompt_unseen i _ (fun _ => rfl) (fun _ => rfl) fun _ => rfl

theorem goes_heard (i : Nat) (p : Prompt) (a : Answer) : h.Goes (h.heard i p a) := by
  have notified : h.Goes (h.notify i p a) := by
    have taken := ((goes_empty (h := h) i).trans (goes_updatePrompt_unseen i
      (fun p => { p with phase := .resolving }) (fun _ => rfl) (fun _ => rfl) fun _ => rfl)).trans
      (goes_record (.accepted i a (p.callerOf a.request)) rfl)
    refine taken.trans ?_
    unfold notify resolve
    split
    · exact .refl _
    · exact goes_unpark i _ _
  unfold heard
  split
  · exact notified
  · exact notified.trans (goes_record _ rfl)

theorem goes_resumeCaller (c : Nat) (resumed : h.resumeCaller? c = some next) : h.Goes next := by
  obtain ⟨caller, -, -, moved⟩ := caller_cases c resumed
  cases moved with
  | cancelled => exact goes_endCancelled c
  | told reply => exact goes_endCaller c _

theorem goes_setStage (w : Nat) (stage : Stage)
    (waits : ∀ work, h.works[w]? = some work → work.hasEnded = false) :
    h.Goes (h.updateWork w fun work => { work with stage }) :=
  goes_updateWork w _ (fun _ => rfl) fun work there _ => waits work there

theorem goes_enterLevel (w level : Nat)
    (waits : ∀ work, h.works[w]? = some work → work.hasEnded = false) :
    h.Goes (h.enterLevel w level) := by
  unfold enterLevel
  split
  · exact .refl h
  · split
    · unfold beginBlock
      split
      · exact .refl h
      · exact (goes_setStage w _ waits).trans (goes_record _ rfl)
    · split
      · exact .refl h
      · exact (goes_setStage w _ waits).trans (goes_launch _ _)

theorem goes_leaveLevel (w level : Nat) (text : String)
    (waits : ∀ work, h.works[w]? = some work → work.hasEnded = false) :
    h.Goes (h.leaveLevel w level text) := by
  unfold leaveLevel
  split
  · exact .refl h
  · split
    · exact (goes_setStage w _ waits).trans (goes_record _ rfl)
    · split
      · exact .refl h
      · exact (goes_setStage w _ waits).trans (goes_launch _ _)

theorem goes_advanceWork (w : Nat) (advanced : h.advanceWork? w = some next) : h.Goes next := by
  obtain ⟨work, there, moved⟩ := work_cases w advanced
  have waits (running : work.stage ≠ .ended) :
      ∀ other, h.works[w]? = some other → other.hasEnded = false := by
    intro other found
    cases there.symm.trans found
    simpa [Work.hasEnded] using running
  cases moved with
  | entered level done stage => exact goes_enterLevel w _ (waits (by simp [stage]))
  | returned text stage => exact goes_leaveLevel w _ _ (waits (by simp [stage]))
  | panicked => exact goes_dropWork w _
  | left level done text stage => exact goes_leaveLevel w _ _ (waits (by simp [stage]))

theorem goes_endWait (w : Nat) (name : String) (ending : Ending) :
    h.Goes (h.endWait w name ending) :=
  (goes_updateWait w _).trans (goes_record _ rfl)

theorem goes_advanceWait (w : Nat) (advanced : h.advanceWait? w = some next) : h.Goes next := by
  obtain ⟨wait, -, moved⟩ := wait_cases w advanced
  cases moved with
  | flushed | cancelled | joined => exact goes_endWait w _ _
  | received given => exact (goes_updateWait w _).trans (goes_record _ rfl)

end ModalHost.Host
