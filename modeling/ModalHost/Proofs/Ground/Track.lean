import ModalHost.Proofs.Ground.Basic
import ModalHost.Proofs.Ledger.Runs
import ModalHost.Proofs.Strand.Weave

/-! What calls, jobs and moves of a host make of its ground. Only two things end a caller as
cancelled: it is resumed on a cancelled scope, or it asks on one. -/

namespace ModalHost.Host

open Ground (Path Step)

inductive CancelsWait (h : Host) (c : Nat) : Host → Prop
  | resumed (caller : Caller) (p : Prompt) (found : h.callers[c]? = some caller)
      (waits : caller.ended = false) (present : h.prompts[caller.prompt]? = some p)
      (dead : h.isCancelled p.scope = true) : CancelsWait h c (h.endCancelled c)
  | asked (i : Nat) (p : Prompt) (visuals : Visuals) (name : String)
      (present : h.prompts[i]? = some p) (dead : h.isCancelled p.scope = true)
      (last : c = h.callers.length) : CancelsWait h c (h.await i visuals name)

variable (h : Host) {mayEnd : Prop}

theorem ground_record (e : Event) (counts : e.ofCancellation = true) :
    (h.record e).ground = { h.ground with log := e :: h.ground.log } := by
  simp [ground, record, counts]

theorem ground_record_other (e : Event) (other : e.ofCancellation = false) :
    (h.record e).ground = h.ground := by
  simp [ground, record, other]

theorem ground_launch_other (scope : Nat) (job : Job) (other : job.ofPanel = false) :
    (h.launch scope job).ground = h.ground := by
  have pushed := map_modify_invisible (fun s : Scope => s.push job) (Scope.sift Job.ofPanel) scope
    h.scopes fun s => Scope.sift_push_other _ s job other
  simp only [ground, launch, pushed]

@[simp] theorem ground_updatePrompt (i : Nat) (f : Prompt → Prompt) :
    (h.updatePrompt i f).ground = h.ground := rfl

@[simp] theorem ground_updateLoading (l : Nat) (f : Loading → Loading) :
    (h.updateLoading l f).ground = h.ground := rfl

@[simp] theorem ground_updateCaller (c : Nat) (f : Caller → Caller) :
    (h.updateCaller c f).ground = h.ground := rfl

@[simp] theorem ground_updateWork (w : Nat) (f : Work → Work) :
    (h.updateWork w f).ground = h.ground := rfl

@[simp] theorem ground_updateWait (w : Nat) (f : Wait → Wait) :
    (h.updateWait w f).ground = h.ground := rfl

@[simp] theorem ground_updateFollower (f : Nat) (change : Follower → Follower) :
    (h.updateFollower f change).ground = h.ground := rfl

@[simp] theorem isCancelled_ground (scope : Nat) :
    cancelledAt h.ground.scopes scope = h.isCancelled scope :=
  cancelledAt_sift h.scopes scope Job.ofPanel

theorem treeOf_ground : treeOf h.ground.scopes = treeOf h.scopes := by
  simp only [treeOf, ground, List.map_map]
  rfl

variable {h}

theorem mem_ground_log (e : Event) (counts : e.ofCancellation = true) :
    e ∈ h.ground.log ↔ e ∈ h.history :=
  List.mem_filter.trans (and_iff_left counts)

theorem tree_rooted (firm : h.ground.Firm) : Tree.Rooted (treeOf h.scopes) h.ground.log := by
  rw [← treeOf_ground]
  exact firm.rooted

theorem ground_evict (i : Nat) : (h.evict i).ground = h.ground := by
  unfold evict
  split <;> rfl

theorem ground_issue (i : Nat) (parked : Option Parked) (visuals : Visuals) :
    (h.issue i parked visuals).ground = h.ground := by
  unfold issue
  split
  · rfl
  · dsimp only
    rw [ground_launch_other _ _ _ rfl, ground_record_other _ _ rfl, ground_updatePrompt,
      ground_evict]

theorem ground_asked (i request : Nat) (parked : Option Parked) (visuals : Visuals)
    (name : String) :
    ((h.enrol name i request).issue i parked visuals).ground = h.ground :=
  ground_issue i parked visuals

theorem isCancelled_asked (i request : Nat) (parked : Option Parked) (visuals : Visuals)
    (name : String) (scope : Nat) :
    ((h.enrol name i request).issue i parked visuals).isCancelled scope = h.isCancelled scope := by
  rw [← isCancelled_ground, ground_asked, isCancelled_ground]

theorem ground_withdraw (i request : Nat) : (h.withdraw i request).ground = h.ground := by
  unfold withdraw
  split
  · rfl
  · dsimp only
    split
    · split
      · rfl
      · split
        · rfl
        · rw [ground_launch_other _ _ _ rfl, ground_updatePrompt]
    · rfl

theorem ground_endCaller (c : Nat) (ending : Ending) (other : ending ≠ .cancelled) :
    (h.endCaller c ending).ground = h.ground := by
  unfold endCaller
  split
  · rfl
  · rw [ground_record_other, ground_updateCaller]
    cases ending <;> first | rfl | exact absurd rfl other

theorem ground_endCancelled (c : Nat) (caller : Caller) (found : h.callers[c]? = some caller) :
    (h.endCancelled c).ground =
      { h.ground with log := .ended (.caller c) caller.name .cancelled :: h.ground.log } := by
  have still : (h.withdraw caller.prompt caller.request).callers[c]? = some caller := by
    rw [callers_withdraw, found]
  have withdrawn : (h.withdraw caller.prompt caller.request).ground = h.ground :=
    ground_withdraw _ _
  simp only [endCancelled, found, endCaller, still]
  rw [ground_record _ _ rfl, ground_updateCaller, withdrawn]

theorem caller_enrolled (i : Nat) (p : Prompt) (present : h.prompts[i]? = some p)
    (visuals : Visuals) (name : String) :
    ∃ caller, ((h.enrol name i (p.issued + 1)).issue i (some ⟨p.issued + 1, h.callers.length⟩)
        visuals).callers[h.callers.length]? = some caller ∧
      caller.name = name ∧ caller.prompt = i ∧ caller.request = p.issued + 1 ∧
        caller.ended = false := by
  have strand := strand_issue (h.enrol name i (p.issued + 1)) i none p present
    (some ⟨p.issued + 1, h.callers.length⟩) visuals
  have callers := congrArg (fun σ : Strand => σ.callers[h.callers.length]?) strand
  simp only [Host.strand, Strand.launch, enrol, getElem?_tell, List.getElem?_concat_length,
    Option.map_some] at callers
  refine ⟨_, callers, ?_⟩
  split <;> exact ⟨rfl, rfl, rfl, rfl⟩

theorem await_dead (i : Nat) (p : Prompt) (present : h.prompts[i]? = some p)
    (dead : h.isCancelled p.scope = true) (visuals : Visuals) (name : String) :
    h.await i visuals name = ((h.enrol name i (p.issued + 1)).issue i
      (some ⟨p.issued + 1, h.callers.length⟩) visuals).endCancelled h.callers.length := by
  rw [await_eq h i p present, isCancelled_asked, if_pos dead]

theorem CancelsWait.ground {c : Nat} {next : Host} (cancels : h.CancelsWait c next) :
    ∃ name, next.ground =
      { h.ground with log := .ended (.caller c) name .cancelled :: h.ground.log } := by
  cases cancels with
  | resumed caller p found => exact ⟨caller.name, ground_endCancelled c caller found⟩
  | asked i p visuals name present dead last =>
      subst last
      obtain ⟨caller, there, -⟩ := caller_enrolled i p present visuals name
      rw [await_dead i p present dead, ground_endCancelled _ _ there, ground_asked]
      exact ⟨_, rfl⟩

theorem ground_press (r : Responder) (decision : Decision) :
    (h.press r decision).ground = h.ground := by
  unfold press
  split
  · rfl
  · exact ground_launch_other _ _ _ rfl

theorem ground_endWait (w : Nat) (name : String) (ending : Ending) :
    (h.endWait w name ending).ground = h.ground := by
  unfold endWait
  rw [ground_record_other _ _ rfl, ground_updateWait]

theorem ground_advanceWait (w : Nat) (next : Host) (advanced : h.advanceWait? w = some next) :
    next.ground = h.ground := by
  obtain ⟨wait, -, moved⟩ := wait_cases w advanced
  cases moved with
  | flushed | cancelled | joined => exact ground_endWait w _ _
  | received given => rw [ground_record_other _ _ rfl, ground_updateWait]

theorem ground_draw (f : Nat) : (h.draw f).ground = h.ground := by
  unfold draw
  split
  · rfl
  · rw [ground_record_other _ _ rfl, ground_updateFollower]

theorem ground_followShown (f : Nat) (next : Host) (woke : h.followShown? f = some next) :
    next.ground = h.ground := by
  obtain ⟨x, -, -, moved⟩ := shown_cases f woke
  cases moved with
  | looked cell => rw [ground_draw, ground_updateFollower]
  | ended => rw [ground_record_other _ _ rfl, ground_updateFollower]

theorem ground_followVisuals (f : Nat) (next : Host) (woke : h.followVisuals? f = some next) :
    next.ground = h.ground := by
  obtain ⟨x, i, p, -, -, -, -, moved⟩ := visuals_cases f woke
  cases moved with
  | drew => rw [ground_draw, ground_updateFollower]
  | overlooked | left => rfl

theorem ground_launchLeaves (loading w level : Nat) :
    (h.launchLeaves loading w level).ground = h.ground := by
  induction level generalizing h with
  | zero => rfl
  | succ level ih =>
      unfold launchLeaves
      cases h.loadings[loading]? with
      | none => rfl
      | some l => rw [ih, ground_launch_other _ _ _ rfl]

theorem ground_dropWork (w : Nat) (ending : Ending) : (h.dropWork w ending).ground = h.ground := by
  unfold dropWork
  split
  · rfl
  · rw [ground_record_other _ _ rfl, ground_updateWork, ground_launchLeaves]

theorem ground_abandon (task : TaskRef) : (h.abandon task).ground = h.ground := by
  cases task with
  | caller c =>
      simp only [abandon]
      split
      · rfl
      · split
        · rfl
        · rw [ground_endCaller _ _ (by simp), ground_withdraw]
  | work w =>
      simp only [abandon]
      split
      · rfl
      · exact ground_dropWork w _
  | wait w =>
      simp only [abandon]
      split
      · rfl
      · split
        · rfl
        · rw [ground_record_other _ _ rfl, ground_updateWait]
  | follower f =>
      simp only [abandon]
      split
      · rfl
      · split
        · rfl
        · rw [ground_record_other _ _ rfl, ground_updateFollower]

theorem ground_beginBlock (w : Nat) : (h.beginBlock w).ground = h.ground := by
  unfold beginBlock
  split
  · rfl
  · rw [ground_record_other _ _ rfl, ground_updateWork]

theorem ground_enterLevel (w level : Nat) : (h.enterLevel w level).ground = h.ground := by
  unfold enterLevel
  split
  · rfl
  · split
    · exact ground_beginBlock w
    · split
      · rfl
      · rw [ground_launch_other _ _ _ rfl, ground_updateWork]

theorem ground_leaveLevel (w level : Nat) (text : String) :
    (h.leaveLevel w level text).ground = h.ground := by
  unfold leaveLevel
  split
  · rfl
  · split
    · rw [ground_record_other _ _ rfl, ground_updateWork]
    · split
      · rfl
      · rw [ground_launch_other _ _ _ rfl, ground_updateWork]

theorem ground_advanceWork (w : Nat) (next : Host) (advanced : h.advanceWork? w = some next) :
    next.ground = h.ground := by
  obtain ⟨work, -, moved⟩ := work_cases w advanced
  cases moved with
  | entered level => exact ground_enterLevel w _
  | returned | left => exact ground_leaveLevel w _ _
  | panicked => exact ground_dropWork w _

theorem ground_resumeCaller (c : Nat) (next : Host) (resumed : h.resumeCaller? c = some next) :
    next.ground = h.ground ∨ h.CancelsWait c next := by
  obtain ⟨caller, found, waits, moved⟩ := caller_cases c resumed
  cases moved with
  | cancelled p present dead => exact .inr (.resumed caller p found waits present dead)
  | told reply => exact .inl (ground_endCaller c _ (by cases reply <;> simp [Reply.ending]))

theorem ground_heard (i : Nat) (p : Prompt) (a : Answer) : (h.heard i p a).ground = h.ground := by
  have notified : (h.notify i p a).ground = h.ground := by
    unfold notify resolve
    split <;> rfl
  unfold heard
  split
  · exact notified
  · rw [ground_record_other _ _ rfl, notified]

theorem tread_setShown (dialog : DialogRef) (shown : Bool) :
    Path mayEnd h.ground (h.setShown dialog shown).ground := by
  cases dialog with
  | prompt i =>
      simp only [setShown]
      cases h.prompts[i]? with
      | none => exact .refl
      | some p =>
          rw [Option.elim_some, ground_launch_other _ _ _ rfl]
          exact .refl
  | loading i =>
      simp only [setShown]
      cases h.loadings[i]? with
      | none => exact .refl
      | some l =>
          rw [Option.elim_some, ground_launch_other _ _ _ rfl]
          exact .refl
  | panel k =>
      simp only [setShown]
      cases found : h.panels[k]? with
      | none => exact .refl
      | some p =>
          have pushed := map_modify (fun s : Scope => s.push (.setPanel k shown))
            (·.push (.setPanel k shown)) (Scope.sift Job.ofPanel) p.scope h.scopes
            fun s => Scope.sift_push _ s (.setPanel k shown) rfl
          have step : Step mayEnd h.ground _ := .toggled k p found shown
          rw [ground, ← pushed] at step
          exact .single step

theorem tread_cancel (sound : h.ledger.Sound) (name : String) (root : Nat)
    (named : h.names.scopes.find? name = some root) :
    Path mayEnd h.ground (h.cancel root).ground := by
  have inside : root < h.ground.scopes.length := by
    simpa [ground] using scope_of_name sound name root named
  have cancelled : (h.cancel root).ground =
      { h.ground with
        scopes := h.ground.scopes.map (·.cancelBy root)
        log := .cancelled root :: h.ground.log } := by
    simp only [cancel, ground, record, List.map_map]
    congr 1
    apply List.map_congr_left
    intro s _
    exact Scope.sift_cancelBy _ _ _
  rw [cancelled]
  exact .single (.cancelled root inside)

theorem ground_call (sound : h.ledger.Sound) (call : Call) :
    Path mayEnd h.ground (h.call call).ground ∨ ∃ c, h.CancelsWait c (h.call call) := by
  cases call with
  | showConfirm dialog visuals =>
      simp only [Host.call]
      cases h.prompt? dialog with
      | none => exact .inl .refl
      | some i => exact .inl (.of_eq (ground_issue i none visuals))
  | await dialog visuals task =>
      simp only [Host.call]
      cases h.prompt? dialog with
      | none => exact .inl .refl
      | some i =>
          rw [Option.elim_some]
          cases present : h.prompts[i]? with
          | none =>
              simp only [await, present]
              exact .inl .refl
          | some p =>
              cases dead : h.isCancelled p.scope with
              | true => exact .inr ⟨_, .asked i p visuals task present dead rfl⟩
              | false =>
                  rw [await_eq h i p present, isCancelled_asked,
                    if_neg (Bool.eq_false_iff.mp dead), ground_asked]
                  exact .inl .refl
  | abandon task =>
      simp only [Host.call]
      cases h.names.tasks.find? task with
      | none => exact .inl .refl
      | some found => exact .inl (.of_eq (ground_abandon found))
  | setShown dialog shown =>
      simp only [Host.call]
      cases h.names.dialogs.find? dialog with
      | none => exact .inl .refl
      | some found => exact .inl (tread_setShown found shown)
  | setHooks dialog hooks =>
      simp only [Host.call]
      cases h.prompt? dialog with
      | none => exact .inl .refl
      | some i => exact .inl .refl
  | press responder decision =>
      simp only [Host.call]
      cases h.responder? responder with
      | none => exact .inl .refl
      | some r => exact .inl (.of_eq (ground_press r decision))
  | cancel scope =>
      simp only [Host.call]
      cases named : h.names.scopes.find? scope with
      | none => exact .inl .refl
      | some root => exact .inl (tread_cancel sound scope root named)

end ModalHost.Host
