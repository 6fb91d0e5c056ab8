import ModalHost.Proofs.Ledger.Mooring
import ModalHost.Proofs.Strand.Projection
import ModalHost.Proofs.Moves

/-! What calls, jobs and moves of a host make of its ledger: nothing, or a path of steps. -/

namespace ModalHost

namespace Host

open Ledger (Path)

variable (h : Host) {allowed : Job → Prop}

theorem ledger_record (e : Event) (counts : e.counted = true) :
    (h.record e).ledger = { h.ledger with log := e :: h.ledger.log } := by
  simp [ledger, record, counts]

theorem ledger_record_other (e : Event) (other : e.counted = false) :
    (h.record e).ledger = h.ledger := by
  simp [ledger, record, other]

theorem ledger_launch (scope : Nat) (job : Job) (counts : job.counted = true) :
    (h.launch scope job).ledger = h.ledger.launches scope [job] := by
  have pushed := map_modify (fun s : Scope => s.push job) (·.push job) (Scope.sift Job.counted)
    scope h.scopes fun s => Scope.sift_push _ s job counts
  simp only [ledger, launch, Ledger.launches, pushAll, List.foldl_cons, List.foldl_nil, pushed]

theorem ledger_launch_other (scope : Nat) (job : Job) (other : job.counted = false) :
    (h.launch scope job).ledger = h.ledger := by
  have pushed := map_modify_invisible (fun s : Scope => s.push job) (Scope.sift Job.counted) scope
    h.scopes fun s => Scope.sift_push_other _ s job other
  simp only [ledger, launch, pushed]

theorem ledger_updatePrompt (i : Nat) (f : Prompt → Prompt) (same : ∀ p, (f p).scope = p.scope) :
    (h.updatePrompt i f).ledger = h.ledger := by
  have homes := map_modify_invisible f Prompt.scope i h.prompts same
  simp only [ledger, updatePrompt, homes]

@[simp] theorem ledger_updateCaller (c : Nat) (f : Caller → Caller) :
    (h.updateCaller c f).ledger = h.ledger := rfl

@[simp] theorem ledger_updateWait (w : Nat) (f : Wait → Wait) :
    (h.updateWait w f).ledger = h.ledger := rfl

@[simp] theorem ledger_updateFollower (f : Nat) (change : Follower → Follower) :
    (h.updateFollower f change).ledger = h.ledger := rfl

theorem ledger_updateLoading (i : Nat) (f : Loading → Loading) :
    (h.updateLoading i f).ledger =
      { h.ledger with loadings := h.ledger.loadings.modify i f } := rfl

theorem ledger_updateWork (w : Nat) (f : Work → Work) :
    (h.updateWork w f).ledger = { h.ledger with works := h.ledger.works.modify w f } := rfl

@[simp] theorem queued_ledger (scope : Nat) :
    h.ledger.queued scope = (h.queued scope).filter Job.counted :=
  queueAt_sift h.scopes scope Job.counted

@[simp] theorem isCancelled_ledger (scope : Nat) :
    h.ledger.isCancelled scope = h.isCancelled scope :=
  cancelledAt_sift h.scopes scope Job.counted

variable {h}

theorem ledger_evict (i : Nat) : (h.evict i).ledger = h.ledger := by
  unfold evict
  split
  · rfl
  · rw [ledger_updatePrompt, ledger_updateCaller]
    exact fun _ => rfl

theorem ledger_issue (i : Nat) (parked : Option Parked) (visuals : Visuals) :
    (h.issue i parked visuals).ledger = h.ledger := by
  unfold issue
  split
  · rfl
  · dsimp only
    rw [ledger_launch_other _ _ _ rfl, ledger_record_other _ _ rfl, ledger_updatePrompt,
      ledger_evict]
    exact fun _ => rfl

theorem ledger_withdraw (i request : Nat) : (h.withdraw i request).ledger = h.ledger := by
  unfold withdraw
  split
  · rfl
  · dsimp only
    split
    · split
      · exact ledger_updatePrompt _ _ _ fun _ => rfl
      · split
        · rw [ledger_updatePrompt, ledger_updatePrompt] <;> exact fun _ => rfl
        · rw [ledger_launch_other _ _ _ rfl, ledger_updatePrompt]
          exact fun _ => rfl
    · rfl

theorem ledger_endCaller (c : Nat) (ending : Ending) :
    (h.endCaller c ending).ledger = h.ledger := by
  unfold endCaller
  split
  · rfl
  · rw [ledger_record_other _ _ rfl, ledger_updateCaller]

theorem ledger_endCancelled (c : Nat) : (h.endCancelled c).ledger = h.ledger := by
  unfold endCancelled
  split
  · rfl
  · rw [ledger_endCaller, ledger_withdraw]

theorem ledger_await (i : Nat) (visuals : Visuals) (name : String) :
    (h.await i visuals name).ledger = h.ledger := by
  unfold await
  split
  · rfl
  · dsimp only
    split
    · rw [ledger_endCancelled, ledger_issue]
      rfl
    · rw [ledger_issue]
      rfl

theorem ledger_press (r : Responder) (decision : Decision) :
    (h.press r decision).ledger = h.ledger := by
  unfold press
  split
  · rfl
  · exact ledger_launch_other _ _ _ rfl

theorem ledger_resolve (i request : Nat) (decision : Decision) :
    (h.resolve i request decision).ledger = h.ledger := by
  unfold resolve
  split
  · rfl
  · rw [ledger_updatePrompt, ledger_updateCaller]
    exact fun _ => rfl

theorem ledger_resumeCaller (c : Nat) (next : Host) (resumed : h.resumeCaller? c = some next) :
    next.ledger = h.ledger := by
  obtain ⟨caller, -, -, moved⟩ := caller_cases c resumed
  cases moved with
  | cancelled => exact ledger_endCancelled c
  | told reply => exact ledger_endCaller c _

theorem ledger_endWait (w : Nat) (name : String) (ending : Ending) :
    (h.endWait w name ending).ledger = h.ledger := by
  unfold endWait
  rw [ledger_record_other _ _ rfl, ledger_updateWait]

theorem ledger_advanceWait (w : Nat) (next : Host) (advanced : h.advanceWait? w = some next) :
    next.ledger = h.ledger := by
  obtain ⟨wait, -, moved⟩ := wait_cases w advanced
  cases moved with
  | flushed | cancelled | joined => exact ledger_endWait w _ _
  | received given => rw [ledger_record_other _ _ rfl, ledger_updateWait]

theorem ledger_draw (f : Nat) : (h.draw f).ledger = h.ledger := by
  unfold draw
  split
  · rfl
  · rw [ledger_record_other _ _ rfl, ledger_updateFollower]

theorem ledger_followShown (f : Nat) (next : Host) (woke : h.followShown? f = some next) :
    next.ledger = h.ledger := by
  obtain ⟨x, -, -, moved⟩ := shown_cases f woke
  cases moved with
  | looked cell => rw [ledger_draw, ledger_updateFollower]
  | ended => rw [ledger_record_other _ _ rfl, ledger_updateFollower]

theorem ledger_followVisuals (f : Nat) (next : Host) (woke : h.followVisuals? f = some next) :
    next.ledger = h.ledger := by
  obtain ⟨x, i, p, -, -, -, -, moved⟩ := visuals_cases f woke
  cases moved with
  | drew => rw [ledger_draw, ledger_updateFollower]
  | overlooked | left => rfl

theorem track_setShown (dialog : DialogRef) (shown : Bool) :
    Path allowed h.ledger (h.setShown dialog shown).ledger := by
  cases dialog with
  | prompt i =>
      simp only [setShown]
      cases h.prompts[i]? with
      | none => exact .refl
      | some p =>
          rw [Option.elim_some, ledger_launch_other _ _ _ rfl]
          exact .refl
  | loading i =>
      simp only [setShown]
      cases found : h.loadings[i]? with
      | none => exact .refl
      | some l =>
          rw [Option.elim_some, ledger_launch _ _ _ rfl]
          exact .single (.toggled i l found shown)
  | panel i =>
      simp only [setShown]
      cases h.panels[i]? with
      | none => exact .refl
      | some p =>
          rw [Option.elim_some, ledger_launch_other _ _ _ rfl]
          exact .refl

theorem track_cancel (scope : Nat) : Path allowed h.ledger (h.cancel scope).ledger := by
  have spared : (h.cancel scope).ledger =
      { h.ledger with scopes := h.ledger.scopes.map (·.cancelBy scope) } := by
    simp only [cancel, ledger, record, List.map_map]
    congr 1
    apply List.map_congr_left
    intro s _
    exact Scope.sift_cancelBy _ _ _
  rw [spared]
  exact .single (.cancelled scope)

theorem ledger_launchLeaves (i : Nat) (l : Loading) (found : h.loadings[i]? = some l)
    (w levels : Nat) :
    (h.launchLeaves i w levels).ledger = h.ledger.launches l.scope (Work.leaves i w levels) := by
  induction levels generalizing h with
  | zero => rfl
  | succ level ih =>
      simp only [launchLeaves, found]
      rw [ih (h := h.launch l.scope (.leave i w (level + 1) false)) found,
        ledger_launch _ _ _ rfl]
      rfl

theorem track_dropWork (sound : h.ledger.Sound) (w : Nat) (ending : Ending)
    (waits : ∀ work, h.works[w]? = some work → work.stage ≠ .ended) :
    Path allowed h.ledger (h.dropWork w ending).ledger := by
  unfold dropWork
  cases there : h.works[w]? with
  | none => exact .refl
  | some work =>
      obtain ⟨l, found⟩ := sound.works w work there
      dsimp only
      rw [ledger_record_other _ _ rfl, ledger_updateWork, ledger_launchLeaves _ l found]
      exact .single (.proceeded w work there l found _ _ (.dropped (waits work there)))

theorem track_abandon (sound : h.ledger.Sound) (task : TaskRef) :
    Path allowed h.ledger (h.abandon task).ledger := by
  cases task with
  | caller c =>
      simp only [abandon]
      split
      · exact .refl
      · split
        · exact .refl
        · rw [ledger_endCaller, ledger_withdraw]
          exact .refl
  | work w =>
      simp only [abandon]
      split
      · exact .refl
      · rename_i waits
        apply track_dropWork sound
        intro work there ended
        simp [there, Work.hasEnded, ended] at waits
  | wait w =>
      simp only [abandon]
      split
      · exact .refl
      · split
        · exact .refl
        · rw [ledger_record_other _ _ rfl, ledger_updateWait]
          exact .refl
  | follower f =>
      simp only [abandon]
      split
      · exact .refl
      · split
        · exact .refl
        · rw [ledger_record_other _ _ rfl, ledger_updateFollower]
          exact .refl

theorem track_call (sound : h.ledger.Sound) (c : Call) :
    Path allowed h.ledger (h.call c).ledger := by
  have named {α : Type} (found : Option α) (f : α → Host)
      (each : ∀ x, Path allowed h.ledger (f x).ledger) :
      Path allowed h.ledger (found.elim h f).ledger := by
    cases found with
    | none => exact .refl
    | some x => exact each x
  have unseen {next : Host} (same : next.ledger = h.ledger) :
      Path allowed h.ledger next.ledger := by
    rw [same]
    exact .refl
  cases c with
  | showConfirm dialog visuals => exact named _ _ fun i => unseen (ledger_issue i none visuals)
  | await dialog visuals task => exact named _ _ fun i => unseen (ledger_await i visuals task)
  | abandon task => exact named _ _ fun t => track_abandon sound t
  | setShown dialog shown => exact named _ _ fun d => track_setShown d shown
  | setHooks dialog hooks =>
      exact named _ _ fun i => unseen (ledger_updatePrompt _ i _ fun _ => rfl)
  | press responder decision => exact named _ _ fun r => unseen (ledger_press r decision)
  | cancel scope => exact named _ _ fun s => track_cancel s

end Host

namespace Ledger

theorem Path.sound {allowed : Job → Prop} {γ δ : Ledger} (path : Path allowed γ δ)
    (sound : γ.Sound) : δ.Sound := by
  induction path with
  | refl => exact sound
  | tail _ step ih => exact step.sound ih

end Ledger

namespace Host

open Ledger (Path)

variable {h : Host} {allowed : Job → Prop}

theorem track_calls (sound : h.ledger.Sound) (calls : List Call) :
    Path allowed h.ledger (calls.foldl call h).ledger := by
  induction calls generalizing h with
  | nil => exact .refl
  | cons c calls ih =>
      have first : Path allowed h.ledger (h.call c).ledger := track_call sound c
      exact first.trans (ih (first.sound sound))

theorem track_fire (sound : h.ledger.Sound) (i : Nat) (decision : Decision) :
    Path allowed h.ledger (h.fire i decision).ledger := by
  unfold fire
  split
  · exact .refl
  · rename_i p _
    split
    · exact .refl
    · have recorded : (h.record (.hookRan i p.hooks.tag decision)).ledger = h.ledger :=
        ledger_record_other _ _ rfl
      rw [← recorded] at sound ⊢
      exact track_calls sound _

theorem track_accept (sound : h.ledger.Sound) (i : Nat) (p : Prompt) (a : Answer) :
    Path allowed h.ledger (h.accept i p a).ledger := by
  have told : (((h.updatePrompt i fun p => { p with phase := .resolving }).record
      (.accepted i a (p.callerOf a.request))).resolve i a.request a.tap.decision).ledger =
        h.ledger := by
    rw [ledger_resolve, ledger_record_other _ _ rfl, ledger_updatePrompt]
    exact fun _ => rfl
  simp only [accept]
  rw [← told] at sound ⊢
  rw [ledger_launch_other _ _ _ rfl]
  exact track_fire sound i _

theorem ledger_heard (i : Nat) (p : Prompt) (a : Answer) : (h.heard i p a).ledger = h.ledger := by
  have notified : (h.notify i p a).ledger = h.ledger := by
    unfold notify
    rw [ledger_resolve, ledger_record_other _ _ rfl, ledger_updatePrompt, ledger_updatePrompt] <;>
      exact fun _ => rfl
  unfold heard
  split
  · exact notified
  · rw [ledger_record_other _ _ rfl, notified]

theorem track_deliver (sound : h.ledger.Sound) (i : Nat) (next : Host)
    (delivered : h.deliver? i = some next) : Path allowed h.ledger next.ledger := by
  have emptied : (h.updatePrompt i fun p => { p with mailbox := none }).ledger = h.ledger :=
    ledger_updatePrompt _ _ _ fun _ => rfl
  obtain ⟨p, a, -, -, ⟨-, rfl⟩ | ⟨-, rfl⟩⟩ := deliver_cases i next delivered
  · rw [← emptied] at sound ⊢
    exact track_accept sound i p a
  · rw [emptied]
    exact .refl

end Host

end ModalHost
