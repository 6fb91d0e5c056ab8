import ModalHost.Proofs.Edits.Basic
import ModalHost.Proofs.Moves
import ModalHost.Proofs.Strand.Moves

/-! The edits that each call, job and move of a host is made of. -/

namespace ModalHost

@[simp] theorem Prompt.inlet_vanish (p : Prompt) : p.vanish.inlet = p.inlet := rfl

@[simp] theorem Prompt.inlet_appear (p : Prompt) : p.appear.inlet = p.inlet := by
  obtain ⟨shown, phase, same⟩ := Prompt.appear_eq p
  rw [same]
  rfl

@[simp] theorem Prompt.inlet_publish (p : Prompt) (request : Nat) (visuals : Visuals) :
    (p.publish request visuals).inlet = p.inlet := by
  obtain ⟨shown, phase, same⟩ := Prompt.publish_eq p request visuals
  rw [same]
  rfl

@[simp] theorem Prompt.inlet_settle (p : Prompt) (request : Nat) :
    (p.settle request).inlet = p.inlet := by
  obtain ⟨shown, phase, same⟩ := Prompt.settle_eq p request
  rw [same]
  rfl

/-- Whether a step is made of edits: it opens no scope and no dialog, starts or finishes no wait,
and releases no queue. -/
def Session.Step.edits : Session.Step → Bool
  | .openScope _ _ | .openDialog _ _ _ | .release _ | .flush _ _ | .whenCancelled _ _ | .spawn _ _
  | .finish _ _ => false
  | _ => true

namespace Host

variable {α : Type} {may : Job → Prop} {notes : Event → Prop} {view : Prompt → α}
variable {h next : Host}

theorem act_call (h : Host) (c : Call) : (Session.act h (.call c)).1 = h.call c := by
  cases c <;> rfl

theorem edits_updateCaller (c : Nat) (f : Caller → Caller) :
    Edits may notes view h (h.updateCaller c f) :=
  .single (.rest _ _ _ _ _ _)

theorem edits_updateWork (w : Nat) (f : Work → Work) :
    Edits may notes view h (h.updateWork w f) :=
  .single (.rest _ _ _ _ _ _)

theorem edits_updateLoading (l : Nat) (f : Loading → Loading) :
    Edits may notes view h (h.updateLoading l f) :=
  .single (.rest _ _ _ _ _ _)

theorem edits_updatePanel (k : Nat) (f : Panel → Panel) :
    Edits may notes view h (h.updatePanel k f) :=
  .single (.rest _ _ _ _ _ _)

theorem edits_updateFollower (f : Nat) (change : Follower → Follower) :
    Edits may notes view h (h.updateFollower f change) :=
  .single (.rest _ _ _ _ _ _)

namespace Ample

variable (ample : Ample may notes view)
include ample

theorem updatePrompt (i : Nat) (f : Prompt → Prompt) (same : ∀ p, (f p).inlet = p.inlet) :
    Edits may notes view h (h.updatePrompt i f) :=
  .single (.prompt i f fun p => ample.view _ _ (same p))

theorem record (e : Event) (aside : e.aside = true) : Edits may notes view h (h.record e) := by
  refine .single (.recorded e (ample.event e aside) ?_)
  rintro w name ending rfl
  cases aside

theorem launch (scope : Nat) (job : Job) (aside : job.aside = true) :
    Edits may notes view h (h.launch scope job) :=
  .single (.launched scope job (ample.job job aside))

theorem unpark (i c : Nat) (reply : Reply) :
    Edits may notes view h ((h.updateCaller c fun caller =>
      { caller with reply := some reply }).updatePrompt i fun p => { p with parked := none }) :=
  (edits_updateCaller c _).trans (ample.updatePrompt i _ fun _ => rfl)

theorem evict (i : Nat) : Edits may notes view h (h.evict i) := by
  unfold Host.evict
  split
  · exact .refl
  · exact ample.unpark i _ _

theorem issue (i : Nat) (parked : Option Parked) (visuals : Visuals) :
    Edits may notes view h (h.issue i parked visuals) := by
  unfold Host.issue
  split
  · exact .refl
  · rename_i p present
    refine .trans (.trans (.trans (ample.evict i) ?_)
      (ample.record (.issued i (p.issued + 1) visuals) rfl)) (ample.launch p.scope _ rfl)
    exact ample.updatePrompt i (fun p => { p with issued := _, parked }) fun _ => rfl

theorem withdraw (i request : Nat) : Edits may notes view h (h.withdraw i request) := by
  unfold Host.withdraw
  split
  · exact .refl
  · rename_i p present
    dsimp only
    split
    · have cleared : Edits may notes view h (h.updatePrompt i fun p => { p with parked := none }) :=
        ample.updatePrompt i _ fun _ => rfl
      split
      · exact cleared
      · split
        · exact cleared.trans (ample.updatePrompt i _ Prompt.inlet_vanish)
        · exact cleared.trans (ample.launch p.scope _ rfl)
    · exact .refl

theorem endCaller (c : Nat) (ending : Ending) :
    Edits may notes view h (h.endCaller c ending) := by
  unfold Host.endCaller
  split
  · exact .refl
  · exact (edits_updateCaller c _).trans (ample.record _ rfl)

theorem endCancelled (c : Nat) : Edits may notes view h (h.endCancelled c) := by
  unfold Host.endCancelled
  split
  · exact .refl
  · exact (ample.withdraw _ _).trans (ample.endCaller c _)

theorem await (i : Nat) (visuals : Visuals) (name : String) :
    Edits may notes view h (h.await i visuals name) := by
  cases present : h.prompts[i]? with
  | none =>
      simp only [Host.await, present]
      exact .refl
  | some p =>
      have enrolled : Edits may notes view h (h.enrol name i (p.issued + 1)) :=
        .single (.rest _ _ _ _ _ _)
      have asked := enrolled.trans
        (ample.issue i (some ⟨p.issued + 1, h.callers.length⟩) visuals)
      rw [await_eq h i p present]
      split
      · exact asked.trans (ample.endCancelled _)
      · exact asked

theorem setShown (dialog : DialogRef) (shown : Bool) :
    Edits may notes view h (h.setShown dialog shown) := by
  cases dialog with
  | prompt i =>
      simp only [Host.setShown]
      cases h.prompts[i]? with
      | none => exact .refl
      | some p => exact ample.launch _ _ rfl
  | loading l =>
      simp only [Host.setShown]
      cases h.loadings[l]? with
      | none => exact .refl
      | some loading => exact ample.launch _ _ rfl
  | panel k =>
      simp only [Host.setShown]
      cases h.panels[k]? with
      | none => exact .refl
      | some p => exact ample.launch _ _ rfl

theorem cancel (root : Nat) : Edits may notes view h (h.cancel root) :=
  (ample.record (.cancelled root) rfl).tail (.cancelled root)

theorem launchLeaves (loading w level : Nat) :
    Edits may notes view h (h.launchLeaves loading w level) := by
  induction level generalizing h with
  | zero => exact .refl
  | succ level ih =>
      unfold Host.launchLeaves
      cases h.loadings[loading]? with
      | none => exact .refl
      | some l => exact (ample.launch _ _ rfl).trans ih

theorem dropWork (w : Nat) (ending : Ending) :
    Edits may notes view h (h.dropWork w ending) := by
  unfold Host.dropWork
  split
  · exact .refl
  · exact ((ample.launchLeaves _ w _).trans (edits_updateWork w _)).trans (ample.record _ rfl)

theorem abandon (task : TaskRef)
    (noted : ∀ w name, task = .wait w → notes (.ended (.wait w) name .abandoned)) :
    Edits may notes view h (h.abandon task) := by
  cases task with
  | caller c =>
      simp only [Host.abandon]
      split
      · exact .refl
      · split
        · exact .refl
        · exact (ample.withdraw _ _).trans (ample.endCaller c _)
  | work w =>
      simp only [Host.abandon]
      split
      · exact .refl
      · exact ample.dropWork w _
  | wait w =>
      simp only [Host.abandon]
      split
      · exact .refl
      · rename_i wait there
        split
        · exact .refl
        · rename_i waits
          exact .single (.dropped w wait there (Bool.not_eq_true _ ▸ waits) (noted w _ rfl))
  | follower f =>
      simp only [Host.abandon]
      split
      · exact .refl
      · split
        · exact .refl
        · exact (edits_updateFollower f _).trans (ample.record _ rfl)

theorem call (c : Call)
    (taps : ∀ responder decision, c = .press responder decision →
      ∀ i tap, may (.offer i tap))
    (hooks : ∀ dialog hooks, c = .setHooks dialog hooks →
      ∀ p hooks, view { p with hooks } = view p)
    (waits : ∀ task, c = .abandon task → ∀ w name, notes (.ended (.wait w) name .abandoned)) :
    Edits may notes view h (h.call c) := by
  have named {β : Type} (found : Option β) (f : β → Host)
      (each : ∀ x, Edits may notes view h (f x)) : Edits may notes view h (found.elim h f) := by
    cases found with
    | none => exact .refl
    | some x => exact each x
  cases c with
  | showConfirm dialog visuals => exact named _ _ fun i => ample.issue i none visuals
  | await dialog visuals task => exact named _ _ fun i => ample.await i visuals task
  | abandon task =>
      exact named _ _ fun found => ample.abandon found fun w name _ => waits task rfl w name
  | setShown dialog shown => exact named _ _ fun found => ample.setShown found shown
  | setHooks dialog given =>
      exact named _ _ fun i => .single (.prompt i _ fun p => hooks dialog given rfl p given)
  | press responder decision =>
      refine named _ _ fun r => ?_
      unfold Host.press
      split
      · exact .refl
      · exact .single (.launched _ _ (taps responder decision rfl _ _))
  | cancel scope => exact named _ _ fun root => ample.cancel root

theorem heard (i : Nat) (p : Prompt) (a : Answer)
    (noted : ∀ e, (∀ w name ending, e ≠ .ended (.wait w) name ending) → notes e) :
    Edits may notes view (h.updatePrompt i fun p => { p with mailbox := none })
      (h.heard i p a) := by
  have accepted := (ample.updatePrompt (h := h.updatePrompt i fun p => { p with mailbox := none }) i
    (fun p => { p with phase := .resolving }) fun _ => rfl).tail
      (.recorded (.accepted i a (p.callerOf a.request)) (noted _ (by simp)) (by simp))
  have notified : Edits may notes view (h.updatePrompt i fun p => { p with mailbox := none })
      (h.notify i p a) := by
    refine accepted.trans ?_
    unfold notify Host.resolve
    split
    · exact .refl
    · exact ample.unpark i _ _
  unfold Host.heard
  split
  · exact notified
  · exact notified.tail (.recorded _ (noted _ (by simp)) (by simp))

theorem accept (i : Nat) (p : Prompt) (present : h.prompts[i]? = some p) (a : Answer)
    (noted : ∀ e, notes e) (taps : ∀ j tap, may (.offer j tap))
    (hooks : ∀ q hooks, view { q with hooks } = view q) :
    Edits may notes view (h.updatePrompt i fun p => { p with mailbox := none })
      ((h.updatePrompt i fun p => { p with mailbox := none }).accept i p a) := by
  rw [accept_eq i p present]
  have called (calls : List Call) (g : Host) : Edits may notes view g (calls.foldl Host.call g) := by
    induction calls generalizing g with
    | nil => exact .refl
    | cons c calls ih =>
        exact (ample.call c (fun _ _ _ => taps) (fun _ _ _ => hooks) fun _ _ _ _ => noted _).trans
          (ih (g.call c))
  exact ((ample.heard i p a fun e _ => noted e).trans (called _ _)).trans
    (ample.launch p.scope _ rfl)

theorem runJob (job : Job) (aside : job.aside = true) (ran : h.runJob job = some next) :
    Edits may notes view h next := by
  cases job with
  | publish i request visuals =>
      cases ran
      exact ample.updatePrompt i _ fun p => p.inlet_publish request visuals
  | setPrompt i shown =>
      cases shown with
      | true =>
          cases ran
          exact ample.updatePrompt i _ Prompt.inlet_appear
      | false =>
          cases ran
          exact ample.updatePrompt i _ Prompt.inlet_vanish
  | settle i request =>
      cases ran
      exact ample.updatePrompt i _ fun p => p.inlet_settle request
  | offer i tap => cases aside
  | setLoading l shown =>
      cases ran
      exact edits_updateLoading l _
  | enter l w level =>
      cases ran
      exact ((edits_updateLoading l _).trans (ample.record _ rfl)).trans (edits_updateWork w _)
  | leave l w level awaited =>
      have left : Edits may notes view h
          ((h.updateLoading l (·.leave)).record (.left w level)) :=
        (edits_updateLoading l _).trans (ample.record _ rfl)
      cases awaited with
      | false =>
          cases ran
          exact left
      | true =>
          cases ran
          exact left.trans (edits_updateWork w _)
  | setPanel k shown =>
      cases ran
      exact edits_updatePanel k _
  | hold opened =>
      cases opened with
      | true =>
          cases ran
          exact .refl
      | false => cases ran
  | mark label =>
      cases ran
      exact ample.record _ rfl
  | flushed w => cases aside

theorem resumeCaller (c : Nat) (resumed : h.resumeCaller? c = some next) :
    Edits may notes view h next := by
  obtain ⟨caller, -, -, moved⟩ := caller_cases c resumed
  cases moved with
  | cancelled => exact ample.endCancelled c
  | told => exact ample.endCaller c _

theorem enterLevel (w level : Nat) : Edits may notes view h (h.enterLevel w level) := by
  unfold Host.enterLevel
  split
  · exact .refl
  · split
    · unfold Host.beginBlock
      split
      · exact .refl
      · exact (edits_updateWork w _).trans (ample.record _ rfl)
    · split
      · exact .refl
      · exact (edits_updateWork w _).trans (ample.launch _ _ rfl)

theorem leaveLevel (w level : Nat) (text : String) :
    Edits may notes view h (h.leaveLevel w level text) := by
  unfold Host.leaveLevel
  split
  · exact .refl
  · split
    · exact (edits_updateWork w _).trans (ample.record _ rfl)
    · split
      · exact .refl
      · exact (edits_updateWork w _).trans (ample.launch _ _ rfl)

theorem advanceWork (w : Nat) (advanced : h.advanceWork? w = some next) :
    Edits may notes view h next := by
  obtain ⟨work, there, moved⟩ := work_cases w advanced
  cases moved with
  | entered => exact ample.enterLevel w _
  | returned => exact ample.leaveLevel w _ _
  | panicked => exact ample.dropWork w _
  | left => exact ample.leaveLevel w _ _

theorem draw (f : Nat) : Edits may notes view h (h.draw f) := by
  unfold Host.draw
  split
  · exact .refl
  · exact (edits_updateFollower f _).trans (ample.record _ rfl)

theorem followShown (f : Nat) (woke : h.followShown? f = some next) :
    Edits may notes view h next := by
  obtain ⟨x, -, -, moved⟩ := shown_cases f woke
  cases moved with
  | looked => exact (edits_updateFollower f _).trans (ample.draw f)
  | ended => exact (edits_updateFollower f _).trans (ample.record _ rfl)

theorem followVisuals (f : Nat) (woke : h.followVisuals? f = some next) :
    Edits may notes view h next := by
  obtain ⟨x, i, p, -, -, -, -, moved⟩ := visuals_cases f woke
  cases moved with
  | drew => exact (edits_updateFollower f _).trans (ample.draw f)
  | overlooked | left => exact edits_updateFollower f _

theorem dropDialog (name : String) : Edits may notes view h (h.dropDialog name) := by
  unfold Host.dropDialog
  split
  · exact .refl
  · rename_i dialog _
    have dropped : Edits may notes view h (h.dropHandle dialog) := by
      cases dialog with
      | prompt i => exact ample.updatePrompt i (fun p => { p with handle := false }) fun _ => rfl
      | loading l => exact edits_updateLoading l _
      | panel k => exact edits_updatePanel k _
    exact dropped.tail (.rest _ _ _ _ _ _)

theorem follow (name : String) (source : DialogRef) (pictures : Option Nat) :
    Edits may notes view h (h.follow name source pictures) := by
  unfold Host.follow
  split
  · exact .refl
  · exact .head (.rest _ _ _ _ _ _) (ample.draw _)

theorem act (s : Session.Step) (small : s.edits = true)
    (calls : ∀ c, s = .call c → Edits may notes view h (h.call c)) :
    Edits may notes view h (Session.act h s).1 := by
  have named {β : Type} (found : Option β) (f : β → Host)
      (each : ∀ x, Edits may notes view h (f x)) : Edits may notes view h (found.elim h f) := by
    cases found with
    | none => exact .refl
    | some x => exact each x
  have answered {β γ : Type} (found : Option β) (nothing : γ) (f : β → Host × γ)
      (each : ∀ x, Edits may notes view h (f x).1) :
      Edits may notes view h (found.elim (h, nothing) f).1 := by
    cases found with
    | none => exact .refl
    | some x => exact each x
  cases s with
  | call c => exact act_call h c ▸ calls c rfl
  | drop dialog => exact ample.dropDialog dialog
  | hold scope => exact named _ _ fun s => ample.launch s _ rfl
  | mark scope label => exact named _ _ fun s => ample.launch s _ rfl
  | work dialog task outcome depth =>
      exact named _ _ fun l => .head (.rest _ _ _ _ _ _) (ample.enterLevel h.works.length 1)
  | observe dialog receiver visuals =>
      cases visuals with
      | false => exact named _ _ fun source => named _ _ fun cell => .single (.rest _ _ _ _ _ _)
      | true => exact named _ _ fun i => named _ _ fun p => .single (.rest _ _ _ _ _ _)
  | changed receiver =>
      refine answered _ _ _ fun r => ?_
      unfold Session.readReceiver
      split <;> split <;> first | exact .refl | exact .single (.rest _ _ _ _ _ _)
  | keepResponder dialog name => exact named _ _ fun i => .single (.rest _ _ _ _ _ _)
  | overlay dialog keep =>
      refine answered _ _ _ fun d => ?_
      unfold Session.takeOverlay
      dsimp only
      split
      · exact .single (.rest _ _ _ _ _ _)
      · exact .refl
  | render dialog content keep =>
      refine answered _ _ _ fun k => ?_
      unfold Session.render
      split
      · exact named _ _ fun name => .single (.rest _ _ _ _ _ _)
      · exact .refl
  | keepDismisser dialog name => exact named _ _ fun k => .single (.rest _ _ _ _ _ _)
  | dismiss dismisser =>
      simp only [Session.act]
      split
      · exact .refl
      · rename_i k _
        exact ample.setShown (.panel k) false
  | follow dialog visuals task => exact named _ _ fun source => ample.follow task source _
  | save | describeDialog | describeScope | describeHooks => exact .refl
  | openScope | openDialog | release | flush | whenCancelled | spawn | finish => cases small

end Ample

end Host

end ModalHost
