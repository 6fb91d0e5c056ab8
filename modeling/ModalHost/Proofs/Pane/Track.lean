import ModalHost.Proofs.Pane.Basic
import ModalHost.Proofs.Ground.Track

/-! What calls of a host make of the pane of a dialog: a call that shows or hides it adds to the
jobs that wait, a cancellation may end it, and all others leave it alone. -/

namespace ModalHost

def Call.asks (h : Host) (d : DialogRef) : Call → List Bool
  | .setShown dialog shown => if h.names.dialogs.find? dialog = some d then [shown] else []
  | _ => []

namespace Host

def place (h : Host) : DialogRef → Option (Nat × Cell Bool)
  | .prompt _ => none
  | .loading i => h.loadings[i]?.map fun l => (l.scope, l.shown)
  | .panel i => h.panels[i]?.map fun p => (p.scope, p.shown)

def pane (h : Host) (d : DialogRef) (k : Nat) : Pane where
  place := h.place d
  jobs := (h.queued k).filter (Job.onPane d)
  dead := h.isCancelled k

variable {h next : Host} {d : DialogRef} {k : Nat} {c : Cell Bool} {allowed : Job → Prop}

theorem pane_congr (place : next.place d = h.place d)
    (scopes : next.scopes.map (·.sift (Job.onPane d)) = h.scopes.map (·.sift (Job.onPane d))) :
    next.pane d k = h.pane d k := by
  have jobs : (queueAt next.scopes k).filter (Job.onPane d) =
      (queueAt h.scopes k).filter (Job.onPane d) := by
    rw [← queueAt_sift, scopes, queueAt_sift]
  have dead : cancelledAt next.scopes k = cancelledAt h.scopes k := by
    rw [← cancelledAt_sift next.scopes k (Job.onPane d), scopes, cancelledAt_sift]
  exact (Pane.mk.injEq ..).mpr ⟨place, jobs, dead⟩

theorem pane_launch_other (scope : Nat) (job : Job) (other : job.onPane d = false) :
    (h.launch scope job).pane d k = h.pane d k :=
  pane_congr rfl (map_modify_invisible (fun s : Scope => s.push job) _ scope h.scopes
    fun s => Scope.sift_push_other _ s job other)

theorem pane_setQueue_other (scope : Nat) (queue : List Job)
    (same : queue.filter (Job.onPane d) = (h.queued scope).filter (Job.onPane d)) :
    (h.setQueue scope queue).pane d k = h.pane d k := by
  refine pane_congr rfl (List.ext_getElem? fun n => ?_)
  simp only [setQueue, List.getElem?_map, List.getElem?_modify]
  by_cases here : scope = n
  · subst here
    cases found : h.scopes[scope]? with
    | none => rfl
    | some s =>
        rw [Host.queued, found] at same
        simpa [Scope.sift] using same
  · cases h.scopes[n]? <;> simp [here]

theorem isCancelled_launch (scope other : Nat) (job : Job) :
    (h.launch scope job).isCancelled other = h.isCancelled other :=
  any_getElem?_modify (fun s : Scope => s.push job) (·.cancelled)
    (fun s => by
      unfold Scope.push
      split <;> rfl) h.scopes scope other

theorem pane_launch (job : Job) (on : job.onPane d = true) (inside : k < h.scopes.length)
    (live : h.isCancelled k = false) :
    (h.launch k job).pane d k = { h.pane d k with jobs := (h.pane d k).jobs ++ [job] } := by
  have jobs : (queueAt (h.launch k job).scopes k).filter (Job.onPane d) =
      (queueAt h.scopes k).filter (Job.onPane d) ++ [job] := by
    rw [launch, queueAt_push, if_pos ⟨rfl, openAt_of_live h.scopes k inside live⟩]
    simp [on]
  exact (Pane.mk.injEq ..).mpr ⟨rfl, jobs, isCancelled_launch k k job⟩

theorem pane_launch_elsewhere (scope : Nat) (job : Job) (elsewhere : scope ≠ k) :
    (h.launch scope job).pane d k = h.pane d k := by
  have jobs : queueAt (h.launch scope job).scopes k = queueAt h.scopes k := by
    rw [launch, queueAt_push, if_neg fun here => elsewhere here.1.symm]
  exact (Pane.mk.injEq ..).mpr
    ⟨rfl, congrArg (List.filter (Job.onPane d)) jobs, isCancelled_launch scope k job⟩

theorem launch_dead (job : Job) (dead : h.isCancelled k = true) : h.launch k job = h :=
  congrArg (fun scopes => { h with scopes }) (pushAll_dead h.scopes k [job] dead)

theorem pane_asks (job : Job) (b : Bool) (asks : job.asks d = some b)
    (inside : k < h.scopes.length) :
    Pane.Step d allowed (h.pane d k) [b] ((h.launch k job).pane d k) := by
  cases dead : h.isCancelled k with
  | false =>
      rw [pane_launch job (Job.onPane_of_asks asks) inside dead]
      exact .asked b job asks dead
  | true =>
      rw [launch_dead job dead]
      exact .lost b dead

theorem pane_setShown (inside : k < h.scopes.length) (place : h.place d = some (k, c))
    (dialog : DialogRef) (shown : Bool) :
    Pane.Step d allowed (h.pane d k) (if dialog = d then [shown] else [])
      ((h.setShown dialog shown).pane d k) := by
  have other (scope : Nat) (job : Job) (plain : job.onPane d = false) :
      Pane.Step d allowed (h.pane d k) [] ((h.launch scope job).pane d k) :=
    .of_eq (pane_launch_other scope job plain)
  split
  · rename_i same
    subst same
    cases dialog with
    | prompt i => cases place
    | loading i =>
        obtain ⟨l, found, ⟨⟩⟩ := Option.map_eq_some_iff.mp place
        rw [setShown, found]
        exact pane_asks _ shown (if_pos rfl) inside
    | panel i =>
        obtain ⟨p, found, ⟨⟩⟩ := Option.map_eq_some_iff.mp place
        rw [setShown, found]
        exact pane_asks _ shown (if_pos rfl) inside
  · rename_i different
    cases dialog with
    | prompt i =>
        simp only [setShown]
        cases h.prompts[i]? with
        | none => exact .rests
        | some p => exact other p.scope _ rfl
    | loading i =>
        simp only [setShown]
        cases h.loadings[i]? with
        | none => exact .rests
        | some l =>
            exact other l.scope _ (by simp [Job.onPane, Job.asks, Ne.symm different, Job.reports])
    | panel i =>
        simp only [setShown]
        cases h.panels[i]? with
        | none => exact .rests
        | some p =>
            exact other p.scope _ (by simp [Job.onPane, Job.asks, Ne.symm different, Job.reports])

theorem pane_cancel (root : Nat) :
    Pane.Step d allowed (h.pane d k) [] ((h.cancel root).pane d k) := by
  have after : (h.cancel root).scopes[k]? = h.scopes[k]?.map (·.cancelBy root) :=
    List.getElem?_map ..
  by_cases below : ∃ s, h.scopes[k]? = some s ∧ s.lineage.contains root = true
  · obtain ⟨s, found, below⟩ := below
    rw [found, Option.map_some, Scope.cancelBy, if_pos below] at after
    have ended : (h.cancel root).pane d k = { h.pane d k with jobs := [], dead := true } :=
      (Pane.mk.injEq ..).mpr ⟨rfl, by simp [queued, after], by simp [isCancelled, after]⟩
    rw [ended]
    exact .cancelled
  · have same : (h.cancel root).scopes[k]? = h.scopes[k]? := by
      rw [after]
      cases found : h.scopes[k]? with
      | none => rfl
      | some s => rw [Option.map_some, Scope.cancelBy, if_neg fun under => below ⟨s, found, under⟩]
    have rests : (h.cancel root).pane d k = h.pane d k :=
      (Pane.mk.injEq ..).mpr ⟨rfl, by simp [queued, same], by simp [isCancelled, same]⟩
    exact .of_eq rests

theorem pane_evict (i : Nat) : (h.evict i).pane d k = h.pane d k := by
  unfold evict
  split <;> rfl

theorem pane_issue (i : Nat) (parked : Option Parked) (visuals : Visuals) :
    (h.issue i parked visuals).pane d k = h.pane d k := by
  unfold issue
  split
  · rfl
  · exact (pane_launch_other _ _ rfl).trans (pane_evict i)

theorem pane_withdraw (i request : Nat) : (h.withdraw i request).pane d k = h.pane d k := by
  unfold withdraw
  split
  · rfl
  · dsimp only
    split
    · split
      · rfl
      · split
        · rfl
        · exact pane_launch_other _ _ rfl
    · rfl

theorem pane_endCaller (i : Nat) (ending : Ending) :
    (h.endCaller i ending).pane d k = h.pane d k := by
  unfold endCaller
  split <;> rfl

theorem pane_endCancelled (i : Nat) : (h.endCancelled i).pane d k = h.pane d k := by
  unfold endCancelled
  split
  · rfl
  · rw [pane_endCaller, pane_withdraw]

theorem pane_await (i : Nat) (visuals : Visuals) (name : String) :
    (h.await i visuals name).pane d k = h.pane d k := by
  unfold await
  split
  · rfl
  · dsimp only
    split
    · rw [pane_endCancelled]
      exact pane_issue i _ visuals
    · exact pane_issue i _ visuals

theorem pane_press (r : Responder) (decision : Decision) :
    (h.press r decision).pane d k = h.pane d k := by
  unfold press
  split
  · rfl
  · exact pane_launch_other _ _ rfl

theorem pane_launchLeaves (loading w level : Nat) :
    (h.launchLeaves loading w level).pane d k = h.pane d k := by
  induction level generalizing h with
  | zero => rfl
  | succ level ih =>
      unfold launchLeaves
      cases h.loadings[loading]? with
      | none => rfl
      | some l => exact ih.trans (pane_launch_other _ _ rfl)

theorem pane_dropWork (w : Nat) (ending : Ending) :
    (h.dropWork w ending).pane d k = h.pane d k := by
  unfold dropWork
  split
  · rfl
  · exact pane_launchLeaves _ _ _

theorem pane_abandon (task : TaskRef) : (h.abandon task).pane d k = h.pane d k := by
  cases task with
  | caller i =>
      simp only [abandon]
      split
      · rfl
      · split
        · rfl
        · rw [pane_endCaller, pane_withdraw]
  | work w =>
      simp only [abandon]
      split
      · rfl
      · exact pane_dropWork w _
  | wait w =>
      simp only [abandon]
      split
      · rfl
      · split <;> rfl
  | follower f =>
      simp only [abandon]
      split
      · rfl
      · split <;> rfl

theorem pane_call (inside : k < h.scopes.length) (place : h.place d = some (k, c)) (call : Call) :
    Pane.Step d allowed (h.pane d k) (call.asks h d) ((h.call call).pane d k) := by
  have named {α : Type} (found : Option α) (f : α → Host)
      (each : ∀ x, (f x).pane d k = h.pane d k) :
      Pane.Step d allowed (h.pane d k) [] ((found.elim h f).pane d k) := by
    cases found with
    | none => exact .rests
    | some x => exact .of_eq (each x)
  cases call with
  | showConfirm dialog visuals => exact named _ _ fun i => pane_issue i none visuals
  | await dialog visuals task => exact named _ _ fun i => pane_await i visuals task
  | abandon task => exact named _ _ fun t => pane_abandon t
  | setHooks dialog hooks => exact named _ _ fun i => rfl
  | press responder decision => exact named _ _ fun r => pane_press r decision
  | setShown dialog shown =>
      simp only [Host.call, Call.asks]
      cases h.names.dialogs.find? dialog with
      | none => exact .rests
      | some found =>
          simp only [Option.some.injEq]
          exact pane_setShown inside place found shown
  | cancel scope =>
      simp only [Host.call]
      cases h.names.scopes.find? scope with
      | none => exact .rests
      | some root => exact pane_cancel root

end Host

end ModalHost
