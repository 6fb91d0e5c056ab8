import ModalHost.Proofs.Ground.Track
import ModalHost.Proofs.Strand.Runs

/-! Every step of a run takes the ground of the host along a path, or ends one caller as
cancelled. -/

namespace ModalHost.Host

open Ground (Path Step)

variable {h : Host} {mayEnd : Prop}

theorem ground_setQueue_other (scope : Nat) (s : Scope) (found : h.scopes[scope]? = some s)
    (queue : List Job) (same : queue.filter Job.ofPanel = s.queue.filter Job.ofPanel) :
    (h.setQueue scope queue).ground = h.ground := by
  have scopes : (h.setQueue scope queue).scopes.map (·.sift Job.ofPanel) =
      h.scopes.map (·.sift Job.ofPanel) := by
    apply List.ext_getElem?
    intro n
    simp only [setQueue, List.getElem?_map, List.getElem?_modify]
    by_cases here : scope = n
    · subst here
      simp [found, Scope.sift, same]
    · cases h.scopes[n]? <;> simp [here]
  simp only [ground, scopes]
  rfl

theorem ground_runJob_other (job : Job) (other : job.ofPanel = false) (next : Host)
    (ran : h.runJob job = some next) : next.ground = h.ground := by
  cases job with
  | publish i request visuals =>
      cases ran
      rfl
  | setPrompt i shown => cases shown <;> cases ran <;> rfl
  | settle i request =>
      cases ran
      rfl
  | offer i tap =>
      simp only [runJob] at ran
      split at ran
      · cases ran
        rfl
      · split at ran
        · cases ran
        · cases ran
          rfl
  | setLoading l shown =>
      cases ran
      rfl
  | enter l w level =>
      cases ran
      rw [acknowledgeEnter, ground_updateWork, ground_record_other _ _ rfl, ground_updateLoading]
  | leave l w level awaited =>
      cases awaited with
      | false =>
          cases ran
          rw [ground_record_other _ _ rfl, ground_updateLoading]
      | true =>
          cases ran
          rw [acknowledgeLeave, ground_updateWork, ground_record_other _ _ rfl,
            ground_updateLoading]
  | setPanel k shown => cases other
  | hold opened =>
      cases opened with
      | true =>
          cases ran
          rfl
      | false => cases ran
  | mark label =>
      cases ran
      exact ground_record_other _ _ rfl
  | flushed w =>
      cases ran
      rfl

theorem tread_dispatch (scope : Nat) (next : Host) (ran : h.dispatch? scope = some next) :
    Path mayEnd h.ground next.ground := by
  obtain ⟨lineage, job, jobs, front, done⟩ := dispatch_cases scope next ran
  by_cases about : job.ofPanel = true
  · cases job with
    | setPanel k shown =>
        cases done
        have scopes := map_modify (fun s : Scope => { s with queue := jobs })
          (fun s => { s with queue := jobs.filter Job.ofPanel }) (Scope.sift Job.ofPanel) scope
          h.scopes fun s => rfl
        have step : Step mayEnd h.ground _ :=
          .ran scope lineage k shown (jobs.filter Job.ofPanel)
            (by simp [ground, front, Scope.sift, List.filter_cons, Job.ofPanel])
        simp only [Ground.setQueue, ground, ← scopes] at step
        exact .single step
    | _ => cases about
  · rw [Bool.not_eq_true] at about
    rw [ground_runJob_other job about next done,
      ground_setQueue_other scope _ front jobs (by simp [about])]
    exact .refl

theorem ground_move (m : Move) (next : Host) (taken : h.move? m = some next)
    (quiet : ∀ i p a, m = .deliver i → ¬ h.Accepting i p a) :
    Path mayEnd h.ground next.ground ∨ ∃ c, h.CancelsWait c next := by
  cases m with
  | dispatch scope => exact .inl (tread_dispatch scope next taken)
  | deliver i =>
      obtain ⟨p, a, -, -, ⟨accepting, -⟩ | ⟨-, rfl⟩⟩ := deliver_cases i next taken
      · exact absurd accepting (quiet i p a rfl)
      · exact .inl .refl
  | retire i =>
      obtain ⟨p, a, -, -, -, -, rfl⟩ := retire_cases i next taken
      exact .inl .refl
  | resumeCaller c =>
      rcases ground_resumeCaller c next taken with same | cancels
      · exact .inl (.of_eq same)
      · exact .inr ⟨c, cancels⟩
  | advanceWork w => exact .inl (.of_eq (ground_advanceWork w next taken))
  | advanceWait w => exact .inl (.of_eq (ground_advanceWait w next taken))
  | followShown f => exact .inl (.of_eq (ground_followShown f next taken))
  | followVisuals f => exact .inl (.of_eq (ground_followVisuals f next taken))

theorem tread_dropDialog (name : String) : Path mayEnd h.ground (h.dropDialog name).ground := by
  unfold dropDialog
  split
  · exact .refl
  · rename_i dialog _
    cases dialog with
    | prompt i => exact .refl
    | loading i => exact .refl
    | panel k => exact .single (.tended k false)

theorem tread_openScope (name : String) (parent : Option Nat) :
    Path mayEnd h.ground (h.openScope name parent).ground := by
  let s : Scope := ⟨h.scopes.length :: ((parent.bind (h.scopes[·]?)).map (·.lineage)).getD [],
    (parent.bind (h.scopes[·]?)).any (·.cancelled), []⟩
  have opened : (h.openScope name parent).ground =
      { h.ground with scopes := h.ground.scopes ++ [s] } := by
    simp only [openScope, ground, List.map_append, List.map_cons, List.map_nil]
    rfl
  rw [opened]
  refine .single (.branched s parent rfl ?_)
  rw [treeOf_ground]
  simp only [Tree.branch, treeOf, List.length_map, List.getElem?_map, s]
  cases parent with
  | none => rfl
  | some k =>
      simp only [Option.bind_some]
      cases h.scopes[k]? <;> rfl

theorem tread_openPrompt (name : String) (scope : Nat) (s : Snapshot) (hooks : Hooks Call) :
    Path mayEnd h.ground (h.openPrompt name scope s hooks).ground := by
  refine (tread_dropDialog name).trans ?_
  unfold openPrompt
  dsimp only
  rw [ground_record_other _ _ rfl]
  exact .refl

theorem tread_openDialog (name : String) (scope : Nat) (inside : scope < h.scopes.length)
    (dialog : Session.NewDialog) :
    Path mayEnd h.ground (Session.openDialog h name scope dialog).1.ground := by
  have dropped : Path mayEnd h.ground (h.dropDialog name).ground := tread_dropDialog name
  cases dialog with
  | loading => exact dropped
  | panel kind visible =>
      have still : scope < (h.dropDialog name).ground.scopes.length := by
        have kept := dropped.persist.length_le
        rw [ground, List.length_map] at kept
        exact inside.trans_le kept
      cases kind <;> exact dropped.tail (.opened _ scope visible still)
  | confirm hooks start =>
      cases start with
      | blank => exact tread_openPrompt name scope .initial hooks
      | snapshot s => exact tread_openPrompt name scope s hooks
      | saved bytes =>
          simp only [Session.openDialog]
          split
          · exact tread_openPrompt name scope _ hooks
          · exact .refl

theorem ground_finish (task : TaskRef) (outcome : Outcome) :
    (h.finish task outcome).1.ground = h.ground := by
  cases task with
  | work w =>
      simp only [finish]
      split <;> rfl
  | wait w =>
      simp only [finish]
      split
      · split <;> rfl
      · rfl
  | caller c => rfl
  | follower f => rfl

theorem ground_release (scope : Nat) : (h.release scope).1.ground = h.ground := by
  unfold release
  split
  · rfl
  · rename_i opened found
    cases there : h.scopes[scope]? with
    | none => simp [Host.queued, there, Scope.openHold] at found
    | some s =>
        have queue : h.queued scope = s.queue := by simp [Host.queued, there]
        rw [queue] at found
        exact ground_setQueue_other scope s there opened
          (Scope.sift_openHold Job.ofPanel (fun _ => rfl) _ _ found)

theorem ground_follow (name : String) (source : DialogRef) (pictures : Option Nat) :
    (h.follow name source pictures).ground = h.ground := by
  unfold follow
  split
  · rfl
  · dsimp only
    rw [ground_draw]
    rfl

theorem ground_work (name : String) (loading depth : Nat) (outcome : Option Outcome) :
    (h.work name loading depth outcome).ground = h.ground := by
  unfold work
  dsimp only
  rw [ground_enterLevel]
  rfl

theorem ground_act (sound : h.ledger.Sound) (s : Session.Step) :
    Path mayEnd h.ground (Session.act h s).1.ground ∨ ∃ c, h.CancelsWait c (Session.act h s).1 := by
  have named {α : Type} (found : Option α) (f : α → Host)
      (each : ∀ x, Path mayEnd h.ground (f x).ground) :
      Path mayEnd h.ground (found.elim h f).ground := by
    cases found with
    | none => exact .refl
    | some x => exact each x
  have answered {α β : Type} (found : Option α) (nothing : β) (f : α → Host × β)
      (each : ∀ x, found = some x → Path mayEnd h.ground (f x).1.ground) :
      Path mayEnd h.ground (found.elim (h, nothing) f).1.ground := by
    cases found with
    | none => exact .refl
    | some x => exact each x rfl
  cases s with
  | call c => cases c <;> exact ground_call sound _
  | openScope name parent => exact .inl (tread_openScope name _)
  | openDialog name scope dialog =>
      exact .inl (answered _ _ _ fun s found =>
        tread_openDialog name s (scope_of_name sound scope s found) dialog)
  | drop dialog => exact .inl (tread_dropDialog dialog)
  | hold scope => exact .inl (named _ _ fun s => Path.of_eq (ground_launch_other _ _ _ rfl))
  | release scope => exact .inl (answered _ _ _ fun s _ => Path.of_eq (ground_release s))
  | mark scope label => exact .inl (named _ _ fun s => Path.of_eq (ground_launch_other _ _ _ rfl))
  | flush scope task => exact .inl (named _ _ fun s => Path.of_eq (ground_launch_other _ _ _ rfl))
  | whenCancelled scope task => exact .inl (named _ _ fun s => .refl)
  | spawn scope task => exact .inl (named _ _ fun s => .refl)
  | work dialog task outcome depth =>
      exact .inl (named _ _ fun l => Path.of_eq (ground_work task l depth outcome))
  | finish task outcome =>
      exact .inl (answered _ _ _ fun t _ => Path.of_eq (ground_finish t outcome))
  | observe dialog receiver visuals =>
      left
      cases visuals with
      | false => exact named _ _ fun source => named _ _ fun cell => .refl
      | true => exact named _ _ fun i => named _ _ fun p => .refl
  | changed receiver =>
      refine .inl (answered _ _ _ fun r _ => ?_)
      unfold Session.readReceiver
      split <;> split <;> exact .refl
  | keepResponder dialog name => exact .inl (named _ _ fun i => .refl)
  | overlay dialog keep =>
      refine .inl (answered _ _ _ fun d _ => ?_)
      unfold Session.takeOverlay
      dsimp only
      split <;> exact .refl
  | save dialog => exact .inl .refl
  | render dialog content keep =>
      refine .inl (answered _ _ _ fun k _ => ?_)
      unfold Session.render
      split
      · exact named _ _ fun name => .refl
      · exact .refl
  | keepDismisser dialog name => exact .inl (named _ _ fun k => .refl)
  | dismiss dismisser =>
      simp only [Session.act]
      split
      · exact .inl .refl
      · exact .inl (tread_setShown _ false)
  | follow dialog visuals task =>
      exact .inl (named _ _ fun source => Path.of_eq (ground_follow task source _))
  | describeDialog dialog => exact .inl .refl
  | describeScope scope => exact .inl .refl
  | describeHooks hooks => exact .inl .refl

end ModalHost.Host
