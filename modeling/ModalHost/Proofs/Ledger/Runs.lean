import ModalHost.Proofs.Ledger.Track
import ModalHost.Proofs.Strand.Queue

/-! Every step of a run takes the ledger of the host along a path. -/

namespace ModalHost.Host

open Ledger (Path Step)

variable {h : Host} {allowed : Job → Prop}

theorem ledger_setQueue (scope : Nat) (queue : List Job) :
    (h.setQueue scope queue).ledger = { h.ledger with
      scopes := h.ledger.scopes.modify scope
        fun s => { s with queue := queue.filter Job.counted } } := by
  have scopes := map_modify (fun s : Scope => { s with queue })
    (fun s => { s with queue := queue.filter Job.counted }) (Scope.sift Job.counted) scope h.scopes
    fun s => rfl
  simp only [ledger, setQueue, scopes]

theorem ledger_setQueue_other (scope : Nat) (s : Scope) (found : h.scopes[scope]? = some s)
    (queue : List Job) (same : queue.filter Job.counted = s.queue.filter Job.counted) :
    (h.setQueue scope queue).ledger = h.ledger := by
  rw [ledger_setQueue, same]
  have scopes : h.ledger.scopes.modify scope
      (fun t => { t with queue := s.queue.filter Job.counted }) = h.ledger.scopes := by
    apply List.ext_getElem?
    intro n
    simp only [ledger, List.getElem?_modify, List.getElem?_map]
    by_cases here : scope = n
    · subst here
      simp [found, Scope.sift]
    · cases h.scopes[n]? <;> simp [here]
  rw [scopes]

theorem ledger_runJob (job : Job) (counts : job.counted = true) (next : Host)
    (ran : h.runJob job = some next) : next.ledger = h.ledger.perform job := by
  cases job with
  | setLoading i shown =>
      cases ran
      rfl
  | enter i w level =>
      cases ran
      rw [acknowledgeEnter, ledger_updateWork, ledger_record _ _ rfl, ledger_updateLoading]
      rfl
  | leave i w level awaited =>
      cases awaited with
      | true =>
          cases ran
          rw [acknowledgeLeave, ledger_updateWork, ledger_record _ _ rfl, ledger_updateLoading]
          rfl
      | false =>
          cases ran
          rw [ledger_record _ _ rfl, ledger_updateLoading]
          rfl
  | _ => cases counts

theorem ledger_runJob_other (job : Job) (other : job.counted = false) (next : Host)
    (ran : h.runJob job = some next) : next.ledger = h.ledger := by
  cases job with
  | publish i request visuals =>
      cases ran
      apply ledger_updatePrompt
      intro p
      obtain ⟨shown, phase, same⟩ := p.publish_eq request visuals
      rw [same]
  | setPrompt i shown =>
      cases shown with
      | true =>
          cases ran
          apply ledger_updatePrompt
          intro p
          obtain ⟨shown, phase, same⟩ := p.appear_eq
          rw [same]
      | false =>
          cases ran
          exact ledger_updatePrompt _ _ _ fun _ => rfl
  | settle i request =>
      cases ran
      apply ledger_updatePrompt
      intro p
      obtain ⟨shown, phase, same⟩ := p.settle_eq request
      rw [same]
  | offer i tap =>
      simp only [runJob] at ran
      split at ran
      · cases ran
        rfl
      · split at ran
        · cases ran
        · cases ran
          exact ledger_updatePrompt _ _ _ fun _ => rfl
  | setPanel k shown =>
      cases ran
      rfl
  | hold opened =>
      cases opened with
      | true =>
          cases ran
          rfl
      | false => cases ran
  | mark label =>
      cases ran
      exact ledger_record_other _ _ rfl
  | flushed w =>
      cases ran
      rfl
  | setLoading | enter | leave => cases other

theorem step_dispatch (scope : Nat) (next : Host) (ran : h.dispatch? scope = some next)
    (permitted : ∀ lineage job jobs, h.scopes[scope]? = some ⟨lineage, false, job :: jobs⟩ →
      allowed job) :
    next.ledger = h.ledger ∨ Step allowed h.ledger next.ledger := by
  obtain ⟨lineage, job, jobs, front, done⟩ := dispatch_cases scope next ran
  cases counts : job.counted with
  | true =>
      right
      rw [ledger_runJob job counts next done, ledger_setQueue]
      refine .ran scope lineage job _ ?_ (permitted lineage job jobs front)
      simp [ledger, front, Scope.sift, counts]
  | false =>
      left
      rw [ledger_runJob_other job counts next done,
        ledger_setQueue_other scope _ front jobs (by simp [counts])]

theorem track_dispatch (scope : Nat) (next : Host) (ran : h.dispatch? scope = some next)
    (permitted : ∀ lineage job jobs, h.scopes[scope]? = some ⟨lineage, false, job :: jobs⟩ →
      allowed job) :
    Path allowed h.ledger next.ledger := by
  rcases step_dispatch scope next ran permitted with same | step
  · rw [same]
    exact .refl
  · exact .single step

theorem ledger_beginBlock (w : Nat) : (h.beginBlock w).ledger = h.ledger.setStage w .inside := by
  unfold beginBlock
  split
  · rename_i gone
    have same : h.works.modify w (fun work => { work with stage := .inside }) = h.works :=
      List.modify_eq_self (List.getElem?_eq_none_iff.mp gone)
    change h.ledger = { h.ledger with
      works := h.works.modify w fun work => { work with stage := .inside } }
    rw [same]
    rfl
  · rw [ledger_record_other _ _ rfl, ledger_updateWork]
    rfl

theorem ledger_enterLevel (w level : Nat) (work : Work) (there : h.works[w]? = some work)
    (l : Loading) (found : h.loadings[work.loading]? = some l) :
    (h.enterLevel w level).ledger =
      if work.depth < level then h.ledger.setStage w .inside
      else (h.ledger.launches l.scope [.enter work.loading w level]).setStage w
        (.entering level false) := by
  simp only [enterLevel, there, found]
  split
  · exact ledger_beginBlock w
  · rw [ledger_launch _ _ _ rfl, ledger_updateWork]
    rfl

theorem track_enterLevel (w level : Nat) (work : Work) (there : h.works[w]? = some work)
    (l : Loading) (found : h.loadings[work.loading]? = some l) (done : Bool)
    (stage : work.stage = .entering level done)
    (through : done = true ∨ h.isCancelled l.scope = true) :
    Path allowed h.ledger (h.enterLevel w (level + 1)).ledger := by
  rw [← isCancelled_ledger] at through
  rw [ledger_enterLevel w (level + 1) work there l found]
  split
  · rename_i beyond
    exact .single (.proceeded w work there l found .inside []
      (.begun level done stage through (by omega)))
  · rename_i room
    exact .single (.proceeded w work there l found _ _
      (.deeper level done stage through (by omega)))

theorem track_leaveLevel (w level : Nat) (text : String) (work : Work)
    (there : h.works[w]? = some work) (l : Loading) (found : h.loadings[work.loading]? = some l)
    (given : work.outcome = some (.value text))
    (stage : work.stage = .inside ∧ level = work.depth ∨
      ∃ last done, level = last - 1 ∧ work.stage = .leaving last done ∧
        (done = true ∨ h.isCancelled l.scope = true)) :
    Path allowed h.ledger (h.leaveLevel w level text).ledger := by
  rw [← isCancelled_ledger] at stage
  simp only [leaveLevel, there, found]
  cases level with
  | zero =>
      rw [if_pos rfl, ledger_record_other _ _ rfl, ledger_updateWork]
      refine .single (.proceeded w work there l found .ended [] (.returned text given ?_))
      obtain ⟨inside, full⟩ | ⟨last, done, outermost, stage, through⟩ := stage
      · exact .inl ⟨inside, full.symm⟩
      · exact .inr ⟨last, done, by omega, stage, through⟩
  | succ level =>
      rw [if_neg (Nat.succ_ne_zero level), ledger_launch _ _ _ rfl, ledger_updateWork]
      refine .single (.proceeded w work there l found _ _ (.outward level text given ?_))
      obtain inside | ⟨last, done, next, stage, through⟩ := stage
      · exact .inl inside
      · obtain rfl : last = level + 2 := by omega
        exact .inr ⟨done, stage, through⟩

theorem track_advanceWork (sound : h.ledger.Sound) (w : Nat) (next : Host)
    (advanced : h.advanceWork? w = some next) : Path allowed h.ledger next.ledger := by
  obtain ⟨work, there, moved⟩ := work_cases w advanced
  obtain ⟨l, found⟩ := sound.works w work there
  have cancelled : (h.loadings[work.loading]?.any fun l => h.isCancelled l.scope) =
      h.isCancelled l.scope := by
    rw [show h.loadings[work.loading]? = some l from found, Option.any_some]
  cases moved with
  | entered level done stage through =>
      rw [cancelled] at through
      exact track_enterLevel w level work there l found done stage (by simpa using through)
  | returned text stage given =>
      exact track_leaveLevel w work.depth text work there l found given (.inl ⟨stage, rfl⟩)
  | panicked stage given =>
      apply track_dropWork sound
      intro other same finished
      obtain rfl : work = other := Option.some.inj (there.symm.trans same)
      rw [stage] at finished
      cases finished
  | left level done text stage given through =>
      rw [cancelled] at through
      exact track_leaveLevel w (level - 1) text work there l found given
        (.inr ⟨level, done, rfl, stage, by simpa using through⟩)

theorem track_move (sound : h.ledger.Sound) (m : Move) (next : Host)
    (taken : h.move? m = some next)
    (permitted : ∀ scope lineage job jobs, m = .dispatch scope →
      h.scopes[scope]? = some ⟨lineage, false, job :: jobs⟩ → allowed job) :
    Path allowed h.ledger next.ledger := by
  have unseen (same : next.ledger = h.ledger) : Path allowed h.ledger next.ledger := by
    rw [same]
    exact .refl
  cases m with
  | dispatch scope =>
      exact track_dispatch scope next taken
        fun lineage job jobs front => permitted scope lineage job jobs rfl front
  | deliver i => exact track_deliver sound i next taken
  | retire i =>
      obtain ⟨p, a, -, -, -, -, rfl⟩ := retire_cases i next taken
      exact unseen (ledger_updatePrompt _ _ _ fun _ => rfl)
  | resumeCaller c => exact unseen (ledger_resumeCaller c next taken)
  | advanceWork w => exact track_advanceWork sound w next taken
  | advanceWait w => exact unseen (ledger_advanceWait w next taken)
  | followShown f => exact unseen (ledger_followShown f next taken)
  | followVisuals f => exact unseen (ledger_followVisuals f next taken)

theorem track_bindDialog (name : String) (dialog : DialogRef)
    (there : ∀ i, loadingIndex dialog = some i → i < h.loadings.length) :
    Path allowed h.ledger (h.bindDialog name dialog).ledger := by
  refine .single (.renamed h.ledger.scopeNames _ (fun _ member => .inl member) ?_)
  intro i member
  obtain ⟨bearer, bound, index⟩ := List.mem_filterMap.mp member
  rcases Names.mem_bind _ name bearer dialog bound with rfl | before
  · exact .inr (there i index)
  · exact .inl (List.mem_filterMap.mpr ⟨bearer, before, index⟩)

theorem track_dropHandle (dialog : DialogRef) :
    Path allowed h.ledger (h.dropHandle dialog).ledger := by
  cases dialog with
  | prompt i =>
      rw [dropHandle, ledger_updatePrompt]
      · exact .refl
      · exact fun _ => rfl
  | loading i => exact .single (.tended i false)
  | panel i => exact .refl

theorem track_dropDialog (name : String) : Path allowed h.ledger (h.dropDialog name).ledger := by
  unfold dropDialog
  split
  · exact .refl
  · rename_i dialog _
    refine (track_dropHandle dialog).trans ?_
    generalize h.dropHandle dialog = h
    refine .single (.renamed h.ledger.scopeNames _ (fun _ member => .inl member) ?_)
    intro i member
    obtain ⟨bearer, kept, index⟩ := List.mem_filterMap.mp member
    exact .inl (List.mem_filterMap.mpr ⟨bearer, Names.mem_unbind _ name bearer kept, index⟩)

theorem track_openScope (name : String) (parent : Option Nat) :
    Path allowed h.ledger (h.openScope name parent).ledger := by
  have opened (lineage : List Nat) (cancelled : Bool) :
      ({ h with
        scopes := h.scopes ++ [⟨lineage, cancelled, []⟩]
        names := { h.names with scopes := h.names.scopes.bind name h.scopes.length } } :
          Host).ledger =
        { h.ledger with
          scopes := h.ledger.scopes ++ [⟨lineage, cancelled, []⟩]
          scopeNames := (h.names.scopes.bind name h.scopes.length).map (·.2) } := by
    simp [ledger, Scope.sift]
  simp only [openScope]
  rw [opened]
  refine .tail (.single (.branched _ _)) (.renamed _ h.ledger.loadingNames ?_ fun _ old => .inl old)
  intro scope member
  obtain rfl | before := Names.mem_bind _ name scope h.scopes.length member
  · right
    simp [ledger]
  · exact .inl before

theorem scopes_dropDialog (name : String) : (h.dropDialog name).scopes = h.scopes := by
  unfold dropDialog
  split
  · rfl
  · rename_i dialog _
    cases dialog <;> rfl

theorem track_openPrompt (name : String) (scope : Nat) (inside : scope < h.scopes.length)
    (s : Snapshot) (hooks : Hooks Call) :
    Path allowed h.ledger (h.openPrompt name scope s hooks).ledger := by
  rw [← scopes_dropDialog name] at inside
  unfold openPrompt
  refine (track_dropDialog name).trans ?_
  generalize h.dropDialog name = h at inside
  dsimp only
  rw [ledger_record_other _ _ rfl]
  have housed : ({ h with prompts := h.prompts ++ [Prompt.restore scope s hooks] } :
      Host).ledger = { h.ledger with homes := h.ledger.homes ++ [scope] } := by
    simp [ledger, Prompt.restore]
  refine .trans ?_ (track_bindDialog name (.prompt h.prompts.length) (by simp [loadingIndex]))
  rw [housed]
  exact .single (.housed scope (by simpa [ledger] using inside))

theorem track_openLoading (name : String) (scope : Nat) (inside : scope < h.scopes.length) :
    Path allowed h.ledger (h.openLoading name scope).ledger := by
  rw [← scopes_dropDialog name] at inside
  unfold openLoading
  refine (track_dropDialog name).trans ?_
  generalize h.dropDialog name = h at inside
  refine .trans (.single (.opened scope (by simpa [ledger] using inside))) ?_
  apply track_bindDialog (h := { h with loadings := h.loadings ++ [Loading.new scope] })
  intro i index
  obtain rfl : h.loadings.length = i := Option.some.inj index
  simp

theorem track_openPanel (name : String) (kind : PanelKind) (scope : Nat) (visible : Bool) :
    Path allowed h.ledger (h.openPanel name kind scope visible).ledger := by
  unfold openPanel
  refine (track_dropDialog name).trans ?_
  generalize h.dropDialog name = h
  exact track_bindDialog (h := { h with panels := h.panels ++ [Panel.new kind scope visible] }) name
    (.panel h.panels.length) nofun

theorem track_openDialog (name : String) (scope : Nat) (inside : scope < h.scopes.length)
    (dialog : Session.NewDialog) :
    Path allowed h.ledger (Session.openDialog h name scope dialog).1.ledger := by
  cases dialog with
  | loading => exact track_openLoading name scope inside
  | panel kind visible =>
      cases kind with
      | custom => exact track_openPanel name .custom scope visible
      | base => exact track_openPanel name .base scope visible
  | confirm hooks start =>
      cases start with
      | blank => exact track_openPrompt name scope inside .initial hooks
      | snapshot s => exact track_openPrompt name scope inside s hooks
      | saved bytes =>
          simp only [Session.openDialog]
          split
          · exact track_openPrompt name scope inside _ hooks
          · exact .refl

theorem ledger_work (name : String) (loading : Nat) (l : Loading)
    (found : h.loadings[loading]? = some l) (depth : Nat) (outcome : Option Outcome) :
    ∃ stage jobs, Work.Starts h.works.length loading depth stage jobs ∧
      (h.work name loading depth outcome).ledger = { h.ledger with
        works := h.ledger.works ++ [⟨name, loading, depth, stage, outcome⟩] : Ledger }.launches
          l.scope jobs := by
  let waiting : Host := { h with works := h.works ++ [⟨name, loading, depth, .inside, outcome⟩] }
  have entered := ledger_enterLevel (h := waiting.bindTask name (.work h.works.length))
    h.works.length 1 ⟨name, loading, depth, .inside, outcome⟩ (by simp [waiting, bindTask]) l found
  have staged (stage : Stage) (jobs : List Job) :
      (waiting.ledger.launches l.scope jobs).setStage h.works.length stage =
        { h.ledger with works := h.ledger.works ++ [⟨name, loading, depth, stage, outcome⟩] :
          Ledger }.launches l.scope jobs := by
    simp only [Ledger.setStage, Ledger.launches, waiting, ledger, modify_concat]
  change ∃ stage jobs, _ ∧ ((waiting.bindTask name _).enterLevel h.works.length 1).ledger = _
  rw [entered]
  split
  · rename_i bare
    change depth < 1 at bare
    exact ⟨.inside, [], .bare (by omega), staged .inside []⟩
  · rename_i wrapped
    change ¬depth < 1 at wrapped
    exact ⟨_, _, .wrapped (by omega), staged _ _⟩

theorem track_work (name : String) (loading : Nat) (inside : loading < h.loadings.length)
    (depth : Nat) (outcome : Option Outcome) :
    Path allowed h.ledger (h.work name loading depth outcome).ledger := by
  have found : h.loadings[loading]? = some h.loadings[loading] := List.getElem?_eq_getElem inside
  obtain ⟨stage, jobs, how, same⟩ := ledger_work name loading _ found depth outcome
  rw [same]
  exact .single (.started loading _ found name depth outcome stage jobs how)

theorem track_finish (task : TaskRef) (outcome : Outcome) :
    Path allowed h.ledger (h.finish task outcome).1.ledger := by
  cases task with
  | work w =>
      simp only [finish]
      split
      · rename_i can
        obtain ⟨work, there, waits⟩ : ∃ work, h.works[w]? = some work ∧ work.canFinish = true := by
          simpa [Option.any_eq_true] using can
        exact .single (.given w work there waits outcome)
      · exact .refl
  | wait w =>
      simp only [finish]
      split
      · split
        · exact .refl
        · exact .refl
      · exact .refl
  | caller c => exact .refl
  | follower f => exact .refl

theorem ledger_release (scope : Nat) : (h.release scope).1.ledger = h.ledger := by
  unfold release
  split
  · rfl
  · rename_i opened found
    cases there : h.scopes[scope]? with
    | none => simp [Host.queued, there, Scope.openHold] at found
    | some s =>
        have queue : h.queued scope = s.queue := by simp [Host.queued, there]
        rw [queue] at found
        exact ledger_setQueue_other scope s there opened
          (Scope.sift_openHold _ (fun _ => rfl) s.queue opened found)

theorem ledger_follow (name : String) (source : DialogRef) (pictures : Option Nat) :
    (h.follow name source pictures).ledger = h.ledger := by
  unfold follow
  split
  · rfl
  · dsimp only
    rw [ledger_draw]
    rfl

theorem scope_of_name (sound : h.ledger.Sound) (name : String) (scope : Nat)
    (found : h.names.scopes.find? name = some scope) : scope < h.scopes.length := by
  have known : scope ∈ h.ledger.scopeNames :=
    List.mem_map_of_mem (f := (·.2)) (Names.mem_of_find _ name scope found)
  simpa [ledger] using sound.scopeNames scope known

theorem track_act (sound : h.ledger.Sound) (s : Session.Step) :
    Path allowed h.ledger (Session.act h s).1.ledger := by
  have unseen {next : Host} (same : next.ledger = h.ledger) :
      Path allowed h.ledger next.ledger := by
    rw [same]
    exact .refl
  have named {α : Type} (found : Option α) (f : α → Host)
      (each : ∀ x, found = some x → Path allowed h.ledger (f x).ledger) :
      Path allowed h.ledger (found.elim h f).ledger := by
    cases found with
    | none => exact .refl
    | some x => exact each x rfl
  have answered {α β : Type} (found : Option α) (nothing : β) (f : α → Host × β)
      (each : ∀ x, found = some x → Path allowed h.ledger (f x).1.ledger) :
      Path allowed h.ledger (found.elim (h, nothing) f).1.ledger := by
    cases found with
    | none => exact .refl
    | some x => exact each x rfl
  have loadings (name : String) (i : Nat) (found : h.loading? name = some i) :
      i < h.loadings.length := by
    unfold loading? at found
    split at found
    · rename_i j bound
      obtain rfl : j = i := Option.some.inj found
      have known : DialogRef.loading j ∈ h.names.dialogs.map (·.2) :=
        List.mem_map_of_mem (f := (·.2)) (Names.mem_of_find _ name _ bound)
      exact sound.loadingNames j (List.mem_filterMap.mpr ⟨_, known, rfl⟩)
    · cases found
  cases s with
  | call c => cases c <;> exact track_call sound _
  | openScope name parent => exact track_openScope name _
  | openDialog name scope dialog =>
      exact answered _ _ _ fun s found =>
        track_openDialog name s (scope_of_name sound scope s found) dialog
  | drop dialog => exact track_dropDialog dialog
  | hold scope => exact named _ _ fun s _ => unseen (ledger_launch_other _ _ _ rfl)
  | release scope => exact answered _ _ _ fun s _ => unseen (ledger_release s)
  | mark scope label => exact named _ _ fun s _ => unseen (ledger_launch_other _ _ _ rfl)
  | flush scope task =>
      refine named _ _ fun s _ => unseen ?_
      rw [flush, ledger_launch_other _ _ _ rfl]
      rfl
  | whenCancelled scope task => exact named _ _ fun s _ => .refl
  | spawn scope task => exact named _ _ fun s _ => .refl
  | work dialog task outcome depth =>
      exact named _ _ fun i found => track_work task i (loadings dialog i found) depth outcome
  | finish task outcome => exact answered _ _ _ fun t _ => track_finish t outcome
  | observe dialog receiver visuals =>
      cases visuals with
      | false => exact named _ _ fun source _ => named _ _ fun cell _ => .refl
      | true => exact named _ _ fun i _ => named _ _ fun p _ => .refl
  | changed receiver =>
      refine answered _ _ _ fun r _ => ?_
      unfold Session.readReceiver
      split <;> split <;> exact .refl
  | keepResponder dialog name => exact named _ _ fun i _ => .refl
  | overlay dialog keep =>
      refine answered _ _ _ fun d _ => ?_
      unfold Session.takeOverlay
      dsimp only
      split <;> exact .refl
  | save dialog => exact .refl
  | render dialog content keep =>
      refine answered _ _ _ fun k _ => ?_
      unfold Session.render
      split
      · exact named _ _ fun name _ => .refl
      · exact .refl
  | keepDismisser dialog name => exact named _ _ fun k _ => .refl
  | dismiss dismisser =>
      simp only [Session.act]
      split
      · exact .refl
      · exact track_setShown _ false
  | follow dialog visuals task => exact named _ _ fun source _ => unseen (ledger_follow task source _)
  | describeDialog dialog => exact .refl
  | describeScope scope => exact .refl
  | describeHooks hooks => exact .refl

theorem ledger_initial : initial.ledger = Ledger.blank := rfl

theorem Advances.ledger {next : Host} (step : h.Advances next) (sound : h.ledger.Sound)
    (permitted : ∀ scope lineage job jobs,
      h.scopes[scope]? = some ⟨lineage, false, job :: jobs⟩ →
      h.move? (.dispatch scope) = some next → allowed job) :
    Path allowed h.ledger next.ledger := by
  cases step with
  | act s => exact track_act sound s
  | move m _ taken =>
      refine track_move sound m next taken ?_
      intro scope lineage job jobs dispatch front
      exact permitted scope lineage job jobs front (dispatch ▸ taken)

theorem Reachable.ledger (reachable : h.Reachable) : h.ledger.Reachable := by
  induction reachable with
  | refl =>
      rw [ledger_initial]
      exact .refl
  | tail _ step ih => exact ih.trans (step.ledger ih.sound fun _ _ _ _ _ _ => trivial)

theorem Leads.ledger {next : Host} (run : Leads h next) (reachable : h.Reachable) :
    Path (fun _ => True) h.ledger next.ledger := by
  induction run with
  | refl => exact .refl
  | @tail before after run step ih =>
      have reached : before.Reachable := reachable.trans run
      exact ih.trans (step.ledger reached.ledger.sound fun _ _ _ _ _ _ => trivial)

theorem RunsWithout.ledger {kind : Job → Prop} {next : Host} (run : RunsWithout kind h next)
    (reachable : h.Reachable) : Path (¬kind ·) h.ledger next.ledger := by
  have both : next.Reachable ∧ Path (¬kind ·) h.ledger next.ledger := by
    induction run with
    | refl => exact ⟨reachable, .refl⟩
    | tail _ last ih =>
        obtain ⟨reached, path⟩ := ih
        obtain ⟨step, silent⟩ := last
        refine ⟨reached.tail step, path.trans (step.ledger reached.ledger.sound ?_)⟩
        intro scope lineage job jobs front taken some_kind
        exact silent ⟨scope, lineage, job, jobs, front, some_kind, taken⟩
  exact both.2

end ModalHost.Host
