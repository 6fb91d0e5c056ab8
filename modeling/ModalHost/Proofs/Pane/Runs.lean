import ModalHost.Proofs.Pane.Track
import ModalHost.Proofs.Lane.Moments

/-! Every step of a run in which no block of work passes a dialog is a step of its pane. -/

namespace ModalHost

/-- What a step of a session asks of a dialog. -/
def Session.Step.asks (h : Host) (d : DialogRef) : Session.Step → List Bool
  | .call c => c.asks h d
  | .dismiss dismisser =>
    if (h.names.dismissers.find? dismisser).map .panel = some d then [false] else []
  | _ => []

namespace Host

variable {h next : Host} {d : DialogRef} {k : Nat} {c : Cell Bool} {allowed : Job → Prop}

theorem inside_of_place (sound : h.ledger.Sound) (firm : h.ground.Firm)
    (place : h.place d = some (k, c)) : k < h.scopes.length := by
  cases d with
  | prompt i => cases place
  | loading i =>
      obtain ⟨l, found, ⟨⟩⟩ := Option.map_eq_some_iff.mp place
      simpa [ledger] using sound.loadings i l found
  | panel i =>
      obtain ⟨p, found, ⟨⟩⟩ := Option.map_eq_some_iff.mp place
      simpa [ground] using firm.homes i p found

theorem place_of_asks (moored : h.ledger.Moored) (firm : h.ground.Firm) (scope : Nat) (job : Job)
    (b : Bool) (member : job ∈ h.queued scope) (asks : job.asks d = some b) :
    ∃ c, h.place d = some (scope, c) := by
  cases job with
  | setLoading i shown =>
      obtain ⟨rfl, -⟩ := Option.ite_none_right_eq_some.mp asks
      obtain ⟨l, found, rfl⟩ := moored.homes scope (.setLoading i shown) i
        (by simp [member, Job.counted, Job.loading?]) rfl
      exact ⟨l.shown, congrArg (Option.map _) found⟩
  | setPanel i shown =>
      obtain ⟨rfl, -⟩ := Option.ite_none_right_eq_some.mp asks
      have queued : .setPanel i shown ∈ queueAt h.ground.scopes scope := by
        rw [ground, queueAt_sift]
        exact List.mem_filter.mpr ⟨member, rfl⟩
      obtain ⟨p, found, rfl⟩ := firm.jobs scope i shown queued
      exact ⟨p.shown, congrArg (Option.map _) found⟩
  | _ => cases asks

/-! ### Jobs -/

theorem place_updateLoading_other (i : Nat) (f : Loading → Loading) (other : d ≠ .loading i) :
    (h.updateLoading i f).place d = h.place d := by
  cases d with
  | prompt | panel => rfl
  | loading j =>
      have apart : i ≠ j := fun same => other (same ▸ rfl)
      exact congrArg (Option.map _) (List.getElem?_modify_ne f h.loadings apart)

theorem place_updatePanel_other (i : Nat) (f : Panel → Panel) (other : d ≠ .panel i) :
    (h.updatePanel i f).place d = h.place d := by
  cases d with
  | prompt | loading => rfl
  | panel j =>
      have apart : i ≠ j := fun same => other (same ▸ rfl)
      exact congrArg (Option.map _) (List.getElem?_modify_ne f h.panels apart)

theorem place_runJob_asks (job : Job) (b : Bool) (asks : job.asks d = some b)
    (place : h.place d = some (k, c)) (ran : h.runJob job = some next) :
    next.place d = some (k, c.set b) ∧ next.scopes = h.scopes := by
  cases job with
  | setLoading i shown =>
      obtain ⟨rfl, ⟨⟩⟩ := Option.ite_none_right_eq_some.mp asks
      obtain ⟨l, found, ⟨⟩⟩ := Option.map_eq_some_iff.mp place
      cases ran
      exact ⟨by simp [Host.place, updateLoading, found, Loading.setShown], rfl⟩
  | setPanel i shown =>
      obtain ⟨rfl, ⟨⟩⟩ := Option.ite_none_right_eq_some.mp asks
      obtain ⟨p, found, ⟨⟩⟩ := Option.map_eq_some_iff.mp place
      cases ran
      exact ⟨by simp [Host.place, updatePanel, found, Panel.setShown], rfl⟩
  | _ => cases asks

theorem place_runJob_other (job : Job) (asks : job.asks d = none) (quiet : job.passes d = false)
    (ran : h.runJob job = some next) : next.place d = h.place d ∧ next.scopes = h.scopes := by
  cases job with
  | setLoading i shown =>
      have other : d ≠ .loading i := fun same => by simp [Job.asks, same] at asks
      cases ran
      exact ⟨place_updateLoading_other i _ other, rfl⟩
  | enter i w level =>
      have other : d ≠ .loading i := of_decide_eq_false quiet
      cases ran
      exact ⟨place_updateLoading_other i _ other, rfl⟩
  | leave i w level awaited =>
      have other : d ≠ .loading i := of_decide_eq_false quiet
      cases awaited <;> cases ran <;> exact ⟨place_updateLoading_other i _ other, rfl⟩
  | setPanel i shown =>
      have other : d ≠ .panel i := fun same => by simp [Job.asks, same] at asks
      cases ran
      exact ⟨place_updatePanel_other i _ other, rfl⟩
  | publish | settle | mark | flushed =>
      cases ran
      exact ⟨rfl, rfl⟩
  | setPrompt i shown => cases shown <;> cases ran <;> exact ⟨rfl, rfl⟩
  | offer i tap =>
      simp only [runJob] at ran
      split at ran
      · cases ran
        exact ⟨rfl, rfl⟩
      · split at ran <;> cases ran
        exact ⟨rfl, rfl⟩
  | hold opened =>
      cases opened <;> cases ran
      exact ⟨rfl, rfl⟩

theorem place_runJob (job : Job) (place : h.place d = some (k, c)) (quiet : job.passes d = false)
    (ran : h.runJob job = some next) :
    next.place d = some (k, (job.asks d).elim c c.set) ∧ next.scopes = h.scopes := by
  cases asks : job.asks d with
  | none =>
      obtain ⟨same, scopes⟩ := place_runJob_other job asks quiet ran
      exact ⟨same.trans place, scopes⟩
  | some b => exact place_runJob_asks job b asks place ran

theorem after_pop (scope : Nat) (jobs : List Job) (inside : scope < h.scopes.length)
    (scopes : next.scopes = (h.setQueue scope jobs).scopes) (k : Nat) :
    next.queued k = (if k = scope then jobs else h.queued k) ∧
      next.isCancelled k = h.isCancelled k := by
  have popped := queueAt_pop h.scopes k scope jobs inside
  have flags := any_getElem?_modify (fun s : Scope => { s with queue := jobs }) (·.cancelled)
    (fun _ => rfl) h.scopes scope k
  exact ⟨(congrArg (queueAt · k) scopes).trans popped,
    (congrArg (cancelledAt · k) scopes).trans flags⟩

theorem pane_dispatch (moored : h.ledger.Moored) (firm : h.ground.Firm)
    (place : h.place d = some (k, c)) (scope : Nat) (ran : h.dispatch? scope = some next)
    (idle : ¬ RunsJob (fun job => job.passes d = true) h next)
    (permitted : ∀ job, RunsJob (· = job) h next → allowed job) :
    Pane.Step d allowed (h.pane d k) [] (next.pane d k) := by
  obtain ⟨lineage, job, jobs, front, done⟩ := dispatch_cases scope next ran
  obtain ⟨queue, live⟩ := queueAt_of_front _ _ _ _ _ front
  have quiet : job.passes d = false :=
    Bool.eq_false_iff.mpr fun passes => idle ⟨scope, lineage, job, jobs, front, passes, ran⟩
  have popped : (h.setQueue scope jobs).place d = some (k, c) := place
  obtain ⟨written, scopes⟩ := place_runJob job popped quiet done
  obtain ⟨queued, lives⟩ := after_pop scope jobs (List.getElem?_eq_some_iff.mp front).1 scopes k
  by_cases first : k = scope ∧ job.onPane d = true
  · obtain ⟨rfl, on⟩ := first
    have waits : (h.pane d k).jobs = job :: jobs.filter (Job.onPane d) := by
      change (queueAt h.scopes k).filter _ = _
      rw [queue, List.filter_cons_of_pos on]
    have after : next.pane d k = { h.pane d k with
        jobs := jobs.filter (Job.onPane d)
        place := (h.place d).map (Pane.written d job) } := by
      refine (Pane.mk.injEq ..).mpr ⟨?_, by rw [queued, if_pos rfl], lives⟩
      rw [written, place]
      rfl
    rw [after]
    exact .ran job _ waits live (permitted job ⟨_, lineage, job, jobs, front, rfl, ran⟩)
  · -- The calls on the dialog are queued on its scope, so this job is none of them.
    have asks : job.asks d = none := by
      cases asks : job.asks d with
      | none => rfl
      | some b =>
          have member : job ∈ queueAt h.scopes scope := queue ▸ List.mem_cons_self
          obtain ⟨e, there⟩ := place_of_asks moored firm scope job b member asks
          cases place.symm.trans there
          exact absurd ⟨rfl, Job.onPane_of_asks asks⟩ first
    have waits : (next.queued k).filter (Job.onPane d) = (h.queued k).filter (Job.onPane d) := by
      rw [queued]
      split
      · rename_i here
        change _ = (queueAt h.scopes k).filter _
        rw [here, queue, List.filter_cons_of_neg fun on => first ⟨here, on⟩]
      · rfl
    have still : next.place d = h.place d := by
      rw [written, asks, place]
      rfl
    exact .of_eq ((Pane.mk.injEq ..).mpr ⟨still, waits, lives⟩)

/-! ### The other moves -/

theorem pane_enterLevel (w level : Nat) : (h.enterLevel w level).pane d k = h.pane d k := by
  unfold enterLevel
  split
  · rfl
  · split
    · unfold beginBlock
      split <;> rfl
    · split
      · rfl
      · exact pane_launch_other _ _ rfl

theorem pane_leaveLevel (w level : Nat) (text : String) :
    (h.leaveLevel w level text).pane d k = h.pane d k := by
  unfold leaveLevel
  split
  · rfl
  · split
    · rfl
    · split
      · rfl
      · exact pane_launch_other _ _ rfl

theorem pane_advanceWork (w : Nat) (advanced : h.advanceWork? w = some next) :
    next.pane d k = h.pane d k := by
  obtain ⟨work, -, moved⟩ := work_cases w advanced
  cases moved with
  | entered level => exact pane_enterLevel w _
  | returned | left => exact pane_leaveLevel w _ _
  | panicked => exact pane_dropWork w _

theorem pane_resumeCaller (i : Nat) (resumed : h.resumeCaller? i = some next) :
    next.pane d k = h.pane d k := by
  obtain ⟨caller, -, -, moved⟩ := caller_cases i resumed
  cases moved with
  | cancelled => exact pane_endCancelled i
  | told => exact pane_endCaller i _

theorem pane_advanceWait (w : Nat) (advanced : h.advanceWait? w = some next) :
    next.pane d k = h.pane d k := by
  obtain ⟨wait, -, moved⟩ := wait_cases w advanced
  cases moved <;> rfl

theorem pane_draw (f : Nat) : (h.draw f).pane d k = h.pane d k := by
  obtain ⟨followers, history, drawn⟩ := draw_frame h f
  rw [drawn]
  rfl

theorem pane_renderer (f : Nat)
    (woke : h.followShown? f = some next ∨ h.followVisuals? f = some next) :
    next.pane d k = h.pane d k := by
  obtain ⟨followers, history, rfl⟩ := renderer_frame f woke
  rfl

theorem pane_heard (i : Nat) (p : Prompt) (a : Answer) :
    (h.heard i p a).pane d k = h.pane d k := by
  have notified : (h.notify i p a).pane d k = h.pane d k := by
    unfold notify resolve
    split <;> rfl
  unfold heard
  split <;> exact notified

theorem pane_move (moored : h.ledger.Moored) (firm : h.ground.Firm)
    (place : h.place d = some (k, c)) (m : Move) (taken : h.move? m = some next)
    (quiet : ∀ i p a, m = .deliver i → ¬ h.Accepting i p a)
    (idle : ¬ RunsJob (fun job => job.passes d = true) h next)
    (permitted : ∀ job, RunsJob (· = job) h next → allowed job) :
    Pane.Step d allowed (h.pane d k) [] (next.pane d k) := by
  cases m with
  | dispatch scope => exact pane_dispatch moored firm place scope taken idle permitted
  | deliver i =>
      obtain ⟨p, a, -, -, ⟨accepting, -⟩ | ⟨-, rfl⟩⟩ := deliver_cases i next taken
      · exact absurd accepting (quiet i p a rfl)
      · exact .rests
  | retire i =>
      obtain ⟨p, a, -, -, -, -, rfl⟩ := retire_cases i next taken
      exact .rests
  | resumeCaller i => exact .of_eq (pane_resumeCaller i taken)
  | advanceWork w => exact .of_eq (pane_advanceWork w taken)
  | advanceWait w => exact .of_eq (pane_advanceWait w taken)
  | followShown f => exact .of_eq (pane_renderer f (.inl taken))
  | followVisuals f => exact .of_eq (pane_renderer f (.inr taken))

/-! ### Steps of a session -/

theorem pane_dropDialog (name : String) : (h.dropDialog name).pane d k = h.pane d k := by
  unfold dropDialog
  split
  · rfl
  · rename_i dialog _
    have place : (h.dropHandle dialog).place d = h.place d := by
      cases dialog with
      | prompt i => cases d <;> rfl
      | loading i =>
          cases d with
          | prompt | panel => rfl
          | loading j =>
              have kept := map_modify_invisible (fun l : Loading => { l with handle := false })
                (fun l => (l.scope, l.shown)) i h.loadings fun _ => rfl
              simp only [Host.place, dropHandle, updateLoading, ← List.getElem?_map, kept]
      | panel i =>
          cases d with
          | prompt | loading => rfl
          | panel j =>
              have kept := map_modify_invisible (fun p : Panel => { p with handle := false })
                (fun p => (p.scope, p.shown)) i h.panels fun _ => rfl
              simp only [Host.place, dropHandle, updatePanel, ← List.getElem?_map, kept]
    refine (Pane.mk.injEq ..).mpr ⟨place, ?_, ?_⟩ <;> cases dialog <;> rfl

theorem pane_openDialog (place : h.place d = some (k, c)) (name : String) (scope : Nat)
    (dialog : Session.NewDialog) :
    (Session.openDialog h name scope dialog).1.pane d k = h.pane d k := by
  have dropped : (h.dropDialog name).pane d k = h.pane d k := pane_dropDialog name
  have still : (h.dropDialog name).place d = some (k, c) :=
    (congrArg Pane.place dropped).trans place
  have opened (g : Host) (scopes : g.scopes = (h.dropDialog name).scopes)
      (kept : g.place d = (h.dropDialog name).place d) : g.pane d k = h.pane d k :=
    (pane_congr kept (by rw [scopes])).trans dropped
  cases dialog with
  | loading =>
      refine opened _ rfl ?_
      cases d with
      | prompt | panel => rfl
      | loading j =>
          obtain ⟨l, found, -⟩ := Option.map_eq_some_iff.mp still
          have within := (List.getElem?_eq_some_iff.mp found).1
          exact congrArg (Option.map _) (List.getElem?_append_left within)
  | panel kind visible =>
      have panels (g : Host) (new : Panel) (scopes : g.scopes = (h.dropDialog name).scopes)
          (loadings : g.loadings = (h.dropDialog name).loadings)
          (panels : g.panels = (h.dropDialog name).panels ++ [new]) : g.pane d k = h.pane d k := by
        refine opened g scopes ?_
        cases d with
        | prompt => rfl
        | loading j => rw [Host.place, Host.place, loadings]
        | panel j =>
            obtain ⟨p, found, -⟩ := Option.map_eq_some_iff.mp still
            have within := (List.getElem?_eq_some_iff.mp found).1
            rw [Host.place, Host.place, panels, List.getElem?_append_left within]
      cases kind <;> exact panels _ _ rfl rfl rfl
  | confirm hooks start =>
      have asks (s : Snapshot) : (h.openPrompt name scope s hooks).pane d k = h.pane d k :=
        opened _ rfl rfl
      cases start with
      | blank => exact asks _
      | snapshot s => exact asks s
      | saved bytes =>
          simp only [Session.openDialog]
          split
          · exact asks _
          · rfl

theorem pane_openScope (inside : k < h.scopes.length) (name : String) (parent : Option Nat) :
    (h.openScope name parent).pane d k = h.pane d k := by
  have same : (h.openScope name parent).scopes[k]? = h.scopes[k]? :=
    List.getElem?_append_left inside
  exact (Pane.mk.injEq ..).mpr ⟨rfl, by simp [queued, same], by simp [isCancelled, same]⟩

theorem pane_release (scope : Nat) : (h.release scope).1.pane d k = h.pane d k := by
  unfold release
  split
  · rfl
  · rename_i opened found
    exact pane_setQueue_other scope opened
      (Scope.sift_openHold (Job.onPane d) (fun _ => rfl) _ _ found)

theorem pane_finish (task : TaskRef) (outcome : Outcome) :
    (h.finish task outcome).1.pane d k = h.pane d k := by
  cases task with
  | caller | follower => rfl
  | work w =>
      simp only [finish]
      split <;> rfl
  | wait w =>
      simp only [finish]
      split
      · split <;> rfl
      · rfl

theorem pane_flush (name : String) (inside : k < h.scopes.length) (live : h.isCancelled k = false) :
    (h.flush name k).pane d k =
      { h.pane d k with jobs := (h.pane d k).jobs ++ [.flushed h.waits.length] } :=
  pane_launch (h := h.startWait name k (.flush false)) _ rfl inside live

theorem pane_flush_step (name : String) (scope : Nat) (inside : k < h.scopes.length) :
    Pane.Step d allowed (h.pane d k) [] ((h.flush name scope).pane d k) := by
  have started : (h.startWait name scope (.flush false)).pane d k = h.pane d k := rfl
  by_cases here : scope = k
  · subst here
    cases dead : h.isCancelled scope with
    | false =>
        rw [pane_flush name inside dead]
        exact .flushes _ dead
    | true =>
        have dropped := launch_dead (h := h.startWait name scope (.flush false))
          (.flushed h.waits.length) dead
        rw [flush, dropped, started]
        exact .rests
  · rw [flush, pane_launch_elsewhere scope _ here, started]
    exact .rests

theorem pane_act (sound : h.ledger.Sound) (firm : h.ground.Firm) (place : h.place d = some (k, c))
    (s : Session.Step) :
    Pane.Step d allowed (h.pane d k) (s.asks h d) ((Session.act h s).1.pane d k) := by
  have inside := inside_of_place sound firm place
  have named {α : Type} (found : Option α) (f : α → Host)
      (each : ∀ x, (f x).pane d k = h.pane d k) :
      Pane.Step d allowed (h.pane d k) [] ((found.elim h f).pane d k) := by
    cases found with
    | none => exact .rests
    | some x => exact .of_eq (each x)
  have answered {α β : Type} (found : Option α) (nothing : β) (f : α → Host × β)
      (each : ∀ x, (f x).1.pane d k = h.pane d k) :
      Pane.Step d allowed (h.pane d k) [] ((found.elim (h, nothing) f).1.pane d k) := by
    cases found with
    | none => exact .rests
    | some x => exact .of_eq (each x)
  cases s with
  | call call => exact act_call h call ▸ pane_call inside place call
  | openScope name parent => exact .of_eq (pane_openScope inside name _)
  | openDialog name scope dialog =>
      exact answered _ _ _ fun s => pane_openDialog place name s dialog
  | drop dialog => exact .of_eq (pane_dropDialog dialog)
  | hold scope => exact named _ _ fun s => pane_launch_other _ _ rfl
  | release scope => exact answered _ _ _ fun s => pane_release s
  | mark scope label => exact named _ _ fun s => pane_launch_other _ _ rfl
  | flush scope task =>
      simp only [Session.act]
      cases h.names.scopes.find? scope with
      | none => exact .rests
      | some s => exact pane_flush_step task s inside
  | whenCancelled scope task => exact named _ _ fun _ => rfl
  | spawn scope task => exact named _ _ fun _ => rfl
  | work dialog task outcome depth =>
      exact named _ _ fun l => pane_enterLevel _ _
  | finish task outcome => exact answered _ _ _ fun t => pane_finish t outcome
  | observe dialog receiver visuals =>
      cases visuals with
      | false =>
          refine named _ _ fun source => ?_
          cases h.shown? source <;> rfl
      | true =>
          refine named _ _ fun i => ?_
          cases h.prompts[i]? <;> rfl
  | changed receiver =>
      refine answered _ _ _ fun r => ?_
      unfold Session.readReceiver
      split <;> split <;> rfl
  | keepResponder dialog name => exact named _ _ fun _ => rfl
  | overlay dialog keep =>
      refine answered _ _ _ fun e => ?_
      unfold Session.takeOverlay
      dsimp only
      split <;> rfl
  | render dialog content keep =>
      refine answered _ _ _ fun i => ?_
      unfold Session.render
      split
      · cases keep <;> rfl
      · rfl
  | keepDismisser dialog name => exact named _ _ fun _ => rfl
  | dismiss dismisser =>
      simp only [Session.act, Session.Step.asks]
      cases h.names.dismissers.find? dismisser with
      | none => exact .rests
      | some i =>
          simp only [Option.map_some, Option.some.injEq]
          exact pane_setShown inside place (.panel i) false
  | follow dialog visuals task =>
      refine named _ _ fun source => ?_
      unfold follow
      split
      · rfl
      · exact pane_draw _
  | save | describeDialog | describeScope | describeHooks => exact .rests

end Host

end ModalHost
