import ModalHost.Proofs.Ledger.Runs
import ModalHost.Proofs.Strand.Moves

/-! Along every run of a host each prompt has a strand that it can come to. -/

namespace ModalHost.Host

open Strand (Path Step)

variable {h : Host} (i : Nat) (due : Option Nat) {allowed : Job → Prop}

theorem path_resumeCaller (tidy : h.Tidy) (c : Nat) (next : Host)
    (resumed : h.resumeCaller? c = some next) :
    Path i allowed (h.strand i due) (next.strand i due) := by
  obtain ⟨caller, found, waits, moved⟩ := caller_cases c resumed
  cases moved with
  | cancelled p present dead =>
      refine path_endCancelled i due c ?_
      intro other there
      cases found.symm.trans there
      exact ⟨waits, p, present, dead⟩
  | told reply told live =>
      obtain ⟨p, present⟩ := tidy.callers c caller found
      rw [strand_endCaller _ _ _ c caller found]
      by_cases same : caller.prompt = i
      · subst same
        exact .single (.resumed p present c caller found rfl waits reply told
          (by simpa using live p present))
      · exact .single (Strand.step_conclude_elsewhere _ c caller found same _ _)

theorem strand_beginBlock (w : Nat) : (h.beginBlock w).strand i due = h.strand i due := by
  unfold beginBlock
  split
  · rfl
  · rw [strand_record_other _ _ _ _ rfl, strand_updateWork]

theorem strand_enterLevel (w level : Nat) :
    (h.enterLevel w level).strand i due = h.strand i due := by
  unfold enterLevel
  split
  · rfl
  · split
    · exact strand_beginBlock i due w
    · split
      · rfl
      · rw [strand_launch_other _ _ _ _ _ (by simp [Job.prompt?]), strand_updateWork]

theorem strand_leaveLevel (w level : Nat) (text : String) :
    (h.leaveLevel w level text).strand i due = h.strand i due := by
  unfold leaveLevel
  split
  · rfl
  · split
    · rw [strand_record_other _ _ _ _ rfl, strand_updateWork]
    · split
      · rfl
      · rw [strand_launch_other _ _ _ _ _ (by simp [Job.prompt?]), strand_updateWork]

theorem strand_advanceWork (w : Nat) (next : Host) (advanced : h.advanceWork? w = some next) :
    next.strand i due = h.strand i due := by
  obtain ⟨work, -, moved⟩ := work_cases w advanced
  cases moved with
  | entered level => exact strand_enterLevel i due w _
  | returned | left => exact strand_leaveLevel i due w _ _
  | panicked => exact strand_dropWork i due w _

theorem strand_endWait (w : Nat) (name : String) (ending : Ending) :
    (h.endWait w name ending).strand i due = h.strand i due := by
  unfold endWait
  rw [strand_record_other _ _ _ _ rfl, strand_updateWait]

theorem strand_advanceWait (w : Nat) (next : Host) (advanced : h.advanceWait? w = some next) :
    next.strand i due = h.strand i due := by
  obtain ⟨wait, -, moved⟩ := wait_cases w advanced
  cases moved with
  | flushed | cancelled | joined => exact strand_endWait i due w _ _
  | received given => rw [strand_record_other _ _ _ _ rfl, strand_updateWait]

theorem path_draw (f : Nat) : Path i allowed (h.strand i due) ((h.draw f).strand i due) := by
  unfold draw
  cases found : h.followers[f]? with
  | none => exact .refl
  | some follower =>
      dsimp only
      rw [strand_record_other _ _ _ _ rfl]
      refine .single (.pictured _ ?_)
      rintro picture (kept | drawn)
      · exact .inl (.inl kept)
      · simp only [updateFollower, List.mem_map] at drawn
        rcases drawn with ⟨other, member, shot⟩
        rcases List.mem_iff_getElem?.mp member with ⟨n, at_n⟩
        simp only [List.getElem?_modify, Option.map_eq_map, Option.map_eq_some_iff] at at_n
        rcases at_n with ⟨former, there, rfl⟩
        by_cases same : f = n
        · subst same
          have value := Option.some.inj (found.symm.trans there)
          subst value
          simp only [if_true, Prod.mk.injEq] at shot
          rcases shot with ⟨source, frame⟩
          right
          split at frame
          · rw [source] at frame
            simp only [overlay] at frame
            split at frame
            · rename_i taken
              rcases Option.bind_eq_some_iff.mp taken with ⟨p, present, shown⟩
              exact ⟨p, present, by rw [shown]; exact congrArg some (by simpa using frame)⟩
            · simp at frame
          · simp at frame
        · simp only [if_neg same] at shot
          exact .inl (.inr (List.mem_map.mpr ⟨former, List.mem_of_getElem? there, shot⟩))

theorem path_followShown (f : Nat) (next : Host) (woke : h.followShown? f = some next) :
    Path i allowed (h.strand i due) (next.strand i due) := by
  obtain ⟨x, -, -, moved⟩ := shown_cases f woke
  cases moved with
  | looked cell =>
      rw [← strand_updateFollower h i due f (fun follower =>
        { follower with shown := cell.value, seenShown := cell.version }) fun _ => rfl]
      exact path_draw i due f
  | ended =>
      rw [strand_record_other _ _ _ _ rfl, strand_updateFollower _ _ _ f
        (fun follower => { follower with ended := true }) fun _ => rfl]
      exact .refl

theorem path_followVisuals (f : Nat) (next : Host) (woke : h.followVisuals? f = some next) :
    Path i allowed (h.strand i due) (next.strand i due) := by
  obtain ⟨x, j, p, -, -, -, -, moved⟩ := visuals_cases f woke
  have seen := strand_updateFollower h i due f (fun follower =>
    { follower with seenVisuals := p.visuals.version }) fun _ => rfl
  cases moved with
  | drew =>
      rw [← seen]
      exact path_draw i due f
  | overlooked =>
      rw [seen]
      exact .refl
  | left =>
      rw [strand_updateFollower _ _ _ f (fun follower =>
        { follower with pictures := none }) fun _ => rfl]
      exact .refl

theorem path_move (woven : h.Woven fun _ => none) (m : Move) (next : Host)
    (taken : h.move? m = some next)
    (permitted : ∀ scope lineage job jobs, m = .dispatch scope →
      h.scopes[scope]? = some ⟨lineage, false, job :: jobs⟩ → job.prompt? = some i → allowed job) :
    Path i allowed (h.strand i none) (next.strand i none) := by
  cases m with
  | dispatch scope =>
      exact path_dispatch i woven.tidy scope next taken
        fun lineage job jobs front about => permitted scope lineage job jobs rfl front about
  | deliver j => exact path_deliver i woven j next taken
  | retire j => exact path_retire i j next taken
  | resumeCaller c => exact path_resumeCaller i none woven.tidy c next taken
  | advanceWork w =>
      rw [strand_advanceWork i none w next taken]
      exact .refl
  | advanceWait w =>
      rw [strand_advanceWait i none w next taken]
      exact .refl
  | followShown f => exact path_followShown i none f next taken
  | followVisuals f => exact path_followVisuals i none f next taken

theorem strand_openScope (name : String) (parent : Option Nat) :
    (h.openScope name parent).strand i due = { h.strand i due with
      scopes := (h.strand i due).scopes ++
        [⟨(h.strand i due).scopes.length ::
          ((parent.bind ((h.strand i due).scopes[·]?)).map (·.lineage)).getD [],
          (parent.bind ((h.strand i due).scopes[·]?)).any (·.cancelled), []⟩] } := by
  have above : parent.bind ((h.strand i due).scopes[·]?) =
      (parent.bind (h.scopes[·]?)).map (Scope.only i) := by
    cases parent <;> simp [strand]
  rw [above]
  simp only [strand, openScope, pictures, List.map_append, List.map_cons, List.map_nil,
    List.length_map]
  cases parent.bind (h.scopes[·]?) with
  | none => rfl
  | some s => rfl

theorem path_openScope (name : String) (parent : Option Nat) :
    Path i allowed (h.strand i due) ((h.openScope name parent).strand i due) := by
  rw [strand_openScope]
  refine .single (.branched _ ?_)
  intro s found
  rcases Option.bind_eq_some_iff.mp found with ⟨k, -, there⟩
  exact List.mem_of_getElem? there

theorem path_dropDialog (name : String) :
    Path i allowed (h.strand i due) ((h.dropDialog name).strand i due) := by
  unfold dropDialog
  split
  · exact .refl
  · rename_i dialog _
    change Path i allowed (h.strand i due) ((h.dropHandle dialog).strand i due)
    cases dialog with
    | prompt j =>
        by_cases same : j = i
        · subst same
          rw [dropHandle, strand_updatePrompt]
          cases present : h.prompts[j]? with
          | none =>
              rw [Option.map_none, ← present]
              exact .refl
          | some p => exact .single (.tended p present p.hooks false)
        · rw [dropHandle, strand_updatePrompt_other _ _ _ _ same]
          exact .refl
    | loading l => exact .refl
    | panel k => exact .refl

theorem path_openPrompt (name : String) (scope : Nat) (inside : scope < h.scopes.length)
    (s : Snapshot) (hooks : Hooks Call) :
    Path i allowed (h.strand i due) ((h.openPrompt name scope s hooks).strand i due) := by
  unfold openPrompt
  refine (path_dropDialog i due name).trans ?_
  rw [← scopes_dropDialog name] at inside
  generalize h.dropDialog name = h at inside
  dsimp only
  by_cases same : h.prompts.length = i
  · subst same
    rw [strand_record _ _ _ _ (by simp [Event.concerns])]
    have absent : h.prompts[h.prompts.length]? = none := List.getElem?_eq_none (Nat.le_refl _)
    have opened : ({ h with prompts := h.prompts ++ [Prompt.restore scope s hooks] }.bindDialog
        name (.prompt h.prompts.length)).strand h.prompts.length due =
        { h.strand h.prompts.length due with prompt := some (.restore scope s hooks) } := by
      simp [strand, bindDialog, pictures]
    rw [opened]
    exact .single (.opened absent scope s hooks (by simpa [strand] using inside))
  · rw [strand_record_other _ _ _ _ (by simpa [Event.concerns] using same)]
    have here : (h.prompts ++ [Prompt.restore scope s hooks])[i]? = h.prompts[i]? := by
      rw [List.getElem?_append]
      split
      · rfl
      · rw [List.getElem?_eq_none (l := h.prompts) (by omega), List.getElem?_eq_none]
        simp only [List.length_singleton]
        omega
    have unchanged : ({ h with prompts := h.prompts ++ [Prompt.restore scope s hooks] }.bindDialog
        name (.prompt h.prompts.length)).strand i due = h.strand i due := by
      simp only [strand, bindDialog, pictures, here]
    rw [unchanged]

theorem path_release (scope : Nat) :
    Path i allowed (h.strand i due) ((h.release scope).1.strand i due) := by
  unfold release
  split
  · exact .refl
  · rename_i opened found
    cases there : h.scopes[scope]? with
    | none => simp [Host.queued, there, Scope.openHold] at found
    | some s =>
        have queue : h.queued scope = s.queue := by simp [Host.queued, there]
        rw [queue] at found
        rw [strand_setQueue_other i due scope s there opened
          (Scope.filter_openHold i s.queue opened found)]
        exact .refl

theorem strand_finish (task : TaskRef) (outcome : Outcome) :
    (h.finish task outcome).1.strand i due = h.strand i due := by
  cases task with
  | work w =>
      simp only [finish]
      split
      · rfl
      · rfl
  | wait w =>
      simp only [finish]
      split
      · split
        · rfl
        · rfl
      · rfl
  | caller c => rfl
  | follower f => rfl

theorem path_keepResponder (name : String) (r : Responder)
    (taken : ∀ picture, r.picture = some picture →
      ∃ p, h.prompts[r.prompt]? = some p ∧ p.overlay = some picture) :
    Path i allowed (h.strand i due) ((h.keepResponder name r).strand i due) := by
  refine .single (.pictured _ ?_)
  rintro picture (⟨bearer, kept⟩ | drawn)
  · rcases List.mem_cons.mp kept with new | old
    · rcases Prod.mk.inj new with ⟨rfl, rfl⟩
      exact .inr (taken picture rfl)
    · exact .inl (.inl ⟨bearer, (List.mem_filter.mp old).1⟩)
  · exact .inl (.inr drawn)

theorem path_takeOverlay (keep : Option String) (dialog : DialogRef) :
    Path i allowed (h.strand i due) ((Session.takeOverlay h keep dialog).1.strand i due) := by
  unfold Session.takeOverlay
  dsimp only
  split
  · rename_i name j picture frame
    refine path_keepResponder i due name ⟨j, some picture⟩ ?_
    rintro _ ⟨⟩
    simp only [overlay] at frame
    split at frame
    · rename_i shot
      rcases Option.bind_eq_some_iff.mp shot with ⟨p, present, shown⟩
      exact ⟨p, present, by rw [shown]; exact congrArg some (by simpa using frame)⟩
    · simp at frame
  · exact .refl

theorem path_follow (name : String) (source : DialogRef) (pictures : Option Nat) :
    Path i allowed (h.strand i due) ((h.follow name source pictures).strand i due) := by
  unfold follow
  split
  · exact .refl
  · refine .trans ?_ (path_draw i due h.followers.length)
    refine .single (.pictured _ ?_)
    rintro picture (kept | drawn)
    · exact .inl (.inl kept)
    · simp only [bindTask, List.map_append, List.mem_append, List.map_cons, List.map_nil,
        List.mem_singleton, Prod.mk.injEq, reduceCtorEq, and_false, or_false] at drawn
      exact .inl (.inr drawn)

theorem path_openDialog (name : String) (scope : Nat) (inside : scope < h.scopes.length)
    (dialog : Session.NewDialog) :
    Path i allowed (h.strand i due) ((Session.openDialog h name scope dialog).1.strand i due) := by
  cases dialog with
  | loading => exact path_dropDialog i due name
  | panel kind visible =>
      cases kind with
      | custom => exact path_dropDialog i due name
      | base => exact path_dropDialog i due name
  | confirm hooks start =>
      cases start with
      | blank => exact path_openPrompt i due name scope inside .initial hooks
      | snapshot s => exact path_openPrompt i due name scope inside s hooks
      | saved bytes =>
          simp only [Session.openDialog]
          split
          · exact path_openPrompt i due name scope inside _ hooks
          · exact .refl

theorem path_act (sound : h.ledger.Sound) (tidy : h.Tidy) (s : Session.Step) :
    Path i allowed (h.strand i due) ((Session.act h s).1.strand i due) := by
  have named {α : Type} (found : Option α) (f : α → Host)
      (each : ∀ x, Path i allowed (h.strand i due) ((f x).strand i due)) :
      Path i allowed (h.strand i due) ((found.elim h f).strand i due) := by
    cases found with
    | none => exact .refl
    | some x => exact each x
  have answered {α β : Type} (found : Option α) (nothing : β) (f : α → Host × β)
      (each : ∀ x, found = some x → Path i allowed (h.strand i due) ((f x).1.strand i due)) :
      Path i allowed (h.strand i due) ((found.elim (h, nothing) f).1.strand i due) := by
    cases found with
    | none => exact .refl
    | some x => exact each x rfl
  cases s with
  | call c => cases c <;> exact path_call i due tidy _
  | openScope name parent => exact path_openScope i due name _
  | openDialog name scope dialog =>
      exact answered _ _ _ fun s found =>
        path_openDialog i due name s (scope_of_name sound scope s found) dialog
  | drop dialog => exact path_dropDialog i due dialog
  | hold scope =>
      refine named _ _ fun s => ?_
      rw [hold, strand_launch_other _ _ _ _ _ (by simp [Job.prompt?])]
      exact .refl
  | release scope => exact answered _ _ _ fun s _ => path_release i due s
  | mark scope label =>
      refine named _ _ fun s => ?_
      rw [strand_launch_other _ _ _ _ _ (by simp [Job.prompt?])]
      exact .refl
  | flush scope task =>
      refine named _ _ fun s => ?_
      rw [flush, strand_launch_other _ _ _ _ _ (by simp [Job.prompt?])]
      exact .refl
  | whenCancelled scope task => exact named _ _ fun s => .refl
  | spawn scope task => exact named _ _ fun s => .refl
  | work dialog task outcome depth =>
      refine named _ _ fun l => ?_
      rw [work, strand_enterLevel]
      exact .refl
  | finish task outcome =>
      refine answered _ _ _ fun t _ => ?_
      rw [strand_finish]
      exact .refl
  | observe dialog receiver visuals =>
      cases visuals with
      | false => exact named _ _ fun source => named _ _ fun cell => .refl
      | true => exact named _ _ fun j => named _ _ fun p => .refl
  | changed receiver =>
      refine answered _ _ _ fun r _ => ?_
      unfold Session.readReceiver
      split <;> split <;> exact .refl
  | keepResponder dialog name =>
      refine named _ _ fun j => path_keepResponder i due name ⟨j, none⟩ ?_
      intro picture taken
      simp at taken
  | overlay dialog keep => exact answered _ _ _ fun d _ => path_takeOverlay i due keep d
  | save dialog => exact .refl
  | render dialog content keep =>
      refine answered _ _ _ fun k _ => ?_
      unfold Session.render
      split
      · exact named _ _ fun name => .refl
      · exact .refl
  | keepDismisser dialog name => exact named _ _ fun k => .refl
  | dismiss dismisser =>
      simp only [Session.act]
      split
      · exact .refl
      · exact path_setShown i due _ false
  | follow dialog visuals task =>
      exact named _ _ fun source => path_follow i due task source _
  | describeDialog dialog => exact .refl
  | describeScope scope => exact .refl
  | describeHooks hooks => exact .refl

theorem woven_initial : initial.Woven fun _ => none := by
  intro i
  have blank : initial.strand i none = Strand.blank := by
    simp [strand, pictures, initial, Strand.blank, Scope.only]
  exact blank ▸ .refl

theorem Advances.strand {next : Host} (step : h.Advances next) (sound : h.ledger.Sound)
    (woven : h.Woven fun _ => none)
    (permitted : ∀ scope lineage job jobs,
      h.scopes[scope]? = some ⟨lineage, false, job :: jobs⟩ →
      h.move? (.dispatch scope) = some next → allowed job) :
    Path i allowed (h.strand i none) (next.strand i none) := by
  cases step with
  | act s => exact path_act i none sound woven.tidy s
  | move m _ taken =>
      refine path_move i woven m next taken ?_
      intro scope lineage job jobs dispatch front _
      exact permitted scope lineage job jobs front (dispatch ▸ taken)

theorem Advances.woven {next : Host} (step : h.Advances next) (sound : h.ledger.Sound)
    (woven : h.Woven fun _ => none) : next.Woven fun _ => none :=
  fun i => (woven i).trans (step.strand i sound woven fun _ _ _ _ _ _ => trivial)

theorem Reachable.woven (reachable : h.Reachable) : h.Woven fun _ => none := by
  induction reachable with
  | refl => exact woven_initial
  | tail before step ih => exact step.woven (Reachable.ledger before).sound ih

theorem Leads.strand {next : Host} (run : Leads h next) (reachable : h.Reachable) :
    Path i (fun _ => True) (h.strand i none) (next.strand i none) := by
  induction run with
  | refl => exact .refl
  | tail run step ih =>
      have reached : Reachable _ := reachable.trans run
      exact ih.trans (step.strand i reached.ledger.sound reached.woven fun _ _ _ _ _ _ => trivial)

theorem Seen.strand (seen : h.Seen) : ∃ due, Strand.Reachable i (h.strand i due) := by
  cases seen with
  | between _ reachable => exact ⟨none, reachable.woven i⟩
  | within h reachable j p a accepting made =>
      exact ⟨_, (reachable.woven.heard accepting).calls made i⟩

theorem RunsWithoutShow.path {next : Host} (run : RunsWithoutShow i h next)
    (reachable : h.Reachable) :
    next.Reachable ∧
      Path i (· ≠ .setPrompt i true) (h.strand i none) (next.strand i none) := by
  induction run with
  | refl => exact ⟨reachable, .refl⟩
  | tail _ last ih =>
      rcases ih with ⟨reached, path⟩
      rcases last with ⟨step, silent⟩
      refine ⟨reached.tail step, path.trans (step.strand i reached.ledger.sound reached.woven ?_)⟩
      rintro scope lineage job jobs front taken rfl
      exact silent ⟨scope, lineage, jobs, front, taken⟩

end ModalHost.Host
