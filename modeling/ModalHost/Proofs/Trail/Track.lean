import ModalHost.Proofs.Trail.Basic
import ModalHost.Proofs.Edits.Track
import ModalHost.Proofs.Lane.Runs

/-! Every turn of a run does to a prompt what its entries in the trail tell. -/

namespace ModalHost.Host

variable {i : Nat} {h next : Host}

def Untapped (job : Job) : Prop := ∀ i, job.tap? i = none

def Unheard (e : Event) : Prop := ∀ i, e.answer? i = none ∧ e.fired i = false

theorem ample_plain : Ample Untapped Unheard Prompt.inlet where
  job job aside := by
    intro i
    cases job <;> first | rfl | cases aside
  event e aside := by
    intro i
    cases e <;> first | exact ⟨rfl, rfl⟩ | cases aside
  view _ _ := id

/-- What has become of the waiting taps when no tap was queued or sent: they wait still, or the scope
is cancelled. -/
theorem taps_stay (home : next.prompts[i]?.map (·.scope) = h.prompts[i]?.map (·.scope))
    (queue : ∀ k, (queueAt next.scopes k).filterMap (Job.tap? i) =
        (queueAt h.scopes k).filterMap (Job.tap? i) ∨
      cancelledAt next.scopes k = true ∧ queueAt next.scopes k = []) :
    next.taps i = h.taps i ∨ next.taps i = [] ∧ ¬ next.LiveFor i := by
  cases present : h.prompts[i]? with
  | none =>
      rw [present, Option.map_none, Option.map_eq_none_iff] at home
      simp [taps, present, home]
  | some p =>
      rw [present, Option.map_some] at home
      obtain ⟨q, there, home⟩ := Option.map_eq_some_iff.mp home
      simp only [taps, present, there, Option.map_some, Option.getD_some]
      rw [home]
      refine (queue p.scope).imp_right fun ⟨dead, empty⟩ => ⟨?_, fun live => ?_⟩
      · change (queueAt next.scopes p.scope).filterMap _ = []
        rw [empty, List.filterMap_nil]
      · have alive : cancelledAt next.scopes p.scope = false := home ▸ live q there
        rw [dead] at alive
        cases alive

theorem follows_still (trail : List Entry) (unsent : trail.filterMap Entry.passed? = [])
    (untapped : trail.filterMap Entry.tapped? = [])
    (home : next.prompts[i]?.map (·.scope) = h.prompts[i]?.map (·.scope))
    (persist : Persist h.scopes next.scopes)
    (queue : ∀ k, (queueAt next.scopes k).filterMap (Job.tap? i) =
        (queueAt h.scopes k).filterMap (Job.tap? i) ∨
      cancelledAt next.scopes k = true ∧ queueAt next.scopes k = [])
    (hooks : next.hooksOf i = Entry.hooks (h.hooksOf i) trail)
    (mail : h.mail i ++ trail.filterMap Entry.sent? =
      trail.filterMap Entry.taken? ++ next.mail i)
    (answers : next.answersTo i = h.answersTo i ++ trail.filterMap Entry.accepted?)
    (fired : next.firedFor i = h.firedFor i ++ Entry.fires i (h.hooksOf i) trail) :
    Follows i h trail next := by
  have stay := taps_stay home queue
  refine ⟨hooks, mail, ?_, ?_, answers, fired, ?_, persist⟩
  · rw [unsent, untapped, List.append_nil, List.nil_append]
    rcases stay with same | ⟨empty, -⟩
    · exact same ▸ List.Sublist.refl _
    · exact empty ▸ List.nil_sublist _
  · intro live
    rw [unsent, untapped, List.append_nil, List.nil_append]
    exact stay.resolve_right fun dead => dead.2 live
  · intro p present
    rw [present, Option.map_some] at home
    exact Option.map_eq_some_iff.mp home

theorem follows_passed (trail : List Entry) (tap : Tap) (passed : trail.filterMap Entry.passed? = [tap])
    (untapped : trail.filterMap Entry.tapped? = []) (first : h.taps i = tap :: next.taps i)
    (home : next.prompts[i]?.map (·.scope) = h.prompts[i]?.map (·.scope))
    (persist : Persist h.scopes next.scopes)
    (hooks : next.hooksOf i = Entry.hooks (h.hooksOf i) trail)
    (mail : h.mail i ++ trail.filterMap Entry.sent? =
      trail.filterMap Entry.taken? ++ next.mail i)
    (answers : next.answersTo i = h.answersTo i ++ trail.filterMap Entry.accepted?)
    (fired : next.firedFor i = h.firedFor i ++ Entry.fires i (h.hooksOf i) trail) :
    Follows i h trail next := by
  have split : trail.filterMap Entry.passed? ++ next.taps i =
      h.taps i ++ trail.filterMap Entry.tapped? := by
    rw [passed, untapped, first, List.append_nil, List.singleton_append]
  refine ⟨hooks, mail, split ▸ List.Sublist.refl _, fun _ => split, answers, fired, ?_, persist⟩
  intro p present
  rw [present, Option.map_some] at home
  exact Option.map_eq_some_iff.mp home

theorem follows_quiet (inlet : next.prompts[i]?.map Prompt.inlet = h.prompts[i]?.map Prompt.inlet)
    (persist : Persist h.scopes next.scopes)
    (queue : ∀ k, (queueAt next.scopes k).filterMap (Job.tap? i) =
        (queueAt h.scopes k).filterMap (Job.tap? i) ∨
      cancelledAt next.scopes k = true ∧ queueAt next.scopes k = [])
    (answers : next.history.filterMap (Event.answer? i) = h.history.filterMap (Event.answer? i))
    (fired : next.history.filter (Event.fired i) = h.history.filter (Event.fired i)) :
    Follows i h [] next := by
  have view {β : Type} (f : Inlet → β) : next.prompts[i]?.map (fun p => f p.inlet) =
      h.prompts[i]?.map fun p => f p.inlet := by
    have mapped := congrArg (Option.map f) inlet
    rwa [Option.map_map, Option.map_map] at mapped
  have mailbox : next.prompts[i]?.bind (·.mailbox) = h.prompts[i]?.bind (·.mailbox) := by
    have bound := congrArg (Option.bind · Inlet.mailbox) inlet
    simpa [Option.bind_map, Function.comp_def, Prompt.inlet] using bound
  refine follows_still [] rfl rfl (view Inlet.scope) persist queue ?_ ?_ ?_ ?_
  · exact congrArg (Option.getD · .none) (view Inlet.hooks)
  · simp [mail, mailbox]
  · simp [answersTo, answers]
  · simp [firedFor, fired, Entry.fires]

theorem untapped_queue {β : Type} {notes : Event → Prop} {view : Prompt → β}
    (edits : Edits Untapped notes view h next) (k : Nat) :
    (queueAt next.scopes k).filterMap (Job.tap? i) =
        (queueAt h.scopes k).filterMap (Job.tap? i) ∨
      cancelledAt next.scopes k = true ∧ queueAt next.scopes k = [] := by
  refine (edits.queue k).imp_left fun ⟨added, queue, untapped⟩ => ?_
  have none : added.filterMap (Job.tap? i) = [] :=
    List.filterMap_eq_nil_iff.mpr fun job member => untapped job member i
  rw [queue, List.filterMap_append, none, List.append_nil]

theorem follows_edits (edits : Edits Untapped Unheard Prompt.inlet h next) :
    Follows i h [] next := by
  obtain ⟨events, history, unheard⟩ := edits.history
  refine follows_quiet ?_ edits.persist (untapped_queue edits) ?_ ?_
  · rw [← List.getElem?_map, edits.views, List.getElem?_map]
  · have none : events.filterMap (Event.answer? i) = [] :=
      List.filterMap_eq_nil_iff.mpr fun e member => (unheard e member i).1
    rw [history, List.filterMap_append, none, List.nil_append]
  · have none : events.filter (Event.fired i) = [] :=
      List.filter_eq_nil_iff.mpr fun e member => by simp [(unheard e member i).2]
    rw [history, List.filter_append, none, List.nil_append]

theorem Woven.anchored {due : Nat → Option Nat} (woven : h.Woven due) (p : Prompt)
    (present : h.prompts[i]? = some p) : p.scope < h.scopes.length := by
  have anchored := (woven i).anchored p present
  simpa [strand] using anchored

theorem follows_tap (p : Prompt) (present : h.prompts[i]? = some p)
    (inside : p.scope < h.scopes.length) (tap : Tap) :
    Follows i h [.tapped tap] (h.launch p.scope (.offer i tap)) := by
  have persist : Persist h.scopes (h.launch p.scope (.offer i tap)).scopes := .push p.scope _
  have taps : (h.launch p.scope (.offer i tap)).taps i =
      if openAt h.scopes p.scope = true then h.taps i ++ [tap] else h.taps i := by
    have before : h.taps i = (queueAt h.scopes p.scope).filterMap (Job.tap? i) := by
      simp only [Host.taps, present, Option.map_some, Option.getD_some]
      rfl
    have after : (h.launch p.scope (.offer i tap)).taps i =
        (queueAt (h.launch p.scope (.offer i tap)).scopes p.scope).filterMap (Job.tap? i) := by
      simp only [Host.taps, launch, present, Option.map_some, Option.getD_some]
      rfl
    rw [after, before, launch, queueAt_push]
    simp only [true_and]
    split
    · simp [List.filterMap_append, Job.tap?]
    · rfl
  refine ⟨rfl, by simp [mail, launch, List.filterMap_cons, Entry.sent?, Entry.taken?],
    ?_, ?_, ?_, ?_, ?_, persist⟩
  · rw [taps]
    split
    · exact List.Sublist.refl _
    · exact List.sublist_append_left _ _
  · intro live
    have opens := openAt_of_live h.scopes p.scope inside (persist.live (live p present))
    rw [taps, if_pos opens]
    rfl
  · simp [answersTo, launch, Entry.accepted?]
  · simp [firedFor, launch, Entry.fires]
  · exact fun q there => ⟨q, there, rfl⟩

theorem follows_press {due : Nat → Option Nat} (woven : h.Woven due) (responder : ResponderName)
    (decision : Decision) :
    Follows i h (h.entriesOf i (.press responder decision)) (h.call (.press responder decision)) := by
  simp only [call, entriesOf]
  cases h.responder? responder with
  | none => exact .refl i h
  | some r =>
      simp only [Option.elim_some, press]
      cases target : h.prompts[r.prompt]? with
      | none =>
          by_cases same : r.prompt = i
          · subst same
            rw [target]
            exact .refl _ h
          · cases h.prompts[i]? <;> simp only [same, if_false] <;> exact .refl i h
      | some p =>
          by_cases same : r.prompt = i
          · subst same
            simp only [target, if_true]
            exact follows_tap p target (woven.anchored p target) _
          · have quiet : Follows i h [] (h.launch p.scope
                (.offer r.prompt ⟨decision, r.picture, p.issued⟩)) := by
              refine follows_quiet rfl (.push _ _) (fun k => .inl ?_) rfl rfl
              rw [launch, queueAt_push]
              split
              · simp [List.filterMap_append, Job.tap?, same]
              · rfl
            cases h.prompts[i]? <;> simp only [same, if_false] <;> exact quiet

theorem follows_setHooks (dialog : String) (hooks : Hooks Call) :
    Follows i h (h.entriesOf i (.setHooks dialog hooks)) (h.call (.setHooks dialog hooks)) := by
  simp only [call, entriesOf]
  cases h.prompt? dialog with
  | none => exact .refl i h
  | some j =>
      simp only [Option.elim_some, setHooks]
      by_cases same : j = i
      · subst same
        cases present : h.prompts[j]? with
        | none =>
            rw [updatePrompt, modify_eq_self]
            · exact .refl j h
            · intro p there
              rw [present] at there
              cases there
        | some p =>
            simp only [if_true]
            refine follows_still [.registered hooks] rfl rfl ?_ (.refl _) (fun _ => .inl rfl) ?_ ?_
              ?_ ?_
            all_goals simp [updatePrompt, hooksOf, mail, answersTo, firedFor, present, Entry.hooks,
              Entry.fires, List.filterMap_cons, Entry.sent?, Entry.taken?, Entry.accepted?]
      · have quiet : Follows i h [] (h.updatePrompt j fun p => { p with hooks }) := by
          refine follows_quiet ?_ (.refl _) (fun _ => .inl rfl) rfl rfl
          simp [updatePrompt, same]
        cases h.prompts[i]? <;> simp only [same, if_false] <;> exact quiet

theorem follows_call {due : Nat → Option Nat} (woven : h.Woven due) (c : Call) :
    Follows i h (h.entriesOf i c) (h.call c) := by
  cases c with
  | press responder decision => exact follows_press woven responder decision
  | setHooks dialog hooks => exact follows_setHooks dialog hooks
  | abandon task =>
      exact follows_edits (ample_plain.call _ nofun nofun fun _ _ _ _ _ => ⟨rfl, rfl⟩)
  | showConfirm | await | setShown | cancel =>
      exact follows_edits (ample_plain.call _ nofun nofun nofun)

theorem follows_calls {due : Nat → Option Nat} (woven : h.Woven due) (calls : List Call) :
    Follows i h (h.entriesOfAll i calls) (calls.foldl call h) := by
  induction calls generalizing h with
  | nil => exact .refl i h
  | cons c calls ih => exact (follows_call woven c).trans (ih (woven.call c))

theorem history_heard (j : Nat) (p : Prompt) (a : Answer) :
    (h.heard j p a).history =
      ((p.hooks.on a.tap.decision).map fun _ =>
        Event.hookRan j p.hooks.tag a.tap.decision).toList ++
        .accepted j a (p.callerOf a.request) :: h.history := by
  have notified : (h.notify j p a).history = .accepted j a (p.callerOf a.request) :: h.history := by
    unfold notify resolve
    split <;> rfl
  unfold heard
  cases p.hooks.on a.tap.decision <;> simp [notified, record]

theorem ample_heard : Ample Untapped (fun _ => True) Prompt.inlet where
  job := ample_plain.job
  event _ _ := trivial
  view := ample_plain.view

theorem follows_heard (p : Prompt) (present : h.prompts[i]? = some p) (a : Answer)
    (full : p.mailbox = some a) : Follows i h [.accepted a] (h.heard i p a) := by
  have edits := ample_heard.heard (h := h) i p a fun _ _ => trivial
  have inlet : ((h.heard i p a).prompts.map Prompt.inlet)[i]? =
      some ⟨p.scope, p.hooks, none⟩ := by
    rw [edits.views]
    simp [updatePrompt, present, Prompt.inlet]
  rw [List.getElem?_map] at inlet
  obtain ⟨q, there, inlet⟩ := Option.map_eq_some_iff.mp inlet
  obtain ⟨home, hooks, mailbox⟩ := Inlet.mk.inj inlet
  refine follows_still [.accepted a] rfl rfl ?_ edits.persist (fun k => untapped_queue edits k) ?_ ?_
    ?_ ?_
  · rw [there, present, Option.map_some, Option.map_some, home]
  · simp [hooksOf, there, present, hooks, Entry.hooks]
  · simp [mail, there, present, full, mailbox, List.filterMap_cons, Entry.sent?, Entry.taken?]
  · rw [answersTo, answersTo, history_heard]
    cases p.hooks.on a.tap.decision <;>
      simp [List.filterMap_cons, Event.answer?, Entry.accepted?]
  · rw [firedFor, firedFor, history_heard]
    cases hook : p.hooks.on a.tap.decision <;>
      simp [hooksOf, present, hook, Entry.fires, Event.fired]

theorem follows_heard_other (j : Nat) (other : j ≠ i) (p : Prompt) (a : Answer) :
    Follows i h [] (h.heard j p a) := by
  have edits := ample_heard.heard (h := h) j p a fun _ _ => trivial
  refine follows_quiet ?_ edits.persist (fun k => untapped_queue edits k) ?_ ?_
  · rw [← List.getElem?_map, edits.views, List.getElem?_map]
    simp [updatePrompt, other]
  · rw [history_heard]
    cases p.hooks.on a.tap.decision <;> simp [List.filterMap_cons, Event.answer?, other]
  · rw [history_heard]
    cases p.hooks.on a.tap.decision <;> simp [Event.fired, other]

theorem follows_emptied (p : Prompt) (present : h.prompts[i]? = some p) (a : Answer)
    (full : p.mailbox = some a) :
    Follows i h [.dropped a] (h.updatePrompt i fun p => { p with mailbox := none }) := by
  refine follows_still [.dropped a] rfl rfl ?_ (.refl _) (fun _ => .inl rfl) ?_ ?_ ?_ ?_
  all_goals simp [updatePrompt, hooksOf, mail, answersTo, firedFor, present, full, Entry.hooks,
    Entry.fires, List.filterMap_cons, Entry.sent?, Entry.taken?, Entry.accepted?]

theorem follows_emptied_other (j : Nat) (other : j ≠ i) :
    Follows i h [] (h.updatePrompt j fun p => { p with mailbox := none }) := by
  refine follows_quiet ?_ (.refl _) (fun _ => .inl rfl) rfl rfl
  simp [updatePrompt, other]

theorem follows_deliver (woven : h.Woven fun _ => none) (j : Nat)
    (delivered : h.deliver? j = some next) :
    Follows i h (h.entriesOfMove i (.deliver j)) next := by
  obtain ⟨p, a, present, full, ⟨accepting, rfl⟩ | ⟨stale, rfl⟩⟩ := deliver_cases j next delivered
  · simp only [entriesOfMove, present, full, accepting.owned, accepting.counts, Bool.not_true,
      Bool.false_eq_true, if_false, if_true]
    rw [accept_eq j p present]
    have called := follows_calls (i := i) (woven.heard accepting)
      ((p.hooks.on a.tap.decision).getD [])
    have settled := follows_edits (i := i) (ample_plain.launch (h :=
      ((p.hooks.on a.tap.decision).getD []).foldl call (h.heard j p a)) p.scope
        (.settle j a.request) rfl)
    rw [← List.append_nil (_ ++ entriesOfAll _ _ _)]
    refine Follows.trans (Follows.trans ?_ called) settled
    split
    · rename_i same
      subst same
      exact follows_heard p present a full
    · rename_i other
      exact follows_heard_other j other p a
  · have owned : h.ownsPrompt j = true := by
      by_contra gone
      simp [deliver?, present, full, gone] at delivered
    simp only [entriesOfMove, present, full, owned, stale, Bool.not_true, Bool.false_eq_true,
      if_false]
    split
    · rename_i same
      subst same
      exact follows_emptied p present a full
    · rename_i other
      exact follows_emptied_other j other

theorem follows_retire (j : Nat) (retired : h.retire? j = some next) :
    Follows i h (h.entriesOfMove i (.retire j)) next := by
  obtain ⟨p, a, present, full, -, -, made⟩ := retire_cases j next retired
  simp only [entriesOfMove, retired, Option.isSome_some, and_true, present, Option.bind_some, full]
  rw [made]
  split
  · rename_i same
    subst same
    exact follows_emptied p present a full
  · rename_i other
    exact follows_emptied_other j other

theorem follows_pop (scope : Nat) (job : Job) (jobs : List Job) (inside : scope < h.scopes.length)
    (queue : queueAt h.scopes scope = job :: jobs) (other : job.tap? i = none) :
    Follows i h [] (h.setQueue scope jobs) := by
  refine follows_quiet rfl (.pop scope jobs) (fun k => .inl ?_) rfl rfl
  rw [setQueue, queueAt_pop _ _ _ _ inside]
  split
  · rename_i same
    rw [same, queue, List.filterMap_cons, other]
  · rfl

theorem follows_offer (p : Prompt) (present : h.prompts[i]? = some p) (tap : Tap) (jobs : List Job)
    (inside : p.scope < h.scopes.length) (queue : queueAt h.scopes p.scope = .offer i tap :: jobs)
    (done : (h.setQueue p.scope jobs).runJob (.offer i tap) = some next) :
    Follows i h (if h.ownsPrompt i then [.sent (p.answer tap)] else [.lost tap]) next := by
  have taps : h.taps i = tap :: jobs.filterMap (Job.tap? i) := by
    simp only [Host.taps, present, Option.map_some, Option.getD_some]
    change (queueAt h.scopes p.scope).filterMap _ = _
    rw [queue, List.filterMap_cons, Job.tap?, if_pos rfl]
  have popped (g : Host) (q : Prompt) (scopes : g.scopes = (h.setQueue p.scope jobs).scopes)
      (there : g.prompts[i]? = some q) (home : q.scope = p.scope) :
      g.taps i = jobs.filterMap (Job.tap? i) := by
    simp only [Host.taps, there, Option.map_some, Option.getD_some]
    change (queueAt g.scopes q.scope).filterMap _ = _
    rw [home, scopes, setQueue, queueAt_pop _ _ _ _ inside, if_pos rfl]
  have same : (h.setQueue p.scope jobs).ownsPrompt i = h.ownsPrompt i := rfl
  simp only [runJob, same] at done
  cases owned : h.ownsPrompt i with
  | false =>
      rw [owned] at done
      cases done
      have rest := popped (h.setQueue p.scope jobs) p rfl present rfl
      refine follows_passed _ tap rfl rfl (rest ▸ taps) rfl (.pop p.scope jobs) rfl ?_ ?_ ?_
      all_goals simp [mail, setQueue, answersTo, firedFor, Entry.fires, List.filterMap_cons,
        Entry.sent?, Entry.taken?, Entry.accepted?]
  | true =>
      rw [owned] at done
      simp only [Bool.not_true, Bool.false_eq_true, if_false] at done
      split at done
      · cases done
      · rename_i free
        cases done
        have empty : p.mailbox = none := by
          simpa [setQueue, present] using free
        have rest := popped ((h.setQueue p.scope jobs).updatePrompt i fun p =>
          { p with mailbox := some (p.answer tap) }) { p with mailbox := some (p.answer tap) } rfl
            (by simp [updatePrompt, setQueue, present]) rfl
        refine follows_passed _ tap rfl rfl (rest ▸ taps) ?_ (.pop p.scope jobs) ?_ ?_ ?_ ?_
        all_goals simp [hooksOf, mail, updatePrompt, setQueue, answersTo, firedFor, present, empty,
          Entry.hooks, Entry.fires, List.filterMap_cons, Entry.sent?, Entry.taken?,
          Entry.accepted?, Prompt.answer]

theorem follows_dispatch (woven : h.Woven fun _ => none) (scope : Nat)
    (ran : h.dispatch? scope = some next) :
    Follows i h (h.entriesOfMove i (.dispatch scope)) next := by
  obtain ⟨lineage, job, jobs, front, done⟩ := dispatch_cases scope next ran
  obtain ⟨queue, live⟩ := queueAt_of_front _ _ _ _ _ front
  have inside := (List.getElem?_eq_some_iff.mp front).1
  have queued : h.queued scope = job :: jobs := queue
  have other (untapped : job.tap? i = none) : Follows i h [] next := by
    suffices ran : Follows i (h.setQueue scope jobs) [] next from
      (follows_pop scope job jobs inside queue untapped).trans ran
    cases job with
    | offer j tap =>
        have apart : j ≠ i := by
          rintro rfl
          simp [Job.tap?] at untapped
        simp only [runJob] at done
        split at done
        · cases done
          exact .refl i _
        · split at done
          · cases done
          · cases done
            refine follows_quiet ?_ (.refl _) (fun _ => .inl rfl) rfl rfl
            simp [updatePrompt, apart]
    | flushed w =>
        cases done
        exact follows_quiet rfl (.refl _) (fun _ => .inl rfl) rfl rfl
    | _ => exact follows_edits (ample_plain.runJob _ rfl done)
  cases job with
  | offer j tap =>
      by_cases same : j = i
      · subst same
        obtain ⟨p, present, rfl⟩ := woven.tidy.jobs scope (.offer j tap) j
          (queued ▸ List.mem_cons_self) rfl
        simp only [entriesOfMove, queued, present, ran, Option.isSome_some, and_self, if_true]
        exact follows_offer p present tap jobs inside queue done
      · have quiet := other (if_neg same)
        simp only [entriesOfMove, queued]
        cases h.prompts[i]? <;> simp only [same, false_and, if_false] <;> exact quiet
  | _ =>
      have quiet := other rfl
      simp only [entriesOfMove, queued]
      exact quiet

theorem follows_move (woven : h.Woven fun _ => none) (m : Move) (taken : h.move? m = some next) :
    Follows i h (h.entriesOfMove i m) next := by
  cases m with
  | dispatch scope => exact follows_dispatch woven scope taken
  | deliver j => exact follows_deliver woven j taken
  | retire j => exact follows_retire j taken
  | resumeCaller c => exact follows_edits (ample_plain.resumeCaller c taken)
  | advanceWork w => exact follows_edits (ample_plain.advanceWork w taken)
  | followShown f => exact follows_edits (ample_plain.followShown f taken)
  | followVisuals f => exact follows_edits (ample_plain.followVisuals f taken)
  | advanceWait w =>
      obtain ⟨wait, -, moved⟩ := wait_cases w taken
      cases moved with
      | flushed | cancelled | joined | received =>
          exact follows_quiet rfl (.refl _) (fun _ => .inl rfl) rfl rfl

theorem entriesOfMove_none (m : Move) (stuck : h.move? m = none) : h.entriesOfMove i m = [] := by
  cases m with
  | dispatch scope =>
      have idle : h.dispatch? scope = none := stuck
      simp only [entriesOfMove, idle, Option.isSome_none, Bool.false_eq_true, and_false, if_false]
      split <;> rfl
  | deliver j =>
      have idle : h.deliver? j = none := stuck
      unfold deliver? at idle
      simp only [entriesOfMove]
      split
      · rfl
      · rename_i p present
        split
        · rfl
        · rename_i a full
          simp only [present, full] at idle
          split at idle
          · cases idle
          · rename_i gone
            simp [gone]
  | retire j =>
      have idle : h.retire? j = none := stuck
      simp only [entriesOfMove, idle, Option.isSome_none, Bool.false_eq_true, and_false, if_false]
  | _ => rfl

end ModalHost.Host
