import ModalHost.Proofs.Lane.Runs
import ModalHost.Proofs.Strand.History

/-! When a caller waits on a prompt that nobody can answer, and how an answer ends a wait. -/

namespace ModalHost.Host

variable {h : Host} {i : Nat}

/-- What a prompt published last was hidden by a job that a call had queued, and no call has shown
it since. -/
def LeftClosed (h : Host) (i : Nat) : Prop :=
  ∃ (before after : Host) (p q : Prompt), before.Reachable ∧ before.prompts[i]? = some p ∧
    RunsJob (· = .setPrompt i false) before after ∧ RunsWithoutShow i after h ∧
    h.prompts[i]? = some q ∧ q.published = p.published

theorem prompt_setPrompt (shown : Bool) (p : Prompt) (present : h.prompts[i]? = some p)
    (scope : Nat) (lineage : List Nat) (jobs : List Job)
    (front : h.scopes[scope]? = some ⟨lineage, false, .setPrompt i shown :: jobs⟩) (next : Host)
    (taken : h.move? (.dispatch scope) = some next) :
    next.prompts[i]? = some (if shown then p.appear else p.vanish) := by
  have ran (f : Prompt → Prompt) : ((h.setQueue scope jobs).updatePrompt i f).prompts[i]? =
      some (f p) := by
    rw [prompts_updatePrompt, List.getElem?_modify_eq]
    exact congrArg (Option.map f) present
  rw [move?, dispatch?, front] at taken
  cases shown with
  | false =>
      obtain rfl := Option.some.inj taken
      exact ran _
  | true =>
      obtain rfl := Option.some.inj taken
      exact ran _

theorem vanish_of_hide (next : Host) (p : Prompt) (present : h.prompts[i]? = some p)
    (hides : RunsJob (· = .setPrompt i false) h next) : next.prompts[i]? = some p.vanish := by
  obtain ⟨scope, lineage, job, jobs, front, rfl, taken⟩ := hides
  exact prompt_setPrompt false p present scope lineage jobs front next taken

theorem LeftClosed.shut (closed : h.LeftClosed i) (p : Prompt) (present : h.prompts[i]? = some p) :
    p.phase ≠ .awaitingInput := by
  obtain ⟨before, after, former, q, reachable, here, hides, run, there, same⟩ := closed
  obtain rfl : q = p := Option.some.inj (there.symm.trans present)
  have hidden := vanish_of_hide after former here hides
  obtain ⟨scope, lineage, job, jobs, front, rfl, taken⟩ := hides
  have reached : after.Reachable := reachable.tail (.move (.dispatch scope) after taken)
  have path : Strand.Path i (· ≠ .setPrompt i true) (after.strand i none) (h.strand i none) :=
    (run.path i reached).2
  obtain ⟨next, at_i, course⟩ := path.goesOn (reached.woven i) former.vanish hidden
  obtain rfl : next = q := Option.some.inj (at_i.symm.trans there)
  intro awaits
  rcases course.phase awaits with open_before | later | shown
  · cases open_before
  · have unchanged : former.published < next.published := later
    omega
  · exact shown rfl

theorem left_closed_of_stranded (reachable : h.Reachable) (p : Prompt)
    (present : h.prompts[i]? = some p) (live : h.isCancelled p.scope = false)
    (stranded : (h.lane i p).Stranded) : h.LeftClosed i := by
  induction reachable generalizing p with
  | refl => cases present
  | @tail between next reachable step ih =>
      have reached : between.Reachable := reachable
      by_cases hides : RunsJob (· = .setPrompt i false) between next
      · obtain ⟨former, here⟩ : ∃ former, between.prompts[i]? = some former := by
          obtain ⟨scope, lineage, job, jobs, front, rfl, -⟩ := hides
          have queued : .setPrompt i false ∈ between.queued scope := by simp [Host.queued, front]
          obtain ⟨former, here, -⟩ := reached.woven.tidy.jobs scope _ i queued rfl
          exact ⟨former, here⟩
        exact ⟨between, next, former, former.vanish, reached, here, hides, .refl,
          vanish_of_hide next former here hides, rfl⟩
      · have path : Strand.Path i (· ≠ .setPrompt i false) (between.strand i none)
            (next.strand i none) := by
          apply step.strand i reached.ledger.sound reached.woven
          rintro scope lineage job jobs front taken rfl
          exact hides ⟨scope, lineage, _, jobs, front, rfl, taken⟩
        rw [← lane_strand] at stranded
        obtain ⟨former, here, home, still, published⟩ := path.stranded (reached.woven i)
          (fun spared => spared rfl) p present (by simpa using live) stranded
        have alive : between.isCancelled former.scope = false :=
          home ▸ Leads.live (.single step) reached p.scope live
        rw [lane_strand] at still stranded
        obtain ⟨before, after, first, q, started, earlier, hid, run, there, same⟩ :=
          ih former here alive still
        obtain rfl : q = former := Option.some.inj (there.symm.trans here)
        refine ⟨before, after, first, p, started, earlier, hid, run.tail ⟨step, ?_⟩, present,
          published.trans same⟩
        rintro ⟨scope, lineage, jobs, front, taken⟩
        have appeared := prompt_setPrompt true q here scope lineage jobs front next taken
        obtain rfl := Option.some.inj (present.symm.trans appeared)
        have visible : q.visuals.value.isEmpty = false := still.visible
        exact stranded.shut (by simp [Host.lane, Prompt.appear, visible])

theorem owned_of_parked (reachable : h.Reachable) (p : Prompt) (present : h.prompts[i]? = some p)
    (q : Parked) (parked : p.parked = some q) : h.ownsPrompt i = true := by
  obtain ⟨caller, found, own, -, -, waits⟩ :=
    ((reachable.woven i).attended.present p present).parked q parked
  have borrowed : h.callers.any (fun c => c.prompt == i && !c.ended) = true :=
    List.any_eq_true.mpr ⟨caller, List.mem_of_getElem? found, by simp [own, waits]⟩
  simp [ownsPrompt, present, borrowed]

theorem dispatch_launch (scope : Nat) (opens : openAt h.scopes scope = true)
    (idle : h.queued scope = []) (job : Job) :
    (h.launch scope job).dispatch? scope = h.runJob job := by
  unfold openAt at opens
  unfold queued at idle
  cases found : h.scopes[scope]? with
  | none => simp [found] at opens
  | some s =>
      obtain ⟨lineage, cancelled, queue⟩ := s
      obtain rfl : cancelled = false := by simpa [found] using opens
      obtain rfl : queue = [] := by simpa [found] using idle
      have front : (h.launch scope job).scopes[scope]? = some ⟨lineage, false, [job]⟩ := by
        simp [launch, found, Scope.push]
      have back : (h.launch scope job).setQueue scope [] = h := by
        have scopes : (h.scopes.modify scope (·.push job)).modify scope
            (fun s => { s with queue := [] }) = h.scopes := by
          rw [List.modify_modify_eq]
          apply modify_eq_self
          intro s there
          obtain rfl := Option.some.inj (found.symm.trans there)
          rfl
        rw [setQueue, launch, scopes]
      rw [dispatch?, front]
      dsimp only
      rw [back]

theorem resumed_of_told (c : Nat) (caller : Caller) (found : h.callers[c]? = some caller)
    (p : Prompt) (present : h.prompts[caller.prompt]? = some p) (waits : caller.ended = false)
    (decision : Decision) (told : caller.reply = some (.decided decision)) :
    h.resumeCaller? c = some (if h.isCancelled p.scope then h.endCancelled c
      else h.endCaller c (.decided decision)) := by
  unfold resumeCaller?
  rw [found]
  simp only [waits, present, told, Option.any_some, Bool.false_eq_true, if_false]
  split <;> rfl

theorem told_of_accepting (woven : h.Woven fun _ => none) (p : Prompt) (a : Answer)
    (accepting : h.Accepting i p a) (c : Nat) (parked : p.callerOf a.request = some c) :
    ∃ answered caller, h.deliver? i = some answered ∧ answered.callers[c]? = some caller ∧
      caller.reply = some (.decided a.tap.decision) ∧
      (caller.ended = true ∨ answered.resumeCaller? c =
        some (if answered.isCancelled p.scope then answered.endCancelled c
          else answered.endCaller c (.decided a.tap.decision))) := by
  have present := accepting.present
  obtain ⟨former, found, own, -⟩ : ∃ former, h.callers[c]? = some former ∧ former.prompt = i ∧ _ :=
    ((woven i).attended.present p present).parked _ ((p.callerOf_eq_some a.request c).mp parked)
  have heard : (h.heard i p a).callers[c]? =
      some { former with reply := some (.decided a.tap.decision) } := by
    have callers := congrArg Strand.callers (strand_heard i none p present a)
    change (h.heard i p a).callers = tell h.callers _ _ at callers
    rw [callers, getElem?_tell, found, Option.map_some, if_pos parked]
  have path : Strand.Path i (fun _ => True)
      ((h.heard i p a).strand i (delivering i a.request i)) _ := path_after i woven i p a accepting
  obtain ⟨caller, there, asked, told⟩ := path.reply_stays (woven.heard accepting i) c _
    (.decided a.tap.decision) heard own rfl
  have whole : Strand.Path i (fun _ => True) (h.strand i none) _ :=
    path_accept i woven i p a accepting
  obtain ⟨q, still, home⟩ := path_scope whole p present
  refine ⟨_, caller, accepting.deliver, there, told, ?_⟩
  cases waits : caller.ended with
  | true => exact .inl rfl
  | false =>
      right
      rw [← home]
      exact resumed_of_told c caller there q (asked ▸ still) waits a.tap.decision told

theorem press_kept (name : String) (r : Responder) (p : Prompt)
    (present : h.prompts[r.prompt]? = some p) (decision : Decision) :
    (h.keepResponder name r).call (.press (.kept name) decision) =
      (h.keepResponder name r).launch p.scope
        (.offer r.prompt ⟨decision, r.picture, p.issued⟩) := by
  have named : (h.keepResponder name r).responder? (.kept name) = some r := by
    simp [responder?, keepResponder, Names.find?, Names.bind]
  have there : (h.keepResponder name r).prompts[r.prompt]? = some p := present
  rw [call, named, Option.elim_some, press, there]

theorem accepting_of_offer (p : Prompt) (present : h.prompts[i]? = some p)
    (owned : h.ownsPrompt i = true) (empty : p.mailbox = none) (awaits : p.phase = .awaitingInput)
    (tap : Tap) (newest : (p.answer tap).request = p.issued) :
    ∃ tapped, h.runJob (.offer i tap) = some tapped ∧
      tapped.Accepting i { p with mailbox := some (p.answer tap) } (p.answer tap) := by
  refine ⟨h.updatePrompt i fun p => { p with mailbox := some (p.answer tap) }, ?_, ?_⟩
  · simp [runJob, owned, present, empty]
  · refine ⟨?_, rfl, ?_, ?_⟩
    · rw [prompts_updatePrompt, List.getElem?_modify_eq, present]
      rfl
    · simpa [ownsPrompt, updatePrompt, present] using owned
    · exact (Prompt.accepts_iff _ _).mpr ⟨newest, awaits⟩

theorem tap_accepted (p : Prompt) (present : h.prompts[i]? = some p)
    (opens : openAt h.scopes p.scope = true) (idle : h.queued p.scope = [])
    (owned : h.ownsPrompt i = true) (empty : p.mailbox = none) (awaits : p.phase = .awaitingInput)
    (picture : Picture) (newest : picture.request = p.issued) (name : String)
    (decision : Decision) :
    ∃ tapped, ((h.keepResponder name ⟨i, some picture⟩).call
        (.press (.kept name) decision)).dispatch? p.scope = some tapped ∧
      tapped.Accepting i
        { p with mailbox := some ⟨picture.request, decision, some picture, p.issued⟩ }
        ⟨picture.request, decision, some picture, p.issued⟩ := by
  obtain ⟨tapped, ran, accepting⟩ :=
    accepting_of_offer (h := h.keepResponder name ⟨i, some picture⟩) p present owned empty awaits
      ⟨decision, some picture, p.issued⟩ newest
  refine ⟨tapped, ?_, accepting⟩
  rw [press_kept name ⟨i, some picture⟩ p present decision,
    dispatch_launch (h := h.keepResponder name ⟨i, some picture⟩) p.scope opens idle]
  exact ran

theorem woven_of_tap (woven : h.Woven fun _ => none) (name : String) (r : Responder)
    (taken : ∀ picture, r.picture = some picture →
      ∃ p, h.prompts[r.prompt]? = some p ∧ p.overlay = some picture) (decision : Decision)
    (scope : Nat) (tapped : Host)
    (dispatched : ((h.keepResponder name r).call (.press (.kept name) decision)).dispatch? scope =
      some tapped) : tapped.Woven fun _ => none := by
  have kept : (h.keepResponder name r).Woven fun _ => none :=
    fun j => (woven j).trans (path_keepResponder j none name r taken)
  have pressed := kept.call (.press (.kept name) decision)
  exact fun j => (pressed j).trans
    (path_dispatch j pressed.tidy scope tapped dispatched fun _ _ _ _ _ => trivial)

/-- Once a tap on a picture is dispatched and delivered, it ends the wait of a caller: the caller is
told the decision and, unless the hook has made an end of it, resumed next. -/
def EndsWait (h : Host) (i scope : Nat) (picture : Picture) (c : Nat) : Prop :=
  ∀ (name : String) (decision : Decision), ∃ (tapped answered : Host) (caller : Caller),
    ((h.keepResponder name ⟨i, some picture⟩).call (.press (.kept name) decision)).dispatch? scope =
      some tapped ∧
    tapped.deliver? i = some answered ∧ answered.callers[c]? = some caller ∧
    caller.reply = some (.decided decision) ∧
    (caller.ended = true ∨ answered.resumeCaller? c =
      some (if answered.isCancelled scope then answered.endCancelled c
        else answered.endCaller c (.decided decision)))

theorem overlay_ends_wait (reachable : h.Reachable) (p : Prompt) (present : h.prompts[i]? = some p)
    (live : h.isCancelled p.scope = false) (idle : h.queued p.scope = [])
    (empty : p.mailbox = none) (current : p.published = p.issued) (q : Parked)
    (parked : p.parked = some q) (awaits : p.phase = .awaitingInput) :
    ∃ picture, h.overlay (.prompt i) = .prompt picture ∧ h.EndsWait i p.scope picture q.caller := by
  have woven := reachable.woven
  have owned := owned_of_parked reachable p present q parked
  have shown : p.shown.value = true := ((woven i).coherent p present).phase.mpr (by simp [awaits])
  obtain ⟨picture, pictured⟩ : ∃ picture, p.overlay = some picture := by
    simp [Prompt.overlay, shown]
  have request : picture.request = p.issued := by
    have drawn : (⟨p.published, p.visuals.value, p.issued⟩ : Picture) = picture := by
      simpa [Prompt.overlay, shown] using pictured
    rw [← drawn]
    exact current
  refine ⟨picture, by simp [overlay, owned, present, pictured], ?_⟩
  intro name decision
  obtain ⟨tapped, dispatched, accepting⟩ := tap_accepted p present
    (reachable.opens p present live) idle owned empty awaits picture request name decision
  have tapped_woven := woven_of_tap woven name ⟨i, some picture⟩
    (fun _ same => ⟨p, present, pictured.trans same⟩) decision p.scope tapped dispatched
  have slot : q.request = picture.request :=
    (((woven i).attended.present p present).newest q parked).trans request.symm
  have waiting : p.parked = some ⟨picture.request, q.caller⟩ := by
    rw [parked, ← slot]
  obtain ⟨answered, caller, delivered, told⟩ := told_of_accepting tapped_woven _ _ accepting
    q.caller ((Prompt.callerOf_eq_some _ _ _).mpr waiting)
  exact ⟨tapped, answered, caller, dispatched, delivered, told⟩

/-- The dialog that a caller is parked at, when nothing is left to run. Either it is open or it is
hidden; it is open just if it was asked something and no call has left it closed, and then an answer
through its current overlay ends the wait. -/
theorem answerable_unless_left_closed (reachable : h.Reachable) (i : Nat) (p : Prompt)
    (present : h.prompts[i]? = some p) (live : h.isCancelled p.scope = false)
    (still : h.StillOn p.scope) (idle : h.queued p.scope = []) (q : Parked)
    (parked : p.parked = some q) :
    (p.phase = .awaitingInput ∧ p.shown.value = true ∨ p.phase = .idle ∧ p.shown.value = false) ∧
    (p.phase = .awaitingInput ↔ p.visuals.value.isEmpty = false ∧ ¬h.LeftClosed i) ∧
    (p.phase = .awaitingInput →
      ∃ picture, h.overlay (.prompt i) = .prompt picture ∧
        h.EndsWait i p.scope picture q.caller) := by
  have drained : h.jobsOf i p = [] := by
    rw [jobsOf, idle]
    rfl
  obtain ⟨current, settled⟩ := (reachable.kept p present live).drained rfl drained
  have coherent := (reachable.woven i).coherent p present
  have empty : p.mailbox = none := by
    cases full : p.mailbox with
    | none => rfl
    | some a =>
        have stuck := still.consumers i p present rfl
        have owned := owned_of_parked reachable p present q parked
        simp [deliver?, present, full, owned] at stuck
  refine ⟨?_, ⟨?_, ?_⟩, overlay_ends_wait reachable p present live idle empty current q parked⟩
  · cases phase : p.phase with
    | idle =>
        refine .inr ⟨rfl, ?_⟩
        rw [← Bool.not_eq_true, coherent.phase]
        exact not_not_intro phase
    | awaitingInput => exact .inl ⟨rfl, coherent.phase.mpr (by simp [phase])⟩
    | resolving => exact absurd phase settled
  · intro awaits
    exact ⟨coherent.visuals (coherent.phase.mpr (by simp [awaits])),
      fun closed => closed.shut p present awaits⟩
  · rintro ⟨visible, unhidden⟩
    by_contra shut
    have held : p.parked ≠ none := by simp [parked]
    exact unhidden (left_closed_of_stranded reachable p present live ⟨held, current, visible, shut⟩)

def awaited : List (Session.Step ⊕ Move) :=
  [.inl (.openDialog "d" "main" (.confirm .none .blank)),
    .inl (.call (.await "d" (.ofTitle "Delete?") "t")), .inr (.dispatch 0)]

theorem awaited_still : (initial.run awaited).StillOn 0 :=
  still_of_bounded 0 rfl (by decide) (by decide)

theorem awaited_answerable : ∃ p : Prompt, (initial.run awaited).prompts[0]? = some p ∧
    p.phase = .awaitingInput ∧ p.shown.value = true ∧ ¬(initial.run awaited).LeftClosed 0 ∧
    ∃ picture, (initial.run awaited).overlay (.prompt 0) = .prompt picture ∧
      (initial.run awaited).EndsWait 0 0 picture 0 := by
  have answerable := answerable_unless_left_closed (Reachable.run .refl awaited) 0 _ rfl rfl
    awaited_still rfl ⟨1, 0⟩ rfl
  exact ⟨_, rfl, rfl, rfl, (answerable.2.1.mp rfl).2, answerable.2.2 rfl⟩

def hiddenAwaited : List (Session.Step ⊕ Move) :=
  awaited ++ [.inl (.call (.setShown "d" false)), .inr (.dispatch 0)]

theorem hiddenAwaited_still : (initial.run hiddenAwaited).StillOn 0 :=
  still_of_bounded 0 rfl (by decide) (by decide)

/-- The caller is still parked, on a dialog that is idle. -/
theorem hiddenAwaited_stranded : ¬ ∀ (h : Host) (i : Nat) (p : Prompt) (q : Parked), h.Reachable →
    h.prompts[i]? = some p → h.isCancelled p.scope = false → h.StillOn p.scope →
      h.queued p.scope = [] → p.parked = some q →
        p.phase = .awaitingInput ∧ p.shown.value = true := by
  intro answerable
  have opened := answerable (initial.run hiddenAwaited) 0 _ ⟨1, 0⟩ (Reachable.run .refl hiddenAwaited)
    rfl rfl hiddenAwaited_still rfl rfl
  cases opened.1

end ModalHost.Host
