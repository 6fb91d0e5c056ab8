import ModalHost.Proofs.Schedules.Phases

/-! Stretches of a run in which one move leads to the next: an answer on its way to a prompt, and a work
that passes its blocks. -/

namespace ModalHost.Host

variable {h next : Host} {i k w : Nat}

theorem queue_of_dispatch (ran : h.dispatch? k = some next) (job : Job)
    (queue : queueAt h.scopes k = [job]) :
    k < h.scopes.length ∧ (h.setQueue k []).runJob job = some next := by
  obtain ⟨lineage, other, jobs, front, done⟩ := dispatch_cases k next ran
  rw [(queueAt_of_front _ _ _ _ _ front).1, List.cons.injEq] at queue
  obtain ⟨rfl, rfl⟩ := queue
  exact ⟨(List.getElem?_eq_some_iff.mp front).1, done⟩

namespace Answering

variable (answering : h.Answering k i)
include answering

theorem only (m : Move) (draws : m.renders = false) (taken : h.move? m = some next) :
    m = .dispatch k ∧ (∃ tap, queueAt h.scopes k = [.offer i tap]) ∨
      m = .deliver i ∧ queueAt h.scopes k = [] := by
  cases m with
  | dispatch j =>
      have same : j = k := answering.dispatch_only taken
      subst same
      rcases answering.front with empty | ⟨tap, queue, -⟩
      · rw [move?, dispatch_empty fun _ => empty] at taken
        cases taken
      · exact .inl ⟨rfl, tap, queue⟩
  | deliver j =>
      by_cases same : j = i
      · subst same
        rcases answering.front with empty | ⟨tap, -, rests⟩
        · exact .inr ⟨rfl, empty⟩
        · rw [move?, rests] at taken
          cases taken
      · rw [move?, answering.slots j same] at taken
        cases taken
  | retire j =>
      by_cases same : j = i
      · obtain ⟨p, a, present, -, -, dead, -⟩ := retire_cases j next taken
        rw [answering.home p (same ▸ present), answering.live] at dead
        cases dead
      · rw [move?, retire_none j (answering.slots j same)] at taken
        cases taken
  | resumeCaller c =>
      rw [move?, answering.callers c] at taken
      cases taken
  | advanceWork w =>
      rw [move?, answering.works w] at taken
      cases taken
  | advanceWait w =>
      rw [move?, answering.waits w] at taken
      cases taken
  | followShown | followVisuals => cases draws

theorem unique (m n : Move) (draws : m.renders = false) (draws' : n.renders = false) {t u : Host}
    (one : h.move? m = some t) (two : h.move? n = some u) : m = n := by
  rcases answering.only m draws one with ⟨rfl, tap, queue⟩ | ⟨rfl, empty⟩ <;>
    rcases answering.only n draws' two with ⟨rfl, tap', queue'⟩ | ⟨rfl, empty'⟩
  · rfl
  · rw [queue] at empty'
    cases empty'
  · rw [queue'] at empty
    cases empty
  · rfl

theorem sent (inside : k < h.scopes.length) (f : Prompt → Prompt)
    (same : ∀ p, (f p).scope = p.scope ∧ (f p).hooks = p.hooks) :
    ((h.setQueue k []).updatePrompt i f).Answering k i := by
  have agrees : h.Agrees ((h.setQueue k []).updatePrompt i f) :=
    ⟨map_modify_invisible _ _ _ _ fun _ => rfl,
      map_modify_invisible _ _ _ _ fun p => (same p).1, rfl⟩
  have pops (j : Nat) : queueAt ((h.setQueue k []).updatePrompt i f).scopes j =
      if j = k then [] else queueAt h.scopes j := queueAt_pop h.scopes j k [] inside
  refine { answering.toThread.keep agrees (fun j other => ?_) rfl rfl with
    callers := fun c => rests_caller agrees rfl (answering.callers c)
    works := fun w => rests_work agrees rfl (answering.works w)
    home := fun p present => ?_
    silent := fun d => ?_
    slots := fun j other => ?_
    front := .inl ?_ }
  · rw [pops, if_neg other]
  · obtain ⟨former, there, scope⟩ := origin_modify f Prompt.scope (fun p => (same p).1) _ i i p present
    rw [← scope]
    exact answering.home former there
  · have hooks : hooksOf ((h.setQueue k []).updatePrompt i f) i = h.hooksOf i := by
      simp only [hooksOf, updatePrompt, setQueue, List.getElem?_modify_eq]
      cases h.prompts[i]? with
      | none => rfl
      | some p => exact (same p).2
    rw [hooks]
    exact answering.silent d
  · have ports : (((h.setQueue k []).updatePrompt i f).prompts.map (·.port))[j]? =
        (h.prompts.map (·.port))[j]? := by
      rw [List.getElem?_map, List.getElem?_map, updatePrompt,
        List.getElem?_modify_ne _ _ (Ne.symm other)]
      rfl
    have thins : h.Thins ((h.setQueue k []).updatePrompt i f) := .of_eq rfl
    exact rests_deliver (answering.slots j other) ports (thins.owned ports)
  · rw [pops, if_pos rfl]

theorem dispatch (ran : h.dispatch? k = some next) (tap : Tap)
    (queue : queueAt h.scopes k = [.offer i tap]) : next.Answering k i := by
  obtain ⟨inside, done⟩ := queue_of_dispatch ran _ queue
  simp only [runJob] at done
  split at done
  · cases done
    have lost := answering.sent inside id fun _ => ⟨rfl, rfl⟩
    rwa [updatePrompt, List.modify_id] at lost
  · split at done
    · cases done
    · cases done
      exact answering.sent inside _ fun _ => ⟨rfl, rfl⟩

end Answering

structure Apart (i : Nat) (ps qs : List Prompt) : Prop where
  scopes : qs.map (·.scope) = ps.map (·.scope)
  aside (j : Nat) : j ≠ i → qs[j]? = ps[j]?

theorem Apart.modify (ps : List Prompt) (f : Prompt → Prompt) (same : ∀ p, (f p).scope = p.scope) :
    Apart i ps (ps.modify i f) where
  scopes := map_modify_invisible f _ i ps same
  aside _ other := List.getElem?_modify_ne f ps (Ne.symm other)

theorem Apart.trans {ps qs rs : List Prompt} (first : Apart i ps qs) (second : Apart i qs rs) :
    Apart i ps rs where
  scopes := second.scopes.trans first.scopes
  aside j other := (second.aside j other).trans (first.aside j other)

structure Hears (i : Nat) (h : Host) (prompts : List Prompt) (callers : List Caller) : Prop where
  apart : Apart i h.prompts prompts
  thins : h.Thins { h with callers }
  mailboxes : prompts.map (·.mailbox) =
    (h.prompts.modify i fun p => { p with mailbox := none }).map (·.mailbox)
  ended : callers.map (·.ended) = h.callers.map (·.ended)

theorem Hears.of_dropped (i : Nat) (h : Host) :
    Hears i h (h.prompts.modify i fun p => { p with mailbox := none }) h.callers where
  apart := .modify _ _ fun _ => rfl
  thins := .of_eq rfl
  mailboxes := rfl
  ended := rfl

theorem Hears.modify {prompts : List Prompt} {callers : List Caller}
    (hears : Hears i h prompts callers) (f : Prompt → Prompt)
    (same : ∀ p, (f p).scope = p.scope ∧ (f p).mailbox = p.mailbox) :
    Hears i h (prompts.modify i f) callers where
  apart := hears.apart.trans (.modify _ f fun p => (same p).1)
  thins := hears.thins
  mailboxes := (map_modify_invisible f _ i _ fun p => (same p).2).trans hears.mailboxes
  ended := hears.ended

theorem heard_frame (i : Nat) (p : Prompt) (a : Answer) : ∃ prompts callers history,
    h.heard i p a = { h with prompts, callers, history } ∧ Hears i h prompts callers := by
  have notified : ∃ prompts callers history, h.notify i p a = { h with prompts, callers, history } ∧
      Hears i h prompts callers := by
    have taken := (Hears.of_dropped i h).modify (fun p => { p with phase := .resolving })
      fun _ => ⟨rfl, rfl⟩
    unfold notify resolve
    split
    · exact ⟨_, _, _, rfl, taken⟩
    · rename_i c _
      have freed := taken.modify (fun p => { p with parked := none }) fun _ => ⟨rfl, rfl⟩
      let told (caller : Caller) : Caller :=
        { caller with reply := some (.decided a.tap.decision) }
      exact ⟨_, _, _, rfl, freed.apart,
        .of_modify c told (fun _ => rfl) (fun _ => id) rfl, freed.mailboxes,
        map_modify_invisible told _ c _ fun _ => rfl⟩
  obtain ⟨prompts, callers, history, same, rest⟩ := notified
  unfold heard
  split
  · exact ⟨prompts, callers, history, same, rest⟩
  · rw [same]
    exact ⟨prompts, callers, _, rfl, rest⟩

theorem deliver_frame (silent : h.Silent i) (delivered : h.deliver? i = some next) :
    ∃ p a, h.prompts[i]? = some p ∧ p.mailbox = some a ∧ ∃ prompts callers history jobs,
      next = { h with
        scopes := pushAll h.scopes p.scope jobs
        prompts, callers, history } ∧
      Hears i h prompts callers ∧ (jobs = [] ∨ jobs = [.settle i a.request]) := by
  obtain ⟨p, a, present, full, moved⟩ := deliver_cases i next delivered
  refine ⟨p, a, present, full, ?_⟩
  rcases moved with ⟨-, rfl⟩ | ⟨-, rfl⟩
  · have quiet : (p.hooks.on a.tap.decision).getD [] = [] := by
      have here := silent a.tap.decision
      rwa [hooksOf, present] at here
    obtain ⟨prompts, callers, history, same, hears⟩ := heard_frame (h := h) i p a
    rw [accept_eq i p present a, quiet, List.foldl_nil, same]
    exact ⟨prompts, callers, history, [.settle i a.request], rfl, hears, .inr rfl⟩
  · exact ⟨_, h.callers, h.history, [], rfl, .of_dropped i h, .inl rfl⟩

theorem Answering.deliver (answering : h.Answering k i) (empty : queueAt h.scopes k = [])
    (delivered : h.deliver? i = some next) : next.Trailing k := by
  obtain ⟨p, a, present, -, prompts, callers, history, jobs, rfl, hears, queued⟩ :=
    deliver_frame answering.silent delivered
  obtain rfl := answering.home p present
  have inert : ∀ job ∈ jobs, job.inert = true := by
    rcases queued with rfl | rfl
    · exact nofun
    · simp [Job.inert]
  have agrees : h.Agrees { h with
      scopes := pushAll h.scopes p.scope jobs
      prompts, callers, history } := ⟨flags_pushAll _ _ _, hears.apart.scopes, rfl⟩
  have fewer : h.Thins { h with
      scopes := pushAll h.scopes p.scope jobs
      prompts, callers, history } := hears.thins
  refine { answering.toThread.keep agrees (fun j other => ?_) rfl rfl with
    inert := fun job member => ?_
    slots := fun j => ?_
    attended := (attended_of_rests answering.callers).keep agrees fewer
    works := fun w => rests_work agrees rfl (answering.works w) }
  · rw [queueAt_pushAll, if_neg fun both => other both.1]
  · rw [queueAt_pushAll, empty, List.nil_append] at member
    split at member
    · exact inert job member
    · cases member
  · by_cases same : j = i
    · subst same
      rw [deliver_none_iff]
      exact (deliver_frees j _ delivered p.scope
        ((agrees.isCancelled p.scope).trans answering.live)).1
    · have ports : (prompts.map (·.port))[j]? = (h.prompts.map (·.port))[j]? := by
        rw [List.getElem?_map, List.getElem?_map, hears.apart.aside j same]
      exact rests_deliver (answering.slots j same) ports (fewer.owned ports)

theorem leaves_inert (loading w level : Nat) :
    ∀ job ∈ Work.leaves loading w level, job.inert = true := by
  induction level with
  | zero => exact nofun
  | succ level ih => exact List.forall_mem_cons.mpr ⟨rfl, ih⟩

namespace Working

variable (working : h.Working k w)
include working

theorem only (m : Move) (draws : m.renders = false) (taken : h.move? m = some next) :
    m = .dispatch k ∧ (∃ job, queueAt h.scopes k = [job] ∧ job.awaitedBy w) ∨
      m = .advanceWork w ∧ queueAt h.scopes k = [] := by
  cases m with
  | dispatch j =>
      have same : j = k := working.dispatch_only taken
      subst same
      rcases working.front with empty | ⟨job, queue, awaited, -⟩
      · rw [move?, dispatch_empty fun _ => empty] at taken
        cases taken
      · exact .inl ⟨rfl, job, queue, awaited⟩
  | advanceWork v =>
      by_cases same : v = w
      · subst same
        rcases working.front with empty | ⟨job, -, -, rests⟩
        · exact .inr ⟨rfl, empty⟩
        · rw [move?, rests] at taken
          cases taken
      · rw [move?, working.works v same] at taken
        cases taken
  | deliver j =>
      rw [move?, working.slots j] at taken
      cases taken
  | retire j =>
      rw [move?, retire_none j (working.slots j)] at taken
      cases taken
  | resumeCaller c =>
      rw [move?, working.callers c] at taken
      cases taken
  | advanceWait w =>
      rw [move?, working.waits w] at taken
      cases taken
  | followShown | followVisuals => cases draws

theorem unique (m n : Move) (draws : m.renders = false) (draws' : n.renders = false) {t u : Host}
    (one : h.move? m = some t) (two : h.move? n = some u) : m = n := by
  rcases working.only m draws one with ⟨rfl, job, queue, -⟩ | ⟨rfl, empty⟩ <;>
    rcases working.only n draws' two with ⟨rfl, job', queue', -⟩ | ⟨rfl, empty'⟩
  · rfl
  · rw [queue] at empty'
    cases empty'
  · rw [queue'] at empty
    cases empty
  · rfl

theorem keep (scopes : List Scope) (loadings : List Loading) (f : Work → Work)
    (history : List Event) (same : ∀ x, (f x).loading = x.loading)
    (flags : scopes.map (·.cancelled) = h.scopes.map (·.cancelled))
    (homes : loadings.map (·.scope) = h.loadings.map (·.scope))
    (elsewhere : ∀ j, j ≠ k → queueAt scopes j = queueAt h.scopes j)
    (front : queueAt scopes k = [] ∨ ∃ job, queueAt scopes k = [job] ∧ job.awaitedBy w ∧
      advanceWork? { h with scopes, loadings, works := h.works.modify w f, history } w = none) :
    Working k w { h with scopes, loadings, works := h.works.modify w f, history } := by
  have agrees : h.Agrees { h with scopes, loadings, works := h.works.modify w f, history } :=
    ⟨flags, rfl, homes⟩
  exact { working.toThread.keep agrees elsewhere rfl (map_modify_invisible f _ w _ same) with
    callers := fun c => rests_caller agrees rfl (working.callers c)
    slots := rests_delivers working.slots rfl (.of_eq rfl)
    works := fun v other => rests_work agrees
      (List.getElem?_modify_ne f h.works (Ne.symm other)) (working.works v other)
    home := fun work there => by
      obtain ⟨former, here, loading⟩ := origin_modify f Work.loading same _ w w work there
      rw [homes, ← loading]
      exact working.home former here
    front }

theorem dispatch (ran : h.dispatch? k = some next) (job : Job)
    (queue : queueAt h.scopes k = [job]) (awaited : job.awaitedBy w) : next.Working k w := by
  obtain ⟨inside, done⟩ := queue_of_dispatch ran _ queue
  have passed (l : Nat) (g : Loading → Loading) (scope : ∀ x, (g x).scope = x.scope)
      (f : Work → Work) (same : ∀ x, (f x).loading = x.loading) (e : Event) :=
    working.keep (h.scopes.modify k fun s => { s with queue := [] }) (h.loadings.modify l g) f
      (e :: h.history) same (map_modify_invisible _ _ _ _ fun _ => rfl)
      (map_modify_invisible _ _ _ _ scope)
      (fun j other => by rw [queueAt_pop _ _ _ _ inside, if_neg other])
      (.inl (by rw [queueAt_pop _ _ _ _ inside, if_pos rfl]))
  cases job with
  | enter l v level =>
      obtain rfl : v = w := awaited
      cases done
      exact passed l (·.enter) (fun _ => rfl) _ (fun x => by split <;> rfl) (.entered v level)
  | leave l v level awaits =>
      cases awaits with
      | true =>
          obtain rfl : v = w := awaited
          cases done
          exact passed l (·.leave) (fun _ => rfl) _ (fun x => by split <;> rfl) (.left v level)
      | false => cases awaited
  | _ => cases awaited

theorem scope_eq {work : Work} {l : Loading} (there : h.works[w]? = some work)
    (found : h.loadings[work.loading]? = some l) : l.scope = k := by
  have known := working.home work there
  rw [List.getElem?_map, found] at known
  exact Option.some.inj known

theorem queued {work : Work} {l : Loading} (there : h.works[w]? = some work)
    (found : h.loadings[work.loading]? = some l) (empty : queueAt h.scopes k = []) (stage : Stage)
    (job : Job) (history : List Event) (awaited : job.awaitedBy w)
    (waits : (∃ level, stage = .entering level false) ∨ ∃ level, stage = .leaving level false) :
    Working k w { h with
      scopes := pushAll h.scopes l.scope [job]
      works := h.works.modify w fun work => { work with stage }
      history } := by
  have home := working.scope_eq there found
  rw [home]
  refine working.keep _ h.loadings (fun work => { work with stage }) history (fun _ => rfl)
    (flags_pushAll _ _ _) rfl (fun j other => ?_) ?_
  · rw [queueAt_pushAll, if_neg fun both => other both.1]
  · rw [queueAt_pushAll, empty, List.nil_append]
    split
    · refine .inr ⟨job, rfl, awaited, ?_⟩
      have agrees : h.Agrees { h with
          scopes := pushAll h.scopes k [job]
          works := h.works.modify w fun work => { work with stage }
          history } := ⟨flags_pushAll _ _ _, rfl, rfl⟩
      have alive : (h.loadings[work.loading]?.any fun l => h.isCancelled l.scope) = false := by
        rw [found, Option.any_some, home, working.live]
      have here : (h.works.modify w fun work => { work with stage })[w]? =
          some { work with stage } := by
        rw [List.getElem?_modify_eq, there]
        rfl
      simp only [advanceWork?, here, agrees.loading_dead, alive]
      rcases waits with ⟨level, rfl⟩ | ⟨level, rfl⟩
      · rfl
      · cases work.outcome with
        | none => rfl
        | some outcome => cases outcome <;> rfl
    · exact .inl rfl

/-- A work goes on to its next job, or it is over; where it fails, leaves are queued that nobody waits
for. -/
theorem work (empty : queueAt h.scopes k = []) (advanced : h.advanceWork? w = some next) :
    next.Working k w ∨ next.Trailing k := by
  obtain ⟨work, there, -⟩ := work_cases w advanced
  obtain ⟨l, found⟩ := working.housed w work there
  obtain ⟨stage, jobs, events, how, -, goes⟩ := work_local there found advanced
  obtain rfl := Option.some.inj (advanced.symm.trans (goes h (.refl h) rfl rfl))
  have onward (stage : Stage) : Working k w { h with
      works := h.works.modify w fun work => { work with stage }
      history := events ++ h.history } :=
    working.keep h.scopes h.loadings (fun work => { work with stage }) _ (fun _ => rfl) rfl rfl
      (fun _ _ => rfl) (.inl empty)
  cases how with
  | deeper level => exact .inl (working.queued there found empty _ _ _ rfl (.inl ⟨_, rfl⟩))
  | outward level => exact .inl (working.queued there found empty _ _ _ rfl (.inr ⟨_, rfl⟩))
  | begun | returned => exact .inl (onward _)
  | dropped =>
      right
      rw [working.scope_eq there found]
      have agrees : h.Agrees { h with
          scopes := pushAll h.scopes k (Work.leaves work.loading w work.armed)
          works := h.works.modify w fun work => { work with stage := .ended }
          history := events ++ h.history } := ⟨flags_pushAll _ _ _, rfl, rfl⟩
      refine { working.toThread.keep agrees (fun j other => ?_) rfl
          (map_modify_invisible _ _ _ _ fun _ => rfl) with
        inert := fun job member => ?_
        slots := rests_delivers working.slots rfl (.of_eq rfl)
        attended := (attended_of_rests working.callers).keep agrees (.of_eq rfl)
        works := fun v => ?_ }
      · rw [queueAt_pushAll, if_neg fun both => other both.1]
      · rw [queueAt_pushAll, empty, List.nil_append] at member
        split at member
        · exact leaves_inert _ _ _ job member
        · cases member
      · by_cases same : v = w
        · subst same
          simp [advanceWork?, there]
        · exact rests_work agrees (List.getElem?_modify_ne _ _ (Ne.symm same)) (working.works v same)

end Working

end ModalHost.Host
