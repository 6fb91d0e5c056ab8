import ModalHost.Proofs.Schedules.Confluence
import ModalHost.Proofs.Follow.Sync

/-! Where nothing is left to run, a single call leads to a state in which order does not matter. -/

namespace ModalHost

/-- Whether a step is a call of a user: it asks, answers, shows, hides, waits, works, drops a task or
cancels a scope. -/
def Session.Step.calls : Session.Step → Bool
  | .call _ | .work _ _ _ _ | .finish _ _ | .dismiss _ => true
  | _ => false

namespace Host

variable {h g next : Host} {i k w : Nat}

structure Rested (h : Host) : Prop where
  queues (j : Nat) : h.isCancelled j = false → queueAt h.scopes j = []
  slots (i : Nat) : h.deliver? i = none
  attended : h.Attended
  housed : h.Housed
  works (w : Nat) : h.advanceWork? w = none
  waits (w : Nat) : h.advanceWait? w = none

namespace Rested

theorem keep (rested : h.Rested) (scopes : g.scopes = h.scopes)
    (loadings : g.loadings.map (·.scope) = h.loadings.map (·.scope))
    (ports : g.prompts.map (·.port) = h.prompts.map (·.port)) (thins : h.Thins g)
    (works : g.works = h.works) (waits : g.waits = h.waits) : g.Rested := by
  have agrees : h.Agrees g := ⟨by rw [scopes], scopes_of_ports ports, loadings⟩
  exact {
    queues := fun j alive => by
      rw [scopes]
      exact rested.queues j ((agrees.isCancelled j).symm.trans alive)
    slots := rests_delivers rested.slots ports thins
    attended := rested.attended.keep agrees thins
    housed := rested.housed.keep loadings (by rw [works])
    works := fun w => rests_work agrees (by rw [works]) (rested.works w)
    waits := fun w => rests_wait agrees (by rw [waits]) (rested.waits w) }

theorem fallen (rested : h.Rested) : h.Fallen where
  queues := rested.queues
  slots := rested.slots
  housed := rested.housed
  works w _ _ := .inl (rested.works w)

theorem push (rested : h.Rested) (home : Nat) (jobs : List Job)
    (inert : ∀ job ∈ jobs, job.inert = true) :
    Calm { h with scopes := pushAll h.scopes home jobs } := by
  cases dead : h.isCancelled home with
  | true =>
      rw [pushAll_dead h.scopes home jobs dead]
      exact .fallen rested.fallen
  | false =>
      have agrees : h.Agrees { h with scopes := pushAll h.scopes home jobs } :=
        ⟨flags_pushAll _ _ _, rfl, rfl⟩
      refine .trailing home {
        live := (agrees.isCancelled home).trans dead
        elsewhere := fun j other alive => ?_
        waits := fun w => rests_wait agrees rfl (rested.waits w)
        housed := rested.housed
        inert := fun job member => ?_
        slots := rests_delivers rested.slots rfl (.of_eq rfl)
        attended := rested.attended.keep agrees (.of_eq rfl)
        works := fun w => rests_work agrees rfl (rested.works w) }
      · rw [queueAt_pushAll, if_neg fun both => other both.1]
        exact rested.queues j ((agrees.isCancelled j).symm.trans alive)
      · rw [queueAt_pushAll, rested.queues home dead, List.nil_append] at member
        split at member
        · exact inert job member
        · cases member

theorem launch (rested : h.Rested) (home : Nat) (job : Job) (inert : job.inert = true) :
    (h.launch home job).Calm :=
  rested.push home [job] (List.forall_mem_singleton.mpr inert)

end Rested

theorem Named.loading_there (named : h.Named) {name : String} {i : Nat}
    (found : h.loading? name = some i) : ∃ l, h.loadings[i]? = some l := by
  have entry : h.names.dialogs.find? name = some (.loading i) := by
    unfold loading? at found
    split at found
    · cases found
      assumption
    · cases found
  obtain ⟨l, there, -⟩ := (Option.any_eq_true _ _).mp
    (named.held name (.loading i) (Names.mem_of_find _ _ _ entry))
  exact ⟨l, there⟩

/-- Nothing is left to run. -/
structure Settled (h : Host) : Prop where
  rested : h.Rested
  callers (c : Nat) : h.resumeCaller? c = none
  named : h.Named

theorem settled_of_still (reachable : h.Reachable)
    (unheld : ∀ scope, .hold false ∉ h.queued scope)
    (still : ∀ m : Move, m.renders = false → h.move? m = none) : h.Settled where
  rested := {
    queues := fun j alive => (drained_of_still reachable j alive (unheld j) {
      dispatcher := still (.dispatch j) rfl
      consumers := fun i _ _ _ => still (.deliver i) rfl
      callers := fun c _ _ _ _ _ => still (.resumeCaller c) rfl }).1
    slots := fun i => still (.deliver i) rfl
    attended := attended_of_rests fun c => still (.resumeCaller c) rfl
    housed := reachable.ledger.sound.works
    works := fun w => still (.advanceWork w) rfl
    waits := fun w => still (.advanceWait w) rfl }
  callers c := still (.resumeCaller c) rfl
  named := reachable.reached.rendered.2

theorem issue_frame {p : Prompt} (present : h.prompts[i]? = some p) (parked : Option Parked)
    (visuals : Visuals) : ∃ prompts callers history, h.issue i parked visuals = { h with
        scopes := pushAll h.scopes p.scope [.publish i (p.issued + 1) visuals]
        prompts, callers, history } ∧
      prompts.map (·.port) = h.prompts.map (·.port) ∧
      h.Thins { h with prompts, callers, history } ∧
      callers.map (·.prompt) = h.callers.map (·.prompt) := by
  have same (ps : List Prompt) : (ps.modify i fun q => { q with issued := p.issued + 1, parked }).map
      (·.port) = ps.map (·.port) := map_modify_invisible _ _ i ps fun _ => rfl
  have freed := map_modify_invisible (fun q : Prompt => { q with parked := none }) (·.port) i
    h.prompts fun _ => rfl
  simp only [issue, present]
  unfold evict
  split
  · exact ⟨_, h.callers, _, rfl, same _, .of_eq rfl, rfl⟩
  · rename_i former _
    have told (c : Caller) : c.prompt = { c with reply := some .superseded }.prompt := rfl
    exact ⟨_, _, _, rfl, (same _).trans freed,
      .of_modify former.caller (fun c => { c with reply := some .superseded }) (fun _ => rfl)
        (fun _ => id) rfl, map_modify_invisible _ _ _ _ fun c => (told c).symm⟩

theorem Rested.issue (rested : h.Rested) (i : Nat) (parked : Option Parked) (visuals : Visuals) :
    (h.issue i parked visuals).Calm := by
  cases present : h.prompts[i]? with
  | none =>
      rw [Host.issue, present]
      exact .fallen rested.fallen
  | some p =>
      obtain ⟨prompts, callers, history, same, ports, thins, -⟩ :=
        issue_frame present parked visuals
      have told : Rested { h with prompts, callers, history } :=
        rested.keep rfl rfl ports thins rfl rfl
      rw [same]
      exact told.push p.scope _ (by simp [Job.inert])

theorem endCaller_eq (c : Nat) (caller : Caller) (found : h.callers[c]? = some caller)
    (ending : Ending) : h.endCaller c ending = { h with
      callers := h.callers.modify c fun caller => { caller with ended := true }
      history := .ended (.caller c) caller.name ending :: h.history } := by
  rw [endCaller, found]
  rfl

theorem withdraw_frame (i request : Nat) : ∃ prompts home jobs,
    h.withdraw i request = { h with prompts, scopes := pushAll h.scopes home jobs } ∧
      prompts.map (·.port) = h.prompts.map (·.port) ∧ ∀ job ∈ jobs, job.inert = true := by
  have freed := map_modify_invisible (fun p : Prompt => { p with parked := none }) (·.port) i
    h.prompts fun _ => rfl
  unfold withdraw
  split
  · exact ⟨h.prompts, 0, [], rfl, rfl, nofun⟩
  · rename_i p _
    dsimp only
    split
    · split
      · exact ⟨_, 0, [], rfl, freed, nofun⟩
      · split
        · exact ⟨_, 0, [], rfl, (map_modify_invisible Prompt.vanish _ _ _ fun _ => rfl).trans freed,
            nofun⟩
        · exact ⟨_, p.scope, [.setPrompt i false], rfl, freed, by simp [Job.inert]⟩
    · exact ⟨h.prompts, 0, [], rfl, rfl, nofun⟩

theorem Rested.abandonCaller (rested : h.Rested) (c : Nat) (caller : Caller)
    (found : h.callers[c]? = some caller) :
    ((h.withdraw caller.prompt caller.request).endCaller c .abandoned).Calm := by
  obtain ⟨prompts, home, jobs, same, ports, inert⟩ :=
    withdraw_frame (h := h) caller.prompt caller.request
  have ended : Rested { h with
      prompts
      callers := h.callers.modify c fun caller => { caller with ended := true }
      history := .ended (.caller c) caller.name .abandoned :: h.history } :=
    rested.keep rfl rfl ports (.of_ended c rfl) rfl rfl
  rw [same, endCaller_eq c caller (by exact found)]
  exact ended.push home jobs inert

theorem Rested.restage (rested : h.Rested) (w : Nat) (f : Work → Work) (history : List Event)
    (same : ∀ x, (f x).loading = x.loading)
    (quiet : ∀ work, h.works[w]? = some work →
      advanceWork? { h with works := h.works.modify w f, history } w = none) :
    Rested { h with works := h.works.modify w f, history } := by
  have agrees : h.Agrees { h with works := h.works.modify w f, history } := ⟨rfl, rfl, rfl⟩
  exact {
    queues := rested.queues
    slots := rests_delivers rested.slots rfl (.of_eq rfl)
    attended := rested.attended
    housed := rested.housed.keep rfl (map_modify_invisible f _ w _ same)
    works := fun v => by
      by_cases here : v = w
      · subst here
        cases there : h.works[v]? with
        | none => simp [advanceWork?, there]
        | some work => exact quiet work there
      · exact rests_work agrees (List.getElem?_modify_ne f h.works (Ne.symm here)) (rested.works v)
    waits := fun v => rests_wait agrees rfl (rested.waits v) }

theorem Rested.dropWork (rested : h.Rested) (w : Nat) (ending : Ending) :
    (h.dropWork w ending).Calm := by
  cases there : h.works[w]? with
  | none =>
      rw [Host.dropWork, there]
      exact .fallen rested.fallen
  | some work =>
      obtain ⟨l, found⟩ := rested.housed w work there
      rw [dropWork_eq there found]
      have ended := rested.restage w (fun work => { work with stage := .ended })
        (.ended (.work w) work.name ending :: h.history) (fun _ => rfl) fun _ _ => by
          simp [advanceWork?, there]
      exact ended.push l.scope _ (leaves_inert _ _ _)

theorem Rested.abandon (rested : h.Rested) (task : TaskRef) : (h.abandon task).Calm := by
  have rests : h.Calm := .fallen rested.fallen
  cases task with
  | caller c =>
      simp only [Host.abandon]
      split
      · exact rests
      · rename_i caller found
        split
        · exact rests
        · exact rested.abandonCaller c caller found
  | work w =>
      simp only [Host.abandon]
      split
      · exact rests
      · exact rested.dropWork w .abandoned
  | wait w =>
      simp only [Host.abandon]
      split
      · exact rests
      · split
        · exact rests
        · apply Calm.fallen
          exact rested.fallen.keep rfl rfl rfl (fun _ => id) rfl
  | follower f =>
      simp only [Host.abandon]
      split
      · exact rests
      · split
        · exact rests
        · apply Calm.fallen
          exact rested.fallen.keep rfl rfl rfl (fun _ => id) rfl

theorem Fallen.endCancelled (fallen : h.Fallen) (c : Nat) (caller : Caller)
    (found : h.callers[c]? = some caller)
    (dead : (h.prompts[caller.prompt]?.any fun p => h.isCancelled p.scope) = true) :
    (h.endCancelled c).Fallen := by
  obtain ⟨p, present, lost⟩ := (Option.any_eq_true _ _).mp dead
  have ports := map_modify_invisible _ _ caller.prompt h.prompts
    (Prompt.port_desert (some caller.request))
  rw [Host.endCancelled, found]
  dsimp only
  rw [withdraw_dead present lost, endCaller_eq c caller (by exact found)]
  have thins : h.Thins { h with
      prompts := h.prompts.modify caller.prompt (·.desert (some caller.request))
      callers := h.callers.modify c fun caller => { caller with ended := true }
      history := .ended (.caller c) caller.name .cancelled :: h.history } := .of_ended c rfl
  exact fallen.keep rfl rfl ports (fun i => thins.owned (by rw [ports])) rfl

theorem issue_agrees {p : Prompt} (present : h.prompts[i]? = some p) (parked : Option Parked)
    (visuals : Visuals) : h.Agrees (h.issue i parked visuals) := by
  obtain ⟨prompts, callers, history, same, ports, -, -⟩ := issue_frame present parked visuals
  rw [same]
  exact ⟨flags_pushAll _ _ _, scopes_of_ports ports, rfl⟩

theorem callers_issue {p : Prompt} (present : h.prompts[i]? = some p) (parked : Option Parked)
    (visuals : Visuals) :
    (h.issue i parked visuals).callers.map (·.prompt) = h.callers.map (·.prompt) := by
  obtain ⟨prompts, callers, history, same, -, -, whose⟩ := issue_frame present parked visuals
  rw [same]
  exact whose

theorem Fallen.issue {p : Prompt} (fallen : h.Fallen) (present : h.prompts[i]? = some p)
    (dead : h.isCancelled p.scope = true) (parked : Option Parked) (visuals : Visuals) :
    (h.issue i parked visuals).Fallen := by
  obtain ⟨prompts, callers, history, same, ports, thins, -⟩ := issue_frame present parked visuals
  rw [same, pushAll_dead h.scopes p.scope _ dead]
  exact fallen.keep rfl rfl ports (fun j => thins.owned (by rw [ports])) rfl

section Enrol

variable (name : String) (request : Nat) (owned : h.ownsPrompt i = true)
include owned

theorem enrol_owns (j : Nat) (owns : (h.enrol name i request).ownsPrompt j = true) :
    h.ownsPrompt j = true := by
  by_cases same : j = i
  · rw [same]
    exact owned
  · simpa [ownsPrompt, enrol, Caller.new, Ne.symm same] using owns

theorem Rested.enrol (rested : h.Rested)
    (live : (h.prompts[i]?.any fun p => h.isCancelled p.scope) = false) :
    (h.enrol name i request).Rested := by
  have agrees : h.Agrees (h.enrol name i request) := ⟨rfl, rfl, rfl⟩
  exact {
    queues := rested.queues
    slots := fun j =>
      rests_deliver (rested.slots j) rfl (enrol_owns name request owned j)
    attended := fun c other found waits => by
      rcases getElem?_concat_cases _ _ _ _ found with old | ⟨-, rfl⟩
      · exact rested.attended c other old waits
      · exact live
    housed := rested.housed
    works := fun w => rests_work agrees rfl (rested.works w)
    waits := fun w => rests_wait agrees rfl (rested.waits w) }

theorem Rested.await (rested : h.Rested) (visuals : Visuals) : (h.await i visuals name).Calm := by
  cases present : h.prompts[i]? with
  | none =>
      rw [Host.await, present]
      exact .fallen rested.fallen
  | some p =>
      have here : (h.enrol name i (p.issued + 1)).prompts[i]? = some p := present
      have agrees := issue_agrees here (some ⟨p.issued + 1, h.callers.length⟩) visuals
      have whole (x : Host) (there : x.prompts[i]? = some p) :
          (x.prompts[i]?.any fun p => x.isCancelled p.scope) = x.isCancelled p.scope := by
        rw [there, Option.any_some]
      rw [await_eq h i p present]
      cases dead : h.isCancelled p.scope with
      | false =>
          rw [if_neg (by rw [agrees.isCancelled]; exact Bool.eq_false_iff.mp dead)]
          exact (rested.enrol name (p.issued + 1) owned ((whole h present).trans dead)).issue i _ visuals
      | true =>
          rw [if_pos (by rw [agrees.isCancelled]; exact dead)]
          have fallen : (h.enrol name i (p.issued + 1)).Fallen :=
            rested.fallen.keep rfl rfl rfl (enrol_owns name _ owned) rfl
          have asked := fallen.issue here dead (some ⟨p.issued + 1, h.callers.length⟩) visuals
          have known := congrArg (·[h.callers.length]?)
            (callers_issue here (some ⟨p.issued + 1, h.callers.length⟩) visuals)
          simp only [List.getElem?_map, Host.enrol, List.getElem?_concat_length, Option.map_some]
            at known
          obtain ⟨mine, found, own⟩ := Option.map_eq_some_iff.mp known
          refine .fallen (asked.endCancelled h.callers.length mine found ?_)
          rw [own, show (Caller.new name i (p.issued + 1)).prompt = i from rfl, agrees.prompt_dead i,
            whole _ here]
          exact dead

end Enrol

theorem Rested.setShown (rested : h.Rested) (dialog : DialogRef) (shown : Bool) :
    (h.setShown dialog shown).Calm := by
  have rests : h.Calm := .fallen rested.fallen
  cases dialog with
  | prompt i =>
      simp only [Host.setShown]
      cases h.prompts[i]? with
      | none => exact rests
      | some p => exact rested.launch p.scope _ rfl
  | loading i =>
      simp only [Host.setShown]
      cases h.loadings[i]? with
      | none => exact rests
      | some l => exact rested.launch l.scope _ rfl
  | panel i =>
      simp only [Host.setShown]
      cases h.panels[i]? with
      | none => exact rests
      | some p => exact rested.launch p.scope _ rfl

/-- A cancellation drops nothing where nothing is queued, and lets go on what belongs to the scope. -/
theorem Rested.cancel (rested : h.Rested) (root : Nat) : (h.cancel root).Fallen := by
  have persist : Persist h.scopes (h.cancel root).scopes := .cancel root
  have alive (j : Nat) (live : (h.cancel root).isCancelled j = false) :
      h.isCancelled j = false := persist.live live
  exact {
    queues := fun j live => by
      have kept := queueAt_cancel_live h.scopes j root live
      exact kept.trans (rested.queues j (alive j live))
    slots := rests_delivers rested.slots rfl (.of_eq rfl)
    housed := rested.housed
    works := fun w work there => by
      obtain ⟨l, found⟩ := rested.housed w work there
      cases dead : (h.cancel root).isCancelled l.scope with
      | true =>
          right
          rw [show (h.cancel root).loadings[work.loading]? = some l from found]
          exact dead
      | false =>
          left
          have rests := rested.works w
          have here : (h.cancel root).works[w]? = some work := there
          have home : (h.cancel root).loadings[work.loading]? = some l := found
          simp only [advanceWork?, show h.works[w]? = some work from there, found, Option.any_some,
            alive _ dead] at rests
          simp only [advanceWork?, here, home, Option.any_some, dead]
          split at rests <;> simp_all }

namespace Settled

variable (settled : h.Settled)
include settled

theorem press (r : Responder) (decision : Decision) (silent : h.Silent r.prompt) :
    (h.press r decision).Calm := by
  have rested := settled.rested
  cases present : h.prompts[r.prompt]? with
  | none =>
      rw [Host.press, present]
      exact .fallen rested.fallen
  | some p =>
      have pressed : h.press r decision = { h with
          scopes := pushAll h.scopes p.scope
            [.offer r.prompt ⟨decision, r.picture, p.issued⟩] } := by
        rw [Host.press, present]
        rfl
      rw [pressed]
      cases dead : h.isCancelled p.scope with
      | true =>
          rw [pushAll_dead h.scopes p.scope _ dead]
          exact .fallen rested.fallen
      | false =>
          have agrees : h.Agrees { h with
              scopes := pushAll h.scopes p.scope
                [.offer r.prompt ⟨decision, r.picture, p.issued⟩] } :=
            ⟨flags_pushAll _ _ _, rfl, rfl⟩
          have thins : h.Thins { h with
              scopes := pushAll h.scopes p.scope
                [.offer r.prompt ⟨decision, r.picture, p.issued⟩] } := .of_eq rfl
          have slots := rests_delivers rested.slots (by rfl) thins
          refine .answering p.scope r.prompt {
            live := (agrees.isCancelled p.scope).trans dead
            elsewhere := fun j other alive => ?_
            waits := fun w => rests_wait agrees rfl (rested.waits w)
            housed := rested.housed
            callers := fun c => rests_caller agrees rfl (settled.callers c)
            works := fun w => rests_work agrees rfl (rested.works w)
            home := fun q there => by rw [Option.some.inj (there.symm.trans present)]
            silent := silent
            slots := fun j _ => slots j
            front := ?_ }
          · rw [queueAt_pushAll, if_neg fun both => other both.1]
            exact rested.queues j ((agrees.isCancelled j).symm.trans alive)
          · rw [queueAt_pushAll, rested.queues p.scope dead, List.nil_append]
            split
            · exact .inr ⟨_, rfl, slots r.prompt⟩
            · exact .inl rfl

theorem call (c : Call) (silent : ∀ i, h.Silent i) : (h.call c).Calm := by
  have rested := settled.rested
  have rests : h.Calm := .fallen rested.fallen
  cases c with
  | showConfirm dialog visuals =>
      simp only [Host.call]
      cases h.prompt? dialog with
      | none => exact rests
      | some i => exact rested.issue i none visuals
  | await dialog visuals task =>
      simp only [Host.call]
      cases found : h.prompt? dialog with
      | none => exact rests
      | some i => exact rested.await task (settled.named.ownsPrompt dialog i found) visuals
  | abandon task =>
      simp only [Host.call]
      cases h.names.tasks.find? task with
      | none => exact rests
      | some ref => exact rested.abandon ref
  | setShown dialog shown =>
      simp only [Host.call]
      cases h.names.dialogs.find? dialog with
      | none => exact rests
      | some ref => exact rested.setShown ref shown
  | setHooks dialog hooks =>
      simp only [Host.call]
      cases h.prompt? dialog with
      | none => exact rests
      | some i =>
          apply Calm.fallen
          have ports := map_modify_invisible (fun p : Prompt => { p with hooks }) (·.port) i
            h.prompts fun _ => rfl
          have thins : h.Thins (h.setHooks i hooks) := .of_eq rfl
          exact rested.fallen.keep rfl rfl ports
            (fun j => thins.owned (congrArg (·[j]?) ports)) rfl
  | press responder decision =>
      simp only [Host.call]
      cases h.responder? responder with
      | none => exact rests
      | some r => exact settled.press r decision (silent r.prompt)
  | cancel scope =>
      simp only [Host.call]
      cases h.names.scopes.find? scope with
      | none => exact rests
      | some root => exact .fallen (rested.cancel root)

theorem resumed (scopes : g.scopes = h.scopes) (prompts : g.prompts = h.prompts)
    (loadings : g.loadings = h.loadings) (callers : g.callers = h.callers)
    (waits : g.waits = h.waits) (others : ∀ v, v ≠ w → g.works[v]? = h.works[v]?)
    {work : Work} {l : Loading} (there : g.works[w]? = some work)
    (found : g.loadings[work.loading]? = some l) :
    (g.isCancelled l.scope = false ∧ g.Working l.scope w) ∨
      g.isCancelled l.scope = true ∧ g.Fallen := by
  have rested := settled.rested
  have agrees : h.Agrees g := ⟨by rw [scopes], by rw [prompts], by rw [loadings]⟩
  have slots := rests_delivers rested.slots (by rw [prompts]) (.of_eq callers)
  have rests (v : Nat) (other : v ≠ w) : g.advanceWork? v = none :=
    rests_work agrees (others v other) (rested.works v)
  have housed : g.Housed := by
    intro v other known
    by_cases same : v = w
    · subst same
      obtain rfl := Option.some.inj (known.symm.trans there)
      exact ⟨l, found⟩
    · obtain ⟨l', found'⟩ := rested.housed v other ((others v same).symm.trans known)
      exact ⟨l', by rw [loadings, found']⟩
  have queues (j : Nat) (alive : g.isCancelled j = false) : queueAt g.scopes j = [] := by
    rw [scopes]
    exact rested.queues j ((agrees.isCancelled j).symm.trans alive)
  cases dead : g.isCancelled l.scope with
  | false =>
      refine .inl ⟨rfl, {
        live := dead
        elsewhere := fun j _ alive => queues j alive
        waits := fun v => rests_wait agrees (by rw [waits]) (rested.waits v)
        housed
        callers := fun c => rests_caller agrees (by rw [callers]) (settled.callers c)
        slots
        works := rests
        home := fun other known => ?_
        front := .inl (queues l.scope dead) }⟩
      obtain rfl := Option.some.inj (known.symm.trans there)
      rw [List.getElem?_map, found, Option.map_some]
  | true =>
      refine .inr ⟨rfl, { queues, slots, housed, works := fun v other known => ?_ }⟩
      by_cases same : v = w
      · subst same
        obtain rfl := Option.some.inj (known.symm.trans there)
        right
        rw [found]
        exact dead
      · exact .inl (rests v same)

theorem work (name : String) (loading : Nat) (l : Loading)
    (found : h.loadings[loading]? = some l) (depth : Nat) (outcome : Option Outcome) :
    (h.work name loading depth outcome).Calm := by
  let started := { h with
    works := h.works ++ [Work.mk name loading depth .inside outcome] }.bindTask name
      (.work h.works.length)
  have there : started.works[h.works.length]? = some ⟨name, loading, depth, .inside, outcome⟩ := by
    simp [started, bindTask]
  have others (v : Nat) (other : v ≠ h.works.length) : started.works[v]? = h.works[v]? := by
    simp only [started, bindTask, List.getElem?_append]
    split
    · rfl
    · rename_i beyond
      rw [List.getElem?_eq_none (by simp; omega), List.getElem?_eq_none (by omega)]
  have home : started.loadings[loading]? = some l := found
  change (started.enterLevel h.works.length 1).Calm
  rw [enterLevel_eq there home, beginBlock_eq there home]
  rcases settled.resumed (g := started) rfl rfl rfl rfl rfl others there home with
    ⟨live, working⟩ | ⟨dead, fallen⟩
  · have empty : queueAt started.scopes l.scope = [] := settled.rested.queues l.scope live
    split
    · exact .working l.scope h.works.length (working.keep _ _ (fun work => { work with
        stage := .inside }) _ (fun _ => rfl) rfl rfl (fun _ _ => rfl) (.inl empty))
    · exact .working l.scope h.works.length
        (working.queued there home empty _ _ _ rfl (.inl ⟨1, rfl⟩))
  · split
    · exact .fallen (fallen.restage there home dead .inside _)
    · rw [pushAll_dead started.scopes l.scope _ dead]
      exact .fallen (fallen.restage there home dead (.entering 1 false) _)

theorem finish (task : TaskRef) (outcome : Outcome) : (h.finish task outcome).1.Calm := by
  have rested := settled.rested
  have rests : h.Calm := .fallen rested.fallen
  cases task with
  | caller | follower => exact rests
  | work w =>
      simp only [Host.finish]
      split
      · cases there : h.works[w]? with
        | none => simp_all
        | some work =>
            obtain ⟨l, found⟩ := rested.housed w work there
            have here : (h.updateWork w fun work =>
                { work with outcome := some outcome }).works[w]? =
                some { work with outcome := some outcome } := by
              simp [updateWork, there]
            have others (v : Nat) (other : v ≠ w) : (h.updateWork w fun work =>
                { work with outcome := some outcome }).works[v]? = h.works[v]? :=
              List.getElem?_modify_ne _ _ (Ne.symm other)
            rcases settled.resumed (g := h.updateWork w fun work =>
              { work with outcome := some outcome }) rfl rfl rfl rfl rfl others here found with
              ⟨-, working⟩ | ⟨-, fallen⟩
            · exact .working l.scope w working
            · exact .fallen fallen
      · exact rests
  | wait w =>
      simp only [Host.finish]
      split
      · split
        · exact rests
        · apply Calm.fallen
          exact rested.fallen.keep rfl rfl rfl (fun _ => id) rfl
      · exact rests

/-- A single call leads to a state in which the order of moves does not matter. -/
theorem calm (s : Session.Step) (calls : s.calls = true) (silent : ∀ i, h.Silent i) :
    (Session.act h s).1.Calm := by
  have rests : h.Calm := .fallen settled.rested.fallen
  cases s with
  | call c =>
      have made : (Session.act h (.call c)).1 = h.call c := by cases c <;> rfl
      rw [made]
      exact settled.call c silent
  | work dialog task outcome depth =>
      simp only [Session.act]
      cases found : h.loading? dialog with
      | none => exact rests
      | some loading =>
          obtain ⟨l, there⟩ := settled.named.loading_there found
          exact settled.work task loading l there depth outcome
  | finish task outcome =>
      simp only [Session.act]
      cases h.names.tasks.find? task with
      | none => exact rests
      | some ref => exact settled.finish ref outcome
  | dismiss dismisser =>
      simp only [Session.act]
      split
      · exact rests
      · rename_i i _
        exact settled.rested.setShown (.panel i) false
  | _ => cases calls

end Settled

end Host

end ModalHost
