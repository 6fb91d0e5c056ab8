import ModalHost.Proofs.Moves
import ModalHost.Proofs.Lists
import ModalHost.Proofs.Ledger.Basic
import ModalHost.Proofs.Strand.Queue
import ModalHost.Proofs.Trail.Basic

/-! What tasks do by themselves depends only on themselves, on which scopes are cancelled, and on
where dialogs belong. So it is the same on all hosts that agree on that. -/

namespace ModalHost

/-- Whether a job changes what a dialog shows and no more, and nobody waits for it. -/
def Job.inert : Job → Bool
  | .publish _ _ _ | .setPrompt _ _ | .settle _ _ | .setLoading _ _ | .setPanel _ _ => true
  | .leave _ _ _ awaited => !awaited
  | .offer _ _ | .enter _ _ _ | .hold _ | .mark _ | .flushed _ => false

/-- What decides whether the consumer of a prompt takes an answer: the scope, the handle and the
mailbox. -/
def Prompt.port (p : Prompt) : Nat × Bool × Option Answer := (p.scope, p.handle, p.mailbox)

def Prompt.desert (request? : Option Nat) (p : Prompt) : Prompt :=
  if p.parked.any fun parked => request? == some parked.request then
    if p.hooks.isEmpty then { p with parked := none }.vanish else { p with parked := none }
  else p

theorem Prompt.desert_none (p : Prompt) : p.desert none = p := by
  unfold desert
  rw [if_neg]
  cases p.parked <;> simp

theorem Prompt.port_desert (request? : Option Nat) (p : Prompt) :
    (p.desert request?).port = p.port := by
  unfold desert
  split
  · split <;> rfl
  · rfl

theorem Prompt.desert_comm (one two : Option Nat) (p : Prompt) :
    (p.desert one).desert two = (p.desert two).desert one := by
  have left_alone (q : Prompt) (free : q.parked = none) (request? : Option Nat) :
      q.desert request? = q := by
    unfold desert
    rw [free]
    rfl
  have frees (request? : Option Nat) : p.desert request? = p ∨
      (p.desert request?).parked = none ∧ ∃ parked, p.parked = some parked ∧
        request? = some parked.request := by
    unfold desert
    split
    · rename_i matching
      obtain ⟨parked, there, same⟩ := (Option.any_eq_true _ _).mp matching
      refine .inr ⟨?_, parked, there, by simpa using same⟩
      split <;> rfl
    · exact .inl rfl
  rcases frees one with same | ⟨gone, parked, there, rfl⟩
  · rw [same]
    rcases frees two with other | ⟨gone, parked, there, rfl⟩
    · rw [other, same]
    · exact (left_alone _ gone one).symm
  · rw [left_alone _ gone two]
    rcases frees two with other | ⟨-, other, here, rfl⟩
    · rw [other]
    · obtain rfl := Option.some.inj (there.symm.trans here)
      exact (left_alone _ gone _).symm

namespace Host

open Prompt (desert)

variable {h g next : Host}

structure Agrees (h g : Host) : Prop where
  flags : g.scopes.map (·.cancelled) = h.scopes.map (·.cancelled)
  prompts : g.prompts.map (·.scope) = h.prompts.map (·.scope)
  loadings : g.loadings.map (·.scope) = h.loadings.map (·.scope)

theorem scopes_of_ports {ps qs : List Prompt} (same : qs.map (·.port) = ps.map (·.port)) :
    qs.map (·.scope) = ps.map (·.scope) := by
  have through (rs : List Prompt) : rs.map (·.scope) = (rs.map (·.port)).map Prod.fst := by
    rw [List.map_map]
    rfl
  rw [through, through, same]

namespace Agrees

theorem refl (h : Host) : h.Agrees h := ⟨rfl, rfl, rfl⟩

theorem symm (agrees : h.Agrees g) : g.Agrees h :=
  ⟨agrees.flags.symm, agrees.prompts.symm, agrees.loadings.symm⟩

theorem isCancelled (agrees : h.Agrees g) (scope : Nat) :
    g.isCancelled scope = h.isCancelled scope := by
  have through (x : Host) :
      x.isCancelled scope = (x.scopes.map (·.cancelled))[scope]?.any id := by
    rw [List.getElem?_map, Host.isCancelled]
    cases x.scopes[scope]? <;> rfl
  rw [through, through, agrees.flags]

theorem prompt_dead (agrees : h.Agrees g) (i : Nat) :
    (g.prompts[i]?.any fun p => g.isCancelled p.scope) =
      h.prompts[i]?.any fun p => h.isCancelled p.scope := by
  have through (x : Host) : (x.prompts[i]?.any fun p => x.isCancelled p.scope) =
      (x.prompts.map (·.scope))[i]?.any x.isCancelled := by
    rw [List.getElem?_map]
    cases x.prompts[i]? <;> rfl
  rw [through, through, agrees.prompts, funext agrees.isCancelled]

theorem loading_dead (agrees : h.Agrees g) (i : Nat) :
    (g.loadings[i]?.any fun l => g.isCancelled l.scope) =
      h.loadings[i]?.any fun l => h.isCancelled l.scope := by
  have through (x : Host) : (x.loadings[i]?.any fun l => x.isCancelled l.scope) =
      (x.loadings.map (·.scope))[i]?.any x.isCancelled := by
    rw [List.getElem?_map]
    cases x.loadings[i]? <;> rfl
  rw [through, through, agrees.loadings, funext agrees.isCancelled]

end Agrees

theorem withdraw_dead {i : Nat} {p : Prompt} (present : h.prompts[i]? = some p)
    (dead : h.isCancelled p.scope = true) (request : Nat) :
    h.withdraw i request = h.updatePrompt i (·.desert (some request)) := by
  have at_once (f : Prompt → Prompt) (same : f p = p.desert (some request)) :
      h.updatePrompt i f = h.updatePrompt i (·.desert (some request)) := by
    have only := modify_congr f (·.desert (some request)) i h.prompts fun q there => by
      obtain rfl := Option.some.inj (present.symm.trans there)
      exact same
    exact congrArg (fun prompts => { h with prompts }) only
  have known : (p.parked.any fun parked => some request == some parked.request) =
      p.parked.any fun parked => parked.request == request := by
    cases p.parked with
    | none => rfl
    | some parked => simp [Bool.beq_comm]
  unfold withdraw
  rw [present]
  dsimp only
  split
  · rename_i mine
    split
    · rename_i hooked
      refine at_once _ ?_
      rw [desert, known, if_pos mine, if_neg (by simpa using hooked)]
    · rename_i bare
      have vanishes : (h.updatePrompt i fun p => { p with parked := none }).updatePrompt i
          Prompt.vanish = h.updatePrompt i fun p => { p with parked := none }.vanish := by
        unfold updatePrompt
        rw [List.modify_modify_eq]
        rfl
      rw [if_pos (by exact dead), vanishes]
      refine at_once _ ?_
      rw [desert, known, if_pos mine, if_pos (by simpa using bare)]
  · rename_i other
    have stays : p.desert (some request) = p := by
      rw [desert, known, if_neg other]
    rw [← at_once id stays.symm, updatePrompt, List.modify_id]

theorem resume_local (c : Nat) (resumed : h.resumeCaller? c = some next) :
    ∃ caller request? ending, h.callers[c]? = some caller ∧ caller.ended = false ∧
      (request? = none ∨
        (h.prompts[caller.prompt]?.any fun p => h.isCancelled p.scope) = true) ∧
      ∀ g : Host, h.Agrees g → g.callers[c]? = h.callers[c]? →
        g.resumeCaller? c = some { g with
          prompts := g.prompts.modify caller.prompt (·.desert request?)
          callers := g.callers.modify c fun caller => { caller with ended := true }
          history := .ended (.caller c) caller.name ending :: g.history } := by
  obtain ⟨caller, found, waits, moved⟩ := caller_cases c resumed
  cases moved with
  | told reply told live =>
      refine ⟨caller, none, reply.ending, found, waits, .inl rfl, fun g agrees same => ?_⟩
      have alive : (g.prompts[caller.prompt]?.any fun p => g.isCancelled p.scope) = false := by
        rw [agrees.prompt_dead]
        cases present : h.prompts[caller.prompt]? with
        | none => rfl
        | some p => exact live p present
      have untouched : g.prompts.modify caller.prompt (·.desert none) = g.prompts :=
        modify_eq_self _ _ _ fun p _ => p.desert_none
      rw [untouched, resumeCaller?, same, found]
      dsimp only
      rw [waits, alive, told]
      cases reply <;> simp only [endCaller, same, found] <;> rfl
  | cancelled p present dead =>
      have lost : (h.prompts[caller.prompt]?.any fun p => h.isCancelled p.scope) = true := by
        rw [present]
        exact dead
      refine ⟨caller, some caller.request, .cancelled, found, waits, .inr lost,
        fun g agrees same => ?_⟩
      have there := same.trans found
      have gone := (agrees.prompt_dead caller.prompt).trans lost
      obtain ⟨q, here, ended⟩ := (Option.any_eq_true _ _).mp gone
      rw [resumeCaller?, there]
      dsimp only
      rw [waits, gone, endCancelled, there]
      dsimp only
      rw [withdraw_dead here ended, endCaller]
      have still_there : (g.updatePrompt caller.prompt
          (·.desert (some caller.request))).callers[c]? = some caller := there
      rw [still_there]
      rfl

theorem wait_local (w : Nat) (advanced : h.advanceWait? w = some next) :
    ∃ f e, (∀ i, Event.fired i e = false) ∧ ∀ g : Host, h.Agrees g → g.waits[w]? = h.waits[w]? →
      g.advanceWait? w = some { g with
        waits := g.waits.modify w f
        history := e :: g.history } := by
  obtain ⟨wait, there, moved⟩ := wait_cases w advanced
  have here (g : Host) (same : g.waits[w]? = h.waits[w]?) : g.waits[w]? = some wait :=
    same.trans there
  cases moved with
  | flushed ran kind waits through =>
      refine ⟨fun wait => { wait with ended := true }, .ended (.wait w) wait.name .flushed,
        fun _ => rfl, fun g agrees same => ?_⟩
      simp only [advanceWait?, here g same, agrees.isCancelled, kind, waits, through, endWait]
      rfl
  | cancelled kind waits dead =>
      refine ⟨fun wait => { wait with ended := true }, .ended (.wait w) wait.name .scopeCancelled,
        fun _ => rfl, fun g agrees same => ?_⟩
      simp only [advanceWait?, here g same, agrees.isCancelled, kind, waits, dead, endWait]
      rfl
  | received given kind live =>
      refine ⟨fun wait => { wait with kind := .spawned false (some given) }, .received given,
        fun _ => rfl, fun g agrees same => ?_⟩
      simp only [advanceWait?, here g same, agrees.isCancelled, kind, live]
      rfl
  | joined running outcome kind waits rests =>
      refine ⟨fun wait => { wait with ended := true }, .ended (.wait w) wait.name .joined,
        fun _ => rfl, fun g agrees same => ?_⟩
      simp only [advanceWait?, here g same, agrees.isCancelled, kind, waits, rests, endWait]
      rfl

/-- A job does this wherever it runs, and no dialog changes its scope by it. -/
structure Redraws (job : Job) (prompts : List Prompt → List Prompt)
    (loadings : List Loading → List Loading) (panels : List Panel → List Panel)
    (events : List Event) : Prop where
  ports (ps : List Prompt) : (prompts ps).map (·.port) = ps.map (·.port)
  homes (ls : List Loading) : (loadings ls).map (·.scope) = ls.map (·.scope)
  no_hook : ∀ e ∈ events, ∀ i, Event.fired i e = false
  runs (g : Host) : g.runJob job = some { g with
    prompts := prompts g.prompts
    loadings := loadings g.loadings
    panels := panels g.panels
    history := events ++ g.history }

theorem Redraws.of_prompt {job : Job} (i : Nat) (f : Prompt → Prompt)
    (port : ∀ p, (f p).port = p.port)
    (runs : ∀ g : Host, g.runJob job = g.updatePrompt i f) : Redraws job (·.modify i f) id id [] where
  ports ps := map_modify_invisible f (·.port) i ps port
  homes _ := rfl
  no_hook := nofun
  runs g := runs g

theorem Redraws.of_loading {job : Job} (i : Nat) (f : Loading → Loading)
    (scope : ∀ l, (f l).scope = l.scope) (events : List Event)
    (no_hook : ∀ e ∈ events, ∀ i, Event.fired i e = false)
    (runs : ∀ g : Host, g.runJob job =
      some { g.updateLoading i f with history := events ++ g.history }) :
    Redraws job id (·.modify i f) id events where
  ports _ := rfl
  homes ls := map_modify_invisible f (·.scope) i ls scope
  no_hook
  runs g := runs g

theorem Redraws.dispatch {job : Job} {prompts : List Prompt → List Prompt}
    {loadings : List Loading → List Loading} {panels : List Panel → List Panel}
    {events : List Event} (redraws : Redraws job prompts loadings panels events) {k : Nat}
    {lineage : List Nat} {jobs : List Job}
    (front : h.scopes[k]? = some ⟨lineage, false, job :: jobs⟩) :
    h.dispatch? k = some { h with
      scopes := h.scopes.modify k fun s => { s with queue := jobs }
      prompts := prompts h.prompts
      loadings := loadings h.loadings
      panels := panels h.panels
      history := events ++ h.history } := by
  rw [dispatch?, front]
  exact redraws.runs (h.setQueue k jobs)

theorem inert_local (job : Job) (inert : job.inert = true) :
    ∃ prompts loadings panels events, Redraws job prompts loadings panels events := by
  cases job with
  | publish i request visuals =>
      refine ⟨_, _, _, _, .of_prompt i (·.publish request visuals) (fun p => ?_) fun _ => rfl⟩
      obtain ⟨shown, phase, same⟩ := p.publish_eq request visuals
      rw [same]
      rfl
  | setPrompt i shown =>
      cases shown with
      | true =>
          refine ⟨_, _, _, _, .of_prompt i Prompt.appear (fun p => ?_) fun _ => rfl⟩
          obtain ⟨shown, phase, same⟩ := p.appear_eq
          rw [same]
          rfl
      | false =>
          exact ⟨_, _, _, _, .of_prompt i Prompt.vanish (fun _ => rfl) fun _ => rfl⟩
  | settle i request =>
      refine ⟨_, _, _, _, .of_prompt i (·.settle request) (fun p => ?_) fun _ => rfl⟩
      obtain ⟨shown, phase, same⟩ := p.settle_eq request
      rw [same]
      rfl
  | setLoading i shown =>
      exact ⟨_, _, _, _, .of_loading i (·.setShown shown) (fun _ => rfl) [] nofun fun _ => rfl⟩
  | leave i w level awaited =>
      cases awaited with
      | true => cases inert
      | false =>
          exact ⟨_, _, _, _, .of_loading i (·.leave) (fun _ => rfl) [.left w level]
            (by simp [Event.fired]) fun _ => rfl⟩
  | setPanel i shown =>
      exact ⟨id, id, (·.modify i (·.setShown shown)), [], fun _ => rfl, fun _ => rfl,
        nofun, fun _ => rfl⟩
  | offer | enter | hold | mark | flushed => cases inert

/-- What a work does that goes on depends on nothing but itself and its loading. -/
def Alone (h : Host) (w : Nat) (work : Work) (l : Loading) : Prop :=
  ∃ stage jobs events, work.Proceeds w (h.isCancelled l.scope) stage jobs ∧
    (∀ e ∈ events, ∀ i, Event.fired i e = false) ∧ ∀ g : Host, h.Agrees g →
    g.works[w]? = h.works[w]? → g.loadings = h.loadings → g.advanceWork? w = some { g with
      scopes := pushAll g.scopes l.scope jobs
      works := g.works.modify w fun work => { work with stage }
      history := events ++ g.history }

section Work

variable {w : Nat} {work : Work} {l : Loading} (there : h.works[w]? = some work)
  (found : h.loadings[work.loading]? = some l)
include there

theorem beginBlock_eq (found : h.loadings[work.loading]? = some l) :
    h.beginBlock w = { h with
      works := h.works.modify w fun work => { work with stage := .inside }
      history := .started w work.name l.shown.value :: h.history } := by
  simp only [beginBlock, there, found]
  rfl

include found

theorem enterLevel_eq (level : Nat) :
    h.enterLevel w level = if work.depth < level then h.beginBlock w else { h with
      scopes := pushAll h.scopes l.scope [.enter work.loading w level]
      works := h.works.modify w fun work => { work with stage := .entering level false } } := by
  simp only [enterLevel, there, found]
  rfl

theorem leaveLevel_eq (level : Nat) (text : String) :
    h.leaveLevel w level text = if level = 0 then { h with
        works := h.works.modify w fun work => { work with stage := .ended }
        history := .ended (.work w) work.name (.finished text) :: h.history }
      else { h with
        scopes := pushAll h.scopes l.scope [.leave work.loading w level true]
        works := h.works.modify w fun work => { work with stage := .leaving level false } } := by
  simp only [leaveLevel, there, found]
  rfl

omit there in
theorem launchLeaves_eq (level : Nat) :
    h.launchLeaves work.loading w level =
      { h with scopes := pushAll h.scopes l.scope (Work.leaves work.loading w level) } := by
  induction level generalizing h with
  | zero => rfl
  | succ level ih =>
      simp only [launchLeaves, found]
      exact ih (h := h.launch l.scope (.leave work.loading w (level + 1) false)) found

theorem dropWork_eq (ending : Ending) :
    h.dropWork w ending = { h with
      scopes := pushAll h.scopes l.scope (Work.leaves work.loading w work.armed)
      works := h.works.modify w fun work => { work with stage := .ended }
      history := .ended (.work w) work.name ending :: h.history } := by
  simp only [dropWork, there, launchLeaves_eq found]
  rfl

theorem enters_alone {level : Nat}
    (goes : ∀ g : Host, h.Agrees g → g.works[w]? = h.works[w]? →
      g.advanceWork? w = some (g.enterLevel w (level + 1)))
    (inside : work.depth ≤ level → work.Proceeds w (h.isCancelled l.scope) .inside [])
    (deeper : level < work.depth → work.Proceeds w (h.isCancelled l.scope)
      (.entering (level + 1) false) [.enter work.loading w (level + 1)]) : h.Alone w work l := by
  by_cases full : work.depth ≤ level
  · refine ⟨_, _, [.started w work.name l.shown.value], inside full, by simp [Event.fired], ?_⟩
    intro g agrees same stock
    have here := same.trans there
    have home : g.loadings[work.loading]? = some l := by rw [stock, found]
    rw [goes g agrees same, enterLevel_eq here home, if_pos (by omega), beginBlock_eq here home]
    rfl
  · refine ⟨_, _, [], deeper (Nat.lt_of_not_le full), by simp, ?_⟩
    intro g agrees same stock
    rw [goes g agrees same, enterLevel_eq (same.trans there) (by rw [stock, found]),
      if_neg (by omega)]
    rfl

theorem leaves_alone {level : Nat} {text : String}
    (goes : ∀ g : Host, h.Agrees g → g.works[w]? = h.works[w]? →
      g.advanceWork? w = some (g.leaveLevel w level text))
    (returned : level = 0 → work.Proceeds w (h.isCancelled l.scope) .ended [])
    (outward : ∀ outer, level = outer + 1 → work.Proceeds w (h.isCancelled l.scope)
      (.leaving (outer + 1) false) [.leave work.loading w (outer + 1) true]) :
    h.Alone w work l := by
  cases level with
  | zero =>
      refine ⟨_, _, [.ended (.work w) work.name (.finished text)], returned rfl,
        by simp [Event.fired], ?_⟩
      intro g agrees same stock
      rw [goes g agrees same, leaveLevel_eq (same.trans there) (by rw [stock, found]), if_pos rfl]
      rfl
  | succ outer =>
      refine ⟨_, _, [], outward outer rfl, by simp, ?_⟩
      intro g agrees same stock
      rw [goes g agrees same, leaveLevel_eq (same.trans there) (by rw [stock, found]),
        if_neg (Nat.succ_ne_zero outer)]
      rfl

theorem work_local (advanced : h.advanceWork? w = some next) : h.Alone w work l := by
  obtain ⟨former, known, moved⟩ := work_cases w advanced
  obtain rfl := Option.some.inj (known.symm.trans there)
  have passes (done : Bool)
      (through : (done || h.loadings[former.loading]?.any fun l => h.isCancelled l.scope) = true) :
      done = true ∨ h.isCancelled l.scope = true := by
    rw [found] at through
    exact (Bool.or_eq_true _ _).mp through
  cases moved with
  | entered level done stage through =>
      have goes (g : Host) (agrees : h.Agrees g) (same : g.works[w]? = h.works[w]?) :
          g.advanceWork? w = some (g.enterLevel w (level + 1)) := by
        simp only [advanceWork?, same.trans there, agrees.loading_dead, stage, through, if_true]
      have passed := passes done through
      exact enters_alone there found goes (.begun level done stage passed)
        (.deeper level done stage passed)
  | returned text stage given =>
      have goes (g : Host) (_ : h.Agrees g) (same : g.works[w]? = h.works[w]?) :
          g.advanceWork? w = some (g.leaveLevel w former.depth text) := by
        simp only [advanceWork?, same.trans there, stage, given]
      exact leaves_alone there found goes (fun depth => .returned text given (.inl ⟨stage, depth⟩))
        (fun outer depth => .outward outer text given (.inl ⟨stage, depth.symm⟩))
  | panicked stage given =>
      refine ⟨.ended, Work.leaves former.loading w former.armed,
        [.ended (.work w) former.name .panicked], .dropped (by simp [stage]),
        by simp [Event.fired], ?_⟩
      intro g agrees same stock
      have goes : g.advanceWork? w = some (g.dropWork w .panicked) := by
        simp only [advanceWork?, same.trans there, stage, given]
      rw [goes, dropWork_eq (same.trans there) (by rw [stock, found])]
      rfl
  | left level done text stage given through =>
      have goes (g : Host) (agrees : h.Agrees g) (same : g.works[w]? = h.works[w]?) :
          g.advanceWork? w = some (g.leaveLevel w (level - 1) text) := by
        simp only [advanceWork?, same.trans there, agrees.loading_dead, stage, given, through,
          if_true]
      have passed := passes done through
      refine leaves_alone there found goes ?_ ?_
      · intro last
        exact .returned text given (.inr ⟨level, done, by omega, stage, passed⟩)
      · intro outer above
        obtain rfl : level = outer + 2 := by omega
        exact .outward outer text given (.inr ⟨done, stage, passed⟩)

end Work

end Host

end ModalHost
