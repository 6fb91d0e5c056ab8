import ModalHost.Proofs.Schedules.Alike

/-! Moves of different tasks can be taken in either order. -/

namespace ModalHost.Host

variable {h t u : Host} {m n : Move}

def Swaps (m n : Move) (t u : Host) : Prop :=
  ∃ v w, t.move? n = some v ∧ u.move? m = some w ∧ v.Alike w

theorem Swaps.symm (swaps : Swaps m n t u) : Swaps n m u t := by
  obtain ⟨v, w, one, two, alike⟩ := swaps
  exact ⟨w, v, two, one, alike.symm⟩

theorem swaps_callers (c d : Nat) (other : c ≠ d) (one : h.resumeCaller? c = some t)
    (two : h.resumeCaller? d = some u) : Swaps (.resumeCaller c) (.resumeCaller d) t u := by
  obtain ⟨x, first?, ending, -, -, -, goes⟩ := resume_local c one
  obtain ⟨y, second?, result, -, -, -, ends⟩ := resume_local d two
  obtain rfl := Option.some.inj (one.symm.trans (goes h (.refl h) rfl))
  obtain rfl := Option.some.inj (two.symm.trans (ends h (.refl h) rfl))
  have stays (x : Caller) (request? : Option Nat) (callers : List Caller) (history : List Event) :
      h.Agrees { h with
        prompts := h.prompts.modify x.prompt (·.desert request?), callers, history } :=
    ⟨rfl, scopes_of_ports (map_modify_invisible _ _ _ _ (Prompt.port_desert request?)), rfl⟩
  refine ⟨_, _, ends _ (stays x first? _ _) (List.getElem?_modify_ne _ _ other),
    goes _ (stays y second? _ _) (List.getElem?_modify_ne _ _ other.symm), ?_⟩
  dsimp only
  rw [modify_comm _ _ (Prompt.desert_comm second? first?) x.prompt y.prompt,
    modify_comm_ne _ _ c d other]
  refine .swap [.ended (.caller d) y.name result] [.ended (.caller c) x.name ending] h.history ?_
    ⟨_, _, rfl⟩ rfl rfl
  simp

theorem swaps_caller_wait (c w : Nat) (one : h.resumeCaller? c = some t)
    (two : h.advanceWait? w = some u) : Swaps (.resumeCaller c) (.advanceWait w) t u := by
  obtain ⟨caller, request?, ending, -, -, -, goes⟩ := resume_local c one
  obtain ⟨f, e, no_hook, ends⟩ := wait_local w two
  obtain rfl := Option.some.inj (one.symm.trans (goes h (.refl h) rfl))
  obtain rfl := Option.some.inj (two.symm.trans (ends h (.refl h) rfl))
  have stays := scopes_of_ports
    (map_modify_invisible _ _ caller.prompt h.prompts (Prompt.port_desert request?))
  refine ⟨_, _, ends _ ⟨rfl, stays, rfl⟩ rfl, goes _ ⟨rfl, rfl, rfl⟩ rfl, ?_⟩
  refine .swap [e] [.ended (.caller c) caller.name ending] h.history ?_ ⟨_, _, rfl⟩ rfl rfl
  simpa using no_hook

theorem swaps_waits (v w : Nat) (other : v ≠ w) (one : h.advanceWait? v = some t)
    (two : h.advanceWait? w = some u) : Swaps (.advanceWait v) (.advanceWait w) t u := by
  obtain ⟨f, e, no_hook, goes⟩ := wait_local v one
  obtain ⟨g, e', no_hook', ends⟩ := wait_local w two
  obtain rfl := Option.some.inj (one.symm.trans (goes h (.refl h) rfl))
  obtain rfl := Option.some.inj (two.symm.trans (ends h (.refl h) rfl))
  refine ⟨_, _, ends _ ⟨rfl, rfl, rfl⟩ (List.getElem?_modify_ne _ _ other),
    goes _ ⟨rfl, rfl, rfl⟩ (List.getElem?_modify_ne _ _ other.symm), ?_⟩
  dsimp only
  rw [modify_comm_ne _ _ v w other]
  refine .swap [e'] [e] h.history ?_ ⟨_, _, rfl⟩ rfl rfl
  simp [no_hook, no_hook']

section Work

variable {w : Nat} {work : Work} {l : Loading} (there : h.works[w]? = some work)
  (found : h.loadings[work.loading]? = some l)
include there found

theorem swaps_work_wait (v : Nat) (one : h.advanceWork? w = some t)
    (two : h.advanceWait? v = some u) : Swaps (.advanceWork w) (.advanceWait v) t u := by
  obtain ⟨stage, jobs, events, -, no_hook, goes⟩ := work_local there found one
  obtain ⟨f, e, no_hook', ends⟩ := wait_local v two
  obtain rfl := Option.some.inj (one.symm.trans (goes h (.refl h) rfl rfl))
  obtain rfl := Option.some.inj (two.symm.trans (ends h (.refl h) rfl))
  refine ⟨_, _, ends _ ⟨flags_pushAll _ _ _, rfl, rfl⟩ rfl, goes _ ⟨rfl, rfl, rfl⟩ rfl rfl, ?_⟩
  refine .swap [e] events h.history ?_ ⟨_, _, rfl⟩ rfl rfl
  simpa [no_hook'] using no_hook

theorem swaps_work_caller (c : Nat) (one : h.advanceWork? w = some t)
    (two : h.resumeCaller? c = some u) : Swaps (.advanceWork w) (.resumeCaller c) t u := by
  obtain ⟨stage, jobs, events, -, no_hook, goes⟩ := work_local there found one
  obtain ⟨caller, request?, ending, -, -, -, ends⟩ := resume_local c two
  obtain rfl := Option.some.inj (one.symm.trans (goes h (.refl h) rfl rfl))
  obtain rfl := Option.some.inj (two.symm.trans (ends h (.refl h) rfl))
  have stays := scopes_of_ports
    (map_modify_invisible _ _ caller.prompt h.prompts (Prompt.port_desert request?))
  refine ⟨_, _, ends _ ⟨flags_pushAll _ _ _, rfl, rfl⟩ rfl,
    goes _ ⟨rfl, stays, rfl⟩ rfl rfl, ?_⟩
  refine .swap [.ended (.caller c) caller.name ending] events h.history ?_ ⟨_, _, rfl⟩ rfl rfl
  simpa using no_hook

theorem swaps_works (dead : h.isCancelled l.scope = true) (v : Nat) (other : w ≠ v)
    {work' : Work} {l' : Loading} (there' : h.works[v]? = some work')
    (found' : h.loadings[work'.loading]? = some l') (dead' : h.isCancelled l'.scope = true)
    (one : h.advanceWork? w = some t) (two : h.advanceWork? v = some u) :
    Swaps (.advanceWork w) (.advanceWork v) t u := by
  obtain ⟨stage, jobs, events, -, no_hook, goes⟩ := work_local there found one
  obtain ⟨stage', jobs', events', -, no_hook', ends⟩ := work_local there' found' two
  obtain rfl := Option.some.inj (one.symm.trans (goes h (.refl h) rfl rfl))
  obtain rfl := Option.some.inj (two.symm.trans (ends h (.refl h) rfl rfl))
  refine ⟨_, _,
    ends _ ⟨flags_pushAll _ _ _, rfl, rfl⟩ (List.getElem?_modify_ne _ _ other) rfl,
    goes _ ⟨flags_pushAll _ _ _, rfl, rfl⟩ (List.getElem?_modify_ne _ _ other.symm) rfl, ?_⟩
  dsimp only
  rw [pushAll_dead h.scopes l.scope jobs dead, pushAll_dead h.scopes l'.scope jobs' dead',
    pushAll_dead h.scopes l.scope jobs dead, modify_comm_ne _ _ w v other]
  refine .swap events' events h.history ?_ ⟨_, _, rfl⟩ rfl rfl
  intro e member
  rcases List.mem_append.mp member with late | early
  · exact no_hook' e late
  · exact no_hook e early

end Work

theorem swaps_dispatch_caller (k c : Nat) (lineage : List Nat) (job : Job) (jobs : List Job)
    (front : h.scopes[k]? = some ⟨lineage, false, job :: jobs⟩) (inert : job.inert = true)
    (live : ∀ caller, h.callers[c]? = some caller → caller.ended = false →
      (h.prompts[caller.prompt]?.any fun p => h.isCancelled p.scope) = false)
    (one : h.dispatch? k = some t) (two : h.resumeCaller? c = some u) :
    Swaps (.dispatch k) (.resumeCaller c) t u := by
  obtain ⟨prompts, loadings, panels, events, redraws⟩ := inert_local job inert
  obtain ⟨caller, request?, ending, known, waits, told, ends⟩ := resume_local c two
  have kept : request? = none := told.resolve_right (by simp [live caller known waits])
  subst kept
  obtain rfl := Option.some.inj (one.symm.trans (redraws.dispatch front))
  obtain rfl := Option.some.inj (two.symm.trans (ends h (.refl h) rfl))
  have flags := map_modify_invisible (fun s : Scope => { s with queue := jobs }) (·.cancelled) k
    h.scopes fun _ => rfl
  refine ⟨_, _, ends _ ⟨flags, scopes_of_ports (redraws.ports _), redraws.homes _⟩ rfl,
    redraws.dispatch front, ?_⟩
  have untouched (ps : List Prompt) : ps.modify caller.prompt (·.desert none) = ps :=
    modify_eq_self _ _ _ fun p _ => p.desert_none
  dsimp only
  rw [untouched, untouched]
  refine .swap [.ended (.caller c) caller.name ending] events h.history ?_ ⟨_, _, rfl⟩ rfl rfl
  simpa using redraws.no_hook

end ModalHost.Host
