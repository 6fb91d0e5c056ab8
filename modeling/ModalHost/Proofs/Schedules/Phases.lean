import ModalHost.Proofs.Schedules.Swaps

/-! The states that a host passes through after a single call, as far as the order of its moves can
matter. In each of them the moves that can be taken commute. -/

namespace ModalHost

def Job.awaitedBy (w : Nat) : Job → Prop
  | .enter _ v _ | .leave _ v _ true => v = w
  | _ => False

namespace Host

variable {h g next : Host} {i k w : Nat}

theorem rests_caller (agrees : h.Agrees g) {c : Nat} (same : g.callers[c]? = h.callers[c]?)
    (rests : h.resumeCaller? c = none) : g.resumeCaller? c = none := by
  cases resumed : g.resumeCaller? c with
  | none => rfl
  | some next =>
      obtain ⟨caller, request?, ending, -, -, -, goes⟩ := resume_local c resumed
      rw [goes h agrees.symm same.symm] at rests
      cases rests

theorem rests_wait (agrees : h.Agrees g) (same : g.waits[w]? = h.waits[w]?)
    (rests : h.advanceWait? w = none) : g.advanceWait? w = none := by
  cases advanced : g.advanceWait? w with
  | none => rfl
  | some next =>
      obtain ⟨f, e, -, goes⟩ := wait_local w advanced
      rw [goes h agrees.symm same.symm] at rests
      cases rests

theorem rests_work (agrees : h.Agrees g) (same : g.works[w]? = h.works[w]?)
    (rests : h.advanceWork? w = none) : g.advanceWork? w = none := by
  cases there : h.works[w]? with
  | none => simp [advanceWork?, same, there]
  | some work =>
      simp only [advanceWork?, there] at rests
      simp only [advanceWork?, same, there, agrees.loading_dead]
      split at rests <;> simp_all

theorem deliver_none_iff : h.deliver? i = none ↔ h.channel i = none := by
  constructor
  · intro rests
    cases full : h.channel i with
    | none => rfl
    | some a =>
        obtain ⟨next, delivered⟩ := deliver_of_channel i a full
        rw [rests] at delivered
        cases delivered
  · intro empty
    unfold channel at empty
    unfold deliver?
    cases present : h.prompts[i]? with
    | none => rfl
    | some p =>
        rw [present, Option.bind_some] at empty
        cases full : p.mailbox with
        | none => simp [full]
        | some a =>
            rw [full] at empty
            have lost : ¬h.ownsPrompt i = true := fun owned => by simp [owned] at empty
            simp [full, lost]

/-- Callers may have ended meanwhile, and none has come. -/
def Thins (h g : Host) : Prop := ∀ (c : Nat) (caller : Caller), g.callers[c]? = some caller →
  caller.ended = false → ∃ former, h.callers[c]? = some former ∧ former.ended = false ∧
    former.prompt = caller.prompt

theorem Thins.of_eq (same : g.callers = h.callers) : h.Thins g :=
  fun _ caller found waits => ⟨caller, same ▸ found, waits, rfl⟩

theorem Thins.of_modify (c : Nat) (f : Caller → Caller) (prompt : ∀ x, (f x).prompt = x.prompt)
    (stays : ∀ x, (f x).ended = false → x.ended = false)
    (same : g.callers = h.callers.modify c f) : h.Thins g := by
  intro d caller found waits
  rw [same, List.getElem?_modify, Option.map_eq_map, Option.map_eq_some_iff] at found
  obtain ⟨former, there, rfl⟩ := found
  refine ⟨former, there, ?_⟩
  split at waits
  · rename_i here
    rw [if_pos here]
    exact ⟨stays former waits, (prompt former).symm⟩
  · rename_i aside
    rw [if_neg aside]
    exact ⟨waits, rfl⟩

theorem Thins.of_ended (c : Nat)
    (same : g.callers = h.callers.modify c fun caller => { caller with ended := true }) :
    h.Thins g :=
  .of_modify c (fun caller => { caller with ended := true }) (fun _ => rfl)
    (fun _ ended => by cases ended) same

theorem Thins.owned (thins : h.Thins g)
    (ports : (g.prompts.map (·.port))[i]? = (h.prompts.map (·.port))[i]?)
    (owned : g.ownsPrompt i = true) : h.ownsPrompt i = true := by
  have handle : g.prompts[i]?.any (·.handle) = h.prompts[i]?.any (·.handle) := by
    have through (x : Host) : x.prompts[i]?.any (·.handle) =
        ((x.prompts.map (·.port))[i]?).any fun port => port.2.1 := by
      rw [List.getElem?_map]
      cases x.prompts[i]? <;> rfl
    rw [through, through, ports]
  unfold ownsPrompt at owned ⊢
  rw [handle] at owned
  rcases (Bool.or_eq_true _ _).mp owned with held | waited
  · rw [held, Bool.true_or]
  · obtain ⟨caller, member, mine⟩ := List.any_eq_true.mp waited
    obtain ⟨c, found⟩ := List.mem_iff_getElem?.mp member
    rw [Bool.and_eq_true, beq_iff_eq, Bool.not_eq_true'] at mine
    obtain ⟨former, there, waits, prompt⟩ := thins c caller found mine.2
    rw [Bool.or_eq_true]
    right
    exact List.any_eq_true.mpr ⟨former, List.mem_of_getElem? there, by simp [waits, prompt, mine.1]⟩

theorem rests_deliver (rests : h.deliver? i = none)
    (ports : (g.prompts.map (·.port))[i]? = (h.prompts.map (·.port))[i]?)
    (owned : g.ownsPrompt i = true → h.ownsPrompt i = true) : g.deliver? i = none := by
  rw [deliver_none_iff, channel] at rests ⊢
  have mailbox : g.prompts[i]?.bind (·.mailbox) = h.prompts[i]?.bind (·.mailbox) := by
    have through (x : Host) : x.prompts[i]?.bind (·.mailbox) =
        ((x.prompts.map (·.port))[i]?).bind fun port => port.2.2 := by
      rw [List.getElem?_map]
      cases x.prompts[i]? <;> rfl
    rw [through, through, ports]
  split
  · rename_i takes
    rw [if_pos (owned takes)] at rests
    rw [mailbox, rests]
  · rfl

theorem rests_delivers (rests : ∀ i, h.deliver? i = none)
    (ports : g.prompts.map (·.port) = h.prompts.map (·.port)) (thins : h.Thins g) (i : Nat) :
    g.deliver? i = none :=
  rests_deliver (rests i) (by rw [ports]) (thins.owned (by rw [ports]))

theorem Housed.keep (housed : h.Housed)
    (loadings : g.loadings.map (·.scope) = h.loadings.map (·.scope))
    (works : g.works.map (·.loading) = h.works.map (·.loading)) : g.Housed := by
  intro w work there
  have known : (h.works.map (·.loading))[w]? = some work.loading := by
    rw [← works, List.getElem?_map, there, Option.map_some]
  rw [List.getElem?_map] at known
  obtain ⟨former, here, same⟩ := Option.map_eq_some_iff.mp known
  obtain ⟨l, found⟩ := housed w former here
  have home : (g.loadings.map (·.scope))[work.loading]? = some l.scope := by
    rw [loadings, ← same, List.getElem?_map, found, Option.map_some]
  rw [List.getElem?_map] at home
  obtain ⟨l', found', -⟩ := Option.map_eq_some_iff.mp home
  exact ⟨l', found'⟩

/-- On a scope that is not cancelled a dispatcher, or a work, is at it; nothing else is queued, and no
wait goes on. -/
structure Thread (k : Nat) (h : Host) : Prop where
  live : h.isCancelled k = false
  elsewhere (j : Nat) : j ≠ k → h.isCancelled j = false → queueAt h.scopes j = []
  waits (w : Nat) : h.advanceWait? w = none
  housed : h.Housed

def Attended (h : Host) : Prop := ∀ (c : Nat) (caller : Caller), h.callers[c]? = some caller →
  caller.ended = false → (h.prompts[caller.prompt]?.any fun p => h.isCancelled p.scope) = false

theorem Thread.keep (thread : h.Thread k) (agrees : h.Agrees g)
    (elsewhere : ∀ j, j ≠ k → queueAt g.scopes j = queueAt h.scopes j) (waits : g.waits = h.waits)
    (works : g.works.map (·.loading) = h.works.map (·.loading)) : g.Thread k where
  live := (agrees.isCancelled k).trans thread.live
  elsewhere j other alive := (elsewhere j other).trans
    (thread.elsewhere j other ((agrees.isCancelled j).symm.trans alive))
  waits w := rests_wait agrees (by rw [waits]) (thread.waits w)
  housed := thread.housed.keep agrees.loadings works

theorem Attended.keep (attended : h.Attended) (agrees : h.Agrees g) (thins : h.Thins g) :
    g.Attended := by
  intro c caller found waits
  obtain ⟨former, there, waited, prompt⟩ := thins c caller found waits
  rw [agrees.prompt_dead, ← prompt]
  exact attended c former there waited

theorem attended_of_rests (rests : ∀ c, h.resumeCaller? c = none) : h.Attended := by
  intro c caller found waits
  have rest := rests c
  rw [resumeCaller?, found] at rest
  simp only [waits, Bool.false_eq_true, if_false] at rest
  split at rest
  · cases rest
  · rename_i live
    exact Bool.not_eq_true _ ▸ live

structure Trailing (k : Nat) (h : Host) : Prop extends Thread k h where
  inert : ∀ job ∈ queueAt h.scopes k, job.inert = true
  slots (i : Nat) : h.deliver? i = none
  attended : h.Attended
  works (w : Nat) : h.advanceWork? w = none

/-- Nothing is queued, and what goes on is told or belongs to cancelled scopes. -/
structure Fallen (h : Host) : Prop where
  queues (j : Nat) : h.isCancelled j = false → queueAt h.scopes j = []
  slots (i : Nat) : h.deliver? i = none
  housed : h.Housed
  works (w : Nat) (work : Work) : h.works[w]? = some work → h.advanceWork? w = none ∨
    (h.loadings[work.loading]?.any fun l => h.isCancelled l.scope) = true

structure Answering (k i : Nat) (h : Host) : Prop extends Thread k h where
  callers (c : Nat) : h.resumeCaller? c = none
  works (w : Nat) : h.advanceWork? w = none
  home (p : Prompt) : h.prompts[i]? = some p → p.scope = k
  silent : h.Silent i
  slots (j : Nat) : j ≠ i → h.deliver? j = none
  front : queueAt h.scopes k = [] ∨
    ∃ tap, queueAt h.scopes k = [.offer i tap] ∧ h.deliver? i = none

structure Working (k w : Nat) (h : Host) : Prop extends Thread k h where
  callers (c : Nat) : h.resumeCaller? c = none
  slots (i : Nat) : h.deliver? i = none
  works (v : Nat) : v ≠ w → h.advanceWork? v = none
  home (work : Work) : h.works[w]? = some work →
    (h.loadings.map (·.scope))[work.loading]? = some k
  front : queueAt h.scopes k = [] ∨ ∃ job, queueAt h.scopes k = [job] ∧ job.awaitedBy w ∧
    h.advanceWork? w = none

theorem dispatch_empty (empty : h.isCancelled k = false → queueAt h.scopes k = []) :
    h.dispatch? k = none := by
  cases ran : h.dispatch? k with
  | none => rfl
  | some next =>
      obtain ⟨lineage, job, jobs, front, -⟩ := dispatch_cases k next ran
      obtain ⟨queue, live⟩ := queueAt_of_front _ _ _ _ _ front
      rw [empty live] at queue
      cases queue

theorem Thread.dispatch_only (thread : h.Thread k) {j : Nat} (ran : h.dispatch? j = some next) :
    j = k := by
  by_contra other
  rw [dispatch_empty (thread.elsewhere j other)] at ran
  cases ran

theorem agrees_desert (i : Nat) (request? : Option Nat) (callers : List Caller)
    (history : List Event) :
    h.Agrees { h with prompts := h.prompts.modify i (·.desert request?), callers, history } :=
  ⟨rfl, scopes_of_ports (map_modify_invisible _ _ _ _ (Prompt.port_desert request?)), rfl⟩

namespace Trailing

variable (trailing : h.Trailing k)
include trailing

theorem only (m : Move) (draws : m.renders = false) (taken : h.move? m = some next) :
    m = .dispatch k ∨ ∃ c, m = .resumeCaller c := by
  cases m with
  | dispatch j => exact .inl (congrArg _ (trailing.dispatch_only taken))
  | resumeCaller c => exact .inr ⟨c, rfl⟩
  | deliver i =>
      rw [move?, trailing.slots i] at taken
      cases taken
  | retire i =>
      rw [move?, retire_none i (trailing.slots i)] at taken
      cases taken
  | advanceWork w =>
      rw [move?, trailing.works w] at taken
      cases taken
  | advanceWait w =>
      rw [move?, trailing.waits w] at taken
      cases taken
  | followShown | followVisuals => cases draws

theorem dispatch (ran : h.dispatch? k = some next) : next.Trailing k := by
  obtain ⟨lineage, job, jobs, front, -⟩ := dispatch_cases k next ran
  have queue := (queueAt_of_front _ _ _ _ _ front).1
  have inside := (List.getElem?_eq_some_iff.mp front).1
  obtain ⟨prompts, loadings, panels, events, redraws⟩ :=
    inert_local job (trailing.inert job (queue ▸ List.mem_cons_self))
  obtain rfl := Option.some.inj (ran.symm.trans (redraws.dispatch front))
  have agrees : h.Agrees { h with
      scopes := h.scopes.modify k fun s => { s with queue := jobs }
      prompts := prompts h.prompts
      loadings := loadings h.loadings
      panels := panels h.panels
      history := events ++ h.history } :=
    ⟨map_modify_invisible _ _ _ _ fun _ => rfl, scopes_of_ports (redraws.ports _), redraws.homes _⟩
  have pops (j : Nat) := queueAt_pop h.scopes j k jobs inside
  refine { trailing.toThread.keep agrees (fun j other => ?_) rfl rfl with
    inert := fun later member => ?_
    slots := rests_delivers trailing.slots (redraws.ports _) (.of_eq rfl)
    attended := trailing.attended.keep agrees (.of_eq rfl)
    works := fun w => rests_work agrees rfl (trailing.works w) }
  · rw [pops, if_neg other]
  · rw [pops, if_pos rfl] at member
    exact trailing.inert later (queue ▸ List.mem_cons_of_mem job member)

theorem caller (c : Nat) (resumed : h.resumeCaller? c = some next) : next.Trailing k := by
  obtain ⟨caller, request?, ending, -, -, -, goes⟩ := resume_local c resumed
  obtain rfl := Option.some.inj (resumed.symm.trans (goes h (.refl h) rfl))
  have agrees := agrees_desert (h := h) caller.prompt request?
    (h.callers.modify c fun caller => { caller with ended := true })
    (.ended (.caller c) caller.name ending :: h.history)
  have ports := map_modify_invisible _ _ caller.prompt h.prompts (Prompt.port_desert request?)
  have thins : h.Thins { h with
      prompts := h.prompts.modify caller.prompt (·.desert request?)
      callers := h.callers.modify c fun caller => { caller with ended := true }
      history := .ended (.caller c) caller.name ending :: h.history } :=
    .of_ended c rfl
  exact { trailing.toThread.keep agrees (fun _ _ => rfl) rfl rfl with
    inert := trailing.inert
    slots := rests_delivers trailing.slots ports thins
    attended := trailing.attended.keep agrees thins
    works := fun w => rests_work agrees rfl (trailing.works w) }

theorem step (m : Move) (draws : m.renders = false) (taken : h.move? m = some next) :
    next.Trailing k := by
  rcases trailing.only m draws taken with rfl | ⟨c, rfl⟩
  · exact trailing.dispatch taken
  · exact trailing.caller c taken

theorem diamond {t u : Host} (m n : Move) (draws : m.renders = false) (draws' : n.renders = false)
    (other : m ≠ n) (one : h.move? m = some t) (two : h.move? n = some u) : Swaps m n t u := by
  have dispatch_caller (c : Nat) {t u : Host} (one : h.dispatch? k = some t)
      (two : h.resumeCaller? c = some u) : Swaps (.dispatch k) (.resumeCaller c) t u := by
    obtain ⟨lineage, job, jobs, front, -⟩ := dispatch_cases k t one
    have queue := (queueAt_of_front _ _ _ _ _ front).1
    exact swaps_dispatch_caller k c lineage job jobs front
      (trailing.inert job (queue ▸ List.mem_cons_self))
      (fun caller found waits => trailing.attended c caller found waits) one two
  rcases trailing.only m draws one with rfl | ⟨c, rfl⟩ <;>
    rcases trailing.only n draws' two with rfl | ⟨d, rfl⟩
  · exact absurd rfl other
  · exact dispatch_caller d one two
  · exact (dispatch_caller c two one).symm
  · exact swaps_callers c d (fun same => other (same ▸ rfl)) one two

end Trailing

namespace Fallen

variable (fallen : h.Fallen)
include fallen

theorem keep (scopes : g.scopes = h.scopes)
    (loadings : g.loadings.map (·.scope) = h.loadings.map (·.scope))
    (ports : g.prompts.map (·.port) = h.prompts.map (·.port))
    (owned : ∀ i, g.ownsPrompt i = true → h.ownsPrompt i = true) (works : g.works = h.works) :
    g.Fallen := by
  have agrees : h.Agrees g := ⟨by rw [scopes], scopes_of_ports ports, loadings⟩
  exact {
    queues := fun j alive => by
      rw [scopes]
      exact fallen.queues j ((agrees.isCancelled j).symm.trans alive)
    slots := fun i => rests_deliver (fallen.slots i) (by rw [ports]) (owned i)
    housed := fallen.housed.keep loadings (by rw [works])
    works := fun w work there => by
      rw [agrees.loading_dead]
      rw [works] at there
      exact (fallen.works w work there).imp_left (rests_work agrees (by rw [works])) }

theorem only (m : Move) (draws : m.renders = false) (taken : h.move? m = some next) :
    (∃ c, m = .resumeCaller c) ∨ (∃ w, m = .advanceWork w) ∨ ∃ w, m = .advanceWait w := by
  cases m with
  | dispatch j =>
      rw [move?, dispatch_empty (fallen.queues j)] at taken
      cases taken
  | deliver i =>
      rw [move?, fallen.slots i] at taken
      cases taken
  | retire i =>
      rw [move?, retire_none i (fallen.slots i)] at taken
      cases taken
  | resumeCaller c => exact .inl ⟨c, rfl⟩
  | advanceWork w => exact .inr (.inl ⟨w, rfl⟩)
  | advanceWait w => exact .inr (.inr ⟨w, rfl⟩)
  | followShown | followVisuals => cases draws

theorem home (w : Nat) (advanced : h.advanceWork? w = some next) :
    ∃ work l, h.works[w]? = some work ∧ h.loadings[work.loading]? = some l ∧
      h.isCancelled l.scope = true := by
  obtain ⟨work, there, -⟩ := work_cases w advanced
  obtain ⟨l, found⟩ := fallen.housed w work there
  refine ⟨work, l, there, found, ?_⟩
  rcases fallen.works w work there with rests | dead
  · rw [rests] at advanced
    cases advanced
  · rwa [found] at dead

theorem caller (c : Nat) (resumed : h.resumeCaller? c = some next) : next.Fallen := by
  obtain ⟨caller, request?, ending, -, -, -, goes⟩ := resume_local c resumed
  obtain rfl := Option.some.inj (resumed.symm.trans (goes h (.refl h) rfl))
  have ports := map_modify_invisible _ _ caller.prompt h.prompts (Prompt.port_desert request?)
  have thins : h.Thins { h with
      prompts := h.prompts.modify caller.prompt (·.desert request?)
      callers := h.callers.modify c fun caller => { caller with ended := true }
      history := .ended (.caller c) caller.name ending :: h.history } := .of_ended c rfl
  exact fallen.keep rfl rfl ports (fun i => thins.owned (by rw [ports])) rfl

theorem restage {work : Work} {l : Loading} (there : h.works[w]? = some work)
    (found : h.loadings[work.loading]? = some l) (dead : h.isCancelled l.scope = true)
    (stage : Stage) (history : List Event) :
    Fallen { h with works := h.works.modify w fun work => { work with stage }, history } := by
  have agrees : h.Agrees { h with
      works := h.works.modify w fun work => { work with stage }
      history } := ⟨rfl, rfl, rfl⟩
  refine {
    queues := fallen.queues
    slots := rests_delivers fallen.slots rfl (.of_eq rfl)
    housed := fallen.housed.keep rfl (map_modify_invisible _ _ _ _ fun _ => rfl)
    works := fun v other known => ?_ }
  rw [agrees.loading_dead]
  by_cases same : w = v
  · subst same
    right
    obtain ⟨former, here, loading⟩ := origin_modify (fun work : Work => { work with stage })
      Work.loading (fun _ => rfl) _ w w other known
    obtain rfl := Option.some.inj (here.symm.trans there)
    rw [← loading, found]
    exact dead
  · have untouched := List.getElem?_modify_ne (fun work : Work => { work with stage }) h.works same
    exact (fallen.works v other (untouched.symm.trans known)).imp_left (rests_work agrees untouched)

theorem work (w : Nat) (advanced : h.advanceWork? w = some next) : next.Fallen := by
  obtain ⟨work, l, there, found, dead⟩ := fallen.home w advanced
  obtain ⟨stage, jobs, events, -, -, goes⟩ := work_local there found advanced
  obtain rfl := Option.some.inj (advanced.symm.trans (goes h (.refl h) rfl rfl))
  rw [pushAll_dead h.scopes l.scope jobs dead]
  exact fallen.restage there found dead stage _

theorem wait (w : Nat) (advanced : h.advanceWait? w = some next) : next.Fallen := by
  obtain ⟨f, e, -, goes⟩ := wait_local w advanced
  obtain rfl := Option.some.inj (advanced.symm.trans (goes h (.refl h) rfl))
  exact fallen.keep rfl rfl rfl (fun _ => id) rfl

theorem step (m : Move) (draws : m.renders = false) (taken : h.move? m = some next) :
    next.Fallen := by
  rcases fallen.only m draws taken with ⟨c, rfl⟩ | ⟨w, rfl⟩ | ⟨w, rfl⟩
  · exact fallen.caller c taken
  · exact fallen.work w taken
  · exact fallen.wait w taken

theorem diamond {t u : Host} (m n : Move) (draws : m.renders = false) (draws' : n.renders = false)
    (other : m ≠ n) (one : h.move? m = some t) (two : h.move? n = some u) : Swaps m n t u := by
  rcases fallen.only m draws one with ⟨c, rfl⟩ | ⟨v, rfl⟩ | ⟨v, rfl⟩ <;>
    rcases fallen.only n draws' two with ⟨d, rfl⟩ | ⟨w, rfl⟩ | ⟨w, rfl⟩
  · exact swaps_callers c d (fun same => other (same ▸ rfl)) one two
  · obtain ⟨work, l, there, found, -⟩ := fallen.home w two
    exact (swaps_work_caller there found c two one).symm
  · exact swaps_caller_wait c w one two
  · obtain ⟨work, l, there, found, -⟩ := fallen.home v one
    exact swaps_work_caller there found d one two
  · obtain ⟨work, l, there, found, dead⟩ := fallen.home v one
    obtain ⟨work', l', there', found', dead'⟩ := fallen.home w two
    exact swaps_works there found dead w (fun same => other (same ▸ rfl)) there' found' dead' one two
  · obtain ⟨work, l, there, found, -⟩ := fallen.home v one
    exact swaps_work_wait there found w one two
  · exact (swaps_caller_wait d v two one).symm
  · obtain ⟨work, l, there, found, -⟩ := fallen.home w two
    exact (swaps_work_wait there found v two one).symm
  · exact swaps_waits v w (fun same => other (same ▸ rfl)) one two

end Fallen

end Host

end ModalHost
