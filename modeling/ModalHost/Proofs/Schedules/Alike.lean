import ModalHost.Proofs.Schedules.Local
import ModalHost.Proofs.Trail.Bursts

/-! Hosts that differ only in their renderers, and in the order of what happened. -/

namespace ModalHost

def Move.renders : Move → Bool
  | .followShown _ | .followVisuals _ => true
  | _ => false

def Event.lasting : Event → Bool
  | .drew _ _ _ | .ended (.follower _) _ _ => false
  | _ => true

@[simp] theorem Event.fired_ended (i : Nat) (task : TaskRef) (name : String) (ending : Ending) :
    Event.fired i (.ended task name ending) = false := rfl

namespace Host

variable {h g next other : Host} {i : Nat}

/-- Two hosts are the same but for their followers, and the same has happened on both, though not in
the same order. -/
structure Alike (h g : Host) : Prop where
  same : ∃ followers history, g = { h with followers, history }
  log : (g.history.filter Event.lasting).Perm (h.history.filter Event.lasting)
  fired (i : Nat) : g.firedFor i = h.firedFor i

namespace Alike

theorem refl (h : Host) : h.Alike h := ⟨⟨h.followers, h.history, rfl⟩, .refl _, fun _ => rfl⟩

theorem symm (alike : h.Alike g) : g.Alike h := by
  obtain ⟨⟨followers, history, rfl⟩, log, fired⟩ := alike
  exact ⟨⟨h.followers, h.history, rfl⟩, log.symm, fun i => (fired i).symm⟩

theorem trans (first : h.Alike g) (second : g.Alike next) : h.Alike next := by
  obtain ⟨⟨followers, history, rfl⟩, log, fired⟩ := first
  obtain ⟨⟨followers, history, rfl⟩, again, fires⟩ := second
  exact ⟨⟨_, _, rfl⟩, again.trans log, fun i => (fires i).trans (fired i)⟩

theorem grow (alike : h.Alike g) (events : List Event) (state : Host) :
    Alike { state with followers := h.followers, history := events ++ h.history }
      { state with followers := g.followers, history := events ++ g.history } where
  same := ⟨_, _, rfl⟩
  log := by
    rw [List.filter_append, List.filter_append]
    exact alike.log.append_left _
  fired i := by
    have fired := alike.fired i
    unfold firedFor at fired ⊢
    rw [List.filter_append, List.filter_append, List.reverse_append, List.reverse_append, fired]

/-- What happens to renderers alone does not count. -/
theorem of_renderer (followers : List Follower) (events : List Event)
    (passing : ∀ e ∈ events, e.lasting = false) :
    Alike h { h with followers, history := events ++ h.history } where
  same := ⟨_, _, rfl⟩
  log := by
    have none : events.filter Event.lasting = [] :=
      List.filter_eq_nil_iff.mpr fun e member => Bool.eq_false_iff.mp (passing e member)
    rw [List.filter_append, none, List.nil_append]
  fired i := by
    have none : events.filter (Event.fired i) = [] := by
      rw [List.filter_eq_nil_iff]
      intro e member
      have passed := passing e member
      cases e with
      | hookRan => cases passed
      | _ => exact Bool.false_ne_true
    unfold firedFor
    rw [List.filter_append, none, List.nil_append]

theorem draw (f : Nat) : h.Alike (h.draw f) := by
  unfold Host.draw
  split
  · exact .refl h
  · exact of_renderer _ [.drew f _ _] (by simp [Event.lasting])

theorem renderer (f : Nat) (woke : h.followShown? f = some next ∨ h.followVisuals? f = some next) :
    h.Alike next := by
  have updated (change : Follower → Follower) : h.Alike (h.updateFollower f change) :=
    of_renderer _ [] nofun
  rcases woke with woke | woke
  · obtain ⟨x, -, -, moved⟩ := shown_cases f woke
    cases moved with
    | looked => exact (updated _).trans (draw f)
    | ended => exact of_renderer _ [.ended (.follower f) _ _] (by simp [Event.lasting])
  · obtain ⟨x, i, p, -, -, -, -, moved⟩ := visuals_cases f woke
    cases moved with
    | drew => exact (updated _).trans (draw f)
    | overlooked | left => exact updated _

theorem swap {v w : Host} (one two history : List Event)
    (no_hook : ∀ e ∈ one ++ two, ∀ i, Event.fired i e = false)
    (same : ∃ followers history, w = { v with followers, history })
    (first : v.history = one ++ (two ++ history)) (second : w.history = two ++ (one ++ history)) :
    v.Alike w where
  same
  log := by
    rw [first, second, ← List.append_assoc, ← List.append_assoc]
    exact (List.perm_append_comm.append_right history).filter _
  fired i := by
    have none (events : List Event) (among : ∀ e ∈ events, e ∈ one ++ two) :
        events.filter (Event.fired i) = [] :=
      List.filter_eq_nil_iff.mpr fun e member =>
        Bool.eq_false_iff.mp (no_hook e (among e member) i)
    have no_one := none one fun e member => List.mem_append_left _ member
    have no_two := none two fun e member => List.mem_append_right _ member
    simp only [firedFor, first, second, List.filter_append, no_one, no_two]

end Alike

def Housed (h : Host) : Prop := ∀ (w : Nat) (work : Work), h.works[w]? = some work →
  ∃ l, h.loadings[work.loading]? = some l

/-- What is done besides drawing does not depend on followers, nor on what happened before. -/
def Echoes (h : Host) (m : Move) (next : Host) : Prop :=
  ∃ events, ∀ followers history, { h with followers, history }.move? m =
    some { next with followers, history := events ++ history }

theorem Echoes.self {m : Move} (echoes : h.Echoes m next) (taken : h.move? m = some next) :
    ∃ events, next = { next with followers := h.followers, history := events ++ h.history } ∧
      ∀ followers history, { h with followers, history }.move? m =
        some { next with followers, history := events ++ history } := by
  obtain ⟨events, echo⟩ := echoes
  exact ⟨events, Option.some.inj (taken.symm.trans (echo h.followers h.history)), echo⟩

theorem Echoes.follows {m : Move} (echoes : h.Echoes m next) (taken : h.move? m = some next)
    (alike : h.Alike g) : ∃ other, g.move? m = some other ∧ next.Alike other := by
  obtain ⟨events, self, echo⟩ := echoes.self taken
  have grown := alike.grow events next
  rw [← self] at grown
  obtain ⟨⟨followers, history, rfl⟩, -, -⟩ := alike
  exact ⟨_, echo followers history, grown⟩

theorem echo_runJob (job : Job) (ran : h.runJob job = some next) :
    ∃ events, ∀ followers history, { h with followers, history }.runJob job =
      some { next with followers, history := events ++ history } := by
  cases job with
  | setPrompt j shown =>
      cases shown <;> cases ran <;> exact ⟨[], fun _ _ => rfl⟩
  | offer j tap =>
      simp only [runJob] at ran
      split at ran
      · rename_i gone
        cases ran
        refine ⟨[], fun followers history => ?_⟩
        exact if_pos gone
      · rename_i there
        split at ran
        · cases ran
        · rename_i free
          cases ran
          refine ⟨[], fun followers history => ?_⟩
          exact (if_neg there).trans (if_neg free)
  | enter l w level =>
      cases ran
      exact ⟨[.entered w level], fun _ _ => rfl⟩
  | leave l w level awaited =>
      cases awaited <;> cases ran <;> exact ⟨[.left w level], fun _ _ => rfl⟩
  | hold opened =>
      cases opened with
      | true =>
          cases ran
          exact ⟨[], fun _ _ => rfl⟩
      | false => cases ran
  | mark label =>
      cases ran
      exact ⟨[.marked label], fun _ _ => rfl⟩
  | _ =>
      cases ran
      exact ⟨[], fun _ _ => rfl⟩

theorem echo_dispatch (scope : Nat) (ran : h.dispatch? scope = some next) :
    h.Echoes (.dispatch scope) next := by
  obtain ⟨lineage, job, jobs, front, done⟩ := dispatch_cases scope next ran
  obtain ⟨events, echo⟩ := echo_runJob job done
  refine ⟨events, fun followers history => ?_⟩
  have runs := echo followers history
  simp only [move?, dispatch?, front]
  exact runs

theorem echo_heard (p : Prompt) (a : Answer) : ∃ events, ∀ followers history,
    heard { h with followers, history } i p a =
      { h.heard i p a with followers, history := events ++ history } := by
  refine ⟨((p.hooks.on a.tap.decision).map fun _ =>
    Event.hookRan i p.hooks.tag a.tap.decision).toList ++
      [.accepted i a (p.callerOf a.request)], fun followers history => ?_⟩
  have told : notify { h with followers, history } i p a =
      { h.notify i p a with
        followers, history := .accepted i a (p.callerOf a.request) :: history } := by
    unfold notify resolve
    dsimp only [record, updatePrompt]
    cases (((h.prompts.modify i fun p => { p with mailbox := none }).modify i fun p =>
      { p with phase := .resolving })[i]?.bind (·.callerOf a.request)) <;> rfl
  unfold heard
  cases p.hooks.on a.tap.decision with
  | none => exact told
  | some calls =>
      dsimp only
      rw [told]
      rfl

theorem echo_deliver (silent : h.Silent i) (delivered : h.deliver? i = some next) :
    h.Echoes (.deliver i) next := by
  obtain ⟨p, a, present, full, moved⟩ := deliver_cases i next delivered
  have quiet : (p.hooks.on a.tap.decision).getD [] = [] := by
    have here := silent a.tap.decision
    rwa [hooksOf, present] at here
  rcases moved with ⟨accepting, rfl⟩ | ⟨stale, rfl⟩
  · obtain ⟨events, echo⟩ := echo_heard (h := h) (i := i) p a
    refine ⟨events, fun followers history => ?_⟩
    have owned : ownsPrompt { h with followers, history } i = true := accepting.owned
    have accepts := accept_eq (h := { h with followers, history }) i p present a
    rw [quiet, List.foldl_nil, echo] at accepts
    simp only [move?, deliver?, present, full, owned, accepting.counts, if_true]
    rw [accepts, accept_eq i p present a, quiet]
    rfl
  · refine ⟨[], fun followers history => ?_⟩
    have owned : h.ownsPrompt i = true := by
      by_contra lost
      simp [deliver?, present, full, lost] at delivered
    have stays : ownsPrompt { h with followers, history } i = true := owned
    simp only [move?, deliver?, present, full, stays, stale, if_true]
    rfl

theorem echo_retire (retired : h.retire? i = some next) : h.Echoes (.retire i) next := by
  obtain ⟨p, a, present, full, owned, dead, rfl⟩ := retire_cases i next retired
  refine ⟨[], fun followers history => ?_⟩
  have stays : ownsPrompt { h with followers, history } i = true := owned
  have gone : isCancelled { h with followers, history } p.scope = true := dead
  simp only [move?, retire?, present, full, stays, gone, Option.isSome_some, Bool.and_self, if_true]
  rfl

theorem echo (housed : h.Housed) (m : Move) (draws : m.renders = false)
    (silent : ∀ i, m = .deliver i → h.Silent i) (taken : h.move? m = some next) : h.Echoes m next := by
  have agrees (followers : List Follower) (history : List Event) :
      h.Agrees { h with followers, history } := ⟨rfl, rfl, rfl⟩
  cases m with
  | dispatch scope => exact echo_dispatch scope taken
  | deliver i => exact echo_deliver (silent i rfl) taken
  | retire i => exact echo_retire taken
  | resumeCaller c =>
      obtain ⟨caller, request?, ending, -, -, -, goes⟩ := resume_local c taken
      obtain rfl := Option.some.inj (taken.symm.trans (goes h (.refl h) rfl))
      exact ⟨[.ended (.caller c) caller.name ending], fun _ _ => goes _ (agrees _ _) rfl⟩
  | advanceWork w =>
      obtain ⟨work, there, -⟩ := work_cases w taken
      obtain ⟨l, found⟩ := housed w work there
      obtain ⟨stage, jobs, events, -, -, goes⟩ := work_local there found taken
      obtain rfl := Option.some.inj (taken.symm.trans (goes h (.refl h) rfl rfl))
      exact ⟨events, fun _ _ => goes _ (agrees _ _) rfl rfl⟩
  | advanceWait w =>
      obtain ⟨f, e, -, goes⟩ := wait_local w taken
      obtain rfl := Option.some.inj (taken.symm.trans (goes h (.refl h) rfl))
      exact ⟨[e], fun _ _ => goes _ (agrees _ _) rfl⟩
  | followShown | followVisuals => cases draws

end Host

end ModalHost
