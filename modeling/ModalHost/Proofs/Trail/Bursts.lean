import ModalHost.Proofs.Trail.First
import ModalHost.Proofs.Progress

/-! Answers that are launched one after the other while the host moves by itself: nothing is queued
for the screen meanwhile, and the consumer stays until one of them is accepted. -/

namespace ModalHost

/-- Scopes of which none was cancelled meanwhile, and none got a job of some kind. -/
structure Tame (kind : Job → Bool) (scopes later : List Scope) : Prop where
  live (k : Nat) : cancelledAt later k = cancelledAt scopes k
  queue (k : Nat) (job : Job) : job ∈ queueAt later k → kind job = true → job ∈ queueAt scopes k

namespace Tame

variable {kind : Job → Bool} {scopes later last : List Scope}

theorem refl (kind : Job → Bool) (scopes : List Scope) : Tame kind scopes scopes :=
  ⟨fun _ => rfl, fun _ _ old _ => old⟩

theorem trans (first : Tame kind scopes later) (second : Tame kind later last) :
    Tame kind scopes last where
  live k := (second.live k).trans (first.live k)
  queue k job member is_kind := first.queue k job (second.queue k job member is_kind) is_kind

theorem push (home : Nat) (job : Job) (other : kind job = false) :
    Tame kind scopes (scopes.modify home (·.push job)) where
  live := any_getElem?_modify _ _ (fun s => by unfold Scope.push; split <;> rfl) scopes home
  queue k found member is_kind := by
    rw [queueAt_push] at member
    split at member
    · rcases List.mem_append.mp member with old | new
      · exact old
      · rw [List.mem_singleton.mp new, other] at is_kind
        cases is_kind
    · exact member

theorem pop (home : Nat) (job : Job) (jobs : List Job) (inside : home < scopes.length)
    (front : queueAt scopes home = job :: jobs) :
    Tame kind scopes (scopes.modify home fun s => { s with queue := jobs }) where
  live := any_getElem?_modify (fun s : Scope => { s with queue := jobs }) _ (fun _ => rfl) scopes home
  queue k found member _ := by
    rw [queueAt_pop _ _ _ _ inside] at member
    split at member
    · rename_i same
      rw [same, front]
      exact List.mem_cons_of_mem job member
    · exact member

end Tame

structure Asked (kind : Job → Bool) : Prop where
  settle (i request : Nat) : kind (.settle i request) = false
  enter (l w level : Nat) : kind (.enter l w level) = false
  leave (l w level : Nat) (awaited : Bool) : kind (.leave l w level awaited) = false

namespace Host

variable {kind : Job → Bool} {i request : Nat} {h next : Host}

theorem lacks_iff :
    h.lacks kind = true ↔ ∀ k job, job ∈ queueAt h.scopes k → kind job = false := by
  unfold lacks queueAt
  rw [List.all_eq_true]
  constructor
  · intro absent k job member
    cases found : h.scopes[k]? with
    | none => simp [found] at member
    | some s =>
        have nowhere := absent s (List.mem_of_getElem? found)
        rw [found] at member
        rw [Bool.not_eq_true'] at nowhere
        exact Bool.eq_false_iff.mpr (List.any_eq_false.mp nowhere job member)
  · intro absent s member
    obtain ⟨k, found⟩ := List.mem_iff_getElem?.mp member
    rw [Bool.not_eq_true', List.any_eq_false]
    intro job queued
    exact Bool.eq_false_iff.mp (absent k job (by rw [found]; exact queued))


theorem handles_updatePrompt (j : Nat) (f : Prompt → Prompt) (same : ∀ p, (f p).handle = p.handle) :
    (h.updatePrompt j f).prompts.map (·.handle) = h.prompts.map (·.handle) :=
  map_modify_invisible f (·.handle) j _ same

theorem runJob_frame (job : Job) (ran : h.runJob job = some next) :
    next.scopes = h.scopes ∧ next.callers = h.callers ∧
      next.prompts.map (·.handle) = h.prompts.map (·.handle) := by
  cases job with
  | publish j s visuals =>
      cases ran
      refine ⟨rfl, rfl, handles_updatePrompt j _ fun p => ?_⟩
      obtain ⟨shown, phase, same⟩ := Prompt.publish_eq p s visuals
      rw [same]
  | setPrompt j shown =>
      cases shown with
      | true =>
          cases ran
          refine ⟨rfl, rfl, handles_updatePrompt j _ fun p => ?_⟩
          obtain ⟨shown, phase, same⟩ := Prompt.appear_eq p
          rw [same]
      | false =>
          cases ran
          exact ⟨rfl, rfl, handles_updatePrompt j _ fun _ => rfl⟩
  | settle j s =>
      cases ran
      refine ⟨rfl, rfl, handles_updatePrompt j _ fun p => ?_⟩
      obtain ⟨shown, phase, same⟩ := Prompt.settle_eq p s
      rw [same]
  | offer j tap =>
      simp only [runJob] at ran
      split at ran
      · cases ran
        exact ⟨rfl, rfl, rfl⟩
      · split at ran
        · cases ran
        · cases ran
          exact ⟨rfl, rfl, handles_updatePrompt j _ fun _ => rfl⟩
  | leave l w level awaited =>
      cases awaited <;> cases ran <;> exact ⟨rfl, rfl, rfl⟩
  | hold opened =>
      cases opened with
      | true =>
          cases ran
          exact ⟨rfl, rfl, rfl⟩
      | false => cases ran
  | _ =>
      cases ran
      exact ⟨rfl, rfl, rfl⟩

theorem scopes_heard (p : Prompt) (a : Answer) : (h.heard i p a).scopes = h.scopes := by
  have notified : (h.notify i p a).scopes = h.scopes := by
    unfold notify resolve
    split <;> rfl
  unfold heard
  split
  · exact notified
  · exact notified

theorem resumed_frame (c : Nat) (resumed : h.resumeCaller? c = some next) :
    next.scopes = h.scopes ∧
      next.callers = h.callers.modify c (fun caller => { caller with ended := true }) ∧
      next.prompts.map (·.handle) = h.prompts.map (·.handle) := by
  obtain ⟨caller, found, -, moved⟩ := caller_cases c resumed
  have ended (g : Host) (callers : g.callers = h.callers) (ending : Ending) :
      g.endCaller c ending = (g.updateCaller c fun caller => { caller with ended := true }).record
        (.ended (.caller c) caller.name ending) := by
    simp only [endCaller, callers, found]
  cases moved with
  | told reply =>
      rw [ended h rfl]
      exact ⟨rfl, rfl, rfl⟩
  | cancelled p present dead =>
      have withdrawn : (h.withdraw caller.prompt caller.request).scopes = h.scopes ∧
          (h.withdraw caller.prompt caller.request).callers = h.callers ∧
          (h.withdraw caller.prompt caller.request).prompts.map (·.handle) =
            h.prompts.map (·.handle) := by
        have cleared := handles_updatePrompt (h := h) caller.prompt
          (fun p => { p with parked := none }) fun _ => rfl
        simp only [withdraw, present, isCancelled_updatePrompt, dead, if_true]
        split
        · split
          · exact ⟨rfl, rfl, cleared⟩
          · exact ⟨rfl, rfl, (handles_updatePrompt _ Prompt.vanish fun _ => rfl).trans cleared⟩
        · exact ⟨rfl, rfl, rfl⟩
      obtain ⟨scopes, callers, handles⟩ := withdrawn
      unfold endCancelled
      rw [found]
      dsimp only
      rw [ended _ callers]
      exact ⟨scopes, congrArg (List.modify · c _) callers, handles⟩

/-- The hooks that are registered for a prompt make no calls. -/
def Silent (h : Host) (i : Nat) : Prop := ∀ d, ((h.hooksOf i).on d).getD [] = []

theorem tame_deliver (asked : Asked kind) (silent : h.Silent i)
    (delivered : h.deliver? i = some next) : Tame kind h.scopes next.scopes := by
  obtain ⟨p, a, present, -, ⟨-, rfl⟩ | ⟨-, rfl⟩⟩ := deliver_cases i next delivered
  · have quiet : (p.hooks.on a.tap.decision).getD [] = [] := by
      have here := silent a.tap.decision
      rwa [hooksOf, present] at here
    rw [accept_eq i p present, quiet, List.foldl_nil, launch, scopes_heard]
    exact .push p.scope (.settle i a.request) (asked.settle i a.request)
  · exact .refl kind _

theorem tame_enterLevel (asked : Asked kind) (w level : Nat) :
    Tame kind h.scopes (h.enterLevel w level).scopes := by
  unfold enterLevel
  split
  · exact .refl kind _
  · split
    · unfold beginBlock
      split <;> exact .refl kind _
    · split
      · exact .refl kind _
      · exact .push _ _ (asked.enter _ _ _)

theorem tame_leaveLevel (asked : Asked kind) (w level : Nat) (text : String) :
    Tame kind h.scopes (h.leaveLevel w level text).scopes := by
  unfold leaveLevel
  split
  · exact .refl kind _
  · split
    · exact .refl kind _
    · split
      · exact .refl kind _
      · exact .push _ _ (asked.leave _ _ _ _)

theorem tame_launchLeaves (asked : Asked kind) (l w level : Nat) :
    Tame kind h.scopes (h.launchLeaves l w level).scopes := by
  induction level generalizing h with
  | zero => exact .refl kind _
  | succ level ih =>
      unfold launchLeaves
      split
      · exact .refl kind _
      · rename_i loading _
        refine Tame.trans (.push loading.scope (.leave l w (level + 1) false)
          (asked.leave _ _ _ _)) ?_
        exact ih (h := h.launch loading.scope _)

theorem tame_advanceWork (asked : Asked kind) (w : Nat) (advanced : h.advanceWork? w = some next) :
    Tame kind h.scopes next.scopes := by
  obtain ⟨work, found, moved⟩ := work_cases w advanced
  cases moved with
  | entered => exact tame_enterLevel asked w _
  | returned | left => exact tame_leaveLevel asked w _ _
  | panicked =>
      simp only [dropWork, found]
      exact tame_launchLeaves asked _ w _

/-- What moves by itself queues nothing that calls ask for, if the hooks of the only consumer that is
at work are silent. -/
theorem tame_move (asked : Asked kind) (silent : h.Silent i) (m : Move)
    (own : ∀ j, m = .deliver j → j = i) (taken : h.move? m = some next) :
    Tame kind h.scopes next.scopes := by
  cases m with
  | dispatch scope =>
      obtain ⟨lineage, job, jobs, front, done⟩ := dispatch_cases scope next taken
      rw [(runJob_frame job done).1]
      exact .pop scope job jobs (List.getElem?_eq_some_iff.mp front).1
        (queueAt_of_front _ _ _ _ _ front).1
  | deliver j =>
      obtain rfl := own j rfl
      exact tame_deliver asked silent taken
  | retire j =>
      obtain ⟨p, a, -, -, -, -, rfl⟩ := retire_cases j next taken
      exact .refl kind _
  | resumeCaller c =>
      rw [(resumed_frame c taken).1]
      exact .refl kind _
  | advanceWork w => exact tame_advanceWork asked w taken
  | advanceWait w =>
      obtain ⟨wait, -, moved⟩ := wait_cases w taken
      cases moved <;> exact .refl kind _
  | followShown f =>
      obtain ⟨followers, history, rfl⟩ := renderer_frame f (.inl taken)
      exact .refl kind _
  | followVisuals f =>
      obtain ⟨followers, history, rfl⟩ := renderer_frame f (.inr taken)
      exact .refl kind _

/-- A prompt is in hands that do not go away by themselves: its handle is there, or a caller that has
not been told anything. -/
def Manned (h : Host) (i : Nat) : Prop :=
  h.prompts[i]?.any (·.handle) = true ∨ ∃ (c : Nat) (caller : Caller),
    h.callers[c]? = some caller ∧ caller.prompt = i ∧ caller.ended = false ∧ caller.reply = none

theorem Manned.owned (manned : h.Manned i) : h.ownsPrompt i = true := by
  unfold ownsPrompt
  rcases manned with handle | ⟨c, caller, found, own, waits, -⟩
  · rw [handle, Bool.true_or]
  · have waiting : (h.callers.any fun c => c.prompt == i && !c.ended) = true :=
      List.any_eq_true.mpr ⟨caller, List.mem_of_getElem? found, by simp [own, waits]⟩
    rw [waiting, Bool.or_true]

theorem handled_same (handle : (next.prompts.map (·.handle))[i]? = (h.prompts.map (·.handle))[i]?) :
    next.prompts[i]?.any (·.handle) = h.prompts[i]?.any (·.handle) := by
  have through (g : Host) :
      g.prompts[i]?.any (·.handle) = (g.prompts.map (·.handle))[i]?.any id := by
    rw [List.getElem?_map]
    cases g.prompts[i]? <;> rfl
  rw [through, through, handle]

theorem Manned.same (manned : h.Manned i)
    (handle : (next.prompts.map (·.handle))[i]? = (h.prompts.map (·.handle))[i]?)
    (callers : next.callers = h.callers) : next.Manned i := by
  unfold Manned at manned ⊢
  rwa [handled_same handle, callers]

theorem manned_move (live : h.LiveFor i) (manned : h.Manned i) (m : Move)
    (own : ∀ j, m = .deliver j → j = i) (taken : h.move? m = some next)
    (unanswered : (h.entriesOfMove i m).filterMap Entry.accepted? = []) : next.Manned i := by
  cases m with
  | dispatch scope =>
      obtain ⟨lineage, job, jobs, front, done⟩ := dispatch_cases scope next taken
      obtain ⟨-, callers, handles⟩ := runJob_frame job done
      exact manned.same (by rw [handles]; rfl) callers
  | deliver j =>
      obtain rfl := own j rfl
      obtain ⟨p, a, present, full, ⟨accepting, rfl⟩ | ⟨-, rfl⟩⟩ := deliver_cases j next taken
      · simp [entriesOfMove, present, full, accepting.owned, accepting.counts,
          Entry.accepted?] at unanswered
      · have handles := handles_updatePrompt (h := h) j (fun p => { p with mailbox := none })
          fun _ => rfl
        exact manned.same (by rw [handles]) rfl
  | retire j =>
      obtain ⟨p, a, -, -, -, -, rfl⟩ := retire_cases j next taken
      have handles := handles_updatePrompt (h := h) j (fun p => { p with mailbox := none })
        fun _ => rfl
      exact manned.same (by rw [handles]) rfl
  | resumeCaller c =>
      obtain ⟨-, callers, handles⟩ := resumed_frame c taken
      rcases manned with handle | ⟨d, caller, found, own, waits, untold⟩
      · exact .inl ((handled_same (by rw [handles])).trans handle)
      · -- A caller that goes on has been told something, or its scope is cancelled.
        have other : c ≠ d := by
          rintro rfl
          obtain ⟨former, there, -, moved⟩ := caller_cases c taken
          obtain rfl := Option.some.inj (there.symm.trans found)
          cases moved with
          | cancelled p present dead =>
              rw [live p (own ▸ present)] at dead
              cases dead
          | told reply told =>
              rw [untold] at told
              cases told
        refine .inr ⟨d, caller, ?_, own, waits, untold⟩
        rw [callers, List.getElem?_modify_ne _ _ other, found]
  | advanceWork w =>
      have same := strand_advanceWork i none w next taken
      have prompt : next.prompts[i]? = h.prompts[i]? := congrArg Strand.prompt same
      exact manned.same (by simp [prompt]) (congrArg Strand.callers same)
  | advanceWait w =>
      have same := strand_advanceWait i none w next taken
      have prompt : next.prompts[i]? = h.prompts[i]? := congrArg Strand.prompt same
      exact manned.same (by simp [prompt]) (congrArg Strand.callers same)
  | followShown f =>
      obtain ⟨followers, history, rfl⟩ := renderer_frame f (.inl taken)
      exact manned.same rfl rfl
  | followVisuals f =>
      obtain ⟨followers, history, rfl⟩ := renderer_frame f (.inr taken)
      exact manned.same rfl rfl

/-- A turn of a burst of answers to `request`: one is launched through a responder of the prompt that
is bare or bound to the request, or something moves by itself, but no consumer of another prompt. -/
def Bursts (h : Host) (i request : Nat) : Session.Step ⊕ Move → Prop
  | .inl (.call (.press responder _)) => ∃ r, h.responder? responder = some r ∧ r.prompt = i ∧
      ∀ picture, r.picture = some picture → picture.request = request
  | .inl _ => False
  | .inr (.deliver j) => j = i
  | .inr _ => True

variable {turn : Session.Step ⊕ Move}

theorem Bursts.cases (bursts : h.Bursts i request turn) :
    (∃ m, turn = .inr m ∧ ∀ j, m = .deliver j → j = i) ∨
      ∃ responder decision r, turn = .inl (.call (.press responder decision)) ∧
        h.responder? responder = some r ∧ r.prompt = i ∧
        (∀ picture, r.picture = some picture → picture.request = request) ∧
        h.run [turn] = h.press r decision := by
  cases turn with
  | inr m =>
      refine .inl ⟨m, rfl, ?_⟩
      rintro j rfl
      exact bursts
  | inl s =>
      cases s with
      | call c =>
          cases c with
          | press responder decision =>
              obtain ⟨r, found, own, bound⟩ := bursts
              refine .inr ⟨responder, decision, r, rfl, found, own, bound, ?_⟩
              change (h.responder? responder).elim h (h.press · decision) = _
              rw [found]
              rfl
          | _ => cases bursts
      | _ => cases bursts

theorem Bursts.tame (bursts : h.Bursts i request turn) (asked : Asked kind)
    (offers : ∀ tap, kind (.offer i tap) = false) (silent : h.Silent i) :
    Tame kind h.scopes (h.run [turn]).scopes := by
  rcases bursts.cases with ⟨m, rfl, own⟩ | ⟨_, decision, r, -, -, rfl, -, pressed⟩
  · have turned : h.run [.inr m] = (h.move? m).getD h := rfl
    rw [turned]
    cases taken : h.move? m with
    | none => exact .refl kind _
    | some next => exact tame_move asked silent m own taken
  · rw [pressed]
    unfold press
    split
    · exact .refl kind _
    · exact .push _ _ (offers _)

theorem Bursts.manned (bursts : h.Bursts i request turn) (live : h.LiveFor i) (manned : h.Manned i)
    (unanswered : (h.entriesOfTurn i turn).filterMap Entry.accepted? = []) :
    (h.run [turn]).Manned i := by
  rcases bursts.cases with ⟨m, rfl, own⟩ | ⟨_, decision, r, -, -, -, -, pressed⟩
  · have turned : h.run [.inr m] = (h.move? m).getD h := rfl
    rw [turned]
    cases taken : h.move? m with
    | none => exact manned
    | some next => exact manned_move live manned m own taken unanswered
  · rw [pressed]
    unfold press
    split <;> exact manned

theorem Bursts.entries (bursts : h.Bursts i request turn) (silent : h.Silent i) :
    ∀ e ∈ h.entriesOfTurn i turn, (∀ hooks, e ≠ .registered hooks) ∧
      ∀ tap, e = .tapped tap → tap.aims request = true := by
  have carried (e : Entry) (passing : e.plain = false) : (∀ hooks, e ≠ .registered hooks) ∧
      ∀ tap, e = .tapped tap → tap.aims request = true := by
    constructor <;> rintro _ rfl <;> cases passing
  intro e member
  rcases bursts.cases with ⟨m, rfl, own⟩ | ⟨_, decision, r, rfl, found, rfl, bound, -⟩
  · cases m with
    | dispatch scope =>
        simp only [entriesOfTurn, entriesOfMove] at member
        split at member
        · split at member
          · split at member <;> exact carried e (List.mem_singleton.mp member ▸ rfl)
          · cases member
        · cases member
    | deliver j =>
        obtain rfl := own j rfl
        simp only [entriesOfTurn, entriesOfMove] at member
        split at member
        · cases member
        · rename_i p present
          split at member
          · cases member
          · rename_i a full
            split at member
            · cases member
            · split at member
              · have quiet : (p.hooks.on a.tap.decision).getD [] = [] := by
                  have here := silent a.tap.decision
                  rwa [hooksOf, present] at here
                rw [quiet, if_pos trivial] at member
                exact carried e (List.mem_singleton.mp member ▸ rfl)
              · rw [if_pos trivial] at member
                exact carried e (List.mem_singleton.mp member ▸ rfl)
    | retire j =>
        simp only [entriesOfTurn, entriesOfMove] at member
        split at member
        · obtain ⟨a, -, rfl⟩ := Option.map_eq_some_iff.mp (Option.mem_toList.mp member)
          exact carried _ rfl
        · cases member
    | _ => cases member
  · simp only [entriesOfTurn, entriesOf, found] at member
    split at member
    · rename_i s p same present
      obtain rfl := Option.some.inj same
      rw [if_pos rfl] at member
      rw [List.mem_singleton.mp member]
      refine ⟨by rintro hooks ⟨⟩, ?_⟩
      rintro tap ⟨⟩
      unfold Tap.aims
      dsimp only
      cases shot : r.picture with
      | none => rfl
      | some picture => simp [bound picture shot]
    · cases member

theorem hooks_unregistered (first : Hooks Call) (entries : List Entry)
    (none_new : ∀ e ∈ entries, ∀ hooks, e ≠ .registered hooks) :
    Entry.hooks first entries = first := by
  induction entries with
  | nil => rfl
  | cons e entries ih =>
      have rest := ih fun e later => none_new e (List.mem_cons_of_mem _ later)
      cases e with
      | registered hooks => exact absurd rfl (none_new _ List.mem_cons_self hooks)
      | _ => exact rest

/-- What a burst leaves as it is, and what it adds to the trail of the prompt. -/
structure Lull (i request : Nat) (h : Host) (told : List Entry) (next : Host) : Prop where
  tame (kind : Job → Bool) (asked : Asked kind) (offers : ∀ tap, kind (.offer i tap) = false) :
    Tame kind h.scopes next.scopes
  hooks : next.hooksOf i = h.hooksOf i
  aims : ∀ tap ∈ told.filterMap Entry.tapped?, tap.aims request = true
  manned : told.filterMap Entry.accepted? = [] → next.Manned i

theorem asked_never : Asked fun _ => false :=
  ⟨fun _ _ => rfl, fun _ _ _ => rfl, fun _ _ _ _ => rfl⟩

theorem asked_hold : Asked (· == .hold false) :=
  ⟨fun _ _ => rfl, fun _ _ _ => rfl, fun _ _ _ _ => rfl⟩

theorem asked_directs (i : Nat) : Asked (Job.directs i) :=
  ⟨fun _ _ => rfl, fun _ _ _ => rfl, fun _ _ _ _ => rfl⟩

theorem jobs_elsewhere (reachable : h.Reachable) (p : Prompt) (present : h.prompts[i]? = some p)
    (drained : h.queued p.scope = []) (k : Nat) (job : Job) (member : job ∈ queueAt h.scopes k) :
    job.prompt? ≠ some i := by
  intro about
  obtain ⟨q, there, rfl⟩ := reachable.woven.tidy.jobs k job i member about
  obtain rfl := Option.some.inj (there.symm.trans present)
  change job ∈ h.queued q.scope at member
  rw [drained] at member
  cases member

theorem Lull.lacks (lull : Lull i request h told next) (reachable : h.Reachable) (p : Prompt)
    (present : h.prompts[i]? = some p) (drained : h.queued p.scope = []) :
    next.lacks (Job.directs i) = true := by
  rw [lacks_iff]
  intro k job member
  refine Bool.eq_false_iff.mpr fun directs => ?_
  have before := (lull.tame _ (asked_directs i) fun _ => rfl).queue k job member directs
  refine jobs_elsewhere reachable p present drained k job before ?_
  cases job with
  | publish | setPrompt => exact congrArg some (beq_iff_eq.mp directs)
  | _ => cases directs

theorem Lull.liveFor (lull : Lull i request h told next) (follows : Follows i h told next)
    (p : Prompt) (present : h.prompts[i]? = some p) (live : h.isCancelled p.scope = false) :
    next.LiveFor i := by
  intro q there
  obtain ⟨r, here, home⟩ := follows.home p present
  obtain rfl := Option.some.inj (here.symm.trans there)
  exact ((lull.tame (fun _ => false) asked_never fun _ => rfl).live r.scope).trans (home ▸ live)

theorem lull_run (reachable : h.Reachable) (p : Prompt) (present : h.prompts[i]? = some p)
    (live : h.isCancelled p.scope = false) (silent : h.Silent i) (manned : h.Manned i)
    (turns : List (Session.Step ⊕ Move))
    (bursts : ∀ n (below : n < turns.length), (h.run (turns.take n)).Bursts i request turns[n])
    (n : Nat) (inside : n ≤ turns.length) :
    Lull i request h (trail i h (turns.take n)) (h.run (turns.take n)) := by
  induction n with
  | zero => exact ⟨fun _ _ _ => .refl _ _, rfl, nofun, fun _ => manned⟩
  | succ n ih =>
      have before := ih (Nat.le_of_succ_le inside)
      have burst := bursts n inside
      have quiet : (h.run (turns.take n)).Silent i := by
        intro d
        rw [before.hooks]
        exact silent d
      have told := burst.entries quiet
      have follows := follows_turn (i := i) (reachable.run (turns.take n)).woven turns[n]
      rw [run_take_succ h turns n inside, trail_take_succ h i turns n inside]
      refine ⟨fun kind asked offers => ?_, ?_, ?_, ?_⟩
      · exact (before.tame kind asked offers).trans (burst.tame asked offers quiet)
      · rw [follows.hooks, hooks_unregistered _ _ fun e member => (told e member).1, before.hooks]
      · intro tap member
        rw [List.filterMap_append] at member
        rcases List.mem_append.mp member with old | new
        · exact before.aims tap old
        · obtain ⟨e, there, same⟩ := List.mem_filterMap.mp new
          cases e with
          | tapped given =>
              obtain rfl := Option.some.inj same
              exact (told _ there).2 given rfl
          | _ => cases same
      · intro unanswered
        rw [List.filterMap_append] at unanswered
        obtain ⟨first, last⟩ := List.append_eq_nil_iff.mp unanswered
        have alive := before.liveFor (follows_run reachable (turns.take n)) p present live
        exact burst.manned alive (before.manned first) last

end Host

end ModalHost
