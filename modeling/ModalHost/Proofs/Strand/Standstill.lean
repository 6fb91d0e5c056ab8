import ModalHost.Proofs.Strand.Answers
import ModalHost.Proofs.Lane.Strands

/-! A prompt on a cancelled scope: it shows nothing new, can only go away, and takes no answer but one
that lay in its mailbox already. -/

namespace ModalHost

/-- Whether an event is an answer to a prompt, or a hook that starts for one. -/
def Event.attends (i : Nat) : Event → Bool
  | .accepted j _ _ | .hookRan j _ _ => j == i
  | _ => false

def Answer.heard (i : Nat) (a : Answer) (resumed : Option Nat) (tag : Option String) : List Event :=
  (tag.map (Event.hookRan i · a.tap.decision)).toList ++ [.accepted i a resumed]

namespace Prompt

def Hidden (p : Prompt) : Prop := p.shown.value = false ∧ p.phase = .idle

/-- No answer that counts lies in the mailbox. -/
def Unanswered (p : Prompt) : Prop := ∀ a, p.mailbox = some a → p.accepts a = false

structure Keeps (p next : Prompt) : Prop where
  scope : next.scope = p.scope
  visuals : next.visuals = p.visuals
  published : next.published = p.published
  issued : p.issued ≤ next.issued

/-- What a prompt shows is what it showed, and it may have gone away meanwhile. -/
structure Fades (p next : Prompt) : Prop extends p.Keeps next where
  mailbox : next.mailbox = none ∨ next.mailbox = p.mailbox
  screen : next.shown = p.shown ∧ next.phase = p.phase ∨ next.Hidden

/-- A prompt fades, unless the answer in its mailbox has been accepted. -/
inductive Stilled (i : Nat) (p next : Prompt) : List Event → Prop
  | left (fades : p.Fades next) : Stilled i p next []
  | answered (keeps : p.Keeps next) (a : Answer) (full : p.mailbox = some a)
      (counts : p.accepts a = true) (mailbox : next.mailbox = none)
      (screen : next.shown = p.shown ∧ next.phase = .resolving ∨ next.Hidden)
      (resumed : Option Nat) (tag : Option String) : Stilled i p next (a.heard i resumed tag)

variable {i : Nat} {p next last : Prompt} {events later : List Event}

theorem Keeps.refl (p : Prompt) : p.Keeps p := ⟨rfl, rfl, rfl, Nat.le_refl _⟩

theorem Keeps.trans (first : p.Keeps next) (second : next.Keeps last) : p.Keeps last where
  scope := second.scope.trans first.scope
  visuals := second.visuals.trans first.visuals
  published := second.published.trans first.published
  issued := first.issued.trans second.issued

theorem Fades.refl (p : Prompt) : p.Fades p := ⟨.refl p, .inr rfl, .inl ⟨rfl, rfl⟩⟩

theorem Stilled.refl (p : Prompt) : p.Stilled i p [] := .left (.refl p)

theorem Stilled.keeps (stilled : p.Stilled i next events) : p.Keeps next := by
  cases stilled with
  | left fades => exact fades.toKeeps
  | answered keeps => exact keeps

theorem Stilled.fades (stilled : p.Stilled i next events) (unanswered : p.Unanswered) :
    events = [] ∧ p.Fades next := by
  cases stilled with
  | left fades => exact ⟨rfl, fades⟩
  | answered _ a full counts => cases (unanswered a full).symm.trans counts

theorem Stilled.mailbox (stilled : p.Stilled i next events) (empty : p.mailbox = none) :
    next.mailbox = none := by
  cases stilled with
  | left fades => exact fades.mailbox.elim id (·.trans empty)
  | answered _ _ _ _ gone => exact gone

theorem hidden_vanish (p : Prompt) : p.vanish.Hidden := ⟨Cell.value_set p.shown false, rfl⟩

theorem Hidden.same (hidden : p.Hidden) (shown : next.shown = p.shown) (phase : next.phase = p.phase) :
    next.Hidden :=
  ⟨by rw [shown, hidden.1], phase.trans hidden.2⟩

theorem Fades.trans (first : p.Fades next) (second : next.Fades last) : p.Fades last where
  toKeeps := first.toKeeps.trans second.toKeeps
  mailbox := second.mailbox.elim .inl fun same => first.mailbox.imp same.trans same.trans
  screen := by
    rcases second.screen with ⟨shown, phase⟩ | gone
    · exact first.screen.imp (fun before => ⟨shown.trans before.1, phase.trans before.2⟩)
        fun hidden => hidden.same shown phase
    · exact .inr gone

theorem Stilled.hidden (stilled : p.Stilled i next events) (hidden : p.Hidden) : next.Hidden := by
  cases stilled with
  | left fades => exact fades.screen.elim (fun same => hidden.same same.1 same.2) id
  | answered keeps a full counts =>
      cases hidden.2.symm.trans ((p.accepts_iff a).mp counts).2

theorem Fades.accepts (fades : p.Fades next) (a : Answer) (known : a.request ≤ p.issued)
    (counts : next.accepts a = true) : p.accepts a = true ∧ next.shown = p.shown := by
  obtain ⟨newest, awaits⟩ := (next.accepts_iff a).mp counts
  rcases fades.screen with ⟨shown, phase⟩ | ⟨-, idle⟩
  · exact ⟨(p.accepts_iff a).mpr
      ⟨Nat.le_antisymm known (newest ▸ fades.issued), phase.symm.trans awaits⟩, shown⟩
  · cases idle.symm.trans awaits

theorem Stilled.trans (first : p.Stilled i next events) (second : next.Stilled i last later)
    (known : ∀ a, p.mailbox = some a → a.request ≤ p.issued) :
    p.Stilled i last (later ++ events) := by
  cases first with
  | left fades =>
      rw [List.append_nil]
      cases second with
      | left further => exact .left (fades.trans further)
      | answered keeps a full counts empty screen resumed tag =>
          have held : p.mailbox = some a := by
            rcases fades.mailbox with none | same
            · cases none.symm.trans full
            · exact same.symm.trans full
          obtain ⟨counted, shown⟩ := fades.accepts a (known a held) counts
          exact .answered (fades.toKeeps.trans keeps) a held counted empty
            (screen.imp (fun now => ⟨now.1.trans shown, now.2⟩) id) resumed tag
  | answered keeps a full counts empty screen resumed tag =>
      cases second with
      | left fades =>
          refine .answered (keeps.trans fades.toKeeps) a full counts
            (fades.mailbox.elim id (·.trans empty)) ?_ resumed tag
          rcases fades.screen with ⟨shown, phase⟩ | gone
          · exact screen.imp (fun before => ⟨shown.trans before.1, phase.trans before.2⟩)
              fun hidden => hidden.same shown phase
          · exact .inr gone
      | answered _ b held => cases empty.symm.trans held

end Prompt

namespace Strand

variable {i : Nat} {allowed : Job → Prop} {σ τ : Strand}

theorem Reachable.known (reachable : Reachable i σ) (p : Prompt) (present : σ.prompt = some p)
    (a : Answer) (full : p.mailbox = some a) : a.request ≤ p.issued := by
  have timely := (reachable.scheduled.present p present).answer a full
  exact timely.known.trans timely.stamped

theorem attends_heard (i : Nat) (a : Answer) (resumed : Option Nat) (tag : Option String) :
    (a.heard i resumed tag).filter (·.attends i) = a.heard i resumed tag := by
  cases tag <;> simp [Answer.heard, Event.attends]

theorem Step.stilled (step : Step i allowed σ τ) (p : Prompt) (present : σ.prompt = some p)
    (dead : σ.isCancelled p.scope = true) : ∃ q events, τ.prompt = some q ∧
      p.Stilled i q events ∧ τ.log.filter (·.attends i) = events ++ σ.log.filter (·.attends i) := by
  have same {q : Prompt} (here : σ.prompt = some q) : q = p :=
    Option.some.inj (here.symm.trans present)
  have kept {q : Prompt} (keeps : p.Keeps q) (mailbox : q.mailbox = none ∨ q.mailbox = p.mailbox)
      (shown : q.shown = p.shown) (phase : q.phase = p.phase) : p.Stilled i q [] :=
    .left ⟨keeps, mailbox, .inl ⟨shown, phase⟩⟩
  cases step with
  | opened absent =>
      rw [absent] at present
      cases present
  | asked q here =>
      obtain rfl := same here
      exact ⟨_, [], rfl, kept ⟨rfl, rfl, rfl, Nat.le_succ _⟩ (.inr rfl) rfl rfl, rfl⟩
  | withdrawn q here c caller _ _ _ ending =>
      obtain rfl := same here
      have cases := withdraw_cases (i := i) (σ := σ) q caller.request
      have quiet : ((σ.withdraw i q caller.request).conclude c caller.name ending).log.filter
          (·.attends i) = [] ++ σ.log.filter (·.attends i) := by
        rw [log_conclude, log_withdraw]
        rfl
      suffices still : ∃ r, ((σ.withdraw i q caller.request).conclude c caller.name ending).prompt =
          some r ∧ q.Stilled i r [] by
        obtain ⟨r, there, stilled⟩ := still
        exact ⟨r, [], there, stilled, quiet⟩
      rcases cases with ⟨whole, -⟩ | ⟨-, whole | whole | whole⟩ <;>
        simp only [conclude, whole, launch]
      · exact ⟨q, here, .refl q⟩
      · exact ⟨_, rfl, kept ⟨rfl, rfl, rfl, Nat.le_refl _⟩ (.inr rfl) rfl rfl⟩
      · exact ⟨_, rfl, .left ⟨⟨rfl, rfl, rfl, Nat.le_refl _⟩, .inr rfl,
          .inr (Prompt.hidden_vanish _)⟩⟩
      · exact ⟨_, rfl, kept ⟨rfl, rfl, rfl, Nat.le_refl _⟩ (.inr rfl) rfl rfl⟩
  | tended q here =>
      obtain rfl := same here
      exact ⟨_, [], rfl, kept ⟨rfl, rfl, rfl, Nat.le_refl _⟩ (.inr rfl) rfl rfl, rfl⟩
  | refused _ q here =>
      obtain rfl := same here
      exact ⟨_, [], rfl, kept ⟨rfl, rfl, rfl, Nat.le_refl _⟩ (.inl rfl) rfl rfl, rfl⟩
  | ran _ q here lineage job jobs front =>
      obtain rfl := same here
      have live := (queueAt_of_front σ.scopes q.scope lineage job jobs front).2
      cases dead.symm.trans live
  | accepted _ q here a full counts =>
      obtain rfl := same here
      obtain ⟨parked, unparked, -⟩ :=
        Prompt.unpark_eq { q with mailbox := none, phase := .resolving } a.request
      have keeps : q.Keeps { q with mailbox := none, phase := .resolving, parked } :=
        ⟨rfl, rfl, rfl, Nat.le_refl _⟩
      have answered := Prompt.Stilled.answered (i := i) keeps a full counts rfl (.inl ⟨rfl, rfl⟩)
        (q.callerOf a.request) ((q.hooks.on a.tap.decision).map fun _ => q.hooks.tag)
      refine ⟨_, _, rfl, unparked ▸ answered, ?_⟩
      · rw [← attends_heard, ← List.filter_append]
        simp only [Answer.heard, Option.map_map, List.append_assoc, List.singleton_append]
        rfl
  | elsewhere callers events kept grown foreign =>
      refine ⟨p, [], present, .refl p, ?_⟩
      rw [List.filter_append, List.filter_eq_nil_iff.mpr]
      intro e member
      obtain ⟨_, _, _, _, -, -, rfl⟩ := foreign e member
      exact Bool.false_ne_true
  | resumed | queued | cancelled | branched | settled | pictured =>
      exact ⟨p, [], present, .refl p, rfl⟩

theorem Step.dead_ending (step : Step i allowed σ τ) (p : Prompt) (present : σ.prompt = some p)
    (dead : σ.isCancelled p.scope = true) (c : Nat) (caller : Caller)
    (found : τ.callers[c]? = some caller) (own : caller.prompt = i) (name : String)
    (ending : Ending) (member : .ended (.caller c) name ending ∈ τ.log) :
    .ended (.caller c) name ending ∈ σ.log ∨ ending = .cancelled ∨ ending = .abandoned := by
  cases step with
  | opened | asked | cancelled => exact .inl ((List.mem_cons.mp member).resolve_left nofun)
  | withdrawn q here d former there his waits given cause =>
      rw [log_conclude, log_withdraw] at member
      rcases List.mem_cons.mp member with new | before
      · right
        have value : ending = given := (Event.ended.inj new).2.2
        rcases cause with abandoned | ⟨cancelled, -⟩
        · exact .inr (value.trans abandoned)
        · exact .inl (value.trans cancelled)
      · exact .inl before
  | resumed q here d former there his waits reply told live =>
      obtain rfl : q = p := Option.some.inj (here.symm.trans present)
      cases dead.symm.trans live
  | accepted _ q here a full counts =>
      rcases List.mem_append.mp member with hook | before
      · obtain ⟨_, -, ran⟩ := Option.map_eq_some_iff.mp (Option.mem_toList.mp hook)
        cases ran
      · exact .inl ((List.mem_cons.mp before).resolve_left nofun)
  | elsewhere callers events kept grown foreign =>
      rcases List.mem_append.mp member with new | before
      · obtain ⟨d, stranger, _, _, there, away, same⟩ := foreign _ new
        obtain rfl : c = d := TaskRef.caller.inj (Event.ended.inj same).1
        obtain rfl : stranger = caller := Option.some.inj (there.symm.trans found)
        exact absurd own away
      · exact .inl before
  | queued | tended | branched | ran | refused | settled | pictured => exact .inl member

theorem Step.unasked_rests (step : Step i allowed σ τ) (p : Prompt) (present : σ.prompt = some p)
    (dead : σ.isCancelled p.scope = true) (free : p.parked = none) :
    ∃ q, τ.prompt = some q ∧ (p.issued < q.issued ∨
      q.issued = p.issued ∧ q.parked = none ∧ (q.Hidden ↔ p.Hidden)) := by
  have same {q : Prompt} (here : σ.prompt = some q) : q = p :=
    Option.some.inj (here.symm.trans present)
  cases step with
  | opened absent =>
      rw [absent] at present
      cases present
  | asked q here =>
      obtain rfl := same here
      exact ⟨_, rfl, .inl (Nat.lt_succ_self _)⟩
  | withdrawn q here c caller =>
      obtain rfl := same here
      have kept : σ.withdraw i q caller.request = σ := by simp [withdraw, free]
      rw [conclude, kept]
      exact ⟨q, here, .inr ⟨rfl, free, .rfl⟩⟩
  | tended q here =>
      obtain rfl := same here
      exact ⟨_, rfl, .inr ⟨rfl, free, .rfl⟩⟩
  | refused _ q here =>
      obtain rfl := same here
      exact ⟨_, rfl, .inr ⟨rfl, free, .rfl⟩⟩
  | ran _ q here lineage job jobs front =>
      obtain rfl := same here
      have live := (queueAt_of_front σ.scopes q.scope lineage job jobs front).2
      cases dead.symm.trans live
  | accepted _ q here a full counts =>
      obtain rfl := same here
      obtain ⟨parked, unparked, slot⟩ :=
        Prompt.unpark_eq { q with mailbox := none, phase := .resolving } a.request
      refine ⟨_, rfl, .inr ?_⟩
      rw [unparked]
      refine ⟨rfl, slot.elim id (·.trans free), ⟨fun hidden => ?_, fun hidden => ?_⟩⟩
      · cases hidden.2
      · cases hidden.2.symm.trans ((q.accepts_iff a).mp counts).2
  | resumed | queued | cancelled | branched | settled | pictured | elsewhere =>
      exact ⟨p, present, .inr ⟨rfl, free, .rfl⟩⟩

structure Stands (i : Nat) (σ τ : Strand) (p : Prompt) : Prop where
  prompt : ∃ q events, τ.prompt = some q ∧ p.Stilled i q events ∧
    τ.log.filter (·.attends i) = events ++ σ.log.filter (·.attends i)
  dead : τ.isCancelled p.scope = true
  endings (c : Nat) (caller : Caller) (name : String) (ending : Ending) :
    τ.callers[c]? = some caller → caller.prompt = i → .ended (.caller c) name ending ∈ τ.log →
      .ended (.caller c) name ending ∈ σ.log ∨ ending = .cancelled ∨ ending = .abandoned

theorem Path.stands (path : Path i allowed σ τ) (reachable : Reachable i σ) (p : Prompt)
    (present : σ.prompt = some p) (dead : σ.isCancelled p.scope = true) : Stands i σ τ p := by
  induction path with
  | refl =>
      exact ⟨⟨p, [], present, .refl p, rfl⟩, dead, fun _ _ _ _ _ _ member => .inl member⟩
  | @tail υ τ before step ih =>
      obtain ⟨q, events, here, stilled, attends⟩ := ih.prompt
      have ended : υ.isCancelled q.scope = true := stilled.keeps.scope ▸ ih.dead
      obtain ⟨r, later, there, further, attended⟩ := step.stilled q here ended
      refine ⟨⟨r, later ++ events, there, stilled.trans further (reachable.known p present), ?_⟩,
        step.persist.dead ih.dead, ?_⟩
      · rw [attended, attends, List.append_assoc]
      intro c caller name ending found own member
      rcases step.dead_ending q here ended c caller found own name ending member with
        earlier | now
      · -- the caller has ended before the step, so it was there before the step
        have inside := (Path.reachable before reachable).concluded.inside c name ending earlier
        rcases step.caller_origin c caller found own with ⟨former, was, his, -⟩ | ⟨new, -⟩
        · exact ih.endings c former name ending was his earlier
        · omega
      · exact .inr now

theorem Path.unasked_rests (path : Path i allowed σ τ) (reachable : Reachable i σ) (p : Prompt)
    (present : σ.prompt = some p) (dead : σ.isCancelled p.scope = true) (free : p.parked = none) :
    ∃ q, τ.prompt = some q ∧ (p.issued < q.issued ∨
      q.issued = p.issued ∧ q.parked = none ∧ (q.Hidden ↔ p.Hidden)) := by
  induction path with
  | refl => exact ⟨p, present, .inr ⟨rfl, free, .rfl⟩⟩
  | tail before step ih =>
      have stands := Path.stands before reachable p present dead
      obtain ⟨q, events, here, stilled, -⟩ := stands.prompt
      have ended := stilled.keeps.scope ▸ stands.dead
      obtain ⟨former, same, goes⟩ := ih
      obtain rfl : q = former := Option.some.inj (here.symm.trans same)
      rcases goes with newer | ⟨issued, empty, kept⟩
      · obtain ⟨r, _, there, further, -⟩ := step.stilled q here ended
        exact ⟨r, there, .inl (Nat.lt_of_lt_of_le newer further.keeps.issued)⟩
      · obtain ⟨r, there, newer | ⟨same, still, also⟩⟩ := step.unasked_rests q here ended empty
        · exact ⟨r, there, .inl (issued ▸ newer)⟩
        · exact ⟨r, there, .inr ⟨same.trans issued, still, also.trans kept⟩⟩

end Strand

end ModalHost
