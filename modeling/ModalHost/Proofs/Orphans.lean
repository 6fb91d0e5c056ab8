import ModalHost.Proofs.Cancellation

/-! What a caller that ends as cancelled leaves behind: it takes its prompt away if it was still to
be told something, and leaves it as it is if it had been told. -/

namespace ModalHost

theorem Ground.Path.ended_before {γ δ : Ground} (path : Ground.Path False γ δ) (c : Nat)
    (name : String) (ended : .ended (.caller c) name .cancelled ∈ δ.log) :
    .ended (.caller c) name .cancelled ∈ γ.log := by
  induction path with
  | refl => exact ended
  | tail _ step ih =>
      apply ih
      cases step with
      | cancelled root inside => exact (List.mem_cons.mp ended).resolve_left nofun
      | ended may => exact may.elim
      | branched | opened | tended | toggled | ran => exact ended

namespace Host

variable {h : Host} {due : Nat → Option Nat}

/-- A caller that nobody has told anything yet, or that has yet to ask. -/
def Untold (h : Host) (c : Nat) : Prop :=
  ∀ caller, h.callers[c]? = some caller → caller.reply = none

theorem untold_fresh (c : Nat) (beyond : h.callers.length ≤ c) : h.Untold c := by
  intro caller found
  rw [List.getElem?_eq_none beyond] at found
  cases found

theorem prompt_endCancelled (c : Nat) (caller : Caller) (found : h.callers[c]? = some caller)
    (p : Prompt) (present : h.prompts[caller.prompt]? = some p)
    (dead : h.isCancelled p.scope = true) :
    (h.endCancelled c).prompts[caller.prompt]? =
      some (if p.parked.any (·.request == caller.request) then
        if p.hooks.isEmpty then { p with parked := none }.vanish else { p with parked := none }
      else p) := by
  have withdrawn : (h.endCancelled c).prompts =
      (h.withdraw caller.prompt caller.request).prompts := by
    simp only [endCancelled, found, endCaller]
    split <;> rfl
  rw [withdrawn, withdraw, present]
  dsimp only
  cases held : p.parked.any (·.request == caller.request) with
  | false => simp [present]
  | true =>
      cases bare : p.hooks.isEmpty with
      | false => simp [present]
      | true => simp [present, dead, Prompt.vanish]

theorem callers_endCancelled (c : Nat) (caller : Caller) (found : h.callers[c]? = some caller) :
    (h.endCancelled c).callers[c]? = some { caller with ended := true } := by
  have still : (h.withdraw caller.prompt caller.request).callers[c]? = some caller := by
    rw [callers_withdraw, found]
  simp [endCancelled, found, endCaller, still, updateCaller, record]

theorem CancelsWait.ends {c : Nat} {next : Host} (cancels : h.CancelsWait c next) :
    ∃ (g : Host) (caller : Caller) (p : Prompt), next = g.endCancelled c ∧
      g.callers[c]? = some caller ∧ g.prompts[caller.prompt]? = some p ∧
      g.isCancelled p.scope = true ∧
      (g = h ∧ caller.ended = false ∨
        h.callers.length = c ∧ p.parked = some ⟨caller.request, c⟩) := by
  cases cancels with
  | resumed caller p found waits present dead =>
      exact ⟨h, caller, p, rfl, found, present, dead, .inl ⟨rfl, waits⟩⟩
  | asked i p visuals name present dead last =>
      subst last
      obtain ⟨caller, there, -, rfl, request, -⟩ := caller_enrolled i p present visuals name
      have asked := strand_issue (h.enrol name caller.prompt (p.issued + 1)) caller.prompt none p
        present (some ⟨p.issued + 1, h.callers.length⟩) visuals
      refine ⟨_, caller, _, await_dead caller.prompt p present dead visuals name, there,
        congrArg Strand.prompt asked, ?_, .inr ⟨rfl, by rw [request]⟩⟩
      rw [isCancelled_asked]
      exact dead

theorem parked_iff_untold (woven : h.Woven due) (c : Nat) (caller : Caller)
    (found : h.callers[c]? = some caller) (waits : caller.ended = false) (p : Prompt)
    (present : h.prompts[caller.prompt]? = some p) :
    p.parked.any (·.request == caller.request) = true ↔ h.Untold c := by
  have attended := (woven caller.prompt).attended.present p present
  constructor
  · intro held other there
    obtain rfl : caller = other := Option.some.inj (found.symm.trans there)
    obtain ⟨q, parked, request⟩ := (Option.any_eq_true _ _).mp held
    obtain ⟨holder, here, his, wanted, unaware, -⟩ := attended.parked q parked
    obtain rfl : q.caller = c := attended.distinct q.caller c holder caller here his found rfl
      (wanted.trans (beq_iff_eq.mp request))
    obtain rfl : caller = holder := Option.some.inj (found.symm.trans here)
    exact unaware
  · intro untold
    rw [attended.waiting c caller found rfl waits (untold caller found)]
    simp

end Host

open Host

namespace Moment

variable {m n : Moment}

theorem Next.cancels (next : m.Next n) (kept : m.Kept) (c : Nat) (name : String)
    (ended : .ended (.caller c) name .cancelled ∈ n.host.history)
    (new : .ended (.caller c) name .cancelled ∉ m.host.history) : m.host.CancelsWait c n.host := by
  rw [← mem_ground_log _ rfl] at ended new
  rcases next.ground_cases kept with quiet | ⟨d, cancels⟩
  · exact absurd (quiet.ended_before c name ended) new
  · obtain ⟨other, ground⟩ := cancels.ground
    rw [ground] at ended
    rcases List.mem_cons.mp ended with same | before
    · obtain rfl : c = d := TaskRef.caller.inj (Event.ended.inj same).1
      exact cancels
    · exact absurd before new

/-- What the end of a caller leaves of its prompt: if the caller had not been told anything, the
prompt is hidden unless hooks are registered, and otherwise it is left alone. -/
theorem Next.prompt_of_cancelled (next : m.Next n) (kept : m.Kept) (c : Nat) (name : String)
    (ended : .ended (.caller c) name .cancelled ∈ n.host.history)
    (new : .ended (.caller c) name .cancelled ∉ m.host.history) (caller : Caller)
    (found : n.host.callers[c]? = some caller) (p : Prompt)
    (present : n.host.prompts[caller.prompt]? = some p) :
    n.host.isCancelled p.scope = true ∧
      (m.host.Untold c → p.hooks.isEmpty = true → p.Hidden) ∧
      (¬ m.host.Untold c → m.host.prompts[caller.prompt]? = some p) := by
  obtain ⟨g, former, r, ends, there, here, stopped, how⟩ :=
    (next.cancels kept c name ended new).ends
  have held : r.parked.any (·.request == former.request) = true ↔ m.host.Untold c := by
    rcases how with ⟨rfl, waits⟩ | ⟨last, parked⟩
    · exact parked_iff_untold kept.woven c former there waits r here
    · simp [parked, untold_fresh c (Nat.le_of_eq last)]
  rw [ends, callers_endCancelled c former there] at found
  obtain rfl := Option.some.inj found
  rw [ends, prompt_endCancelled c former there r here stopped] at present
  refine ⟨?_, ?_, ?_⟩
  · have home : p.scope = r.scope := by
      rw [← Option.some.inj present]
      split
      · split <;> rfl
      · rfl
    rw [ends, ← isCancelled_ground, ground_endCancelled c former there, isCancelled_ground, home]
    exact stopped
  · intro untold bare
    rw [if_pos (held.mpr untold)] at present
    split at present
    · rw [← Option.some.inj present]
      exact Prompt.hidden_vanish _
    · rename_i hooked
      rw [← Option.some.inj present] at bare
      exact absurd bare hooked
  · intro told
    rw [if_neg (mt held.mp told)] at present
    obtain rfl := Option.some.inj present
    rcases how with ⟨rfl, -⟩ | ⟨last, -⟩
    · exact here
    · exact absurd (untold_fresh c (Nat.le_of_eq last)) told

theorem Run.left_alone (run : m.Run n) (kept : m.Kept) (i : Nat) (p q : Prompt)
    (present : m.host.prompts[i]? = some p) (dead : m.host.isCancelled p.scope = true)
    (free : p.parked = none) (after : n.host.prompts[i]? = some q) (unasked : q.issued = p.issued) :
    q.Hidden ↔ p.Hidden := by
  obtain ⟨s, same, newer | ⟨-, -, hidden⟩⟩ :=
    (run.strand kept i).unasked_rests (kept.woven i) p present
      ((isCancelled_strand m.host i (m.due i) p.scope).trans dead) free
  · obtain rfl : q = s := Option.some.inj (after.symm.trans same)
    omega
  · obtain rfl : q = s := Option.some.inj (after.symm.trans same)
    exact hidden

theorem Kept.unparked (kept : m.Kept) (i : Nat) (p : Prompt)
    (present : m.host.prompts[i]? = some p) (dead : m.host.isCancelled p.scope = true)
    (still : m.host.StillOn p.scope) : p.parked = none := by
  cases parked : p.parked with
  | none => rfl
  | some waiting =>
      obtain ⟨caller, found, rfl, -, -, waits⟩ :=
        ((kept.woven i).attended.present p present).parked waiting parked
      have stuck := still.callers waiting.caller caller p found present rfl
      rw [resume_dead waiting.caller caller found waits p present dead] at stuck
      cases stuck

end Moment

/-- When a caller of a dialog without hooks ends as cancelled, the dialog is hidden and stays so if
the caller had not been told anything. If its request was answered or superseded already, the dialog
is left as it is, and stays hidden or not while nobody else is parked and no further request is
issued. -/
theorem cancelled_wait_hides {m n : Moment} (reached : m.Reached) (next : m.Next n) (c : Nat)
    (name : String) (ended : .ended (.caller c) name .cancelled ∈ n.host.history)
    (new : .ended (.caller c) name .cancelled ∉ m.host.history) (caller : Caller)
    (found : n.host.callers[c]? = some caller) (p : Prompt)
    (present : n.host.prompts[caller.prompt]? = some p) (bare : p.hooks.isEmpty = true) :
    (m.host.Untold c → ∀ o, n.Run o →
      ∃ q, o.host.prompts[caller.prompt]? = some q ∧ q.Hidden) ∧
    (¬ m.host.Untold c → m.host.prompts[caller.prompt]? = some p ∧
      ∀ o q, n.Run o → o.host.prompts[caller.prompt]? = some q → p.parked = none →
        q.issued = p.issued → (q.Hidden ↔ p.Hidden)) ∧
    ∀ o q, n.Run o → o.host.prompts[caller.prompt]? = some q → o.host.StillOn q.scope →
      q.parked = none := by
  have kept := next.kept reached.kept
  obtain ⟨dead, hides, leaves⟩ :=
    next.prompt_of_cancelled reached.kept c name ended new caller found p present
  refine ⟨?_, ?_, ?_⟩
  · intro untold o run
    obtain ⟨q, _, after, stilled, -⟩ := run.stilled kept caller.prompt p present dead
    exact ⟨q, after, stilled.hidden (hides untold bare)⟩
  · intro told
    refine ⟨leaves told, ?_⟩
    intro o q run after free unasked
    exact run.left_alone kept caller.prompt p q present dead free after unasked
  · intro o q run after still
    have stands := run.stands kept caller.prompt p present dead
    obtain ⟨s, _, same, stilled, -⟩ := stands.prompt
    obtain rfl : q = s := Option.some.inj (after.symm.trans same)
    have ended : o.host.isCancelled q.scope = true := by
      rw [stilled.keeps.scope, ← isCancelled_strand]
      exact stands.dead
    exact (run.kept kept).unparked caller.prompt q after ended still

def parkedCancelled : List (Session.Step ⊕ Move) :=
  [.inl (.openDialog "d" "main" (.confirm .none .blank)),
    .inl (.call (.await "d" (.ofTitle "Delete?") "t")), .inr (.dispatch 0),
    .inl (.call (.cancel "main"))]

theorem parkedCancelled_hidden : ∃ (n : Moment) (q : Prompt),
    (Moment.between (initial.run parkedCancelled)).Next n ∧
    Event.ended (.caller 0) "t" .cancelled ∈ n.host.history ∧ n.host.prompts[0]? = some q ∧
    q.Hidden := by
  have reached := (Reachable.run .refl parkedCancelled).reached
  have taken : (initial.run parkedCancelled).move? (.resumeCaller 0) =
      some ((initial.run parkedCancelled).endCancelled 0) := rfl
  have next := Moment.Next.moves _ _ _ taken fun _ _ _ same => absurd same (by simp)
  have untold : (initial.run parkedCancelled).Untold 0 := by
    rintro caller found
    obtain rfl := Option.some.inj found
    rfl
  have hides := cancelled_wait_hides reached next 0 "t" (.head _) (by decide) _ rfl _ rfl rfl
  obtain ⟨q, after, hidden⟩ := hides.1 untold _ .refl
  exact ⟨_, q, next, .head _, after, hidden⟩

/-- The hook takes itself away and cancels the scope, before the caller it has told is resumed. -/
def parting : Hooks Call := ⟨"k", some [.setHooks "d" .none, .cancel "main"], none⟩

def answeredCancelled : List (Session.Step ⊕ Move) :=
  [.inl (.openDialog "d" "main" (.confirm parting .blank)),
    .inl (.call (.await "d" (.ofTitle "Delete?") "t")), .inr (.dispatch 0),
    .inl (.call (.press (.fresh "d") .confirmed)), .inr (.dispatch 0), .inr (.deliver 0)]

/-- The call ends as cancelled, and nothing is left to run, but the dialog is still shown. -/
theorem answeredCancelled_still_shown : ¬ ∀ (m n o : Moment) (c : Nat) (name : String)
    (caller : Caller) (p q : Prompt), m.Reached → m.Next n →
    .ended (.caller c) name .cancelled ∈ n.host.history →
    .ended (.caller c) name .cancelled ∉ m.host.history → n.host.callers[c]? = some caller →
    n.host.prompts[caller.prompt]? = some p → p.hooks.isEmpty = true → n.Run o →
    o.host.prompts[caller.prompt]? = some q → o.host.StillOn q.scope → q.Hidden := by
  intro hides
  have reached := (Reachable.run .refl answeredCancelled).reached
  have taken : (initial.run answeredCancelled).move? (.resumeCaller 0) =
      some ((initial.run answeredCancelled).endCancelled 0) := rfl
  have next := Moment.Next.moves _ _ _ taken fun _ _ _ same => absurd same (by simp)
  have still : ((initial.run answeredCancelled).endCancelled 0).StillOn 0 := by
    constructor
    · rfl
    · intro i p present _
      cases i with
      | zero => rfl
      | succ i => cases present
    · intro c caller p found _ _
      cases c with
      | zero => rfl
      | succ c => cases found
  have hidden := hides _ _ _ 0 "t" _ _ _ reached next (.head _) (by decide) rfl rfl rfl .refl rfl
    still
  cases hidden.1

end ModalHost
