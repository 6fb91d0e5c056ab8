import ModalHost.Host.Follow
import ModalHost.Host.Dispatch
import ModalHost.Proofs.Strand.Projection

/-! How a host goes on behind its followers: cells are written to, tasks end, and nobody draws. -/

namespace ModalHost

namespace Cell

variable {α : Type}

structure Before (c d : Cell α) : Prop where
  version : c.version ≤ d.version
  value : c.version = d.version → c.value = d.value

variable {c d e : Cell α}

theorem Before.refl (c : Cell α) : c.Before c := ⟨Nat.le_refl _, fun _ => rfl⟩

theorem Before.trans (first : c.Before d) (second : d.Before e) : c.Before e where
  version := Nat.le_trans first.version second.version
  value same := by
    have low := first.version
    have high := second.version
    exact (first.value (by omega)).trans (second.value (by omega))

theorem before_publish (c : Cell α) (value : α) : c.Before (c.publish value) where
  version := Nat.le_succ _
  value same := absurd same (Nat.ne_of_lt (Nat.lt_succ_self _))

theorem before_set [DecidableEq α] (c : Cell α) (value : α) : c.Before (c.set value) := by
  unfold set
  split
  · exact .refl c
  · exact before_publish c value

end Cell

namespace Prompt

/-- What is asked now, as a cell that counts the requests that were published. -/
def asking (p : Prompt) : Cell (Nat × Visuals) := ⟨(p.published, p.visuals.value), p.visuals.version⟩

structure Before (p q : Prompt) : Prop where
  shown : p.shown.Before q.shown
  asking : p.asking.Before q.asking

variable {p q r : Prompt}

theorem Before.refl (p : Prompt) : p.Before p := ⟨.refl _, .refl _⟩

theorem Before.trans (first : p.Before q) (second : q.Before r) : p.Before r :=
  ⟨first.shown.trans second.shown, first.asking.trans second.asking⟩

theorem Before.of_eq (shown : q.shown = p.shown) (asking : q.asking = p.asking) : p.Before q :=
  ⟨shown ▸ .refl _, asking ▸ .refl _⟩

theorem before_vanish (p : Prompt) : p.Before p.vanish := ⟨Cell.before_set _ _, .refl _⟩

theorem before_appear (p : Prompt) : p.Before p.appear := by
  unfold appear
  split
  · exact .refl p
  · exact ⟨Cell.before_set _ _, .refl _⟩

theorem before_publish (p : Prompt) (request : Nat) (visuals : Visuals) :
    p.Before (p.publish request visuals) := by
  have replaced : p.Before { p with published := request, visuals := p.visuals.publish visuals } :=
    ⟨.refl _, Nat.le_succ _, fun same => absurd same (Nat.ne_of_lt (Nat.lt_succ_self _))⟩
  unfold publish
  dsimp only
  split
  · exact replaced.trans (before_vanish _)
  · exact replaced.trans (before_appear _)

theorem before_settle (p : Prompt) (request : Nat) : p.Before (p.settle request) := by
  unfold settle
  split
  · exact before_vanish p
  · exact .refl p

@[simp] theorem handle_vanish (p : Prompt) : p.vanish.handle = p.handle := rfl

@[simp] theorem handle_appear (p : Prompt) : p.appear.handle = p.handle := by
  unfold appear
  split <;> rfl

@[simp] theorem handle_publish (p : Prompt) (request : Nat) (visuals : Visuals) :
    (p.publish request visuals).handle = p.handle := by
  unfold publish
  dsimp only
  split <;> simp

@[simp] theorem handle_settle (p : Prompt) (request : Nat) :
    (p.settle request).handle = p.handle := by
  unfold settle
  split <;> rfl

end Prompt

namespace Loading

theorem before_setShown (l : Loading) (shown : Bool) : l.shown.Before (l.setShown shown).shown :=
  Cell.before_set _ _

theorem before_enter (l : Loading) : l.shown.Before l.enter.shown := Cell.before_set _ _

theorem before_leave (l : Loading) : l.shown.Before l.leave.shown := by
  unfold leave
  dsimp only
  split
  · exact Cell.before_set _ _
  · exact .refl _

end Loading

def Event.drawing? : Event → Option (Nat × Frame)
  | .drew f _ frame => some (f, frame)
  | _ => none

namespace Host

def held (h : Host) : DialogRef → Bool
  | .prompt i => h.prompts[i]?.any (·.handle)
  | .loading l => h.loadings[l]?.any (·.handle)
  | .panel k => decide (k < h.panels.length)

/-- The host later on, when no follower has drawn since. -/
structure Onward (h next : Host) : Prop where
  prompts (i : Nat) (p : Prompt) : h.prompts[i]? = some p →
    ∃ q, next.prompts[i]? = some q ∧ p.Before q
  loadings (l : Nat) (loading : Loading) : h.loadings[l]? = some loading →
    ∃ later, next.loadings[l]? = some later ∧ loading.shown.Before later.shown
  /-- A dialog that nobody owns is not owned again. -/
  ownsPrompt (i : Nat) (p : Prompt) : h.prompts[i]? = some p → next.ownsPrompt i = true →
    h.ownsPrompt i = true
  ownsLoading (l : Nat) (loading : Loading) : h.loadings[l]? = some loading →
    next.ownsLoading l = true → h.ownsLoading l = true
  followers (f : Nat) (x : Follower) : next.followers[f]? = some x → x.ended = false →
    h.followers[f]? = some x
  history : ∃ events, next.history = events ++ h.history ∧ ∀ e ∈ events, e.drawing? = none

structure Goes (h next : Host) : Prop extends Onward h next where
  dialogs : next.names.dialogs = h.names.dialogs
  held (dialog : DialogRef) : h.held dialog = true → next.held dialog = true

variable {h next last : Host}

theorem Onward.trans (first : h.Onward next) (second : next.Onward last) : h.Onward last where
  prompts i p found := by
    obtain ⟨q, there, before⟩ := first.prompts i p found
    obtain ⟨r, here, after⟩ := second.prompts i q there
    exact ⟨r, here, before.trans after⟩
  loadings l loading found := by
    obtain ⟨q, there, before⟩ := first.loadings l loading found
    obtain ⟨r, here, after⟩ := second.loadings l q there
    exact ⟨r, here, before.trans after⟩
  ownsPrompt i p found owned := by
    obtain ⟨q, there, -⟩ := first.prompts i p found
    exact first.ownsPrompt i p found (second.ownsPrompt i q there owned)
  ownsLoading l loading found owned := by
    obtain ⟨q, there, -⟩ := first.loadings l loading found
    exact first.ownsLoading l loading found (second.ownsLoading l q there owned)
  followers f x found running := first.followers f x (second.followers f x found running) running
  history := by
    obtain ⟨old, before, quiet⟩ := first.history
    obtain ⟨new, after, still⟩ := second.history
    refine ⟨new ++ old, by rw [after, before, List.append_assoc], fun e member => ?_⟩
    rcases List.mem_append.mp member with member | member
    · exact still e member
    · exact quiet e member

theorem Goes.trans (first : h.Goes next) (second : next.Goes last) : h.Goes last where
  toOnward := first.toOnward.trans second.toOnward
  dialogs := second.dialogs.trans first.dialogs
  held dialog there := second.held dialog (first.held dialog there)

/-- The part of a host that concerns its followers. -/
structure Easel where
  prompts : List Prompt
  loadings : List Loading
  panels : Nat
  callers : List Caller
  works : List Work
  followers : List Follower
  history : List Event
  dialogs : Names DialogRef

def easel (h : Host) : Easel where
  prompts := h.prompts
  loadings := h.loadings
  panels := h.panels.length
  callers := h.callers
  works := h.works
  followers := h.followers
  history := h.history
  dialogs := h.names.dialogs

theorem held_of_easel (prompts : next.prompts = h.prompts) (loadings : next.loadings = h.loadings)
    (panels : next.panels.length = h.panels.length) : next.held = h.held := by
  funext dialog
  cases dialog with
  | prompt i => rw [Host.held, Host.held, prompts]
  | loading l => rw [Host.held, Host.held, loadings]
  | panel k => rw [Host.held, Host.held, panels]

theorem Onward.of_grown (more : List Prompt) (others : List Loading)
    (prompts : next.prompts = h.prompts ++ more) (loadings : next.loadings = h.loadings ++ others)
    (callers : next.callers = h.callers) (works : next.works = h.works)
    (followers : next.followers = h.followers) (history : next.history = h.history) :
    h.Onward next where
  prompts i p found := ⟨p, by rwa [prompts, List.getElem?_append_left (inside found)], .refl p⟩
  loadings l loading found :=
    ⟨loading, by rwa [loadings, List.getElem?_append_left (inside found)], .refl _⟩
  ownsPrompt i p found owned := by
    rwa [Host.ownsPrompt, prompts, callers, List.getElem?_append_left (inside found)] at owned
  ownsLoading l loading found owned := by
    rwa [Host.ownsLoading, loadings, works, List.getElem?_append_left (inside found)] at owned
  followers f x found running := by rwa [followers] at found
  history := ⟨[], history, fun e member => (List.not_mem_nil member).elim⟩
where
  inside {α : Type} {xs : List α} {n : Nat} {x : α} (found : xs[n]? = some x) : n < xs.length :=
    (List.getElem?_eq_some_iff.mp found).1

theorem Goes.of_eq (same : next.easel = h.easel) : h.Goes next := by
  have prompts : next.prompts = h.prompts := congrArg Easel.prompts same
  have loadings : next.loadings = h.loadings := congrArg Easel.loadings same
  refine ⟨.of_grown [] [] ?_ ?_ (congrArg Easel.callers same)
    (congrArg Easel.works same) (congrArg Easel.followers same) (congrArg Easel.history same),
    congrArg Easel.dialogs same, fun dialog there => ?_⟩
  · rw [prompts, List.append_nil]
  · rw [loadings, List.append_nil]
  · rwa [held_of_easel prompts loadings (congrArg Easel.panels same)]

theorem Goes.refl (h : Host) : h.Goes h := .of_eq rfl

end Host

end ModalHost
