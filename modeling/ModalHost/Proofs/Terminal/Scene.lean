import ModalHost.Terminal.Console

/-! The hosts that a console comes upon: one prompt, the caller that waits on it, and the renderer
that puts it up. A scene says how far the question has come, and moves as its host does. -/

namespace ModalHost.Terminal

inductive Stage
  | unasked
  /-- The sentinel was published, which is never on screen. -/
  | withheld
  | asking (taps : List Decision)
  /-- A tap was accepted; the prompt is hidden after the taps `before`. -/
  | answered (decision : Decision) (ended : Bool) (before after : List Decision)
  | closed (decision : Decision) (ended : Bool) (taps : List Decision)

namespace Stage

def shown : Stage → Cell Bool
  | unasked | withheld => ⟨false, 0⟩
  | asking _ | answered .. => ⟨true, 1⟩
  | closed .. => ⟨false, 2⟩

def phase : Stage → Phase
  | unasked | withheld | closed .. => .idle
  | asking _ => .awaitingInput
  | answered .. => .resolving

def published : Stage → Nat
  | unasked => 0
  | _ => 1

def parked : Stage → Option Parked
  | unasked | withheld | asking _ => some ⟨1, 0⟩
  | answered .. | closed .. => none

def told : Stage → Option Decision
  | unasked | withheld | asking _ => none
  | answered decision .. | closed decision .. => some decision

def ended : Stage → Bool
  | unasked | withheld | asking _ => false
  | answered _ ended .. | closed _ ended _ => ended

def ending (stage : Stage) : Option Ending :=
  if stage.ended then stage.told.map .decided else none

end Stage

structure Scene where
  stage : Stage
  mailbox : Option Decision
  /-- What the renderer knows of the visibility. -/
  copy : Bool
  seenShown : Nat
  seenVisuals : Nat
  frame : Frame
  history : List Event

def pictureOf (v : Visuals) : Picture := ⟨1, v, 1⟩

def tapOf (v : Visuals) (decision : Decision) : Tap := ⟨decision, some (pictureOf v), 1⟩

def answerOf (v : Visuals) (decision : Decision) : Answer := ⟨1, tapOf v decision⟩

namespace Stage

def offers (v : Visuals) (taps : List Decision) : List Job := taps.map fun d => .offer 0 (tapOf v d)

def queue (v : Visuals) : Stage → List Job
  | unasked => [.publish 0 1 v]
  | withheld => []
  | asking taps | closed _ _ taps => offers v taps
  | answered _ _ before after => offers v before ++ .settle 0 1 :: offers v after

def visuals (v : Visuals) : Stage → Cell Visuals
  | unasked => ⟨.empty, 0⟩
  | _ => ⟨v, 1⟩

def tap (decision : Decision) : Stage → Stage
  | asking taps => asking (taps ++ [decision])
  | answered d ended before after => answered d ended before (after ++ [decision])
  | closed d ended taps => closed d ended (taps ++ [decision])
  | stage => stage

@[simp] theorem shown_tap (decision : Decision) (stage : Stage) :
    (stage.tap decision).shown = stage.shown := by
  cases stage <;> rfl

@[simp] theorem visuals_tap (v : Visuals) (decision : Decision) (stage : Stage) :
    (stage.tap decision).visuals v = stage.visuals v := by
  cases stage <;> rfl

@[simp] theorem told_tap (decision : Decision) (stage : Stage) :
    (stage.tap decision).told = stage.told := by
  cases stage <;> rfl

@[simp] theorem ending_tap (decision : Decision) (stage : Stage) :
    (stage.tap decision).ending = stage.ending := by
  cases stage <;> rfl

theorem queue_tap (v : Visuals) (decision : Decision) (stage : Stage) (asked : stage.published = 1)
    (up : stage ≠ .withheld) :
    (stage.tap decision).queue v = stage.queue v ++ [.offer 0 (tapOf v decision)] := by
  cases stage with
  | unasked => cases asked
  | withheld => exact absurd rfl up
  | asking taps => simp [queue, tap, offers]
  | answered told ended before after => simp [queue, tap, offers]
  | closed told ended taps => simp [queue, tap, offers]

end Stage

namespace Scene

def prompt (v : Visuals) (s : Scene) : Prompt where
  scope := 0
  handle := true
  shown := s.stage.shown
  visuals := s.stage.visuals v
  phase := s.stage.phase
  issued := 1
  published := s.stage.published
  parked := s.stage.parked
  hooks := .none
  mailbox := s.mailbox.map (answerOf v)

def caller (s : Scene) : Caller := ⟨"caller", 0, 1, s.stage.told.map .decided, s.stage.ended⟩

def follower (s : Scene) : Follower :=
  ⟨"terminal", .prompt 0, some 0, s.copy, s.seenShown, s.seenVisuals, s.frame, false⟩

def host (v : Visuals) (s : Scene) : Host where
  scopes := [⟨[0], false, s.stage.queue v⟩]
  prompts := [s.prompt v]
  loadings := []
  panels := []
  callers := [s.caller]
  works := []
  waits := []
  followers := [s.follower]
  names := ⟨[("main", 0)], [("question", .prompt 0)],
    [("caller", .caller 0), ("terminal", .follower 0)], [], [], []⟩
  history := s.history

def opening (v : Visuals) : Scene :=
  ⟨.unasked, none, false, 0, 0, .clear,
    [.issued 0 1 v, .drew 0 "terminal" .clear, .issued 0 0 .empty]⟩

theorem host_opening (v : Visuals) (input : Bytes) :
    (Console.ask v input).host = (opening v).host v := by
  rfl

def dispatch? (v : Visuals) (s : Scene) : Option Scene :=
  match s.stage, s.mailbox with
  | .unasked, _ => some { s with stage := if v.isEmpty then .withheld else .asking [] }
  | .asking (d :: taps), none => some { s with stage := .asking taps, mailbox := some d }
  | .answered told ended [] after, _ => some { s with stage := .closed told ended after }
  | .answered told ended (d :: before) after, none =>
    some { s with stage := .answered told ended before after, mailbox := some d }
  | .closed told ended (d :: taps), none =>
    some { s with stage := .closed told ended taps, mailbox := some d }
  | _, _ => none

def deliver? (v : Visuals) (s : Scene) : Option Scene :=
  match s.mailbox, s.stage with
  | some d, .asking taps =>
    some { s with
      stage := .answered d false taps []
      mailbox := none
      history := .accepted 0 (answerOf v d) (some 0) :: s.history }
  | some _, _ => some { s with mailbox := none }
  | none, _ => none

def resume? (s : Scene) : Option Scene :=
  match s.stage with
  | .answered d false before after =>
    some { s with
      stage := .answered d true before after
      history := .ended (.caller 0) "caller" (.decided d) :: s.history }
  | .closed d false taps =>
    some { s with
      stage := .closed d true taps
      history := .ended (.caller 0) "caller" (.decided d) :: s.history }
  | _ => none

def draw (v : Visuals) (s : Scene) : Scene :=
  let frame := if s.copy && s.stage.shown.value then .prompt (pictureOf v) else .clear
  { s with frame, history := .drew 0 "terminal" frame :: s.history }

def look? (v : Visuals) (s : Scene) : Option Scene :=
  if s.stage.shown.version = s.seenShown then none
  else some ({ s with copy := s.stage.shown.value, seenShown := s.stage.shown.version }.draw v)

def redraw? (v : Visuals) (s : Scene) : Option Scene :=
  if (s.stage.visuals v).version = s.seenVisuals then none
  else
    let seen := { s with seenVisuals := (s.stage.visuals v).version }
    some (if s.copy then seen.draw v else seen)

def move? (v : Visuals) (s : Scene) : Move → Option Scene
  | .dispatch 0 => s.dispatch? v
  | .deliver 0 => s.deliver? v
  | .resumeCaller 0 => s.resume?
  | .followShown 0 => s.look? v
  | .followVisuals 0 => s.redraw? v
  | _ => none

variable (v : Visuals) (s : Scene)

theorem promptGone_host : (s.host v).promptGone 0 = false := rfl

theorem draw_host : (s.host v).draw 0 = (s.draw v).host v := by
  obtain ⟨stage, mailbox, copy, seenShown, seenVisuals, frame, history⟩ := s
  cases copy <;> cases stage <;> rfl

theorem publish_prompt (unasked : s.stage = .unasked) : (s.prompt v).publish 1 v =
    { s with stage := if v.isEmpty then .withheld else .asking [] }.prompt v := by
  obtain ⟨stage, mailbox, copy, seenShown, seenVisuals, frame, history⟩ := s
  obtain rfl : stage = .unasked := unasked
  cases empty : v.isEmpty <;>
    simp [Prompt.publish, Prompt.appear, Prompt.vanish, prompt, empty, Stage.shown, Stage.visuals,
      Stage.phase, Stage.published, Stage.parked, Cell.set, Cell.publish]

theorem dispatch?_host : (s.host v).dispatch? 0 = (s.dispatch? v).map (host v) := by
  obtain ⟨stage, mailbox, copy, seenShown, seenVisuals, frame, history⟩ := s
  cases stage with
  | unasked =>
      let s : Scene := ⟨.unasked, mailbox, copy, seenShown, seenVisuals, frame, history⟩
      have ran : (s.host v).dispatch? 0 = some { s.host v with
          scopes := [⟨[0], false, []⟩], prompts := [(s.prompt v).publish 1 v] } := rfl
      rw [ran, publish_prompt v s rfl, dispatch?, Option.map_some]
      cases v.isEmpty <;> rfl
  | withheld => rfl
  | asking taps => cases taps <;> cases mailbox <;> rfl
  | answered told ended before after => cases before <;> cases mailbox <;> rfl
  | closed told ended taps => cases taps <;> cases mailbox <;> rfl

theorem deliver?_host : (s.host v).deliver? 0 = (s.deliver? v).map (host v) := by
  obtain ⟨stage, mailbox, copy, seenShown, seenVisuals, frame, history⟩ := s
  cases mailbox with
  | none => cases stage <;> rfl
  | some d =>
      cases stage with
      | asking taps => cases d <;> rfl
      | _ => rfl

theorem resume?_host : (s.host v).resumeCaller? 0 = s.resume?.map (host v) := by
  obtain ⟨stage, mailbox, copy, seenShown, seenVisuals, frame, history⟩ := s
  cases stage with
  | answered told ended before after => cases ended <;> rfl
  | closed told ended taps => cases ended <;> rfl
  | _ => rfl

theorem look?_host : (s.host v).followShown? 0 = (s.look? v).map (host v) := by
  have found : (s.host v).followers[0]? = some s.follower := rfl
  have cell : (s.host v).shown? s.follower.source = some s.stage.shown := rfl
  have running : s.follower.ended = false := rfl
  have held : (s.host v).storeGone s.follower.source = false := rfl
  have copied : s.follower.seenShown = s.seenShown := rfl
  simp only [Host.followShown?, found, running, cell, held, copied, look?, Bool.false_eq_true,
    ite_false]
  by_cases seen : s.stage.shown.version = s.seenShown
  · simp [seen]
  · simp only [seen, ne_eq, not_false_eq_true, ite_true, ite_false, Option.map_some,
      Option.some.injEq]
    exact draw_host v { s with copy := s.stage.shown.value, seenShown := s.stage.shown.version }

theorem redraw?_host : (s.host v).followVisuals? 0 = (s.redraw? v).map (host v) := by
  have found : (s.host v).followers[0]? = some s.follower := rfl
  have source : s.follower.pictures = some 0 := rfl
  have present : (s.host v).prompts[0]? = some (s.prompt v) := rfl
  have cell : (s.prompt v).visuals = s.stage.visuals v := rfl
  have running : s.follower.ended = false := rfl
  have copied : s.follower.seenVisuals = s.seenVisuals ∧ s.follower.shown = s.copy := ⟨rfl, rfl⟩
  simp only [Host.followVisuals?, found, source, present, cell, running, copied, redraw?,
    promptGone_host, Bool.false_eq_true, ite_false]
  by_cases seen : (s.stage.visuals v).version = s.seenVisuals
  · simp [seen]
  · simp only [seen, ne_eq, not_false_eq_true, ite_true, ite_false, Option.map_some,
      Option.some.injEq]
    split
    · exact draw_host v { s with seenVisuals := (s.stage.visuals v).version }
    · rfl

theorem retire?_host (n : Nat) : (s.host v).retire? n = none := by
  cases n with
  | zero =>
      have present : (s.host v).prompts[0]? = some (s.prompt v) := rfl
      have live : (s.host v).isCancelled (s.prompt v).scope = false := rfl
      simp [Host.retire?, present, live]
  | succ n => rfl

theorem move?_host (m : Move) : (s.host v).move? m = (s.move? v m).map (host v) := by
  cases m with
  | dispatch n =>
      cases n with
      | zero => exact dispatch?_host v s
      | succ n => rfl
  | deliver n =>
      cases n with
      | zero => exact deliver?_host v s
      | succ n => rfl
  | retire n => exact retire?_host v s n
  | resumeCaller n =>
      cases n with
      | zero => exact resume?_host v s
      | succ n => rfl
  | followShown n =>
      cases n with
      | zero => exact look?_host v s
      | succ n => rfl
  | followVisuals n =>
      cases n with
      | zero => exact redraw?_host v s
      | succ n => rfl
  | advanceWork n => rfl
  | advanceWait n => rfl

theorem press_host (decision : Decision) (asked : s.stage.published = 1)
    (up : s.stage ≠ .withheld) : (s.host v).press ⟨0, some (pictureOf v)⟩ decision =
      { s with stage := s.stage.tap decision }.host v := by
  have launched : (s.host v).press ⟨0, some (pictureOf v)⟩ decision =
      { s.host v with
        scopes := [⟨[0], false, s.stage.queue v ++ [.offer 0 (tapOf v decision)]⟩] } := rfl
  rw [launched, ← Stage.queue_tap v decision s.stage asked up]
  obtain ⟨stage, mailbox, copy, seenShown, seenVisuals, frame, history⟩ := s
  cases stage <;> rfl

inductive Quiet (v : Visuals) (s : Scene) : Scene → Prop
  | publish (unasked : s.stage = .unasked) :
    Quiet v s { s with stage := if v.isEmpty then .withheld else .asking [] }
  | settle {told : Decision} {ended : Bool} {after : List Decision}
    (stage : s.stage = .answered told ended [] after) :
    Quiet v s { s with stage := .closed told ended after }
  | offerAsking {d : Decision} {taps : List Decision} (room : s.mailbox = none)
    (stage : s.stage = .asking (d :: taps)) :
    Quiet v s { s with stage := .asking taps, mailbox := some d }
  | offerAnswered {told d : Decision} {ended : Bool} {before after : List Decision}
    (room : s.mailbox = none) (stage : s.stage = .answered told ended (d :: before) after) :
    Quiet v s { s with stage := .answered told ended before after, mailbox := some d }
  | offerClosed {told d : Decision} {ended : Bool} {taps : List Decision} (room : s.mailbox = none)
    (stage : s.stage = .closed told ended (d :: taps)) :
    Quiet v s { s with stage := .closed told ended taps, mailbox := some d }
  | accept {d : Decision} {taps : List Decision} (full : s.mailbox = some d)
    (stage : s.stage = .asking taps) :
    Quiet v s { s with
      stage := .answered d false taps []
      mailbox := none
      history := .accepted 0 (answerOf v d) (some 0) :: s.history }
  | drop {d : Decision} (full : s.mailbox = some d)
    (stale : ∀ taps, s.stage ≠ .asking taps) : Quiet v s { s with mailbox := none }
  | resumeAnswered {d : Decision} {before after : List Decision}
    (stage : s.stage = .answered d false before after) :
    Quiet v s { s with
      stage := .answered d true before after
      history := .ended (.caller 0) "caller" (.decided d) :: s.history }
  | resumeClosed {d : Decision} {taps : List Decision} (stage : s.stage = .closed d false taps) :
    Quiet v s { s with
      stage := .closed d true taps
      history := .ended (.caller 0) "caller" (.decided d) :: s.history }
  | overlook (unseen : (s.stage.visuals v).version ≠ s.seenVisuals) (copy : s.copy = false) :
    Quiet v s { s with seenVisuals := (s.stage.visuals v).version }

inductive Draws (v : Visuals) (s : Scene) : Scene → Prop
  | look (unseen : s.stage.shown.version ≠ s.seenShown) :
    Draws v s ({ s with
      copy := s.stage.shown.value, seenShown := s.stage.shown.version }.draw v)
  | redraw (unseen : (s.stage.visuals v).version ≠ s.seenVisuals) (copy : s.copy = true) :
    Draws v s ({ s with seenVisuals := (s.stage.visuals v).version }.draw v)

variable {v s} {t : Scene}

theorem Draws.stage (draws : s.Draws v t) : t.stage = s.stage := by
  cases draws <;> rfl

theorem Draws.history (draws : s.Draws v t) :
    t.history = .drew 0 "terminal" t.frame :: s.history := by
  cases draws <;> rfl

theorem Draws.frame_cases (draws : s.Draws v t) :
    t.frame = .clear ∨ t.frame = .prompt (pictureOf v) := by
  have either (up : Bool) : (if up then Frame.prompt (pictureOf v) else .clear) = .clear ∨
      (if up then Frame.prompt (pictureOf v) else .clear) = .prompt (pictureOf v) := by
    cases up
    · exact .inl rfl
    · exact .inr rfl
  cases draws with
  | look unseen => exact either _
  | redraw unseen copied => exact either _

theorem Draws.frame (draws : s.Draws v t) (shown : s.stage.shown.value = true) :
    t.frame = .prompt (pictureOf v) := by
  cases draws with
  | look unseen => simp [draw, shown]
  | redraw unseen copied => simp [draw, shown, copied]

theorem Quiet.history (quiet : s.Quiet v t) : t.history = s.history ∨
    ∃ e, t.history = e :: s.history ∧ Session.drewIn? 0 e = none := by
  cases quiet with
  | accept full asking => exact .inr ⟨_, rfl, rfl⟩
  | resumeAnswered answered => exact .inr ⟨_, rfl, rfl⟩
  | resumeClosed closed => exact .inr ⟨_, rfl, rfl⟩
  | _ => exact .inl rfl

theorem quiet_of_dispatch? (taken : s.dispatch? v = some t) : s.Quiet v t := by
  obtain ⟨stage, mailbox, copy, seenShown, seenVisuals, frame, history⟩ := s
  cases stage with
  | unasked => cases taken; exact .publish rfl
  | withheld => cases taken
  | asking taps =>
      cases taps with
      | nil => cases taken
      | cons d taps =>
          cases mailbox <;> cases taken
          exact .offerAsking rfl rfl
  | answered told ended before after =>
      cases before with
      | nil => cases taken; exact .settle rfl
      | cons d before =>
          cases mailbox <;> cases taken
          exact .offerAnswered rfl rfl
  | closed told ended taps =>
      cases taps with
      | nil => cases taken
      | cons d taps =>
          cases mailbox <;> cases taken
          exact .offerClosed rfl rfl

theorem quiet_of_deliver? (taken : s.deliver? v = some t) : s.Quiet v t := by
  obtain ⟨stage, mailbox, copy, seenShown, seenVisuals, frame, history⟩ := s
  cases mailbox with
  | none => cases taken
  | some d =>
      cases stage with
      | asking taps => cases taken; exact .accept rfl rfl
      | _ => cases taken; exact .drop rfl fun _ => nofun

theorem quiet_of_resume? (taken : s.resume? = some t) : s.Quiet v t := by
  obtain ⟨stage, mailbox, copy, seenShown, seenVisuals, frame, history⟩ := s
  cases stage with
  | answered d ended before after =>
      cases ended <;> cases taken
      exact .resumeAnswered rfl
  | closed d ended taps =>
      cases ended <;> cases taken
      exact .resumeClosed rfl
  | _ => cases taken

theorem draws_of_look? (taken : s.look? v = some t) : s.Draws v t := by
  by_cases seen : s.stage.shown.version = s.seenShown
  · rw [look?, if_pos seen] at taken
    cases taken
  · rw [look?, if_neg seen, Option.some.injEq] at taken
    exact taken ▸ .look seen

theorem cases_of_redraw? (taken : s.redraw? v = some t) : s.Quiet v t ∨ s.Draws v t := by
  by_cases seen : (s.stage.visuals v).version = s.seenVisuals
  · rw [redraw?, if_pos seen] at taken
    cases taken
  · rw [redraw?, if_neg seen, Option.some.injEq] at taken
    by_cases copy : s.copy = true
    · rw [if_pos copy] at taken
      exact .inr (taken ▸ .redraw seen copy)
    · rw [if_neg copy] at taken
      exact .inl (taken ▸ .overlook seen (Bool.eq_false_iff.mpr copy))

theorem cases_of_move? {m : Move} (taken : s.move? v m = some t) : s.Quiet v t ∨ s.Draws v t := by
  unfold move? at taken
  split at taken
  · exact .inl (quiet_of_dispatch? taken)
  · exact .inl (quiet_of_deliver? taken)
  · exact .inl (quiet_of_resume? taken)
  · exact .inr (draws_of_look? taken)
  · exact cases_of_redraw? taken
  · cases taken

end Scene

end ModalHost.Terminal
