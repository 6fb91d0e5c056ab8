import ModalHost.Proofs.Terminal.Scene

/-! The course of a question. Until the first line has been read nothing answers, and then it is
that line which is first in the queue; whatever happens, there is less left to happen. -/

namespace ModalHost.Terminal

namespace Stage

/-- The sentinel is withheld, and nothing else is. -/
def Suits (v : Visuals) : Stage → Prop
  | unasked => True
  | withheld => v.isEmpty = true
  | asking _ | answered .. | closed .. => v.isEmpty = false

theorem suits_tap (v : Visuals) (decision : Decision) {stage : Stage} (suits : stage.Suits v) :
    (stage.tap decision).Suits v := by
  cases stage <;> exact suits

def weight : Stage → Nat
  -- the first publish is seen in the visibility and in the visuals
  | unasked => 18
  | withheld => 0
  -- an answer queues the hiding, which is seen once more, and the caller ends
  | asking taps => 2 * taps.length + 7
  | answered _ ended before after => 2 * (before.length + after.length) + 6 + (!ended).toNat
  | closed _ ended taps => 2 * taps.length + (!ended).toNat

end Stage

/-- How much is left to happen. A redraw may start the reader again, and a line that is read is
queued, offered and delivered. -/
def Scene.weight (v : Visuals) (s : Scene) : Nat :=
  s.stage.weight + s.mailbox.isSome.toNat + 5 * (s.stage.shown.version - s.seenShown) +
    5 * ((s.stage.visuals v).version - s.seenVisuals)

def Reader.weight : Reader → Nat
  | absent | stopped => 0
  | reading => 4
  | stopping => 1

def Console.weight (c : Console) : Nat := c.reader.weight + 3 * c.input.length

def decided (input : Bytes) : Decision := decisionOf (firstLine? input)

structure Plays (v : Visuals) (c : Console) (s : Scene) : Prop where
  host : c.host = s.host v
  target (r : Responder) : c.target = some r → r = ⟨0, some (pictureOf v)⟩
  prompts (text : String) : text ∈ c.prompts → text = promptText v
  suits : s.stage.Suits v
  seenShown : s.seenShown ≤ s.stage.shown.version
  seenVisuals : s.seenVisuals ≤ (s.stage.visuals v).version
  ending : s.history.findSome? endingOf? = s.stage.ending

inductive Stands (input : Bytes) (c : Console) (s : Scene) : Prop
  /-- Nothing is on screen. -/
  | blank (early : s.stage = .unasked ∨ s.stage = .withheld ∨ s.stage = .asking [])
      (empty : s.mailbox = none) (unseen : s.seenShown = 0) (copy : s.copy = false)
      (reader : c.reader = .absent) (target : c.target = none) (prompts : c.prompts = [])
      (unread : c.input = input)
  /-- The prompt is up, and no line was read. -/
  | up (stage : s.stage = .asking []) (empty : s.mailbox = none) (seen : s.seenShown = 1)
      (reader : c.reader = .reading) (target : c.target.isSome = true) (prompts : c.prompts ≠ [])
      (unread : c.input = input)
  /-- The first line is on its way. -/
  | tapped (taps : List Decision) (stage : s.stage = .asking taps)
      (first : (s.mailbox.toList ++ taps).head? = some (decided input)) (prompts : c.prompts ≠ [])
  | told (told : s.stage.told = some (decided input)) (prompts : c.prompts ≠ [])

variable {v : Visuals} {input : Bytes} {c : Console} {s t : Scene}

namespace Console

theorem goOn_still (missed : Nat) {next : Host} (same : next.history = c.host.history) :
    c.goOn missed next = { c with host := next } := by
  simp [goOn, Session.since, same]

theorem goOn_event (missed : Nat) {next : Host} {e : Event}
    (grown : next.history = e :: c.host.history) : c.goOn missed next =
      match Session.drewIn? 0 e with
      | some frame => present missed { c with host := next } frame
      | none => { c with host := next } := by
  have one : (e :: c.host.history).length - c.host.history.length = 1 := by simp
  rw [goOn, Session.since, grown, one]
  cases drew : Session.drewIn? 0 e <;> simp [drew]

end Console

theorem length_afterLine (input : Bytes) : (afterLine input).length ≤ input.length := by
  have short := (List.dropWhile_suffix (· != lineFeed) (l := input)).length_le
  rw [afterLine, List.length_tail]
  omega

theorem length_afterLine_lt {line : List Char} (found : firstLine? input = some line) :
    (afterLine input).length < input.length := by
  have short := (List.dropWhile_suffix (· != lineFeed) (l := input)).length_le
  have filled : 0 < input.length := by
    cases input with
    | nil => cases found
    | cons b input => exact Nat.succ_pos _
  rw [afterLine, List.length_tail]
  omega

theorem weight_quiet (quiet : s.Quiet v t) (seenShown : s.seenShown ≤ s.stage.shown.version)
    (seenVisuals : s.seenVisuals ≤ (s.stage.visuals v).version) : t.weight v < s.weight v := by
  obtain ⟨stage, mailbox, copy, shown, visuals, frame, history⟩ := s
  cases quiet with
  | publish unasked =>
      obtain rfl : stage = _ := unasked
      cases v.isEmpty <;> simp [Scene.weight, Stage.weight, Stage.shown, Stage.visuals] <;> omega
  | settle answered =>
      obtain rfl : stage = _ := answered
      simp [Scene.weight, Stage.weight, Stage.shown, Stage.visuals] at *
      omega
  | offerAsking room asking =>
      obtain rfl : stage = _ := asking
      obtain rfl : mailbox = none := room
      simp [Scene.weight, Stage.weight, Stage.shown, Stage.visuals]
      omega
  | offerAnswered room answered =>
      obtain rfl : stage = _ := answered
      obtain rfl : mailbox = none := room
      simp [Scene.weight, Stage.weight, Stage.shown, Stage.visuals]
      omega
  | offerClosed room closed =>
      obtain rfl : stage = _ := closed
      obtain rfl : mailbox = none := room
      simp [Scene.weight, Stage.weight, Stage.shown, Stage.visuals]
      omega
  | accept full asking =>
      obtain rfl : stage = _ := asking
      obtain rfl : mailbox = _ := full
      simp [Scene.weight, Stage.weight, Stage.shown, Stage.visuals]
  | drop full stale =>
      obtain rfl : mailbox = _ := full
      simp [Scene.weight]
  | resumeAnswered answered =>
      obtain rfl : stage = _ := answered
      simp [Scene.weight, Stage.weight, Stage.shown, Stage.visuals]
  | resumeClosed closed =>
      obtain rfl : stage = _ := closed
      simp [Scene.weight, Stage.weight, Stage.shown, Stage.visuals]
  | overlook unseen copied =>
      simp only [Scene.weight] at *
      omega

/-- A drawing is worth the reader that it may start. -/
theorem weight_draws (draws : s.Draws v t) (seenShown : s.seenShown ≤ s.stage.shown.version)
    (seenVisuals : s.seenVisuals ≤ (s.stage.visuals v).version) :
    t.weight v + 5 ≤ s.weight v := by
  cases draws with
  | look unseen =>
      simp only [Scene.weight, Scene.draw]
      omega
  | redraw unseen copied =>
      simp only [Scene.weight, Scene.draw]
      omega

namespace Plays

theorem quiet (plays : Plays v c s) (quiet : s.Quiet v t) :
    Plays v { c with host := t.host v } t := by
  obtain ⟨host, target, prompts, suits, seenShown, seenVisuals, ending⟩ := plays
  obtain ⟨stage, mailbox, copy, shown, visuals, frame, history⟩ := s
  cases quiet with
  | publish unasked =>
      obtain rfl : stage = _ := unasked
      cases empty : v.isEmpty with
      | true =>
          exact ⟨rfl, target, prompts, empty, seenShown, Nat.le_succ_of_le seenVisuals, ending⟩
      | false =>
          exact ⟨rfl, target, prompts, empty, Nat.le_succ_of_le seenShown,
            Nat.le_succ_of_le seenVisuals, ending⟩
  | settle answered =>
      obtain rfl : stage = _ := answered
      exact ⟨rfl, target, prompts, suits, Nat.le_succ_of_le seenShown, seenVisuals, ending⟩
  | offerAsking room asking =>
      obtain rfl : stage = _ := asking
      exact ⟨rfl, target, prompts, suits, seenShown, seenVisuals, ending⟩
  | offerAnswered room answered =>
      obtain rfl : stage = _ := answered
      exact ⟨rfl, target, prompts, suits, seenShown, seenVisuals, ending⟩
  | offerClosed room closed =>
      obtain rfl : stage = _ := closed
      exact ⟨rfl, target, prompts, suits, seenShown, seenVisuals, ending⟩
  | accept full asking =>
      obtain rfl : stage = _ := asking
      exact ⟨rfl, target, prompts, suits, seenShown, seenVisuals, ending⟩
  | drop full stale => exact ⟨rfl, target, prompts, suits, seenShown, seenVisuals, ending⟩
  | resumeAnswered answered =>
      obtain rfl : stage = _ := answered
      exact ⟨rfl, target, prompts, suits, seenShown, seenVisuals, rfl⟩
  | resumeClosed closed =>
      obtain rfl : stage = _ := closed
      exact ⟨rfl, target, prompts, suits, seenShown, seenVisuals, rfl⟩
  | overlook unseen copied =>
      exact ⟨rfl, target, prompts, suits, seenShown, Nat.le_refl _, ending⟩

theorem draws (plays : Plays v c s) (draws : s.Draws v t) :
    Plays v { c with host := t.host v } t := by
  obtain ⟨host, target, prompts, suits, seenShown, seenVisuals, ending⟩ := plays
  cases draws with
  | look unseen =>
      exact ⟨rfl, target, prompts, suits, Nat.le_refl _, seenVisuals, ending⟩
  | redraw unseen copied =>
      exact ⟨rfl, target, prompts, suits, seenShown, Nat.le_refl _, ending⟩

theorem present (plays : Plays v c s) (missed : Nat) {frame : Frame}
    (drawn : frame = .clear ∨ frame = .prompt (pictureOf v)) :
    Plays v (c.present missed frame) s := by
  obtain ⟨host, target, prompts, suits, seenShown, seenVisuals, ending⟩ := plays
  rcases drawn with rfl | rfl
  · exact ⟨host, nofun, prompts, suits, seenShown, seenVisuals, ending⟩
  · refine ⟨host, fun r up => (Option.some.inj up).symm, fun text shown => ?_, suits, seenShown,
      seenVisuals, ending⟩
    rcases List.mem_cons.mp shown with rfl | earlier
    · rfl
    · exact prompts text earlier

theorem read (plays : Plays v c s) (asked : s.stage.published = 1) (up : s.stage ≠ .withheld) :
    Plays v c.read
      { s with stage := if c.target.isSome then s.stage.tap (decided c.input) else s.stage } := by
  obtain ⟨host, target, prompts, suits, seenShown, seenVisuals, ending⟩ := plays
  cases given : c.target with
  | none =>
      refine ⟨?_, nofun, prompts, suits, seenShown, seenVisuals, ending⟩
      rw [Console.read, given]
      exact host
  | some r =>
      obtain rfl := target r given
      have pressed := Scene.press_host v s (decided c.input) asked up
      refine ⟨?_, nofun, prompts, Stage.suits_tap v _ suits, ?_, ?_, ?_⟩
      · rw [Console.read, given, host]
        exact pressed
      · simpa using seenShown
      · simpa using seenVisuals
      · exact ending.trans (by simp)

end Plays

namespace Stands

theorem first (stands : Stands input c s) {taps : List Decision} (asking : s.stage = .asking taps)
    (waits : s.mailbox.toList ++ taps ≠ []) :
    (s.mailbox.toList ++ taps).head? = some (decided input) ∧ c.prompts ≠ [] := by
  cases stands with
  | blank early empty =>
      rw [asking] at early
      rw [empty] at waits
      rcases early with early | early | early <;> cases early
      exact absurd rfl waits
  | up stage empty =>
      cases asking.symm.trans stage
      rw [empty] at waits
      exact absurd rfl waits
  | tapped taps stage first prompts =>
      cases asking.symm.trans stage
      exact ⟨first, prompts⟩
  | told told =>
      rw [asking] at told
      cases told

theorem of_told (stands : Stands input c s) {d : Decision} (known : s.stage.told = some d) :
    d = decided input ∧ c.prompts ≠ [] := by
  cases stands with
  | blank early =>
      rcases early with early | early | early <;> rw [early] at known <;> cases known
  | up stage =>
      rw [stage] at known
      cases known
  | tapped taps stage =>
      rw [stage] at known
      cases known
  | told told prompts => exact ⟨Option.some.inj (known.symm.trans told), prompts⟩

theorem quiet (stands : Stands input c s) (quiet : s.Quiet v t) :
    Stands input { c with host := t.host v } t := by
  cases quiet with
  | publish unasked =>
      cases stands with
      | blank early empty unseen copy reader target prompts unread =>
          refine .blank (.inr ?_) empty unseen copy reader target prompts unread
          cases v.isEmpty
          · exact .inr rfl
          · exact .inl rfl
      | up asking => cases unasked.symm.trans asking
      | tapped taps asking => cases unasked.symm.trans asking
      | told told =>
          rw [unasked] at told
          cases told
  | settle answered =>
      obtain ⟨same, prompts⟩ := stands.of_told (by rw [answered]; rfl)
      exact .told (congrArg some same) prompts
  | offerAsking room asking =>
      obtain ⟨first, prompts⟩ := stands.first asking (by simp)
      rw [room] at first
      exact .tapped _ rfl first prompts
  | offerAnswered room answered =>
      obtain ⟨same, prompts⟩ := stands.of_told (by rw [answered]; rfl)
      exact .told (congrArg some same) prompts
  | offerClosed room closed =>
      obtain ⟨same, prompts⟩ := stands.of_told (by rw [closed]; rfl)
      exact .told (congrArg some same) prompts
  | accept full asking =>
      obtain ⟨first, prompts⟩ := stands.first asking (by simp [full])
      rw [full] at first
      exact .told first prompts
  | drop full stale =>
      cases stands with
      | blank early empty => cases full.symm.trans empty
      | up asking => exact absurd asking (stale _)
      | tapped taps asking => exact absurd asking (stale _)
      | told told prompts => exact .told told prompts
  | resumeAnswered answered =>
      obtain ⟨same, prompts⟩ := stands.of_told (by rw [answered]; rfl)
      exact .told (congrArg some same) prompts
  | resumeClosed closed =>
      obtain ⟨same, prompts⟩ := stands.of_told (by rw [closed]; rfl)
      exact .told (congrArg some same) prompts
  | overlook unseen copied =>
      cases stands with
      | blank early empty unseen copy reader target prompts unread =>
          exact .blank early empty unseen copy reader target prompts unread
      | up asking empty seen reader target prompts unread =>
          exact .up asking empty seen reader target prompts unread
      | tapped taps asking first prompts => exact .tapped taps asking first prompts
      | told told prompts => exact .told told prompts

theorem draws (stands : Stands input c s) (draws : s.Draws v t) (missed : Nat) :
    Stands input ({ c with host := t.host v }.present missed t.frame) t := by
  have kept (prompts : c.prompts ≠ []) (frame : Frame) :
      ({ c with host := t.host v }.present missed frame).prompts ≠ [] := by
    cases frame with
    | prompt picture => exact List.cons_ne_nil _ _
    | _ => exact prompts
  have up (asking : s.stage = .asking []) (empty : t.mailbox = none) (seen : t.seenShown = 1)
      (reader : c.reader = .absent ∨ c.reader = .reading) (unread : c.input = input) :
      Stands input ({ c with host := t.host v }.present missed t.frame) t := by
    rw [draws.frame (by rw [asking]; rfl)]
    refine .up (draws.stage.trans asking) empty seen ?_ rfl (List.cons_ne_nil _ _) ?_
    · rcases reader with reader | reader <;> simp [Console.present, reader, Reader.runs]
    · rcases reader with reader | reader <;> simp [Console.present, reader, unread]
  cases draws with
  | look unseen =>
      cases stands with
      -- the first look: before the question is published there is nothing to see
      | blank early empty fresh copy reader target prompts unread =>
          obtain early | early | asking := early
          · rw [early, fresh] at unseen
            exact absurd rfl unseen
          · rw [early, fresh] at unseen
            exact absurd rfl unseen
          · exact up asking empty (congrArg (·.shown.version) asking) (.inl reader) unread
      | up asking empty seen =>
          rw [asking, seen] at unseen
          exact absurd rfl unseen
      | tapped taps asking first prompts => exact .tapped taps asking first (kept prompts _)
      | told told prompts => exact .told told (kept prompts _)
  | redraw unseen copied =>
      cases stands with
      | blank early empty fresh copy => cases copied.symm.trans copy
      | up asking empty seen reader target prompts unread =>
          exact up asking empty seen (.inr reader) unread
      | tapped taps asking first prompts => exact .tapped taps asking first (kept prompts _)
      | told told prompts => exact .told told (kept prompts _)

theorem published (stands : Stands input c s) (started : c.reader ≠ .absent) :
    s.stage.published = 1 ∧ s.stage ≠ .withheld := by
  cases stands with
  | blank early empty unseen copy reader => exact absurd reader started
  | up asking =>
      rw [asking]
      exact ⟨rfl, nofun⟩
  | tapped taps asking =>
      rw [asking]
      exact ⟨rfl, nofun⟩
  | told told =>
      cases stage : s.stage with
      | answered | closed => exact ⟨rfl, nofun⟩
      | _ =>
          rw [stage] at told
          cases told

theorem read (stands : Stands input c s) (reading : c.reader = .reading) :
    Stands input c.read
      { s with stage := if c.target.isSome then s.stage.tap (decided c.input) else s.stage } := by
  cases stands with
  | blank early empty unseen copy reader => cases reading.symm.trans reader
  | up asking empty seen reader target prompts unread =>
      rw [if_pos target, asking, unread]
      exact .tapped [decided input] rfl (by rw [empty]; rfl) prompts
  | tapped taps asking first prompts =>
      split
      -- a later line is queued behind the first
      · refine .tapped (taps ++ [decided c.input]) (by rw [asking]; rfl) ?_ prompts
        rw [← List.append_assoc, List.head?_append, first]
        rfl
      · exact .tapped taps asking first prompts
  | told told prompts =>
      refine .told ?_ prompts
      split
      · exact (Stage.told_tap _ _).trans told
      · exact told

end Stands

end ModalHost.Terminal
