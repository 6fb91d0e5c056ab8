import ModalHost.Proofs.Terminal.Course
import ModalHost.Terminal.Run

/-! A question that is not the sentinel is put up and answered by the first line of the input, in
whatever order things happen. -/

namespace ModalHost.Terminal

variable {v : Visuals} {input : Bytes} {c next : Console} {s t : Scene}

theorem weight_tap (decision : Decision) (stage : Stage) :
    (stage.tap decision).weight ≤ stage.weight + 2 := by
  cases stage <;> simp [Stage.tap, Stage.weight] <;> omega

theorem weight_present (c : Console) (missed : Nat) (frame : Frame) :
    (c.present missed frame).weight ≤ c.weight + 4 := by
  cases frame with
  | prompt picture =>
      -- only the start of a reader adds weight; input that it misses takes some away
      have read : (c.input.drop missed).length ≤ c.input.length := by
        rw [List.length_drop]
        omega
      cases reader : c.reader <;>
        simp [Console.present, Console.weight, Reader.weight, Reader.runs, reader] <;> omega
  | _ => exact Nat.le_add_right _ _

/-- A line that is read outweighs the tap that it makes. -/
theorem weight_read (reading : c.reader = .reading) : c.read.weight + 3 ≤ c.weight := by
  cases line : firstLine? c.input with
  | none =>
      have short := length_afterLine c.input
      simp [Console.read, Console.weight, Reader.weight, reading, line]
      omega
  | some text =>
      have short := length_afterLine_lt line
      simp [Console.read, Console.weight, Reader.weight, reading, line]
      omega

theorem goOn_quiet (plays : Plays v c s) (quiet : s.Quiet v t) (missed : Nat) :
    c.goOn missed (t.host v) = { c with host := t.host v } := by
  rcases quiet.history with same | ⟨e, grown, unseen⟩
  · exact Console.goOn_still missed (same.trans (congrArg Host.history plays.host).symm)
  · rw [Console.goOn_event missed (e := e), unseen]
    rw [plays.host]
    exact grown

theorem goOn_draws (plays : Plays v c s) (draws : s.Draws v t) (missed : Nat) :
    c.goOn missed (t.host v) = { c with host := t.host v }.present missed t.frame := by
  rw [Console.goOn_event missed (e := .drew 0 "terminal" t.frame)]
  · rfl
  · rw [plays.host]
    exact draws.history

structure Continues (v : Visuals) (input : Bytes) (left : Nat) (next : Console) (t : Scene) :
    Prop where
  plays : Plays v next t
  stands : Stands input next t
  lighter : t.weight v + next.weight < left

theorem continues_host (plays : Plays v c s) (stands : Stands input c s) {move : Move}
    (moved : s.move? v move = some t) (missed : Nat) :
    Continues v input (s.weight v + c.weight) (c.goOn missed (t.host v)) t := by
  rcases Scene.cases_of_move? moved with quiet | draws
  · rw [goOn_quiet plays quiet missed]
    exact ⟨plays.quiet quiet, stands.quiet quiet,
      Nat.add_lt_add_right (weight_quiet quiet plays.seenShown plays.seenVisuals) _⟩
  · rw [goOn_draws plays draws missed]
    refine ⟨(plays.draws draws).present missed draws.frame_cases, stands.draws draws missed, ?_⟩
    have lighter := weight_draws draws plays.seenShown plays.seenVisuals
    have started : ({ c with host := t.host v }.present missed t.frame).weight ≤ c.weight + 4 :=
      weight_present { c with host := t.host v } missed t.frame
    omega

theorem continues_read (plays : Plays v c s) (stands : Stands input c s)
    (reading : c.reader = .reading) :
    ∃ t, Continues v input (s.weight v + c.weight) c.read t := by
  obtain ⟨asked, up⟩ := stands.published (by rw [reading]; nofun)
  refine ⟨_, plays.read asked up, stands.read reading, ?_⟩
  have lighter := weight_read reading
  have tapped := weight_tap (decided c.input) s.stage
  cases c.target.isSome with
  | true =>
      simp only [Scene.weight, Stage.shown_tap, Stage.visuals_tap, ite_true]
      omega
  | false =>
      simp only [Scene.weight, Bool.false_eq_true, ite_false]
      omega

theorem continues_stop (plays : Plays v c s) (stands : Stands input c s)
    (stopping : c.reader = .stopping) :
    Continues v input (s.weight v + c.weight) { c with reader := .stopped } s := by
  obtain ⟨host, target, prompts, suits, seenShown, seenVisuals, ending⟩ := plays
  refine ⟨⟨host, target, prompts, suits, seenShown, seenVisuals, ending⟩, ?_, ?_⟩
  · cases stands with
    | blank early empty unseen copy reader => cases stopping.symm.trans reader
    | up asking empty seen reader => cases stopping.symm.trans reader
    | tapped taps asking first prompts => exact .tapped taps asking first prompts
    | told told prompts => exact .told told prompts
  · simp [Console.weight, Reader.weight, stopping]

theorem continues_of_turn? (plays : Plays v c s) (stands : Stands input c s) {turn : Turn}
    {next : Console} (taken : c.turn? turn = some next) :
    ∃ t, Continues v input (s.weight v + c.weight) next t := by
  cases turn with
  | host move missed =>
      rw [Console.turn?, plays.host, Scene.move?_host, Option.map_map, Option.map_eq_some_iff]
        at taken
      obtain ⟨t, moved, rfl⟩ := taken
      exact ⟨t, continues_host plays stands moved missed⟩
  | read =>
      obtain ⟨reading, ⟨⟩⟩ := Option.ite_none_right_eq_some.mp taken
      exact continues_read plays stands reading
  | stop =>
      obtain ⟨stopping, ⟨⟩⟩ := Option.ite_none_right_eq_some.mp taken
      exact ⟨s, continues_stop plays stands stopping⟩

theorem ending_of_plays (plays : Plays v c s) : c.ending? = s.stage.ending := by
  rw [Console.ending?, plays.host]
  exact plays.ending

theorem turns_of_plays (plays : Plays v c s) : c.turns =
    [.host (.dispatch 0) 0, .host (.followShown 0) 0, .host (.followVisuals 0) 0,
      .host (.deliver 0) 0, .host (.retire 0) 0, .host (.resumeCaller 0) 0, .read, .stop] := by
  rw [Console.turns, Console.hostTurns, plays.host]
  rfl

/-- A question that has not ended goes on, unless it is the sentinel. -/
theorem can_turn (plays : Plays v c s) (stands : Stands input c s) (asks : v.isEmpty = false)
    (waiting : c.ending? = none) : ∃ turn ∈ c.turns, (c.turn? turn).isSome = true := by
  have moves (m : Move) (member : .host m 0 ∈ c.turns) (moved : (s.move? v m).isSome = true) :
      ∃ turn ∈ c.turns, (c.turn? turn).isSome = true := by
    refine ⟨.host m 0, member, ?_⟩
    rw [Console.turn?, plays.host, Scene.move?_host]
    simpa using moved
  rw [ending_of_plays plays] at waiting
  rw [turns_of_plays plays] at moves ⊢
  have suits := plays.suits
  -- whoever holds the question up can move: the dispatcher, the renderer, the reader, the
  -- consumer or the caller
  cases stands with
  | blank early empty unseen =>
      rcases early with early | early | early
      · exact moves (.dispatch 0) (by simp) (by simp [Scene.move?, Scene.dispatch?, early])
      · rw [early] at suits
        exact absurd (asks.symm.trans suits) Bool.false_ne_true
      · exact moves (.followShown 0) (by simp)
          (by simp [Scene.move?, Scene.look?, early, unseen, Stage.shown])
  | up asking empty seen reading =>
      exact ⟨.read, by simp, by simp [Console.turn?, reading]⟩
  | tapped taps asking first =>
      cases mailbox : s.mailbox with
      | some d =>
          exact moves (.deliver 0) (by simp)
            (by simp [Scene.move?, Scene.deliver?, mailbox, asking])
      | none =>
          cases taps with
          | nil =>
              rw [mailbox] at first
              cases first
          | cons d taps =>
              exact moves (.dispatch 0) (by simp)
                (by simp [Scene.move?, Scene.dispatch?, mailbox, asking])
  | told told =>
      refine moves (.resumeCaller 0) (by simp) ?_
      cases stage : s.stage with
      | answered d ended before after =>
          cases ended with
          | true =>
              rw [stage] at waiting
              cases waiting
          | false => simp [Scene.move?, Scene.resume?, stage]
      | closed d ended taps =>
          cases ended with
          | true =>
              rw [stage] at waiting
              cases waiting
          | false => simp [Scene.move?, Scene.resume?, stage]
      | _ =>
          rw [stage] at told
          cases told

theorem plays_ask (v : Visuals) (input : Bytes) :
    Plays v (Console.ask v input) (.opening v) where
  host := Scene.host_opening v input
  target := nofun
  prompts := nofun
  suits := trivial
  seenShown := Nat.le_refl _
  seenVisuals := Nat.le_refl _
  ending := rfl

theorem stands_ask (v : Visuals) (input : Bytes) :
    Stands input (Console.ask v input) (.opening v) :=
  .blank (.inl rfl) rfl rfl rfl rfl rfl rfl rfl

theorem weight_ask (v : Visuals) (input : Bytes) :
    (Scene.opening v).weight v + (Console.ask v input).weight = Console.turnLimit input := by
  simp [Scene.weight, Scene.opening, Stage.weight, Stage.shown, Stage.visuals, Console.weight,
    Console.ask, Reader.weight, Console.turnLimit]
  omega

theorem continues_of_turns (plays : Plays v c s) (stands : Stands input c s) (turns : List Turn)
    (taken : turns.foldlM Console.turn? c = some next) : ∃ t, Plays v next t ∧
      Stands input next t ∧ turns.length + (t.weight v + next.weight) ≤ s.weight v + c.weight := by
  induction turns generalizing c s with
  | nil =>
      cases taken
      exact ⟨s, plays, stands, by simp⟩
  | cons turn turns ih =>
      rw [List.foldlM_cons] at taken
      obtain ⟨d, first, rest⟩ := Option.bind_eq_some_iff.mp taken
      obtain ⟨t, goes⟩ := continues_of_turn? plays stands first
      obtain ⟨u, last, there, left⟩ := ih goes.plays goes.stands rest
      have lighter := goes.lighter
      refine ⟨u, last, there, ?_⟩
      rw [List.length_cons]
      omega

theorem turns_of_run (choose : Console → List Turn) (c : Console) (limit : Nat) :
    ∃ turns : List Turn, turns.foldlM Console.turn? c = some (c.run choose limit) := by
  induction limit generalizing c with
  | zero => exact ⟨[], rfl⟩
  | succ limit ih =>
      cases ended : c.ending? with
      | some ending => exact ⟨[], by simp [Console.run, ended]⟩
      | none =>
          cases found : (choose c).findSome? c.turn? with
          | none => exact ⟨[], by simp [Console.run, ended, found]⟩
          | some next =>
              obtain ⟨turn, -, taken⟩ := List.exists_of_findSome?_eq_some found
              obtain ⟨turns, rest⟩ := ih next
              have one : c.run choose (limit + 1) = next.run choose limit := by
                simp [Console.run, ended, found]
              refine ⟨turn :: turns, ?_⟩
              rw [List.foldlM_cons, taken, one]
              exact rest

theorem ends_of_run (plays : Plays v c s) (stands : Stands input c s) (asks : v.isEmpty = false)
    (limit : Nat) (enough : s.weight v + c.weight ≤ limit) :
    (c.run Console.turns limit).ending? ≠ none := by
  induction limit generalizing c s with
  | zero =>
      intro waiting
      -- no weight is left, but the turn that can be taken would leave less
      obtain ⟨turn, -, taken⟩ := can_turn plays stands asks waiting
      obtain ⟨next, taken⟩ := Option.isSome_iff_exists.mp taken
      obtain ⟨t, goes⟩ := continues_of_turn? plays stands taken
      exact absurd (Nat.lt_of_lt_of_le goes.lighter enough) (Nat.not_lt_zero _)
  | succ limit ih =>
      cases ended : c.ending? with
      | some ending =>
          have done : c.run Console.turns (limit + 1) = c := by simp [Console.run, ended]
          rw [done, ended]
          nofun
      | none =>
          obtain ⟨turn, member, taken⟩ := can_turn plays stands asks ended
          have some_next : (c.turns.findSome? c.turn?).isSome = true :=
            List.findSome?_isSome_iff.mpr ⟨turn, member, taken⟩
          obtain ⟨next, found⟩ := Option.isSome_iff_exists.mp some_next
          obtain ⟨first, -, taken⟩ := List.exists_of_findSome?_eq_some found
          obtain ⟨t, goes⟩ := continues_of_turn? plays stands taken
          have one : c.run Console.turns (limit + 1) = next.run Console.turns limit := by
            simp [Console.run, ended, found]
          rw [one]
          have lighter := goes.lighter
          exact ih goes.plays goes.stands (by omega)

theorem ended_as_decided (plays : Plays v c s) (stands : Stands input c s) {ending : Ending}
    (ended : c.ending? = some ending) : ending = .decided (decided input) ∧
      c.prompts.getLast? = some (promptText v) := by
  rw [ending_of_plays plays, Stage.ending] at ended
  obtain ⟨-, given⟩ := Option.ite_none_right_eq_some.mp ended
  obtain ⟨d, told, rfl⟩ := Option.map_eq_some_iff.mp given
  obtain ⟨rfl, prompts⟩ := stands.of_told told
  refine ⟨rfl, ?_⟩
  rw [List.getLast?_eq_some_getLast prompts]
  exact congrArg some (plays.prompts _ (List.getLast_mem prompts))

theorem withheld_of_isEmpty (plays : Plays v c s) (stands : Stands input c s)
    (sentinel : v.isEmpty = true) : c.ending? = none ∧ c.prompts = [] ∧ c.input = input := by
  have suits := plays.suits
  rw [ending_of_plays plays]
  cases stands with
  | blank early empty unseen copy reader target prompts unread =>
      refine ⟨?_, prompts, unread⟩
      rcases early with early | early | early <;> rw [early] <;> rfl
  | up asking =>
      rw [asking] at suits
      exact absurd (suits.symm.trans sentinel) Bool.false_ne_true
  | tapped taps asking =>
      rw [asking] at suits
      exact absurd (suits.symm.trans sentinel) Bool.false_ne_true
  | told told =>
      cases stage : s.stage with
      | answered | closed =>
          rw [stage] at suits
          exact absurd (suits.symm.trans sentinel) Bool.false_ne_true
      | _ =>
          rw [stage] at told
          cases told

/-- The first line of the input, up to its line feed or to the end of the input. -/
def firstLineOf (input : Bytes) : Bytes := input.takeWhile (· != lineFeed)

/-- The first line of the input is UTF-8 and says yes. -/
def SaysYes (input : Bytes) : Prop :=
  ∃ line, Utf8.decode (firstLineOf input) = some line ∧
    (Text.trim line).map lowerAscii ∈ ["y".toList, "yes".toList]

theorem isYes_iff (line : List Char) :
    isYes line = true ↔ (Text.trim line).map lowerAscii ∈ ["y".toList, "yes".toList] := by
  simp [isYes]

theorem decided_eq_confirmed_iff (input : Bytes) :
    decided input = .confirmed ↔ SaysYes input := by
  have yes (line : List Char) : decisionOf (some line) = .confirmed ↔ isYes line = true := by
    cases said : isYes line <;> simp [decisionOf, said]
  cases input with
  | nil =>
      -- no input has no first line, and an empty line would not say yes
      refine ⟨nofun, ?_⟩
      rintro ⟨line, read, word⟩
      cases read
      exact absurd ((isYes_iff []).mpr word) (by decide)
  | cons b rest =>
      have line : firstLine? (b :: rest) = Utf8.decode (firstLineOf (b :: rest)) := rfl
      rw [decided, line, SaysYes]
      cases Utf8.decode (firstLineOf (b :: rest)) with
      | none => simp [decisionOf]
      | some line => simp [yes, isYes_iff]

/-- In whatever order things happen, a question comes to its end; by then its prompt was put up,
and the first line of the input decided. -/
structure Concludes (v : Visuals) (input : Bytes) : Prop where
  bounded (turns : List Turn) (c : Console) :
    turns.foldlM Console.turn? (.ask v input) = some c → turns.length ≤ Console.turnLimit input
  goesOn (turns : List Turn) (c : Console) :
    turns.foldlM Console.turn? (.ask v input) = some c → c.ending? = none →
      ∃ turn next, c.turn? turn = some next
  ends (turns : List Turn) (c : Console) (ending : Ending) :
    turns.foldlM Console.turn? (.ask v input) = some c → c.ending? = some ending →
      c.prompts.getLast? = some (promptText v) ∧
        ∃ decision, ending = .decided decision ∧ (decision = .confirmed ↔ SaysYes input)

/-- In whatever order things happen, no prompt is put up, nothing is read, and the question does not
end. -/
def Hangs (v : Visuals) (input : Bytes) : Prop :=
  ∀ (turns : List Turn) (c : Console), turns.foldlM Console.turn? (.ask v input) = some c →
    c.ending? = none ∧ c.prompts = [] ∧ c.input = input

theorem concludes (asks : v.isEmpty = false) (input : Bytes) : Concludes v input := by
  have started := weight_ask v input
  have reach (turns : List Turn) (c : Console)
      (taken : turns.foldlM Console.turn? (.ask v input) = some c) :=
    continues_of_turns (plays_ask v input) (stands_ask v input) turns taken
  refine ⟨fun turns c taken => ?_, fun turns c taken waiting => ?_,
    fun turns c ending taken ended => ?_⟩
  · obtain ⟨t, -, -, left⟩ := reach turns c taken
    omega
  · obtain ⟨t, plays, stands, -⟩ := reach turns c taken
    obtain ⟨turn, -, next⟩ := can_turn plays stands asks waiting
    exact ⟨turn, Option.isSome_iff_exists.mp next⟩
  · obtain ⟨t, plays, stands, -⟩ := reach turns c taken
    obtain ⟨rfl, prompts⟩ := ended_as_decided plays stands ended
    exact ⟨prompts, _, rfl, decided_eq_confirmed_iff input⟩

theorem hangs (sentinel : v.isEmpty = true) (input : Bytes) : Hangs v input := by
  intro turns c taken
  obtain ⟨t, plays, stands, -⟩ :=
    continues_of_turns (plays_ask v input) (stands_ask v input) turns taken
  exact withheld_of_isEmpty plays stands sentinel

theorem runConfirm_of_asks (asks : v.isEmpty = false) (s : Surroundings) (verbose : Bool)
    (undisturbed : s.isInterrupted = false) : runConfirm s verbose v =
      some { exitOf (.decided (decided s.input)) with
        prompt := if verbose then none else some (promptText v) } := by
  obtain ⟨turns, taken⟩ := turns_of_run Console.turns (.ask v s.input) (Console.turnLimit s.input)
  obtain ⟨t, plays, stands, -⟩ :=
    continues_of_turns (plays_ask v s.input) (stands_ask v s.input) turns taken
  have ends := ends_of_run (plays_ask v s.input) (stands_ask v s.input) asks
    (Console.turnLimit s.input) (Nat.le_of_eq (weight_ask v s.input))
  obtain ⟨ending, ended⟩ := Option.ne_none_iff_exists'.mp ends
  obtain ⟨rfl, prompts⟩ := ended_as_decided plays stands ended
  simp [runConfirm, undisturbed, Console.answered, ended, prompts]

theorem runConfirm_of_sentinel (sentinel : v.isEmpty = true) (s : Surroundings) (verbose : Bool)
    (undisturbed : s.isInterrupted = false) : runConfirm s verbose v = none := by
  obtain ⟨turns, taken⟩ := turns_of_run Console.turns (.ask v s.input) (Console.turnLimit s.input)
  obtain ⟨waiting, -⟩ := hangs sentinel s.input turns _ taken
  simp [runConfirm, undisturbed, Console.answered, waiting]

theorem decided_congr {other : Bytes} (same : firstLineOf other = firstLineOf input) :
    decided other = decided input := by
  have both : decided other = .confirmed ↔ decided input = .confirmed := by
    rw [decided_eq_confirmed_iff, decided_eq_confirmed_iff, SaysYes, SaysYes, same]
  cases said : decided input with
  | confirmed => exact both.mpr said
  | canceled =>
      cases told : decided other with
      | confirmed => cases said.symm.trans (both.mp told)
      | canceled => rfl

/-- A question that is not interrupted is put up and answered by the first line of the input, for
every title, content and label but those of the sentinel; that one is never put up, and the run
does not end. -/
theorem answered_unless_sentinel (s : Surroundings) (args : List String) (verbose : Bool)
    (v : Visuals) (asks : readArguments args = .ok ⟨verbose, .confirm v⟩)
    (undisturbed : s.isInterrupted = false) :
    (v ≠ .empty → Concludes v s.input ∧ ∃ report, run s args = some report ∧
      (report.exit = 0 ↔ SaysYes s.input) ∧ (report.exit = 1 ↔ ¬ SaysYes s.input) ∧
      report.failure = none ∧ report.prompt = if verbose then none else some (promptText v)) ∧
    (v = .empty → Hangs v s.input ∧ run s args = none) ∧
    ∀ other : Surroundings, other.isInterrupted = false →
      firstLineOf other.input = firstLineOf s.input → run other args = run s args := by
  have runs (t : Surroundings) : run t args = runConfirm t verbose v := by rw [run, asks]
  rw [← decided_eq_confirmed_iff, runs s]
  refine ⟨fun genuine => ?_, fun sentinel => ?_, fun other still same => ?_⟩
  · have question : v.isEmpty = false := by simpa [Visuals.isEmpty] using genuine
    rw [runConfirm_of_asks question s verbose undisturbed]
    refine ⟨concludes question s.input, _, rfl, ?_⟩
    cases decided s.input <;> simp [exitOf, Report.ofExit]
  · have withheld : v.isEmpty = true := v.isEmpty_iff.mpr sentinel
    exact ⟨hangs withheld s.input, runConfirm_of_sentinel withheld s verbose undisturbed⟩
  · rw [runs other]
    cases sentinel : v.isEmpty with
    | true =>
        rw [runConfirm_of_sentinel sentinel s verbose undisturbed,
          runConfirm_of_sentinel sentinel other verbose still]
    | false =>
        rw [runConfirm_of_asks sentinel s verbose undisturbed,
          runConfirm_of_asks sentinel other verbose still, decided_congr same]

theorem readArguments_eq_ok {args : List String} {invocation : Invocation}
    (read : (readArguments args).toOption = some invocation) :
    readArguments args = .ok invocation := by
  cases result : readArguments args with
  | error stop =>
      rw [result] at read
      cases read
  | ok given =>
      rw [result] at read
      exact congrArg _ (Option.some.inj read)

def garbled : Surroundings := ⟨fun _ => .absent, [0xFF, 0x0A, 0x79], false⟩

theorem garbled_dismisses : Concludes ⟨"", none, some "", none⟩ garbled.input ∧
    ∃ report, run garbled ["confirm", "--title", "", "--confirm", ""] = some report ∧
      report.exit = 1 ∧ report.prompt = some (promptText ⟨"", none, some "", none⟩) := by
  have refused : ¬ SaysYes garbled.input := by
    rintro ⟨line, read, -⟩
    cases read
  obtain ⟨concludes, report, ended, -, exit, -, prompt⟩ := (answered_unless_sentinel garbled
    ["confirm", "--title", "", "--confirm", ""] false ⟨"", none, some "", none⟩
    (readArguments_eq_ok (by decide +kernel)) rfl).1 (by decide)
  exact ⟨concludes, report, ended, exit.mpr refused, prompt⟩

/-- A question of which title and content are blank, and yes on the standard input. -/
theorem blank_unanswered : ¬ ∀ (s : Surroundings) (args : List String) (verbose : Bool)
    (v : Visuals), readArguments args = .ok ⟨verbose, .confirm v⟩ → s.isInterrupted = false →
      ∃ report, run s args = some report ∧ (report.exit = 0 ↔ SaysYes s.input) := by
  intro answers
  have read : readArguments ["confirm", "--title", "", "--content", ""] =
      .ok ⟨false, .confirm .empty⟩ := readArguments_eq_ok (by decide +kernel)
  obtain ⟨report, ended, -⟩ := answers ⟨fun _ => .absent, [0x79, 0x0A], false⟩
    ["confirm", "--title", "", "--content", ""] false .empty read rfl
  have hanging := runConfirm_of_sentinel Visuals.isEmpty_empty
    ⟨fun _ => .absent, [0x79, 0x0A], false⟩ false rfl
  rw [run, read] at ended
  cases hanging.symm.trans ended

end ModalHost.Terminal
