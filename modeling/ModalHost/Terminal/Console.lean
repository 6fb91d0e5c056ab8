import ModalHost.Session.Entry
import ModalHost.Terminal.Question
/-!
A console asks a question: a renderer puts the prompts of a confirm dialog up, and a reader gives
each line of the input to the prompt that is up.
-/
namespace ModalHost.Terminal

/-- The task that reads lines. A prompt starts it, unless it runs. -/
inductive Reader
  | absent
  | reading
  /-- It has met the end of the input, or a line that is not UTF-8. -/
  | stopping
  | stopped
  deriving DecidableEq, Repr

namespace Reader

def runs : Reader → Bool
  | reading | stopping => true
  | absent | stopped => false

end Reader

structure Console where
  host : Host
  /-- Whom the next line answers. -/
  target : Option Responder
  reader : Reader
  /-- What is left of the standard input. -/
  input : Bytes
  /-- The prompts that were put up, the latest first. -/
  prompts : List String
  deriving Repr

/-- What may happen at a console by itself. -/
inductive Turn
  /-- The host moves. A reader that is started again may miss what the one before had buffered. -/
  | host (move : Move) (missed : Nat)
  /-- The reader takes a line. -/
  | read
  /-- The reader stops. -/
  | stop
  deriving DecidableEq, Repr

def endingOf? : Event → Option Ending
  | .ended (.caller 0) _ ending => some ending
  | _ => none

namespace Console

def ask (v : Visuals) (input : Bytes) : Console :=
  let h := Host.initial.openPrompt "question" 0 .initial .none
  let h := h.follow "terminal" (.prompt 0) (some 0)
  ⟨h.await 0 v "caller", none, .absent, input, []⟩

def ending? (c : Console) : Option Ending := c.host.history.findSome? endingOf?

def present (missed : Nat) (c : Console) : Frame → Console
  | .prompt picture =>
    { c with
      target := some ⟨0, some picture⟩
      reader := if c.reader.runs then c.reader else .reading
      input := if c.reader = .stopped then c.input.drop missed else c.input
      prompts := promptText picture.visuals :: c.prompts }
  | .loading => c
  | .clear => { c with target := none }

/-- The host goes on to `next`, and what the renderer draws on the way is shown. -/
def goOn (c : Console) (missed : Nat) (next : Host) : Console :=
  ((Session.since next c.host.history.length).filterMap (Session.drewIn? 0)).foldl
    (present missed) { c with host := next }

/-- The reader takes a line, and what it decides goes to the prompt that is up, if one is. -/
def read (c : Console) : Console :=
  let line := firstLine? c.input
  { c with
    host := c.target.elim c.host (c.host.press · (decisionOf line))
    target := none
    reader := if line.isSome then .reading else .stopping
    input := afterLine c.input }

def turn? (c : Console) : Turn → Option Console
  | .host move missed => (c.host.move? move).map (c.goOn missed)
  | .read => if c.reader = .reading then some c.read else none
  | .stop => if c.reader = .stopping then some { c with reader := .stopped } else none

def hostTurns (c : Console) : List Turn := c.host.moves.map (.host · 0)

/-- All turns; a line is read when the host rests. -/
def turns (c : Console) : List Turn := c.hostTurns ++ [.read, .stop]

/-- Takes turns until the question has ended or none can be taken, at most `limit` of them. -/
def run (turns : Console → List Turn) (c : Console) : Nat → Console
  | 0 => c
  | limit + 1 =>
    match c.ending?, (turns c).findSome? c.turn? with
    | none, some next => next.run turns limit
    | _, _ => c

/-- No question takes more turns. -/
def turnLimit (input : Bytes) : Nat := 3 * input.length + 18

def waiting (v : Visuals) : Console := (ask v []).run hostTurns (turnLimit [])

def answered (v : Visuals) (input : Bytes) : Console := (ask v input).run turns (turnLimit input)

def interrupted (v : Visuals) : Console :=
  let c := waiting v
  { c with host := c.host.cancel 0 }.run hostTurns (turnLimit [])

end Console

end ModalHost.Terminal
