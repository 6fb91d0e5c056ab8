import ModalHost.Host.Requests
/-!
How tasks go on: callers are resumed, works enter and leave their loading blocks, and waits end.
-/
namespace ModalHost.Host

def resumeCaller? (h : Host) (c : Nat) : Option Host :=
  match h.callers[c]? with
  | none => none
  | some caller =>
    if caller.ended then none
    else if h.prompts[caller.prompt]?.any fun p => h.isCancelled p.scope then
      some (h.endCancelled c)
    else
      match caller.reply with
      | none => none
      | some (.decided decision) => some (h.endCaller c (.decided decision))
      | some .superseded => some (h.endCaller c .superseded)

def beginBlock (h : Host) (w : Nat) : Host :=
  match h.works[w]? with
  | none => h
  | some work =>
    let shown := h.loadings[work.loading]?.any (·.shown.value)
    (h.updateWork w fun work => { work with stage := .inside }).record (.started w work.name shown)

/-- Queues the enter of a level and waits for it; past the last level the block starts. -/
def enterLevel (h : Host) (w : Nat) (level : Nat) : Host :=
  match h.works[w]? with
  | none => h
  | some work =>
    if work.depth < level then h.beginBlock w
    else
      match h.loadings[work.loading]? with
      | none => h
      | some l =>
        (h.updateWork w fun work => { work with stage := .entering level false }).launch l.scope
          (.enter work.loading w level)

/-- Queues the leave of a level and waits for it; outside all levels the work ends. -/
def leaveLevel (h : Host) (w : Nat) (level : Nat) (text : String) : Host :=
  match h.works[w]? with
  | none => h
  | some work =>
    if level = 0 then
      (h.updateWork w fun work => { work with stage := .ended }).record
        (.ended (.work w) work.name (.finished text))
    else
      match h.loadings[work.loading]? with
      | none => h
      | some l =>
        (h.updateWork w fun work => { work with stage := .leaving level false }).launch l.scope
          (.leave work.loading w level true)

def advanceWork? (h : Host) (w : Nat) : Option Host :=
  match h.works[w]? with
  | none => none
  | some work =>
    let cancelled := h.loadings[work.loading]?.any fun l => h.isCancelled l.scope
    match work.stage, work.outcome with
    | .entering level entered, _ =>
      if entered || cancelled then some (h.enterLevel w (level + 1)) else none
    | .inside, some (.value text) => some (h.leaveLevel w work.depth text)
    | .inside, some .panic => some (h.dropWork w .panicked)
    | .leaving level left, some (.value text) =>
      if left || cancelled then some (h.leaveLevel w (level - 1) text) else none
    | _, _ => none

def endWait (h : Host) (w : Nat) (name : String) (ending : Ending) : Host :=
  (h.updateWait w fun wait => { wait with ended := true }).record (.ended (.wait w) name ending)

def advanceWait? (h : Host) (w : Nat) : Option Host :=
  match h.waits[w]? with
  | none => none
  | some wait =>
    let cancelled := h.isCancelled wait.scope
    match wait.kind with
    | .flush ran =>
      if !wait.ended && (ran || cancelled) then some (h.endWait w wait.name .flushed) else none
    | .cancellation =>
      if !wait.ended && cancelled then some (h.endWait w wait.name .scopeCancelled) else none
    | .spawned running outcome =>
      match running && !cancelled, outcome with
      | true, some given =>
        (h.updateWait w fun wait => { wait with kind := .spawned false outcome }).record
          (.received given)
      | true, none => none
      | false, _ => if wait.ended then none else some (h.endWait w wait.name .joined)

end ModalHost.Host
