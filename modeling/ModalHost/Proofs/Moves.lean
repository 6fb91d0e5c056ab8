import ModalHost.Proofs.Run
import ModalHost.Proofs.Strand.Basic

/-! What a host comes to by one of its moves, with what has to be so for it. Each move is read off
its function here, once for all that is shown of it. -/

namespace ModalHost.Host

variable {h next : Host}

theorem dispatch_cases (scope : Nat) (next : Host) (ran : h.dispatch? scope = some next) :
    ∃ lineage job jobs, h.scopes[scope]? = some ⟨lineage, false, job :: jobs⟩ ∧
      (h.setQueue scope jobs).runJob job = some next := by
  unfold dispatch? at ran
  split at ran
  · rename_i lineage job jobs front
    exact ⟨lineage, job, jobs, front, ran⟩
  · cases ran

theorem deliver_cases (j : Nat) (next : Host) (delivered : h.deliver? j = some next) :
    ∃ p a, h.prompts[j]? = some p ∧ p.mailbox = some a ∧
      (h.Accepting j p a ∧
          next = (h.updatePrompt j fun p => { p with mailbox := none }).accept j p a ∨
        p.accepts a = false ∧ next = h.updatePrompt j fun p => { p with mailbox := none }) := by
  unfold deliver? at delivered
  split at delivered
  · simp at delivered
  · rename_i p present
    split at delivered
    · simp at delivered
    · rename_i a full
      refine ⟨p, a, present, full, ?_⟩
      split at delivered
      · rename_i owned
        cases counts : p.accepts a with
        | true =>
            left
            exact ⟨⟨present, full, owned, counts⟩, by simpa [counts] using delivered.symm⟩
        | false =>
            right
            exact ⟨rfl, by simpa [counts] using delivered.symm⟩
      · simp at delivered

theorem retire_cases (j : Nat) (next : Host) (retired : h.retire? j = some next) :
    ∃ p a, h.prompts[j]? = some p ∧ p.mailbox = some a ∧ h.ownsPrompt j = true ∧
      h.isCancelled p.scope = true ∧
      next = h.updatePrompt j fun p => { p with mailbox := none } := by
  unfold retire? at retired
  split at retired
  · cases retired
  · rename_i p present
    obtain ⟨stops, ⟨⟩⟩ := Option.ite_none_right_eq_some.mp retired
    obtain ⟨held, dead⟩ := (Bool.and_eq_true _ _).mp stops
    obtain ⟨held, owned⟩ := (Bool.and_eq_true _ _).mp held
    obtain ⟨a, full⟩ := Option.isSome_iff_exists.mp held
    exact ⟨p, a, present, full, owned, dead, rfl⟩

theorem retire_none (j : Nat) (idle : h.deliver? j = none) : h.retire? j = none := by
  apply Option.eq_none_iff_forall_ne_some.mpr
  intro next retired
  obtain ⟨p, a, present, full, owned, -, -⟩ := retire_cases j next retired
  simp [deliver?, present, full, owned] at idle

inductive CallerMove (h : Host) (c : Nat) (caller : Caller) : Host → Prop
  | cancelled (p : Prompt) (present : h.prompts[caller.prompt]? = some p)
      (dead : h.isCancelled p.scope = true) : CallerMove h c caller (h.endCancelled c)
  | told (reply : Reply) (told : caller.reply = some reply)
      (live : ∀ p, h.prompts[caller.prompt]? = some p → h.isCancelled p.scope = false) :
      CallerMove h c caller (h.endCaller c reply.ending)

theorem caller_cases (c : Nat) (resumed : h.resumeCaller? c = some next) :
    ∃ caller, h.callers[c]? = some caller ∧ caller.ended = false ∧ h.CallerMove c caller next := by
  unfold resumeCaller? at resumed
  split at resumed
  · cases resumed
  · rename_i caller found
    split at resumed
    · cases resumed
    · rename_i waits
      refine ⟨caller, found, Bool.not_eq_true _ ▸ waits, ?_⟩
      split at resumed
      · rename_i cancelled
        cases resumed
        obtain ⟨p, present, dead⟩ := (Option.any_eq_true _ _).mp cancelled
        exact .cancelled p present dead
      · rename_i running
        have live (p : Prompt) (present : h.prompts[caller.prompt]? = some p) :
            h.isCancelled p.scope = false := by
          simpa [present] using running
        split at resumed
        · cases resumed
        · rename_i decision told
          cases resumed
          exact .told (.decided decision) told live
        · rename_i told
          cases resumed
          exact .told .superseded told live

inductive WorkMove (h : Host) (w : Nat) (work : Work) : Host → Prop
  | entered (level : Nat) (done : Bool) (stage : work.stage = .entering level done)
      (through : (done || h.loadings[work.loading]?.any fun l => h.isCancelled l.scope) = true) :
      WorkMove h w work (h.enterLevel w (level + 1))
  | returned (text : String) (stage : work.stage = .inside)
      (given : work.outcome = some (.value text)) :
      WorkMove h w work (h.leaveLevel w work.depth text)
  | panicked (stage : work.stage = .inside) (given : work.outcome = some .panic) :
      WorkMove h w work (h.dropWork w .panicked)
  | left (level : Nat) (done : Bool) (text : String) (stage : work.stage = .leaving level done)
      (given : work.outcome = some (.value text))
      (through : (done || h.loadings[work.loading]?.any fun l => h.isCancelled l.scope) = true) :
      WorkMove h w work (h.leaveLevel w (level - 1) text)

theorem work_cases (w : Nat) (advanced : h.advanceWork? w = some next) :
    ∃ work, h.works[w]? = some work ∧ h.WorkMove w work next := by
  unfold advanceWork? at advanced
  split at advanced
  · cases advanced
  · rename_i work there
    refine ⟨work, there, ?_⟩
    dsimp only at advanced
    split at advanced
    · rename_i level done stage
      obtain ⟨through, ⟨⟩⟩ := Option.ite_none_right_eq_some.mp advanced
      exact .entered level done stage through
    · rename_i text stage given
      cases advanced
      exact .returned text stage given
    · rename_i stage given
      cases advanced
      exact .panicked stage given
    · rename_i level done text stage given
      obtain ⟨through, ⟨⟩⟩ := Option.ite_none_right_eq_some.mp advanced
      exact .left level done text stage given through
    · cases advanced

inductive WaitMove (h : Host) (w : Nat) (wait : Wait) : Host → Prop
  | flushed (ran : Bool) (kind : wait.kind = .flush ran) (waits : wait.ended = false)
      (through : (ran || h.isCancelled wait.scope) = true) :
      WaitMove h w wait (h.endWait w wait.name .flushed)
  | cancelled (kind : wait.kind = .cancellation) (waits : wait.ended = false)
      (dead : h.isCancelled wait.scope = true) :
      WaitMove h w wait (h.endWait w wait.name .scopeCancelled)
  | received (given : Outcome) (kind : wait.kind = .spawned true (some given))
      (live : h.isCancelled wait.scope = false) :
      WaitMove h w wait ((h.updateWait w fun wait =>
        { wait with kind := .spawned false (some given) }).record (.received given))
  | joined (running : Bool) (outcome : Option Outcome)
      (kind : wait.kind = .spawned running outcome)
      (waits : wait.ended = false) (rests : (running && !h.isCancelled wait.scope) = false) :
      WaitMove h w wait (h.endWait w wait.name .joined)

theorem wait_cases (w : Nat) (advanced : h.advanceWait? w = some next) :
    ∃ wait, h.waits[w]? = some wait ∧ h.WaitMove w wait next := by
  unfold advanceWait? at advanced
  split at advanced
  · cases advanced
  · rename_i wait there
    refine ⟨wait, there, ?_⟩
    dsimp only at advanced
    split at advanced
    · rename_i ran kind
      obtain ⟨due, ⟨⟩⟩ := Option.ite_none_right_eq_some.mp advanced
      obtain ⟨waits, through⟩ := (Bool.and_eq_true _ _).mp due
      exact .flushed ran kind (by simpa using waits) through
    · rename_i kind
      obtain ⟨due, ⟨⟩⟩ := Option.ite_none_right_eq_some.mp advanced
      obtain ⟨waits, dead⟩ := (Bool.and_eq_true _ _).mp due
      exact .cancelled kind (by simpa using waits) dead
    · rename_i running outcome kind
      split at advanced
      · rename_i given up
        cases advanced
        obtain ⟨rfl, live⟩ := (Bool.and_eq_true _ _).mp up
        exact .received given kind (by simpa using live)
      · cases advanced
      · rename_i rests
        obtain ⟨waits, ⟨⟩⟩ := Option.ite_none_left_eq_some.mp advanced
        exact .joined running _ kind (Bool.not_eq_true _ ▸ waits) rests

inductive ShownMove (h : Host) (f : Nat) (x : Follower) : Host → Prop
  | looked (cell : Cell Bool) (shown : h.shown? x.source = some cell)
      (unseen : cell.version ≠ x.seenShown) :
      ShownMove h f x ((h.updateFollower f fun x =>
        { x with shown := cell.value, seenShown := cell.version }).draw f)
  | ended (cell : Cell Bool) (shown : h.shown? x.source = some cell)
      (seen : cell.version = x.seenShown) (gone : h.storeGone x.source = true) :
      ShownMove h f x ((h.updateFollower f fun x => { x with ended := true }).record
        (.ended (.follower f) x.name .storeGone))

theorem shown_cases (f : Nat) (woke : h.followShown? f = some next) :
    ∃ x, h.followers[f]? = some x ∧ x.ended = false ∧ h.ShownMove f x next := by
  unfold followShown? at woke
  split at woke
  · cases woke
  · rename_i x found
    obtain ⟨running, woke⟩ := Option.ite_none_left_eq_some.mp woke
    refine ⟨x, found, Bool.not_eq_true _ ▸ running, ?_⟩
    split at woke
    · cases woke
    · rename_i cell shown
      split at woke
      · rename_i unseen
        cases woke
        exact .looked cell shown unseen
      · rename_i seen
        obtain ⟨gone, ⟨⟩⟩ := Option.ite_none_right_eq_some.mp woke
        exact .ended cell shown (not_not.mp seen) gone

/-- A follower wakes for new visuals. It draws them if its dialog is shown as far as it knows, and
follows no visuals any more when their prompt is gone. -/
inductive VisualsMove (h : Host) (f : Nat) (x : Follower) (i : Nat) (p : Prompt) : Host → Prop
  | drew (unseen : p.visuals.version ≠ x.seenVisuals) (up : x.shown = true) :
      VisualsMove h f x i p ((h.updateFollower f fun x =>
        { x with seenVisuals := p.visuals.version }).draw f)
  | overlooked (unseen : p.visuals.version ≠ x.seenVisuals) (hidden : x.shown = false) :
      VisualsMove h f x i p (h.updateFollower f fun x =>
        { x with seenVisuals := p.visuals.version })
  | left (seen : p.visuals.version = x.seenVisuals) (gone : h.promptGone i = true) :
      VisualsMove h f x i p (h.updateFollower f fun x => { x with pictures := none })

theorem visuals_cases (f : Nat) (woke : h.followVisuals? f = some next) :
    ∃ x i p, h.followers[f]? = some x ∧ x.ended = false ∧ x.pictures = some i ∧
      h.prompts[i]? = some p ∧ h.VisualsMove f x i p next := by
  unfold followVisuals? at woke
  split at woke
  · cases woke
  · rename_i x found
    obtain ⟨running, woke⟩ := Option.ite_none_left_eq_some.mp woke
    split at woke
    · cases woke
    · rename_i i followed
      split at woke
      · cases woke
      · rename_i p present
        refine ⟨x, i, p, found, Bool.not_eq_true _ ▸ running, followed, present, ?_⟩
        split at woke
        · rename_i unseen
          cases woke
          split
          · rename_i up
            exact .drew unseen up
          · rename_i hidden
            exact .overlooked unseen (Bool.not_eq_true _ ▸ hidden)
        · rename_i seen
          obtain ⟨gone, ⟨⟩⟩ := Option.ite_none_right_eq_some.mp woke
          exact .left (not_not.mp seen) gone

theorem draw_frame (h : Host) (f : Nat) :
    ∃ followers history, h.draw f = { h with followers, history } := by
  unfold draw
  split
  · exact ⟨h.followers, h.history, rfl⟩
  · exact ⟨_, _, rfl⟩

theorem renderer_frame (f : Nat)
    (woke : h.followShown? f = some next ∨ h.followVisuals? f = some next) :
    ∃ followers history, next = { h with followers, history } := by
  rcases woke with woke | woke
  · obtain ⟨x, -, -, moved⟩ := shown_cases f woke
    cases moved with
    | looked =>
        obtain ⟨followers, history, drawn⟩ := draw_frame (h.updateFollower f _) f
        exact ⟨followers, history, drawn⟩
    | ended => exact ⟨_, _, rfl⟩
  · obtain ⟨x, i, p, -, -, -, -, moved⟩ := visuals_cases f woke
    cases moved with
    | drew =>
        obtain ⟨followers, history, drawn⟩ := draw_frame (h.updateFollower f _) f
        exact ⟨followers, history, drawn⟩
    | overlooked | left => exact ⟨_, _, rfl⟩

theorem mem_moves (m : Move) (taken : h.move? m = some next) : m ∈ h.moves := by
  have inside {α : Type} {xs : List α} {n : Nat} {x : α} (found : xs[n]? = some x) :
      n < xs.length := (List.getElem?_eq_some_iff.mp found).1
  cases m with
  | dispatch scope =>
      obtain ⟨lineage, job, jobs, front, -⟩ := dispatch_cases scope next taken
      simpa [moves] using inside front
  | deliver i =>
      obtain ⟨p, a, present, -⟩ := deliver_cases i next taken
      simpa [moves] using inside present
  | retire i =>
      obtain ⟨p, a, present, -⟩ := retire_cases i next taken
      simpa [moves] using inside present
  | resumeCaller c =>
      obtain ⟨caller, found, -⟩ := caller_cases c taken
      simpa [moves] using inside found
  | advanceWork w =>
      obtain ⟨work, there, -⟩ := work_cases w taken
      simpa [moves] using inside there
  | advanceWait w =>
      obtain ⟨wait, there, -⟩ := wait_cases w taken
      simpa [moves] using inside there
  | followShown f =>
      obtain ⟨x, found, -⟩ := shown_cases f taken
      simpa [moves] using inside found
  | followVisuals f =>
      obtain ⟨x, i, p, found, -⟩ := visuals_cases f taken
      simpa [moves] using inside found

end ModalHost.Host
