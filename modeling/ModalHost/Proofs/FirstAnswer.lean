import ModalHost.Proofs.Trail.Bursts

/-! Of the answers to a request the first one wins, and the hooks mirror the answers that are
accepted. -/

namespace ModalHost

namespace Entry

def dropped? : Entry → Option Answer
  | dropped a => some a
  | _ => none

def lost? : Entry → Option Tap
  | lost tap => some tap
  | _ => none

theorem perm_taken (trail : List Entry) :
    (trail.filterMap accepted? ++ trail.filterMap dropped?).Perm (trail.filterMap taken?) := by
  induction trail with
  | nil => exact .nil
  | cons e trail ih =>
      cases e with
      | accepted a => exact ih.cons a
      | dropped a => exact List.perm_middle.trans (ih.cons a)
      | _ => exact ih

theorem perm_passed (trail : List Entry) :
    ((trail.filterMap sent?).map (·.tap) ++ trail.filterMap lost?).Perm (trail.filterMap passed?) := by
  induction trail with
  | nil => exact .nil
  | cons e trail ih =>
      cases e with
      | sent a => exact ih.cons a.tap
      | lost tap => exact List.perm_middle.trans (ih.cons tap)
      | _ => exact ih

end Entry

namespace Host

variable {i request : Nat} {h next : Host} {told : List Entry}

/-- Of the answers that aim at the request only the first can be accepted. -/
theorem Heeds.first (heeds : Heeds i request told next) (follows : Follows i h told next)
    (untapped : h.taps i = []) (live : next.LiveFor i) :
    told.filterMap Entry.accepted? = [] ∨
      ∃ a, told.filterMap Entry.accepted? = [a] ∧ a.request = request ∧
        (told.filterMap Entry.tapped?).find? (·.aims request) = some a.tap := by
  cases heeds with
  | waits p awaits unanswered => exact .inl unanswered
  | answered a spent only current first =>
      have queue := follows.queue live
      rw [untapped, List.nil_append] at queue
      exact .inr ⟨a, only, current, by rw [← queue, List.find?_append, first, Option.some_or]⟩

theorem Heeds.drained (heeds : Heeds i request told next) (follows : Follows i h told next)
    (empty : h.mail i = []) (untapped : h.taps i = []) (live : next.LiveFor i)
    (through : next.taps i = [])
    (heard : told.filterMap Entry.accepted? = [] → next.mail i = []) :
    (told.filterMap Entry.accepted?).map (·.tap) =
      ((told.filterMap Entry.tapped?).find? (·.aims request)).toList := by
  have first := heeds.first follows untapped live
  cases heeds with
  | answered a spent only =>
      rcases first with none | ⟨b, one, -, wins⟩
      · rw [none] at only
        cases only
      · rw [one, wins]
        rfl
  | waits p awaits unanswered missed sent =>
      have queue := follows.queue live
      have mail := follows.mail
      rw [untapped, through, List.nil_append, List.append_nil, sent] at queue
      rw [empty, heard unanswered, List.nil_append, List.append_nil] at mail
      have nobody : (told.filterMap Entry.tapped?).find? (·.aims request) = none := by
        rw [← queue, mail, List.find?_map,
          List.find?_eq_none.mpr fun a member => by simp [missed a member]]
        rfl
      rw [unanswered, nobody]
      rfl

theorem Follows.accounted (follows : Follows i h told next) (empty : h.mail i = [])
    (untapped : h.taps i = []) (live : next.LiveFor i) (through : next.taps i = []) :
    ((told.filterMap Entry.accepted?).map (·.tap) ++
      ((told.filterMap Entry.dropped?).map (·.tap) ++ (next.mail i).map (·.tap) ++
        told.filterMap Entry.lost?)).Perm (told.filterMap Entry.tapped?) := by
  have queue := follows.queue live
  have sent := follows.mail
  rw [untapped, through, List.nil_append, List.append_nil] at queue
  rw [empty, List.nil_append] at sent
  have passed := Entry.perm_passed told
  rw [queue, sent, List.map_append] at passed
  have taken := (Entry.perm_taken told).map (·.tap)
  rw [List.map_append] at taken
  refine .trans ?_ passed
  rw [List.append_assoc, List.append_assoc, ← List.append_assoc]
  exact taken.append_right _

theorem find?_of_forall {α : Type} (test : α → Bool) (l : List α) (all : ∀ x ∈ l, test x = true) :
    l.find? test = l.head? := by
  cases l with
  | nil => rfl
  | cons x l => exact List.find?_cons_of_pos (all x List.mem_cons_self)

theorem head?_toList {α : Type} (l : List α) : l.head?.toList = l.take 1 := by
  cases l <;> rfl

theorem awaits_of_drained (reachable : h.Reachable) (p : Prompt) (present : h.prompts[i]? = some p)
    (live : h.isCancelled p.scope = false) (drained : h.queued p.scope = [])
    (empty : p.mailbox = none) (up : p.phase = .awaitingInput) :
    (h.strand i none).Awaits i p.published p where
  present
  newest := by
    have jobs : h.jobsOf i p = [] := by rw [jobsOf, drained, List.filter_nil]
    exact ((reachable.kept p present live).drained rfl jobs).1.symm
  published := rfl
  phase := up
  letter a full := by
    rw [empty] at full
    cases full
  unsettled := by
    rw [queued_strand, drained]
    exact nofun
  due := nofun

theorem mail_of_channel (owned : h.ownsPrompt i = true) (free : h.channel i = none) :
    h.mail i = [] := by
  rw [channel, if_pos owned] at free
  rw [mail, free]
  rfl

theorem manned_of_still (p : Prompt) (present : h.prompts[i]? = some p)
    (live : h.isCancelled p.scope = false) (still : h.StillOn p.scope)
    (owned : h.ownsPrompt i = true) : h.Manned i := by
  unfold ownsPrompt at owned
  rcases Bool.or_eq_true_iff.mp owned with handle | waiting
  · exact .inl handle
  · obtain ⟨caller, member, waits⟩ := List.any_eq_true.mp waiting
    obtain ⟨c, found⟩ := List.mem_iff_getElem?.mp member
    rw [Bool.and_eq_true, beq_iff_eq, Bool.not_eq_true'] at waits
    obtain ⟨rfl, waits⟩ := waits
    have rests := still.callers c caller p found present rfl
    refine .inr ⟨c, caller, found, rfl, waits, ?_⟩
    simp only [resumeCaller?, found, waits, present, Option.any_some, live, Bool.false_eq_true,
      if_false] at rests
    cases told : caller.reply with
    | none => rfl
    | some reply =>
        rw [told] at rests
        cases reply <;> cases rests

theorem burst_first (reachable : h.Reachable) (p : Prompt) (present : h.prompts[i]? = some p)
    (live : h.isCancelled p.scope = false) (still : h.StillOn p.scope)
    (unheld : .hold false ∉ h.queued p.scope) (owned : h.ownsPrompt i = true)
    (up : p.phase = .awaitingInput) (silent : h.Silent i) (turns : List (Session.Step ⊕ Move))
    (bursts : ∀ n (below : n < turns.length),
      (h.run (turns.take n)).Bursts i p.published turns[n]) :
    ((trail i h turns).filterMap Entry.accepted? = [] ∨
      ∃ a, (trail i h turns).filterMap Entry.accepted? = [a] ∧ a.request = p.published ∧
        ((trail i h turns).filterMap Entry.tapped?).head? = some a.tap) ∧
    ((h.run turns).StillOn p.scope →
      ((trail i h turns).filterMap Entry.accepted?).map (·.tap) =
        ((trail i h turns).filterMap Entry.tapped?).take 1 ∧
      (((trail i h turns).filterMap Entry.accepted?).map (·.tap) ++
        (((trail i h turns).filterMap Entry.dropped?).map (·.tap) ++
          ((h.run turns).mail i).map (·.tap) ++ (trail i h turns).filterMap Entry.lost?)).Perm
        ((trail i h turns).filterMap Entry.tapped?) ∧ (h.run turns).channel i = none) := by
  obtain ⟨drained, channels⟩ := drained_of_still reachable p.scope live unheld still
  have empty : p.mailbox = none := by
    have free := channels i p present rfl
    rwa [channel, if_pos owned, present] at free
  have untapped : h.taps i = [] := by
    simp [taps, present, drained]
  have lull := lull_run reachable p present live silent
    (manned_of_still p present live still owned) turns bursts
  have calm (n : Nat) (inside : n ≤ turns.length) :
      (h.run (turns.take n)).lacks (Job.directs i) = true :=
    (lull n inside).lacks reachable p present drained
  have follows := follows_run (i := i) reachable turns
  obtain ⟨q, there, home⟩ := follows.home p present
  have whole := lull turns.length (Nat.le_refl _)
  rw [List.take_length] at whole
  have alive := whole.liveFor follows p present live
  have heeds := heeds_run reachable p
    (awaits_of_drained reachable p present live drained empty up) empty turns ⟨calm, alive⟩
    fun n below unanswered => ((lull n (Nat.le_of_lt below)).manned unanswered).owned
  have aimed := find?_of_forall _ _ whole.aims
  constructor
  · have first := heeds.first follows untapped alive
    rwa [aimed] at first
  · intro stopped
    have unheld_still : .hold false ∉ (h.run turns).queued p.scope := fun held =>
      unheld ((whole.tame (· == .hold false) asked_hold fun _ => rfl).queue p.scope _ held rfl)
    obtain ⟨gone, free⟩ := drained_of_still (reachable.run turns) p.scope (home ▸ alive q there)
      unheld_still stopped
    have through : (h.run turns).taps i = [] := by simp [taps, there, home, gone]
    have none_mail : h.mail i = [] := by simp [mail, present, empty]
    have free := free i q there home
    refine ⟨?_, ?_, free⟩
    · rw [heeds.drained follows none_mail untapped alive through ?_, aimed, head?_toList]
      intro unanswered
      exact mail_of_channel (whole.manned unanswered).owned free
    · exact follows.accounted none_mail untapped alive through

theorem trail_from_start (i : Nat) (turns : List (Session.Step ⊕ Move)) :
    (initial.run turns).answersTo i = (trail i initial turns).filterMap Entry.accepted? ∧
      (initial.run turns).firedFor i = Entry.fires i .none (trail i initial turns) ∧
      (trail i initial turns).filterMap Entry.sent? =
        (trail i initial turns).filterMap Entry.taken? ++ (initial.run turns).mail i ∧
      ((trail i initial turns).filterMap Entry.passed? ++ (initial.run turns).taps i).Sublist
        ((trail i initial turns).filterMap Entry.tapped?) := by
  have follows := follows_run (i := i) (h := initial) .refl turns
  refine ⟨?_, ?_, ?_, ?_⟩
  · rw [follows.answers]
    rfl
  · rw [follows.fired]
    rfl
  · rw [← follows.mail]
    rfl
  · have taps := follows.taps
    rwa [show initial.taps i = [] from rfl, List.nil_append] at taps

theorem deliver_dropped (p : Prompt) (a : Answer) (present : h.prompts[i]? = some p)
    (full : p.mailbox = some a) (stale : p.accepts a = false) (delivered : h.deliver? i = some next) :
    next = h.updatePrompt i fun p => { p with mailbox := none } := by
  obtain ⟨q, b, here, there, ⟨accepting, -⟩ | ⟨-, same⟩⟩ := deliver_cases i next delivered
  · obtain rfl := Option.some.inj (here.symm.trans present)
    obtain rfl := Option.some.inj (there.symm.trans full)
    rw [accepting.counts] at stale
    cases stale
  · exact same

/-- The hooks of a prompt that run are those of the answers that it accepts, in the order in which the
answers were launched and sent, each the one that was registered for the decision when the answer was
accepted; an answer that is dropped only leaves its channel. Where a prompt waits for the answer to
what it shows, and nothing else is left to run on its live scope, the first of the answers that are
launched is accepted and no other, in whatever order dispatcher and consumer move. -/
theorem hooks_mirror_first_wins (i : Nat) :
    (∀ turns : List (Session.Step ⊕ Move),
      (initial.run turns).answersTo i = (trail i initial turns).filterMap Entry.accepted? ∧
      (initial.run turns).firedFor i = Entry.fires i .none (trail i initial turns) ∧
      (trail i initial turns).filterMap Entry.sent? =
        (trail i initial turns).filterMap Entry.taken? ++ (initial.run turns).mail i ∧
      ((trail i initial turns).filterMap Entry.passed? ++ (initial.run turns).taps i).Sublist
        ((trail i initial turns).filterMap Entry.tapped?)) ∧
    (∀ (h next : Host) (p : Prompt) (a : Answer), h.prompts[i]? = some p → p.mailbox = some a →
      p.accepts a = false → h.deliver? i = some next →
      next = h.updatePrompt i fun p => { p with mailbox := none }) ∧
    ∀ (h : Host) (p : Prompt), h.Reachable → h.prompts[i]? = some p →
      h.isCancelled p.scope = false → h.StillOn p.scope → .hold false ∉ h.queued p.scope →
      h.ownsPrompt i = true → p.phase = .awaitingInput → h.Silent i →
      ∀ turns : List (Session.Step ⊕ Move),
        (∀ n (below : n < turns.length),
          (h.run (turns.take n)).Bursts i p.published turns[n]) →
        ((trail i h turns).filterMap Entry.accepted? = [] ∨
          ∃ a, (trail i h turns).filterMap Entry.accepted? = [a] ∧ a.request = p.published ∧
            ((trail i h turns).filterMap Entry.tapped?).head? = some a.tap) ∧
        ((h.run turns).StillOn p.scope →
          ((trail i h turns).filterMap Entry.accepted?).map (·.tap) =
            ((trail i h turns).filterMap Entry.tapped?).take 1 ∧
          (((trail i h turns).filterMap Entry.accepted?).map (·.tap) ++
            (((trail i h turns).filterMap Entry.dropped?).map (·.tap) ++
              ((h.run turns).mail i).map (·.tap) ++ (trail i h turns).filterMap Entry.lost?)).Perm
            ((trail i h turns).filterMap Entry.tapped?) ∧ (h.run turns).channel i = none) := by
  refine ⟨trail_from_start i, fun h next p a => deliver_dropped p a, ?_⟩
  intro h p reachable present live still unheld owned up silent turns bursts
  exact burst_first reachable p present live still unheld owned up silent turns bursts

/-- A prompt asks something and waits for the answer. It has a hook only for the case that it is
dismissed. -/
def asking : List (Session.Step ⊕ Move) :=
  [.inl (.openDialog "d" "main" (.confirm ⟨"k", none, some []⟩ .blank)),
    .inl (.call (.showConfirm "d" (.ofTitle "T"))), .inr (.dispatch 0)]

def answering : List (Session.Step ⊕ Move) :=
  [.inl (.call (.press (.fresh "d") .canceled)), .inl (.call (.press (.fresh "d") .confirmed)),
    .inr (.dispatch 0), .inr (.deliver 0), .inr (.dispatch 0), .inr (.deliver 0), .inr (.dispatch 0)]

theorem asking_still : (initial.run asking).StillOn 0 :=
  still_of_bounded 0 rfl (by decide) (by decide)

theorem answering_still : ((initial.run asking).run answering).StillOn 0 :=
  still_of_bounded 0 rfl (by decide) (by decide)

theorem answering_bursts (n : Nat) (below : n < answering.length) :
    ((initial.run asking).run (answering.take n)).Bursts 0 1 answering[n] := by
  match n, below with
  | 0, _ | 1, _ => exact ⟨⟨0, none⟩, rfl, rfl, nofun⟩
  | 3, _ | 5, _ => rfl
  | 2, _ | 4, _ | 6, _ => trivial
  | n + 7, below =>
      have length : answering.length = 7 := rfl
      omega

theorem answering_first_wins :
    (initial.run (asking ++ answering)).answersTo 0 = [⟨1, ⟨.canceled, none, 1⟩⟩] ∧
      (initial.run (asking ++ answering)).firedFor 0 = [.hookRan 0 "k" .canceled] ∧
      ((trail 0 (initial.run asking) answering).filterMap Entry.accepted?).map (·.tap) =
        [⟨.canceled, none, 1⟩] := by
  obtain ⟨mirrors, -, wins⟩ := hooks_mirror_first_wins 0
  obtain ⟨answers, fired, -, -⟩ := mirrors (asking ++ answering)
  have silent : (initial.run asking).Silent 0 := by
    intro d
    cases d <;> rfl
  have first := wins (initial.run asking) _ (Reachable.run .refl asking) rfl rfl asking_still
    (by decide) rfl rfl silent answering answering_bursts
  exact ⟨answers, fired, (first.2 answering_still).1⟩

def askingCancelled : List (Session.Step ⊕ Move) := asking ++ [.inl (.call (.cancel "main"))]

/-- On a cancelled scope a prompt that waits, with nothing left to run, takes no answer at all. -/
theorem cancelled_takes_none :
    (∃ p, (initial.run askingCancelled).prompts[0]? = some p ∧ p.phase = .awaitingInput ∧
      p.shown.value = true ∧ p.published = p.issued) ∧
    (initial.run askingCancelled).next? = none ∧
    (initial.run (askingCancelled ++ answering)).next? = none ∧
    (trail 0 (initial.run askingCancelled) answering).filterMap Entry.tapped? =
      [⟨.canceled, none, 1⟩, ⟨.confirmed, none, 1⟩] ∧
    (trail 0 (initial.run askingCancelled) answering).filterMap Entry.accepted? = [] :=
  ⟨⟨_, rfl, rfl, rfl, rfl⟩, rfl, rfl, rfl, rfl⟩

end Host

end ModalHost
