import ModalHost.Proofs.Trail.Runs
import ModalHost.Proofs.Strand.Awaiting
import ModalHost.Proofs.Strand.History

/-! A prompt that waits for an answer accepts the first one that is sent to it and aims at what it
shows; it drops all the others. -/

namespace ModalHost

def Entry.plain : Entry → Bool
  | registered _ | tapped _ => true
  | _ => false

namespace Host

variable {i request : Nat} {h next : Host} {told entries : List Entry}

inductive Added (h : Host) (i : Nat) : List Entry → Prop
  | plain (entries : List Entry) (plain : ∀ e ∈ entries, e.plain = true) : Added h i entries
  | sent (a : Answer) : Added h i [.sent a]
  | lost (tap : Tap) (gone : h.ownsPrompt i = false) : Added h i [.lost tap]
  | accepted (p : Prompt) (a : Answer) (accepting : h.Accepting i p a) (rest : List Entry)
      (plain : ∀ e ∈ rest, e.plain = true) : Added h i (.accepted a :: rest)
  | dropped (p : Prompt) (a : Answer) (present : h.prompts[i]? = some p)
      (full : p.mailbox = some a)
      (cause : p.accepts a = false ∨ h.isCancelled p.scope = true) : Added h i [.dropped a]

theorem Added.nothing : Added h i [] :=
  .plain [] (List.forall_mem_nil _)

theorem plain_entriesOf (c : Call) : ∀ e ∈ h.entriesOf i c, e.plain = true := by
  intro e member
  cases c with
  | press | setHooks =>
      simp only [entriesOf] at member
      split at member
      · split at member
        · rw [List.mem_singleton.mp member]
          rfl
        · cases member
      · cases member
  | _ => cases member

theorem plain_entriesOfAll (calls : List Call) : ∀ e ∈ h.entriesOfAll i calls, e.plain = true := by
  induction calls generalizing h with
  | nil => exact List.forall_mem_nil _
  | cons c calls ih =>
      intro e member
      rcases List.mem_append.mp member with first | later
      · exact plain_entriesOf c e first
      · exact ih e later

theorem plain_arrivals : ∀ e ∈ h.arrivals i next, e.plain = true := by
  intro e member
  unfold arrivals at member
  split at member
  · rw [List.mem_singleton.mp member]
    rfl
  · cases member

theorem added_dispatch (scope : Nat) : Added h i (h.entriesOfMove i (.dispatch scope)) := by
  simp only [entriesOfMove]
  split
  · split
    · split
      · exact .sent _
      · rename_i gone
        exact .lost _ (Bool.eq_false_iff.mpr gone)
    · exact .nothing
  · exact .nothing

theorem added_deliver (j : Nat) : Added h i (h.entriesOfMove i (.deliver j)) := by
  simp only [entriesOfMove]
  split
  · exact .nothing
  · rename_i p present
    split
    · exact .nothing
    · rename_i a full
      split
      · exact .nothing
      · rename_i owned
        split
        · rename_i counts
          split
          · rename_i same
            subst same
            exact .accepted p a ⟨present, full, by simpa using owned, counts⟩ _
              (plain_entriesOfAll _)
          · exact .plain _ (plain_entriesOfAll _)
        · rename_i stale
          split
          · rename_i same
            subst same
            exact .dropped p a present full (.inl (Bool.eq_false_iff.mpr stale))
          · exact .nothing

theorem added_retire (j : Nat) : Added h i (h.entriesOfMove i (.retire j)) := by
  simp only [entriesOfMove]
  split
  · rename_i retired
    obtain ⟨rfl, retires⟩ := retired
    obtain ⟨next, stopped⟩ := Option.isSome_iff_exists.mp retires
    obtain ⟨p, a, present, full, -, dead, -⟩ := retire_cases j next stopped
    rw [present, Option.bind_some, full]
    exact .dropped p a present full (.inr dead)
  · exact .nothing

theorem added_turn (turn : Session.Step ⊕ Move) : Added h i (h.entriesOfTurn i turn) := by
  cases turn with
  | inl s =>
      cases s with
      | call c => exact .plain _ (plain_entriesOf c)
      | _ => exact .plain _ plain_arrivals
  | inr m =>
      cases m with
      | dispatch scope => exact added_dispatch scope
      | deliver j => exact added_deliver j
      | retire j => exact added_retire j
      | _ => exact .nothing

theorem filterMap_plain {α : Type} (view : Entry → Option α)
    (blind : ∀ e, e.plain = true → view e = none) (plain : ∀ e ∈ entries, e.plain = true) :
    entries.filterMap view = [] :=
  List.filterMap_eq_nil_iff.mpr fun e member => blind e (plain e member)

theorem passed_plain (e : Entry) (plain : e.plain = true) : e.passed? = none := by
  cases e <;> first | rfl | cases plain

theorem sent_plain (e : Entry) (plain : e.plain = true) : e.sent? = none := by
  cases e <;> first | rfl | cases plain

theorem taken_plain (e : Entry) (plain : e.plain = true) : e.taken? = none := by
  cases e <;> first | rfl | cases plain

theorem accepted_plain (e : Entry) (plain : e.plain = true) : e.accepted? = none := by
  cases e <;> first | rfl | cases plain

theorem acceptances_answersTo (h : Host) (i request : Nat) (due : Option Nat) :
    acceptances i request (h.strand i due).log =
      (h.answersTo i).countP (·.request == request) := by
  change acceptances i request (h.history.filter (Event.concerns i)) = _
  rw [acceptances_filter, answersTo, List.countP_reverse]
  induction h.history with
  | nil => rfl
  | cons e history ih =>
      rw [acceptances_cons, ih]
      cases e with
      | accepted j a caller =>
          by_cases same : j = i
          · simp [Event.answer?, Event.answers, same, List.countP_cons]
          · simp [Event.answer?, Event.answers, same]
      | _ => simp [List.filterMap_cons, Event.answer?, Event.answers]

/-- Where a prompt stands that has waited for the answer to `request`, by what has been told of it
since. -/
inductive Heeds (i request : Nat) (told : List Entry) (h : Host) : Prop
  | waits (p : Prompt) (awaits : (h.strand i none).Awaits i request p)
      (unanswered : told.filterMap Entry.accepted? = [])
      (missed : ∀ a ∈ told.filterMap Entry.taken?, a.tap.aims request = false)
      (heard : told.filterMap Entry.passed? = (told.filterMap Entry.sent?).map (·.tap))
  | answered (a : Answer) (spent : Strand.Spent request (h.strand i none))
      (only : told.filterMap Entry.accepted? = [a]) (current : a.request = request)
      (first : (told.filterMap Entry.passed?).find? (·.aims request) = some a.tap)

theorem acceptances_follows (follows : Follows i h entries next) :
    acceptances i request (next.strand i none).log =
      acceptances i request (h.strand i none).log +
        (entries.filterMap Entry.accepted?).countP (·.request == request) := by
  rw [acceptances_answersTo, acceptances_answersTo, follows.answers, List.countP_append]

theorem Accepting.newest {p r : Prompt} {a : Answer} (accepting : h.Accepting i r a)
    (present : h.prompts[i]? = some p) (newest : p.issued = request) : a.request = request := by
  obtain rfl := Option.some.inj (accepting.present.symm.trans present)
  exact ((Prompt.accepts_iff r a).mp accepting.counts).1.trans newest

theorem accepted_cons (a : Answer) (plain : ∀ e ∈ entries, e.plain = true) :
    (Entry.accepted a :: entries).filterMap Entry.accepted? = [a] := by
  rw [List.filterMap_cons, filterMap_plain _ accepted_plain plain]
  rfl

theorem acceptances_accepted {p r : Prompt} {a : Answer} (accepting : h.Accepting i r a)
    (present : h.prompts[i]? = some p) (newest : p.issued = request)
    (plain : ∀ e ∈ entries, e.plain = true) (follows : Follows i h (.accepted a :: entries) next) :
    acceptances i request (next.strand i none).log =
      acceptances i request (h.strand i none).log + 1 := by
  rw [acceptances_follows follows, accepted_cons a plain, List.countP_singleton,
    accepting.newest present newest, beq_self_eq_true, if_pos rfl]

theorem Added.unaccepted (added : Added h i entries) (p : Prompt) (present : h.prompts[i]? = some p)
    (newest : p.issued = request) (follows : Follows i h entries next)
    (same : acceptances i request (next.strand i none).log =
      acceptances i request (h.strand i none).log) : entries.filterMap Entry.accepted? = [] := by
  cases added with
  | plain _ plain => exact filterMap_plain _ accepted_plain plain
  | accepted r a accepting rest plain =>
      have more := acceptances_accepted accepting present newest plain follows
      omega
  | sent | lost | dropped => rfl

/-- The answer that a waiting prompt accepts is the first that aims at the request: all that was sent
before has been taken, and none of it aimed at the request. -/
theorem Accepting.first {start : Host} {p : Prompt} {a : Answer} (accepting : h.Accepting i p a)
    (before : Follows i start told h) (empty : start.mail i = [])
    (missed : ∀ b ∈ told.filterMap Entry.taken?, b.tap.aims request = false)
    (heard : told.filterMap Entry.passed? = (told.filterMap Entry.sent?).map (·.tap))
    (aims : a.tap.aims request = true) (plain : ∀ e ∈ entries, e.plain = true) :
    ((told ++ .accepted a :: entries).filterMap Entry.passed?).find? (·.aims request) =
      some a.tap := by
  have sent := before.mail
  have letter : h.mail i = [a] := by simp [mail, accepting.present, accepting.full]
  rw [empty, List.nil_append, letter] at sent
  have passed : (told ++ .accepted a :: entries).filterMap Entry.passed? =
      (told.filterMap Entry.taken?).map (·.tap) ++ [a.tap] := by
    rw [List.filterMap_append, heard, sent, List.map_append, List.filterMap_cons_none rfl,
      filterMap_plain _ passed_plain plain, List.append_nil]
    rfl
  have skipped : ((told.filterMap Entry.taken?).map (·.tap)).find? (·.aims request) = none := by
    rw [List.find?_map, List.find?_eq_none.mpr fun b member => by simp [missed b member]]
    rfl
  rw [passed, List.find?_append, skipped, Option.none_or]
  exact List.find?_cons_of_pos aims

theorem Heeds.turn (reachable : h.Reachable) (start : Host)
    (empty : start.mail i = []) (before : Follows i start told h)
    (heeds : Heeds i request told h) (p q : Prompt) (present : h.prompts[i]? = some p)
    (there : next.prompts[i]? = some q) (newest : p.issued = request) (newer : q.issued = request)
    (live : next.isCancelled q.scope = false)
    (owned : told.filterMap Entry.accepted? = [] → h.ownsPrompt i = true)
    (path : Strand.Path i (¬·.directs i = true) (h.strand i none) (next.strand i none))
    (follows : Follows i h entries next) (added : Added h i entries) :
    Heeds i request (told ++ entries) next := by
  have spared (job : Job) (may : ¬job.directs i = true) : job.directs i = false :=
    Bool.eq_false_iff.mpr may
  have silent : ¬¬(Job.setPrompt i true).directs i = true := by simp [Job.directs]
  have reached : Strand.Reachable i (h.strand i none) := reachable.woven i
  cases heeds with
  | answered a spent only current first =>
      obtain ⟨-, still, same⟩ := Strand.Path.spent path silent reached request spent
      have later : (told ++ entries).filterMap Entry.accepted? = [a] := by
        rw [List.filterMap_append, only, added.unaccepted p present newest follows same,
          List.append_nil]
      refine .answered a still later current ?_
      rw [List.filterMap_append, List.find?_append, first, Option.some_or]
  | waits r awaits unanswered missed heard =>
      obtain rfl := Option.some.inj (awaits.present.symm.trans present)
      have goes (none : entries.filterMap Entry.accepted? = [])
          (more : ∀ a ∈ entries.filterMap Entry.taken?, a.tap.aims request = false)
          (heard_more : entries.filterMap Entry.passed? = (entries.filterMap Entry.sent?).map (·.tap)) :
          Heeds i request (told ++ entries) next := by
        refine .waits q (Strand.Path.awaits path reached spared awaits there newer ?_ ?_) ?_ ?_ ?_
        · rw [isCancelled_strand]
          exact live
        · rw [acceptances_follows follows, none, List.countP_nil, Nat.add_zero]
        · rw [List.filterMap_append, unanswered, none, List.append_nil]
        · intro a member
          rw [List.filterMap_append] at member
          rcases List.mem_append.mp member with old | new
          · exact missed a old
          · exact more a new
        · rw [List.filterMap_append, List.filterMap_append, List.map_append, heard, heard_more]
      cases added with
      | plain _ plain =>
          refine goes (filterMap_plain _ accepted_plain plain) ?_ ?_
          · rw [filterMap_plain _ taken_plain plain]
            exact List.forall_mem_nil _
          · rw [filterMap_plain _ passed_plain plain, filterMap_plain _ sent_plain plain]
            rfl
      | sent a => exact goes rfl (List.forall_mem_nil _) rfl
      | lost tap gone =>
          rw [owned unanswered] at gone
          cases gone
      | dropped s a here full cause =>
          obtain rfl := Option.some.inj (here.symm.trans present)
          have alive : h.isCancelled s.scope = false := follows.live (fun r at_end => by
            obtain rfl := Option.some.inj (at_end.symm.trans there)
            exact live) s here
          have stale := cause.resolve_right (Bool.eq_false_iff.mp alive)
          refine goes rfl ?_ rfl
          intro b member
          obtain rfl := List.mem_singleton.mp member
          refine Bool.eq_false_iff.mpr fun aims => ?_
          have counts := (Prompt.accepts_iff s b).mpr
            ⟨((awaits.letter b full).mpr aims).trans newest.symm, awaits.phase⟩
          rw [counts] at stale
          cases stale
      | accepted s a accepting rest plain =>
          obtain rfl := Option.some.inj (accepting.present.symm.trans present)
          have answers := accepting.newest present newest
          have more := acceptances_accepted accepting present newest plain follows
          have spent : Strand.Spent request (next.strand i none) := by
            refine ((Strand.Path.acceptances path silent reached request).2.resolve_left ?_).2
            omega
          refine .answered a spent ?_ answers (accepting.first before empty missed heard
            ((awaits.letter a accepting.full).mp answers) plain)
          rw [List.filterMap_append, unanswered, accepted_cons a plain, List.nil_append]

theorem run_append (h : Host) (turns more : List (Session.Step ⊕ Move)) :
    h.run (turns ++ more) = (h.run turns).run more :=
  List.foldl_append

theorem trail_append (h : Host) (i : Nat) (turns more : List (Session.Step ⊕ Move)) :
    trail i h (turns ++ more) = trail i h turns ++ trail i (h.run turns) more := by
  induction turns generalizing h with
  | nil => rfl
  | cons turn turns ih =>
      rw [List.cons_append, trail, ih, trail, List.append_assoc]
      rfl

theorem run_take_succ (h : Host) (turns : List (Session.Step ⊕ Move)) (n : Nat)
    (below : n < turns.length) :
    h.run (turns.take (n + 1)) = (h.run (turns.take n)).run [turns[n]] := by
  rw [List.take_succ_eq_append_getElem below, run_append]

theorem trail_take_succ (h : Host) (i : Nat) (turns : List (Session.Step ⊕ Move)) (n : Nat)
    (below : n < turns.length) :
    trail i h (turns.take (n + 1)) =
      trail i h (turns.take n) ++ (h.run (turns.take n)).entriesOfTurn i turns[n] := by
  rw [List.take_succ_eq_append_getElem below, trail_append, trail, trail, List.append_nil]

theorem spares_of_lacks (kind : Job → Bool) (absent : h.lacks kind = true) :
    h.spares kind = true := by
  unfold lacks at absent
  unfold spares
  rw [List.all_eq_true] at absent ⊢
  intro s member
  have nowhere := absent s member
  rw [Bool.not_eq_true'] at nowhere ⊢
  cases front : s.queue.head? with
  | none => rfl
  | some job =>
      exact Bool.eq_false_iff.mpr (List.any_eq_false.mp nowhere job (List.mem_of_head? front))

/-- What is said of a prompt while nothing is queued for its screen: no job publishes, shows or hides
it, and its scope is live at the end. -/
structure Undirected (i : Nat) (h : Host) (turns : List (Session.Step ⊕ Move)) : Prop where
  calm (n : Nat) : n ≤ turns.length → (h.run (turns.take n)).lacks (Job.directs i) = true
  live (q : Prompt) : (h.run turns).prompts[i]? = some q →
    (h.run turns).isCancelled q.scope = false

namespace Undirected

variable {turns : List (Session.Step ⊕ Move)}

theorem take (undirected : Undirected i h turns) (reachable : h.Reachable) (p : Prompt)
    (present : h.prompts[i]? = some p) (k : Nat) : Undirected i h (turns.take k) where
  calm n below := by
    rw [List.length_take] at below
    rw [List.take_take, Nat.min_eq_left (Nat.le_trans below (Nat.min_le_left _ _))]
    exact undirected.calm n (Nat.le_trans below (Nat.min_le_right _ _))
  live q there := by
    have later : Leads (h.run (turns.take k)) (h.run turns) := by
      have whole := run_append h (turns.take k) (turns.drop k)
      rw [List.take_append_drop] at whole
      exact whole ▸ Leads.run _ _
    have reached := reachable.run (turns.take k)
    obtain ⟨r, here, home⟩ := (follows_run reachable turns).home p present
    have same := later.home reached q r there here
    exact later.live reached q.scope (same ▸ undirected.live r here)

theorem drop (undirected : Undirected i h turns) (k : Nat) :
    Undirected i (h.run (turns.take k)) (turns.drop k) where
  calm n below := by
    rw [← run_append]
    by_cases inside : k ≤ turns.length
    · rw [List.length_drop] at below
      rw [← List.take_add]
      exact undirected.calm (k + n) (by omega)
    · rw [List.drop_eq_nil_of_le (Nat.le_of_not_le inside), List.take_nil, List.append_nil,
        List.take_of_length_le (Nat.le_of_not_le inside)]
      have whole := undirected.calm turns.length (Nat.le_refl _)
      rwa [List.take_length] at whole
  live := by
    rw [← run_append, List.take_append_drop]
    exact undirected.live

theorem issued (undirected : Undirected i h turns) (reachable : h.Reachable) (p q : Prompt)
    (present : h.prompts[i]? = some p) (there : (h.run turns).prompts[i]? = some q) :
    q.issued = p.issued := by
  have unasked := RunsUnasked.run (Job.directs i · = true) (Job.directs i) (fun _ => id) turns h
    fun n below => undirected.calm (n + 1) below
  have lane := unasked.lane reachable p q present there (undirected.live q there)
  exact lane.issued fun s visuals quiet => quiet (by simp [Job.directs])

theorem path (undirected : Undirected i h turns) (reachable : h.Reachable) :
    Strand.Path i (¬·.directs i = true) (h.strand i none) ((h.run turns).strand i none) := by
  have without := RunsWithout.run (Job.directs i · = true) (Job.directs i) (fun _ => id) turns h
    fun n below => spares_of_lacks _ (undirected.calm n (Nat.le_of_lt below))
  exact without.path reachable

end Undirected

/-- Along a run in which nothing is queued for the screen of a prompt, and its consumer stays until
an answer is accepted, a prompt that waits for an answer accepts the first that is sent to it and
aims at what it shows, and no other. -/
theorem heeds_run (reachable : h.Reachable) (p : Prompt)
    (awaits : (h.strand i none).Awaits i request p) (empty : p.mailbox = none)
    (turns : List (Session.Step ⊕ Move)) (undirected : Undirected i h turns)
    (owned : ∀ n < turns.length, (trail i h (turns.take n)).filterMap Entry.accepted? = [] →
      (h.run (turns.take n)).ownsPrompt i = true) :
    Heeds i request (trail i h turns) (h.run turns) := by
  have present : h.prompts[i]? = some p := awaits.present
  have prefixes (n : Nat) (below : n ≤ turns.length) :
      Heeds i request (trail i h (turns.take n)) (h.run (turns.take n)) := by
    induction n with
    | zero => exact .waits p awaits rfl nofun rfl
    | succ n ih =>
        have early := undirected.take reachable p present n
        have next := undirected.take reachable p present (n + 1)
        have reached := reachable.run (turns.take n)
        have before := follows_run (i := i) reachable (turns.take n)
        obtain ⟨q, there, -⟩ := before.home p present
        obtain ⟨r, here, -⟩ := (follows_run reachable (turns.take (n + 1))).home p present
        have newest := (early.issued reachable p q present there).trans awaits.newest
        have newer := (next.issued reachable p r present here).trans awaits.newest
        have live := next.live r here
        have step := ((undirected.drop n).take (reachable.run _) q there 1).path reached
        have turned : (turns.drop n).take 1 = [turns[n]] := by
          rw [List.drop_eq_getElem_cons below]
          rfl
        rw [turned] at step
        rw [run_take_succ h turns n below] at live here ⊢
        rw [trail_take_succ h i turns n below]
        refine (ih (Nat.le_of_lt below)).turn reached h (by simp [mail, present, empty]) before q r there
          here newest newer live ?_ step (follows_turn reached.woven _) (added_turn _)
        exact owned n below
  have whole := prefixes turns.length (Nat.le_refl _)
  rwa [List.take_length] at whole

end Host

end ModalHost
