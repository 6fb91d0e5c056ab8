import ModalHost.Proofs.FirstAnswer
import ModalHost.Proofs.MessagePack.RoundTrip

/-! A confirm dialog that is saved and built again from the bytes shows what it showed, and takes the
first answer that is given to it. -/

namespace ModalHost

namespace Prompt

variable (scope other : Nat) (s : Snapshot) (hooks given : Hooks Call)

theorem save_restore : (restore scope s hooks).save = ⟨s.onScreen, s.visuals⟩ := rfl

theorem onScreen_save_restore : (restore scope s hooks).save.onScreen = s.onScreen := by
  simp only [save_restore, Snapshot.onScreen, Bool.and_assoc, Bool.and_self]

theorem save_restore_save :
    (restore other (restore scope s hooks).save given).save = (restore scope s hooks).save := by
  rw [save_restore, onScreen_save_restore]
  rfl

end Prompt

theorem Orderly.timely {asked : List (Nat × Visuals)} {issued published : Nat} {jobs : List Job}
    (orderly : Orderly asked issued published jobs) (i : Nat) (tap : Tap)
    (member : .offer i tap ∈ jobs) : ∃ last, last ≤ issued ∧ tap.Timely asked last issued := by
  fun_induction Orderly asked issued published jobs with
  | case1 published => cases member
  | case2 published j request visuals jobs ih =>
      exact ih orderly.2.2 ((List.mem_cons.mp member).resolve_left (by rintro ⟨⟩))
  | case3 published j other jobs ih =>
      rcases List.mem_cons.mp member with same | later
      · cases same
        exact ⟨published, orderly.2.le, orderly.1⟩
      · exact ih orderly.2 later
  | case4 published job jobs no_publish no_offer ih =>
      rcases List.mem_cons.mp member with same | later
      · exact absurd same.symm (no_offer i tap)
      · exact ih orderly later

namespace Host

variable {i : Nat} {h : Host}

theorem taps_aim (reachable : h.Reachable) (p : Prompt) (present : h.prompts[i]? = some p)
    (unasked : p.issued = 0) (tap : Tap) (member : tap ∈ h.taps i) : tap.aims 0 = true := by
  simp only [taps, present, Option.map_some, Option.getD_some] at member
  obtain ⟨job, queued, same⟩ := List.mem_filterMap.mp member
  cases job with
  | offer j given =>
      unfold Job.tap? at same
      obtain ⟨rfl, ⟨⟩⟩ := Option.ite_none_right_eq_some.mp same
      have scheduled := Strand.Reachable.scheduled (reachable.woven j) |>.present p present
      have there : .offer j tap ∈ (h.strand j none).queued p.scope := by
        rw [queued_strand]
        exact List.mem_filter.mpr ⟨queued, by simp [Job.prompt?]⟩
      obtain ⟨last, bound, timely⟩ := scheduled.orderly.timely j tap there
      unfold Tap.aims
      cases shot : tap.picture with
      | none => rfl
      | some picture =>
          have appeared := (timely.picture picture shot).appeared
          have zero : picture.request = 0 := by omega
          simp [zero]
  | _ => cases same

theorem mem_trail {e : Entry} (turns : List (Session.Step ⊕ Move)) (member : e ∈ trail i h turns) :
    ∃ n, ∃ below : n < turns.length, e ∈ (h.run (turns.take n)).entriesOfTurn i turns[n] := by
  induction turns generalizing h with
  | nil => cases member
  | cons turn turns ih =>
      rcases List.mem_append.mp member with now | later
      · exact ⟨0, Nat.succ_pos _, now⟩
      · obtain ⟨n, below, there⟩ := ih later
        exact ⟨n + 1, Nat.succ_lt_succ below, there⟩

theorem taps_aim_run (reachable : h.Reachable) (p : Prompt) (present : h.prompts[i]? = some p)
    (unasked : p.issued = 0) (turns : List (Session.Step ⊕ Move))
    (undirected : Undirected i h turns) :
    ∀ tap ∈ (trail i h turns).filterMap Entry.tapped?, tap.aims 0 = true := by
  intro tap member
  obtain ⟨e, told, same⟩ := List.mem_filterMap.mp member
  obtain ⟨n, below, told⟩ := mem_trail turns told
  have reached := reachable.run (turns.take n)
  have later := undirected.take reachable p present (n + 1)
  obtain ⟨q, there, -⟩ := (follows_run reachable (turns.take (n + 1))).home p present
  have newer := (later.issued reachable p q present there).trans unasked
  have follows := follows_turn (i := i) reached.woven turns[n]
  rw [run_take_succ h turns n below] at there
  have alive := later.live
  rw [run_take_succ h turns n below] at alive
  -- Nothing leaves the queue when something is launched, so it is there at the end of the turn.
  have added := added_turn (h := h.run (turns.take n)) (i := i) turns[n]
  have kept : ((h.run (turns.take n)).entriesOfTurn i turns[n]).filterMap Entry.passed? = [] := by
    generalize (h.run (turns.take n)).entriesOfTurn i turns[n] = entries at told added
    cases added with
    | plain _ plain => exact filterMap_plain _ passed_plain plain
    | accepted r a accepting rest plain =>
        rw [List.filterMap_cons_none rfl, filterMap_plain _ passed_plain plain]
    | sent | lost | dropped =>
        rw [List.mem_singleton.mp told] at same
        cases same
  have queue := follows.queue alive
  rw [kept, List.nil_append] at queue
  refine taps_aim (reached.run [turns[n]]) q there newer tap ?_
  rw [queue]
  exact List.mem_append_right _ (List.mem_filterMap.mpr ⟨e, told, same⟩)

theorem prompts_openPrompt (h : Host) (name : String) (scope : Nat) (s : Snapshot)
    (hooks : Hooks Call) :
    (h.openPrompt name scope s hooks).prompts[h.prompts.length]? =
        some (.restore scope s hooks) ∧
      (h.openPrompt name scope s hooks).prompt? name = some h.prompts.length := by
  have edits : Edits Untapped Unheard Prompt.inlet h (h.dropDialog name) :=
    ample_plain.dropDialog name
  have count : (h.dropDialog name).prompts.length = h.prompts.length := by
    simpa using congrArg List.length edits.views
  constructor
  · change ((h.dropDialog name).prompts ++ [Prompt.restore scope s hooks])[h.prompts.length]? = _
    rw [← count, List.getElem?_concat_length]
  · simp [prompt?, openPrompt, record, bindDialog, Names.find?, Names.bind, count]

section

variable (name : String) (scope : Nat) (s : Snapshot) (hooks : Hooks Call)

theorem opened_awaits (reachable : h.Reachable) (up : s.onScreen = true) :
    ((h.openPrompt name scope s hooks).strand h.prompts.length none).Awaits h.prompts.length 0
      (.restore scope s hooks) where
  present := (prompts_openPrompt h name scope s hooks).1
  newest := rfl
  published := rfl
  phase := if_pos up
  letter _ full := nomatch full
  unsettled := by
    rw [queued_strand]
    intro member
    have old : .settle h.prompts.length 0 ∈ h.queued scope := by
      have same : (h.openPrompt name scope s hooks).queued scope = h.queued scope :=
        congrArg (queueAt · scope) (scopes_dropDialog (h := h) name)
      exact same ▸ (List.mem_filter.mp member).1
    obtain ⟨p, there, -⟩ := reachable.woven.tidy.jobs scope _ h.prompts.length old rfl
    rw [List.getElem?_eq_none (Nat.le_refl _)] at there
    cases there
  due := nofun

theorem opened_untapped (reachable : h.Reachable) :
    (h.openPrompt name scope s hooks).taps h.prompts.length = [] := by
  simp only [taps, (prompts_openPrompt h name scope s hooks).1, Option.map_some, Option.getD_some]
  change (queueAt (h.dropDialog name).scopes scope).filterMap _ = []
  rw [scopes_dropDialog]
  exact untapped_absent reachable.woven (List.getElem?_eq_none (Nat.le_refl _)) scope

/-- A dialog that was opened on screen takes the first answer that is given to it and no other, as
long as nobody asks, shows or hides it; where nothing can move any more, the answer was taken. -/
theorem opened_first_answer (reachable : h.Reachable)
    (opened : (h.openPrompt name scope s hooks).Reachable) (up : s.onScreen = true)
    (turns : List (Session.Step ⊕ Move))
    (undirected : Undirected h.prompts.length (h.openPrompt name scope s hooks) turns)
    (owned : ∀ n ≤ turns.length,
      (trail h.prompts.length (h.openPrompt name scope s hooks) (turns.take n)).filterMap
        Entry.accepted? = [] →
      ((h.openPrompt name scope s hooks).run (turns.take n)).ownsPrompt h.prompts.length = true) :
    ((trail h.prompts.length (h.openPrompt name scope s hooks) turns).filterMap Entry.accepted? = [] ∨
      ∃ a, (trail h.prompts.length (h.openPrompt name scope s hooks) turns).filterMap
          Entry.accepted? = [a] ∧ a.request = 0 ∧
        ((trail h.prompts.length (h.openPrompt name scope s hooks) turns).filterMap
          Entry.tapped?).head? = some a.tap) ∧
    (((h.openPrompt name scope s hooks).run turns).StillOn scope →
      .hold false ∉ ((h.openPrompt name scope s hooks).run turns).queued scope →
      ((trail h.prompts.length (h.openPrompt name scope s hooks) turns).filterMap
          Entry.accepted?).map (·.tap) =
        ((trail h.prompts.length (h.openPrompt name scope s hooks) turns).filterMap
          Entry.tapped?).take 1) := by
  have present := (prompts_openPrompt h name scope s hooks).1
  have untapped := opened_untapped name scope s hooks reachable
  have awaits := opened_awaits name scope s hooks reachable up
  have aims := taps_aim_run opened _ present rfl turns undirected
  generalize h.openPrompt name scope s hooks = start at *
  generalize h.prompts.length = i at *
  have heeds := heeds_run opened _ awaits rfl turns undirected fun n below =>
    owned n (Nat.le_of_lt below)
  have follows := follows_run (i := i) opened turns
  obtain ⟨q, there, home⟩ := follows.home _ present
  replace home : q.scope = scope := home
  have aimed := find?_of_forall _ _ aims
  constructor
  · have first := heeds.first follows untapped undirected.live
    rwa [aimed] at first
  · intro still unheld
    have alive : (start.run turns).isCancelled scope = false := home ▸ undirected.live q there
    obtain ⟨gone, free⟩ := drained_of_still (opened.run turns) scope alive unheld still
    have free := free i q there home
    have through : (start.run turns).taps i = [] := by
      simp only [taps, there, Option.map_some, Option.getD_some]
      rw [home]
      exact congrArg (List.filterMap _) gone
    have empty : start.mail i = [] := by simp [mail, present, Prompt.restore]
    rw [heeds.drained follows empty untapped undirected.live through ?_, aimed, head?_toList]
    intro unanswered
    have held := owned turns.length (Nat.le_refl _)
    rw [List.take_length] at held
    exact mail_of_channel (held unanswered) free

end

theorem act_restore (g : Host) (name scope : String) (home : Nat)
    (found : g.names.scopes.find? scope = some home) (s : Snapshot) (fits : s.visuals.Fits)
    (hooks : Hooks Call) :
    (Session.act g (.openDialog name scope (.confirm hooks (.saved (encode s))))).1 =
      g.openPrompt name home s hooks := by
  have decoded := Packed.decode_append (s.reads fits) []
  rw [List.append_nil] at decoded
  simp only [Session.act, found, Option.elim_some, Session.openDialog, decoded]

/-- However a dialog stands, and also while one of its hooks runs: what is built again from the bytes
that were saved of it, on a live scope of any host, shows the same, awaits input if it is shown and is
idle otherwise, has nobody parked, and takes the first answer that is given to it if it is shown,
whatever responder it comes through. What is saved of a restored dialog is what it was restored from,
but that the sentinel is not shown, and restoring that once more changes nothing. -/
theorem restored_as_saved :
    (∀ (h : Host) (i : Nat) (p : Prompt), h.Seen → h.prompts[i]? = some p → p.visuals.value.Fits →
      Packed.decode (encode p.save) = .ok p.save ∧
      ∀ (g opened : Host) (name scope : String) (home : Nat) (hooks : Hooks Call), g.Reachable →
        g.names.scopes.find? scope = some home → g.isCancelled home = false →
        opened = (Session.act g
          (.openDialog name scope (.confirm hooks (.saved (encode p.save))))).1 →
        ∃ k q, opened.prompt? name = some k ∧ opened.prompts[k]? = some q ∧ q.scope = home ∧
          q.shown.value = p.shown.value ∧ q.visuals.value = p.visuals.value ∧
          q.phase = (if p.shown.value then .awaitingInput else .idle) ∧ q.parked = none ∧
          (p.shown.value = true → ∀ turns : List (Session.Step ⊕ Move),
            Undirected k opened turns →
            (∀ n ≤ turns.length, (trail k opened (turns.take n)).filterMap Entry.accepted? = [] →
              (opened.run (turns.take n)).ownsPrompt k = true) →
            ((trail k opened turns).filterMap Entry.accepted? = [] ∨
              ∃ a, (trail k opened turns).filterMap Entry.accepted? = [a] ∧ a.request = 0 ∧
                ((trail k opened turns).filterMap Entry.tapped?).head? = some a.tap) ∧
            ((opened.run turns).StillOn home → .hold false ∉ (opened.run turns).queued home →
              ((trail k opened turns).filterMap Entry.accepted?).map (·.tap) =
                ((trail k opened turns).filterMap Entry.tapped?).take 1))) ∧
    ∀ (s : Snapshot) (scope : Nat) (hooks : Hooks Call),
      (Prompt.restore scope s hooks).save =
        { s with visible := if s.visuals = .empty then false else s.visible } ∧
      ∀ (other : Nat) (given : Hooks Call),
        (Prompt.restore other (Prompt.restore scope s hooks).save given).save =
          (Prompt.restore scope s hooks).save := by
  constructor
  · intro h i p seen present fits
    have decoded := Packed.decode_append (p.save.reads fits) []
    rw [List.append_nil] at decoded
    refine ⟨decoded, ?_⟩
    intro g opened name scope home hooks reachable found live same
    have reached : opened.Reachable := same ▸ reachable.tail (.act _)
    rw [act_restore g name scope home found p.save fits hooks] at same
    subst same
    obtain ⟨present_new, named⟩ := prompts_openPrompt g name home p.save hooks
    -- The sentinel is never on screen, so what is shown is shown again.
    have shown : p.save.onScreen = p.shown.value := by
      obtain ⟨due, strand⟩ := seen.strand i
      have coherent := strand.coherent p present
      cases up : p.shown.value with
      | false => simp [Snapshot.onScreen, Prompt.save, up]
      | true => simp [Snapshot.onScreen, Prompt.save, up, coherent.visuals up]
    refine ⟨g.prompts.length, _, named, present_new, rfl, shown, rfl, ?_, rfl, ?_⟩
    · simp only [Prompt.restore, shown]
    · intro up turns undirected owned
      exact opened_first_answer name home p.save hooks reachable reached (shown.trans up) turns
        undirected owned
  · intro s scope hooks
    refine ⟨?_, fun other given => Prompt.save_restore_save scope other s hooks given⟩
    rw [Prompt.save_restore, Snapshot.onScreen, Visuals.isEmpty]
    by_cases sentinel : s.visuals = .empty <;> simp [sentinel]

/-- A dialog whose answer was accepted, but that was not hidden yet when its scope was cancelled. -/
def leftResolving : List (Session.Step ⊕ Move) :=
  [.inl (.openDialog "d" "main" (.confirm .none .blank)),
    .inl (.call (.await "d" (.ofTitle "Delete?") "t")), .inr (.dispatch 0),
    .inl (.call (.press (.fresh "d") .confirmed)), .inr (.dispatch 0), .inr (.deliver 0),
    .inl (.call (.showConfirm "d" (.ofTitle "Really?"))), .inl (.call (.cancel "main"))]

def answeredAnew : List (Session.Step ⊕ Move) :=
  [.inl (.call (.press (.fresh "e") .canceled)), .inl (.overlay "e" (some "r")),
    .inl (.call (.press (.kept "r") .confirmed)), .inr (.dispatch 0), .inr (.deliver 0),
    .inr (.dispatch 0), .inr (.deliver 0), .inr (.dispatch 0)]

def builtAgain : Host :=
  initial.openPrompt "e" 0 ⟨true, .ofTitle "Delete?"⟩ .none

theorem builtAgain_undirected : Undirected 0 builtAgain answeredAnew where
  calm := by decide
  live q there := by
    cases there
    rfl

theorem builtAgain_still : (builtAgain.run answeredAnew).StillOn 0 :=
  still_of_bounded 0 rfl (by decide) (by decide)

theorem leftResolving_restored : ∃ p : Prompt,
    (initial.run leftResolving).prompts[0]? = some p ∧ p.phase = .resolving ∧
    (Session.act initial (.openDialog "e" "main" (.confirm .none (.saved (encode p.save))))).1 =
      builtAgain ∧
    (∃ q, builtAgain.prompts[0]? = some q ∧ q.phase = .awaitingInput ∧
      q.visuals.value = .ofTitle "Delete?") ∧
    ((trail 0 builtAgain answeredAnew).filterMap Entry.accepted?).map (·.tap) =
      [⟨.canceled, none, 0⟩] := by
  have fits : (Visuals.ofTitle "Delete?").Fits := ⟨by decide, by decide, by decide, by decide⟩
  have saved := restored_as_saved.1 (initial.run leftResolving) 0 _
    (.between _ (Reachable.run .refl leftResolving)) rfl fits
  have opens := act_restore initial "e" "main" 0 rfl ⟨true, .ofTitle "Delete?"⟩ fits .none
  obtain ⟨k, q, named, present, -, -, visuals, phase, -, first⟩ :=
    saved.2 initial builtAgain "e" "main" 0 .none .refl rfl rfl opens.symm
  obtain rfl : 0 = k := Option.some.inj named
  have owned : ∀ n ≤ answeredAnew.length,
      (builtAgain.run (answeredAnew.take n)).ownsPrompt 0 = true := by decide
  have taken := (first rfl answeredAnew builtAgain_undirected fun n below _ => owned n below).2
    builtAgain_still (by decide)
  exact ⟨_, rfl, rfl, opens, ⟨q, present, phase, visuals⟩, taken⟩

end Host

end ModalHost
