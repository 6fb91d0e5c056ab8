import ModalHost.Proofs.Follow.Runs
import ModalHost.Proofs.Strand.Coherence

/-! A follower that has seen every change has drawn what its dialog shows now. It keeps a copy of
the visibility that may be old, and is woken for visibility and for visuals in any order. -/

namespace ModalHost

/-- The frame that a follower has drawn last. -/
def lastDrawn (f : Nat) : List Event → Option Frame
  | [] => none
  | e :: history =>
    match e.drawing? with
    | some (g, frame) => if g = f then some frame else lastDrawn f history
    | none => lastDrawn f history

theorem lastDrawn_append (f : Nat) (events history : List Event)
    (quiet : ∀ e ∈ events, e.drawing? = none) :
    lastDrawn f (events ++ history) = lastDrawn f history := by
  induction events with
  | nil => rfl
  | cons e events ih =>
      rw [List.cons_append, lastDrawn, quiet e List.mem_cons_self]
      exact ih fun e member => quiet e (List.mem_cons_of_mem _ member)

/-- A picture of what a prompt asks now, with a responder for the request published last. -/
def Prompt.Pictured (p : Prompt) (frame : Frame) : Prop :=
  ∃ newest, frame = .prompt ⟨p.published, p.visuals.value, newest⟩

theorem Prompt.Before.pictured {p q : Prompt} (before : p.Before q)
    (same : p.visuals.version = q.visuals.version) {frame : Frame} (pictured : p.Pictured frame) :
    q.Pictured frame := by
  obtain ⟨newest, rfl⟩ := pictured
  obtain ⟨published, visuals⟩ := Prod.mk.inj (before.asking.value same)
  exact ⟨newest, by rw [published, visuals]⟩

/-- A follower's copy of the visibility is right if no change is left unseen. -/
structure Follower.Sees (x : Follower) (cell : Cell Bool) : Prop where
  behind : x.seenShown ≤ cell.version
  value : x.seenShown = cell.version → x.shown = cell.value

theorem Follower.Sees.later {x : Follower} {cell later : Cell Bool} (sees : x.Sees cell)
    (before : cell.Before later) :
    x.Sees later ∧ (x.seenShown = later.version → x.seenShown = cell.version ∧
      cell.value = later.value) := by
  have behind := sees.behind
  have version := before.version
  have caught (all : x.seenShown = later.version) :
      x.seenShown = cell.version ∧ cell.value = later.value :=
    ⟨by omega, before.value (by omega)⟩
  exact ⟨⟨by omega, fun all => (sees.value (caught all).1).trans (caught all).2⟩, caught⟩

namespace Host

/-- What a follower of a prompt and its visuals has drawn, as far as it has looked. -/
structure RendersPrompt (h : Host) (x : Follower) (i : Nat) (p : Prompt) : Prop where
  present : h.prompts[i]? = some p
  looked : x.seenVisuals ≤ p.visuals.version
  sees : x.Sees p.shown
  current : h.ownsPrompt i = true → x.seenShown = p.shown.version →
    x.seenVisuals = p.visuals.version → p.shown.value = true → p.Pictured x.frame

structure RendersLoading (h : Host) (x : Follower) (l : Nat) (loading : Loading) : Prop where
  present : h.loadings[l]? = some loading
  sees : x.Sees loading.shown
  current : h.ownsLoading l = true → x.seenShown = loading.shown.version →
    loading.shown.value = true → x.frame = .loading

structure Renders (h : Host) (f : Nat) (x : Follower) : Prop where
  prompt (i : Nat) : x.source = .prompt i → x.pictures = some i → ∃ p, h.RendersPrompt x i p
  loading (l : Nat) : x.source = .loading l → ∃ loading, h.RendersLoading x l loading
  hidden : x.shown = false → x.frame = .clear
  last : lastDrawn f h.history = some x.frame

/-- Every follower that has not ended renders its dialog, and no frame asked nothing. -/
structure Rendered (h : Host) : Prop where
  followers (f : Nat) (x : Follower) : h.followers[f]? = some x → x.ended = false → h.Renders f x
  genuine (f : Nat) (name : String) (picture : Picture) :
    .drew f name (.prompt picture) ∈ h.history → picture.visuals.isEmpty = false

variable {h next : Host}

theorem Renders.onward {f : Nat} {x : Follower} (renders : h.Renders f x)
    (onward : h.Onward next) : next.Renders f x where
  prompt i source pictures := by
    obtain ⟨p, present, looked, sees, current⟩ := renders.prompt i source pictures
    obtain ⟨q, there, before⟩ := onward.prompts i p present
    obtain ⟨still, caught⟩ := sees.later before.shown
    have version : p.visuals.version ≤ q.visuals.version := before.asking.version
    -- versions only grow, so a look that saw the later cells saw the earlier ones as they still are
    refine ⟨q, there, Nat.le_trans looked version, still, fun owned all visuals shown => ?_⟩
    obtain ⟨seen, value⟩ := caught all
    have same : p.visuals.version = q.visuals.version := by omega
    exact before.pictured same
      (current (onward.ownsPrompt i p present owned) seen (by omega) (value ▸ shown))
  loading l source := by
    obtain ⟨loading, present, sees, current⟩ := renders.loading l source
    obtain ⟨later, there, before⟩ := onward.loadings l loading present
    obtain ⟨still, caught⟩ := sees.later before
    refine ⟨later, there, still, fun owned all shown => ?_⟩
    obtain ⟨seen, value⟩ := caught all
    exact current (onward.ownsLoading l loading present owned) seen (value ▸ shown)
  hidden := renders.hidden
  last := by
    obtain ⟨events, history, quiet⟩ := onward.history
    rw [history, lastDrawn_append f events _ quiet]
    exact renders.last

theorem Rendered.onward (rendered : h.Rendered) (onward : h.Onward next) : next.Rendered where
  followers f x found running :=
    (rendered.followers f x (onward.followers f x found running) running).onward onward
  genuine f name picture drawn := by
    obtain ⟨events, history, quiet⟩ := onward.history
    rw [history, List.mem_append] at drawn
    rcases drawn with new | old
    · cases quiet _ new
    · exact rendered.genuine f name picture old

def frameFor (h : Host) (x : Follower) : Frame := if x.shown then h.overlay x.source else .clear

theorem overlay_prompt {i : Nat} {p : Prompt} (present : h.prompts[i]? = some p)
    (owned : h.ownsPrompt i = true) (shown : p.shown.value = true) :
    p.Pictured (h.overlay (.prompt i)) := by
  simp only [overlay, owned, present, Option.bind_some, Prompt.overlay, shown, if_true]
  exact ⟨p.issued, rfl⟩

theorem overlay_loading {l : Nat} {loading : Loading} (present : h.loadings[l]? = some loading)
    (owned : h.ownsLoading l = true) (shown : loading.shown.value = true) :
    h.overlay (.loading l) = .loading := by
  simp only [overlay, owned, present, Option.any_some, shown, Bool.and_self, if_true]

theorem overlay_eq_prompt (source : DialogRef) (picture : Picture)
    (drawn : h.overlay source = .prompt picture) : ∃ (i : Nat) (p : Prompt),
    h.prompts[i]? = some p ∧ p.shown.value = true ∧ picture.visuals = p.visuals.value := by
  cases source with
  | prompt i =>
      simp only [overlay] at drawn
      split at drawn
      · rename_i owned shows
        cases drawn
        obtain ⟨p, present, shows⟩ := Option.bind_eq_some_iff.mp shows
        unfold Prompt.overlay at shows
        split at shows
        · rename_i shown
          cases shows
          exact ⟨i, p, present, shown, rfl⟩
        · cases shows
      · cases drawn
  | loading l =>
      simp only [overlay] at drawn
      split at drawn <;> cases drawn
  | panel k => cases drawn

structure Looks (h : Host) (x : Follower) : Prop where
  prompt (i : Nat) : x.source = .prompt i → x.pictures = some i →
    ∃ p, h.prompts[i]? = some p ∧ x.seenVisuals ≤ p.visuals.version ∧ x.Sees p.shown
  loading (l : Nat) : x.source = .loading l →
    ∃ loading, h.loadings[l]? = some loading ∧ x.Sees loading.shown

theorem Renders.looks {f : Nat} {x : Follower} (renders : h.Renders f x) : h.Looks x where
  prompt i source pictures := by
    obtain ⟨p, present, looked, sees, -⟩ := renders.prompt i source pictures
    exact ⟨p, present, looked, sees⟩
  loading l source := by
    obtain ⟨loading, present, sees, -⟩ := renders.loading l source
    exact ⟨loading, present, sees⟩

theorem renders_of_fresh {f : Nat} {x : Follower} (looks : h.Looks x) (fresh : x.frame = h.frameFor x)
    (last : lastDrawn f h.history = some x.frame) : h.Renders f x where
  prompt i source pictures := by
    obtain ⟨p, present, looked, sees⟩ := looks.prompt i source pictures
    refine ⟨p, present, looked, sees, fun owned all _ shown => ?_⟩
    rw [fresh, frameFor, sees.value all, shown, if_pos rfl, source]
    exact overlay_prompt present owned shown
  loading l source := by
    obtain ⟨loading, present, sees⟩ := looks.loading l source
    refine ⟨loading, present, sees, fun owned all shown => ?_⟩
    rw [fresh, frameFor, sees.value all, shown, if_pos rfl, source]
    exact overlay_loading present owned shown
  hidden gone := by rw [fresh, frameFor, gone, if_neg Bool.false_ne_true]
  last

theorem Rendered.change (rendered : h.Rendered) (f : Nat) (followers : List Follower)
    (names : Directory) (history : List Event)
    (others : ∀ g y, g ≠ f → followers[g]? = some y → h.followers[g]? = some y)
    (lasts : ∀ g, g ≠ f → lastDrawn g history = lastDrawn g h.history)
    (renders : ∀ x, followers[f]? = some x → x.ended = false →
      Renders { h with followers, names, history } f x)
    (genuine : ∀ g name picture, .drew g name (.prompt picture) ∈ history →
      picture.visuals.isEmpty = false) : Rendered { h with followers, names, history } where
  followers g y found running := by
    by_cases same : g = f
    · subst same
      exact renders y found running
    · obtain ⟨prompt, loading, hidden, last⟩ :=
        rendered.followers g y (others g y same found) running
      refine ⟨fun i source pictures => ?_, fun l source => ?_, hidden, (lasts g same).trans last⟩
      · obtain ⟨p, present, looked, sees, current⟩ := prompt i source pictures
        exact ⟨p, present, looked, sees, current⟩
      · obtain ⟨l, present, sees, current⟩ := loading l source
        exact ⟨l, present, sees, current⟩
  genuine := genuine

theorem Rendered.draw (rendered : h.Rendered)
    (coherent : ∀ (i : Nat) (p : Prompt), h.prompts[i]? = some p → p.Coherent) (f : Nat)
    (followers : List Follower) (names : Directory) (x : Follower)
    (others : ∀ g y, g ≠ f → followers[g]? = some y → h.followers[g]? = some y)
    (here : followers[f]? = some x) (looks : h.Looks x) :
    (Host.draw { h with followers, names } f).Rendered := by
  have drawn : Host.draw { h with followers, names } f = { h with
      followers := followers.modify f fun y => { y with frame := h.frameFor x }
      names
      history := .drew f x.name (h.frameFor x) :: h.history } := by
    simp only [Host.draw, here]
    rfl
  rw [drawn]
  apply rendered.change f
  · intro g y other found
    rw [List.getElem?_modify_ne _ _ (Ne.symm other)] at found
    exact others g y other found
  · exact fun g other => if_neg (Ne.symm other)
  · intro y found running
    rw [List.getElem?_modify_eq, here] at found
    cases found
    refine renders_of_fresh ⟨fun i source pictures => ?_, fun l source => ?_⟩ rfl (if_pos rfl)
    · obtain ⟨p, present, looked, sees⟩ := looks.prompt i source pictures
      exact ⟨p, present, looked, sees.behind, sees.value⟩
    · obtain ⟨loading, present, sees⟩ := looks.loading l source
      exact ⟨loading, present, sees.behind, sees.value⟩
  · intro g name picture drew
    rcases List.mem_cons.mp drew with new | old
    · obtain ⟨-, -, frame⟩ := Event.drew.inj new
      unfold frameFor at frame
      split at frame
      · obtain ⟨i, p, present, shown, visuals⟩ := overlay_eq_prompt x.source picture frame.symm
        rw [visuals]
        exact (coherent i p present).visuals shown
      · cases frame
    · exact rendered.genuine g name picture old

theorem others_modify {xs : List Follower} (f : Nat) (change : Follower → Follower) (g : Nat)
    (y : Follower) (other : g ≠ f) (found : (xs.modify f change)[g]? = some y) :
    xs[g]? = some y := by
  rwa [List.getElem?_modify_ne _ _ (Ne.symm other)] at found

theorem Rendered.began (rendered : h.Rendered)
    (coherent : ∀ (i : Nat) (p : Prompt), h.prompts[i]? = some p → p.Coherent) (name : String)
    (source : DialogRef) (pictures : Option Nat) : (h.follow name source pictures).Rendered := by
  unfold follow
  split
  · exact rendered
  · rename_i cell shown
    refine rendered.draw coherent h.followers.length (h.followers ++ [_]) _ _ ?_
      List.getElem?_concat_length ⟨fun i here followed => ?_, fun l here => ?_⟩
    · intro g y other found
      rcases getElem?_concat_cases _ _ _ _ found with there | ⟨last, -⟩
      · exact there
      · exact absurd last other
    · dsimp only at here followed
      rw [here] at shown
      obtain ⟨p, present, rfl⟩ := Option.map_eq_some_iff.mp shown
      refine ⟨p, present, ?_, Nat.le_refl _, fun _ => rfl⟩
      simp [followed, present]
    · dsimp only at here
      rw [here] at shown
      obtain ⟨loading, present, rfl⟩ := Option.map_eq_some_iff.mp shown
      exact ⟨loading, present, Nat.le_refl _, fun _ => rfl⟩

theorem Rendered.turned (rendered : h.Rendered)
    (coherent : ∀ (i : Nat) (p : Prompt), h.prompts[i]? = some p → p.Coherent) (f : Nat)
    (woke : h.followShown? f = some next) : next.Rendered := by
  obtain ⟨x, found, running, moved⟩ := shown_cases f woke
  cases moved with
  | looked cell shown unseen =>
      have looks := (rendered.followers f x found running).looks
      refine rendered.draw coherent f (h.followers.modify f _) h.names _ (others_modify f _)
        (by rw [List.getElem?_modify_eq, found]; rfl)
        ⟨fun i source pictures => ?_, fun l source => ?_⟩
      · obtain ⟨p, present, looked, -⟩ := looks.prompt i source pictures
        dsimp only at source
        rw [source] at shown
        obtain ⟨q, there, rfl⟩ := Option.map_eq_some_iff.mp shown
        cases present.symm.trans there
        exact ⟨p, present, looked, Nat.le_refl _, fun _ => rfl⟩
      · dsimp only at source
        rw [source] at shown
        obtain ⟨loading, present, rfl⟩ := Option.map_eq_some_iff.mp shown
        exact ⟨loading, present, Nat.le_refl _, fun _ => rfl⟩
  | ended => exact rendered.onward ((goes_endFollower f).trans (goes_record _ rfl)).toOnward

/-- A follower wakes for new visuals. It draws nothing if the dialog was hidden when it looked last;
the change of visibility that it has then not seen is still to wake it. -/
theorem Rendered.replaced (rendered : h.Rendered)
    (coherent : ∀ (i : Nat) (p : Prompt), h.prompts[i]? = some p → p.Coherent) (f : Nat)
    (woke : h.followVisuals? f = some next) : next.Rendered := by
  obtain ⟨x, i, p, found, running, followed, present, moved⟩ := visuals_cases f woke
  have renders := rendered.followers f x found running
  have looks : h.Looks { x with seenVisuals := p.visuals.version } := by
    refine ⟨fun j source pictures => ?_, fun l source => ?_⟩
    · obtain ⟨q, there, looked, sees⟩ := renders.looks.prompt j source pictures
      cases followed.symm.trans pictures
      cases present.symm.trans there
      exact ⟨p, present, Nat.le_refl _, sees.behind, sees.value⟩
    · obtain ⟨loading, there, sees⟩ := renders.looks.loading l source
      exact ⟨loading, there, sees.behind, sees.value⟩
  cases moved with
  | drew unseen up =>
      exact rendered.draw coherent f (h.followers.modify f _) h.names _ (others_modify f _)
        (by rw [List.getElem?_modify_eq, found]; rfl) looks
  | overlooked unseen hidden =>
      refine rendered.change f (h.followers.modify f _) h.names h.history
        (others_modify f _) (fun _ _ => rfl) (fun y there _ => ?_) rendered.genuine
      rw [List.getElem?_modify_eq, found] at there
      cases there
      -- nothing is drawn, and the frame has been clear since the dialog was seen hidden
      refine renders_of_fresh ⟨looks.prompt, looks.loading⟩ ?_ renders.last
      rw [frameFor, hidden, if_neg Bool.false_ne_true]
      exact renders.hidden hidden
  | left seen gone =>
      refine rendered.change f (h.followers.modify f _) h.names h.history
        (others_modify f _) (fun _ _ => rfl) (fun y there _ => ?_) rendered.genuine
      rw [List.getElem?_modify_eq, found] at there
      cases there
      -- a follower that has lost its visuals answers for a loading dialog only
      refine ⟨fun _ _ none => (nomatch none), fun l source => ?_, renders.hidden, renders.last⟩
      obtain ⟨loading, there, sees, current⟩ := renders.loading l source
      exact ⟨loading, there, ⟨sees.behind, sees.value⟩, current⟩

theorem Rendered.draws (rendered : h.Rendered)
    (coherent : ∀ (i : Nat) (p : Prompt), h.prompts[i]? = some p → p.Coherent)
    (draws : h.Draws next) : next.Rendered := by
  cases draws with
  | began name source pictures => exact rendered.began coherent name source pictures
  | turned f next woke => exact rendered.turned coherent f woke
  | replaced f next woke => exact rendered.replaced coherent f woke

theorem draw_stage (f : Nat) : (h.draw f).prompts = h.prompts ∧ (h.draw f).loadings = h.loadings ∧
    (h.draw f).panels = h.panels ∧ (h.draw f).names = h.names := by
  unfold draw
  split
  · exact ⟨rfl, rfl, rfl, rfl⟩
  · exact ⟨rfl, rfl, rfl, rfl⟩

theorem Named.drawn (named : h.Named) (f : Nat) : (h.draw f).Named := by
  obtain ⟨prompts, loadings, panels, names⟩ := draw_stage (h := h) f
  have held : (h.draw f).held = h.held :=
    held_of_easel prompts loadings (congrArg List.length panels)
  exact ⟨by rw [held, names]; exact named.held, by rw [names]; exact named.unique⟩

theorem Named.draws (named : h.Named) (draws : h.Draws next) : next.Named := by
  cases draws with
  | began name source pictures =>
      unfold follow
      split
      · exact named
      · refine Named.drawn ?_ _
        exact ⟨named.held, named.unique⟩
  | turned f next woke =>
      obtain ⟨x, -, -, moved⟩ := shown_cases f woke
      cases moved with
      | looked cell => exact Named.drawn (h := h.updateFollower f _) ⟨named.held, named.unique⟩ f
      | ended => exact ⟨named.held, named.unique⟩
  | replaced f next woke =>
      obtain ⟨x, i, p, -, -, -, -, moved⟩ := visuals_cases f woke
      cases moved with
      | drew => exact Named.drawn (h := h.updateFollower f _) ⟨named.held, named.unique⟩ f
      | overlooked | left => exact ⟨named.held, named.unique⟩

/-- What a follower has drawn last is what its dialog shows. -/
structure InSync (h : Host) (f : Nat) (x : Follower) : Prop where
  prompt (i : Nat) : x.source = .prompt i → x.pictures = some i → ∃ p, h.prompts[i]? = some p ∧
    (p.shown.value = true → h.ownsPrompt i = true → ∃ newest,
      lastDrawn f h.history = some (.prompt ⟨p.published, p.visuals.value, newest⟩)) ∧
    (p.shown.value = false → lastDrawn f h.history = some .clear)
  loading (l : Nat) : x.source = .loading l → ∃ loading, h.loadings[l]? = some loading ∧
    (loading.shown.value = true → h.ownsLoading l = true →
      lastDrawn f h.history = some .loading) ∧
    (loading.shown.value = false → lastDrawn f h.history = some .clear)

theorem seen_of_followShown {f : Nat} {x : Follower} (found : h.followers[f]? = some x)
    (running : x.ended = false) (rests : h.followShown? f = none) (cell : Cell Bool)
    (shown : h.shown? x.source = some cell) : x.seenShown = cell.version := by
  unfold followShown? at rests
  simp only [found, running, shown] at rests
  by_contra unseen
  simp [Ne.symm unseen] at rests

theorem seen_of_followVisuals {f : Nat} {x : Follower} (found : h.followers[f]? = some x)
    (running : x.ended = false) (rests : h.followVisuals? f = none) (i : Nat)
    (followed : x.pictures = some i) (p : Prompt) (present : h.prompts[i]? = some p) :
    x.seenVisuals = p.visuals.version := by
  unfold followVisuals? at rests
  simp only [found, running, followed, present] at rests
  by_contra unseen
  simp [Ne.symm unseen] at rests

theorem Renders.inSync {f : Nat} {x : Follower} (renders : h.Renders f x)
    (found : h.followers[f]? = some x) (running : x.ended = false)
    (visibility : h.followShown? f = none) (visuals : h.followVisuals? f = none) :
    h.InSync f x where
  prompt i source followed := by
    obtain ⟨p, present, -, sees, current⟩ := renders.prompt i source followed
    have seen : x.seenShown = p.shown.version :=
      seen_of_followShown found running visibility p.shown (by rw [source, shown?, present]; rfl)
    have looked : x.seenVisuals = p.visuals.version :=
      seen_of_followVisuals found running visuals i followed p present
    rw [renders.last]
    refine ⟨p, present, fun shown owned => ?_, fun hidden => ?_⟩
    · obtain ⟨newest, frame⟩ := current owned seen looked shown
      exact ⟨newest, congrArg some frame⟩
    · exact congrArg some (renders.hidden ((sees.value seen).trans hidden))
  loading l source := by
    obtain ⟨loading, present, sees, current⟩ := renders.loading l source
    have seen : x.seenShown = loading.shown.version :=
      seen_of_followShown found running visibility loading.shown
        (by rw [source, shown?, present]; rfl)
    rw [renders.last]
    refine ⟨loading, present, fun shown owned => ?_, fun hidden => ?_⟩
    · exact congrArg some (current owned seen shown)
    · exact congrArg some (renders.hidden ((sees.value seen).trans hidden))

end Host

open Host

theorem Moment.Reached.rendered {m : Moment} (reached : m.Reached) :
    m.host.Rendered ∧ m.host.Named := by
  induction reached with
  | refl =>
      exact ⟨⟨fun _ _ found => (nomatch found), fun _ _ _ drew => (List.not_mem_nil drew).elim⟩,
        fun _ _ entry => (List.not_mem_nil entry).elim,
        fun _ _ _ entry => (List.not_mem_nil entry).elim⟩
  | tail before next ih =>
      obtain ⟨rendered, named⟩ := ih
      rcases next.carries named with carries | draws
      · exact ⟨rendered.onward carries.onward, carries.named named⟩
      · have woven := (Moment.Reached.kept before).woven
        exact ⟨rendered.draws (fun i p present => (woven i).coherent p present) draws,
          named.draws draws⟩

/-- Whenever a renderer has no unseen change left, what it drew last is what its dialog shows, with a
responder for the request that is published now; and it never draws a prompt that asks nothing. -/
theorem follower_in_sync {m : Moment} (reached : m.Reached) :
    (∀ (f : Nat) (x : Follower), m.host.followers[f]? = some x → x.ended = false →
      m.host.followShown? f = none → m.host.followVisuals? f = none → m.host.InSync f x) ∧
    ∀ (f : Nat) (name : String) (picture : Picture),
      .drew f name (.prompt picture) ∈ m.host.history → picture.visuals ≠ .empty := by
  obtain ⟨rendered, -⟩ := reached.rendered
  refine ⟨fun f x found running visibility visuals => ?_, fun f name picture drew sentinel => ?_⟩
  · exact (rendered.followers f x found running).inSync found running visibility visuals
  · have asks := rendered.genuine f name picture drew
    rw [sentinel, Visuals.isEmpty_empty] at asks
    cases asks

/-- A prompt is replaced by an equal one, and the wake for its visuals is taken first, while it is
still hidden as far as the renderer knows. -/
def reasked : List (Session.Step ⊕ Move) :=
  [.inl (.openDialog "d" "main" (.confirm .none .blank)), .inl (.follow "d" (some "d") "f"),
    .inl (.call (.showConfirm "d" (.ofTitle "Delete?"))), .inr (.dispatch 0),
    .inr (.followVisuals 0), .inl (.call (.showConfirm "d" (.ofTitle "Delete?"))),
    .inr (.dispatch 0), .inr (.followShown 0), .inr (.followVisuals 0)]

def reaskedFollower : Follower where
  name := "f"
  source := .prompt 0
  pictures := some 0
  shown := true
  seenShown := 1
  seenVisuals := 2
  frame := .prompt ⟨2, .ofTitle "Delete?", 2⟩
  ended := false

theorem reasked_in_sync : ∃ newest, lastDrawn 0 (initial.run reasked).history =
    some (.prompt ⟨2, .ofTitle "Delete?", newest⟩) := by
  have found : (initial.run reasked).followers[0]? = some reaskedFollower := by decide +kernel
  have visibility : (initial.run reasked).followShown? 0 = none :=
    Option.isNone_iff_eq_none.mp (by decide +kernel)
  have visuals : (initial.run reasked).followVisuals? 0 = none :=
    Option.isNone_iff_eq_none.mp (by decide +kernel)
  have inSync := (follower_in_sync (Reachable.run .refl reasked).reached).1 0 reaskedFollower
  simp only [Moment.host] at inSync
  have sync := inSync found rfl visibility visuals
  obtain ⟨p, present, shown, -⟩ := sync.prompt 0 rfl rfl
  have asking : ((initial.run reasked).prompts[0]?.map fun p =>
      (p.shown.value, p.published, p.visuals.value)) = some (true, 2, .ofTitle "Delete?") := by
    decide +kernel
  rw [present, Option.map_some, Option.some.injEq, Prod.mk.injEq, Prod.mk.injEq] at asking
  obtain ⟨up, request, title⟩ := asking
  rw [← request, ← title]
  exact shown up (by decide +kernel)

end ModalHost
