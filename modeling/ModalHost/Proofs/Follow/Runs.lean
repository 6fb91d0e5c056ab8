import ModalHost.Proofs.Follow.Track
import ModalHost.Proofs.Moments

/-! Every step of a run either leaves the followers to what they have drawn, or lets one draw. -/

namespace ModalHost

namespace Host

variable {h next : Host}

theorem onward_dropHandle (dialog : DialogRef) : h.Onward (h.dropHandle dialog) := by
  -- without its handle a dialog may lose its owner, but no dialog gains one
  have fewer {α : Type} (f : α → α) (test : α → Bool) (less : ∀ x, test (f x) = true → test x = true)
      (xs : List α) (k n : Nat) (passes : (xs.modify k f)[n]?.any test = true) :
      xs[n]?.any test = true := by
    rw [List.getElem?_modify] at passes
    cases found : xs[n]? with
    | none => simp [found] at passes
    | some x =>
        simp only [found, Option.map_eq_map, Option.map_some, Option.any_some] at passes ⊢
        split at passes
        · exact less x passes
        · exact passes
  cases dialog with
  | prompt i =>
      refine ⟨fun j p found => ?_, fun l loading found => ⟨loading, found, .refl _⟩,
        fun j p found owned => ?_, fun _ _ _ owned => owned, fun _ _ found _ => found,
        [], rfl, by simp⟩
      · refine ⟨_, by rw [dropHandle, updatePrompt, List.getElem?_modify, found]; rfl, ?_⟩
        dsimp only
        split
        · exact .of_eq rfl rfl
        · exact .refl p
      · rw [Host.ownsPrompt, Bool.or_eq_true] at owned ⊢
        exact owned.imp_left (fewer (fun p : Prompt => { p with handle := false }) (·.handle)
          (fun _ kept => absurd kept Bool.false_ne_true) h.prompts i j)
  | loading l =>
      refine ⟨fun i p found => ⟨p, found, .refl p⟩, fun j loading found => ?_,
        fun _ _ _ owned => owned, fun j loading found owned => ?_, fun _ _ found _ => found,
        [], rfl, by simp⟩
      · refine ⟨_, by rw [dropHandle, updateLoading, List.getElem?_modify, found]; rfl, ?_⟩
        dsimp only
        split <;> exact .refl _
      · rw [Host.ownsLoading, Bool.or_eq_true] at owned ⊢
        exact owned.imp_left (fewer (fun l : Loading => { l with handle := false }) (·.handle)
          (fun _ kept => absurd kept Bool.false_ne_true) h.loadings l j)
  | panel k =>
      exact .of_grown [] [] (List.append_nil _).symm (List.append_nil _).symm rfl rfl rfl rfl

theorem onward_dropDialog (name : String) : h.Onward (h.dropDialog name) := by
  unfold dropDialog
  split
  · exact (Goes.refl h).toOnward
  · exact (onward_dropHandle _).trans
      (.of_grown [] [] (List.append_nil _).symm (List.append_nil _).symm rfl rfl rfl rfl)

theorem held_dropHandle (dialog other : DialogRef) (apart : other ≠ dialog)
    (held : h.held other = true) : (h.dropHandle dialog).held other = true := by
  cases dialog with
  | prompt i =>
      cases other with
      | prompt j =>
          have indices : i ≠ j := fun same => apart (same ▸ rfl)
          simpa [Host.held, dropHandle, updatePrompt, indices] using held
      | _ => exact held
  | loading l =>
      cases other with
      | loading j =>
          have indices : l ≠ j := fun same => apart (same ▸ rfl)
          simpa [Host.held, dropHandle, updateLoading, indices] using held
      | _ => exact held
  | panel k =>
      cases other with
      | panel j => simpa [Host.held, dropHandle, updatePanel] using held
      | _ => exact held

theorem Named.drop (named : h.Named) (name : String) : (h.dropDialog name).Named := by
  unfold dropDialog
  split
  · exact named
  · rename_i dialog found
    have entry : (name, dialog) ∈ h.names.dialogs := Names.mem_of_find _ _ _ found
    have dialogs : (h.dropHandle dialog).names.dialogs = h.names.dialogs := by cases dialog <;> rfl
    constructor
    · intro other kept member
      have remains := List.mem_filter.mp member
      rw [dialogs] at remains
      refine held_dropHandle dialog kept (fun same => ?_) (named.held other kept remains.1)
      have names : other = name := named.unique other name dialog (same ▸ remains.1) entry
      simp [names] at remains
    · intro one other kept first second
      have left := (List.mem_filter.mp first).1
      have right := (List.mem_filter.mp second).1
      rw [dialogs] at left right
      exact named.unique one other kept left right

theorem Named.bind (named : h.Named) (dialogs : next.names.dialogs = h.names.dialogs)
    (held : ∀ dialog, h.held dialog = true → next.held dialog = true) (name : String)
    (dialog : DialogRef) (fresh : h.held dialog = false) (there : next.held dialog = true) :
    (next.bindDialog name dialog).Named where
  held other kept member := by
    rcases List.mem_cons.mp member with new | old
    · obtain ⟨rfl, rfl⟩ := Prod.mk.inj new
      exact there
    · have before := (List.mem_filter.mp old).1
      rw [dialogs] at before
      exact held kept (named.held other kept before)
  unique one other kept first second := by
    have old (name' : String) (member : (name', kept) ∈ next.names.dialogs.unbind name) :
        (name', kept) ∈ h.names.dialogs := by
      rw [← dialogs]
      exact (List.mem_filter.mp member).1
    have foreign (name' : String) (member : (name', dialog) ∈ h.names.dialogs) : False := by
      rw [named.held name' dialog member] at fresh
      cases fresh
    rcases List.mem_cons.mp first with new | left
    · obtain ⟨rfl, rfl⟩ := Prod.mk.inj new
      rcases List.mem_cons.mp second with again | right
      · exact (Prod.mk.inj again).1.symm
      · exact (foreign other (old other right)).elim
    · rcases List.mem_cons.mp second with new | right
      · obtain ⟨rfl, rfl⟩ := Prod.mk.inj new
        exact (foreign one (old one left)).elim
      · exact named.unique one other kept (old one left) (old other right)

/-- A step in which nobody draws, after which names still stand for what is held. -/
structure Carries (h next : Host) : Prop where
  onward : h.Onward next
  named : h.Named → next.Named

theorem Goes.carries (goes : h.Goes next) : h.Carries next :=
  ⟨goes.toOnward, fun named => named.goes goes⟩

theorem Carries.refl (h : Host) : h.Carries h := (Goes.refl h).carries

theorem Carries.trans {last : Host} (first : h.Carries next) (second : next.Carries last) :
    h.Carries last :=
  ⟨first.onward.trans second.onward, fun named => second.named (first.named named)⟩

theorem carries_dropDialog (name : String) : h.Carries (h.dropDialog name) :=
  ⟨onward_dropDialog name, fun named => named.drop name⟩

theorem Carries.open {dropped : Host} (carries : h.Carries dropped) (next : Host)
    (more : List Prompt) (others : List Loading) (prompts : next.prompts = dropped.prompts ++ more)
    (loadings : next.loadings = dropped.loadings ++ others)
    (panels : dropped.panels.length ≤ next.panels.length)
    (callers : next.callers = dropped.callers) (works : next.works = dropped.works)
    (followers : next.followers = dropped.followers) (history : next.history = dropped.history)
    (dialogs : next.names.dialogs = dropped.names.dialogs) (name : String) (dialog : DialogRef)
    (fresh : dropped.held dialog = false) (there : next.held dialog = true) :
    h.Carries (next.bindDialog name dialog) where
  onward := carries.onward.trans (.of_grown more others prompts loadings callers works followers
    history)
  named named := by
    refine (carries.named named).bind dialogs (fun other kept => ?_) name dialog fresh there
    have inside {α : Type} (test : α → Bool) (xs ys : List α) (n : Nat)
        (passes : xs[n]?.any test = true) : (xs ++ ys)[n]?.any test = true := by
      obtain ⟨x, found, passed⟩ := (Option.any_eq_true _ _).mp passes
      rw [List.getElem?_append_left (List.getElem?_eq_some_iff.mp found).1, found]
      exact passed
    cases other with
    | prompt i =>
        rw [Host.held, prompts]
        exact inside _ _ more i kept
    | loading l =>
        rw [Host.held, loadings]
        exact inside _ _ others l kept
    | panel k =>
        rw [Host.held, decide_eq_true_iff] at kept ⊢
        omega

theorem carries_openPrompt (name : String) (scope : Nat) (s : Snapshot) (hooks : Hooks Call) :
    h.Carries (h.openPrompt name scope s hooks) := by
  let dropped := h.dropDialog name
  let added := { dropped with prompts := dropped.prompts ++ [Prompt.restore scope s hooks] }
  have opened : h.Carries (added.bindDialog name (.prompt dropped.prompts.length)) := by
    refine (carries_dropDialog name).open added [Prompt.restore scope s hooks] [] rfl
      (List.append_nil _).symm (Nat.le_refl _) rfl rfl rfl rfl rfl name _ ?_ ?_
    · simp [Host.held, dropped]
    · simp [Host.held, added, Prompt.restore]
  exact opened.trans (goes_record _ rfl).carries

theorem carries_openLoading (name : String) (scope : Nat) :
    h.Carries (h.openLoading name scope) := by
  let dropped := h.dropDialog name
  let added := { dropped with loadings := dropped.loadings ++ [Loading.new scope] }
  refine (carries_dropDialog name).open added [] [Loading.new scope] (List.append_nil _).symm rfl
    (Nat.le_refl _) rfl rfl rfl rfl rfl name _ ?_ ?_
  · simp [Host.held]
  · simp [Host.held, added, dropped, Loading.new]

theorem carries_openPanel (name : String) (kind : PanelKind) (scope : Nat) (visible : Bool) :
    h.Carries (h.openPanel name kind scope visible) := by
  let dropped := h.dropDialog name
  let added := { dropped with panels := dropped.panels ++ [Panel.new kind scope visible] }
  refine (carries_dropDialog name).open added [] [] (List.append_nil _).symm
    (List.append_nil _).symm ?_ rfl rfl rfl rfl rfl name _ ?_ ?_
  · simp [added, dropped]
  · simp [Host.held]
  · simp [Host.held, added, dropped]

theorem carries_openDialog (name : String) (scope : Nat) (dialog : Session.NewDialog) :
    h.Carries (Session.openDialog h name scope dialog).1 := by
  cases dialog with
  | loading => exact carries_openLoading name scope
  | panel kind visible => cases kind <;> exact carries_openPanel name _ scope visible
  | confirm hooks start =>
      cases start with
      | blank => exact carries_openPrompt name scope .initial hooks
      | snapshot s => exact carries_openPrompt name scope s hooks
      | saved bytes =>
          simp only [Session.openDialog]
          split
          · exact carries_openPrompt name scope _ hooks
          · exact .refl h

theorem goes_finish (task : TaskRef) (outcome : Outcome) : h.Goes (h.finish task outcome).1 := by
  cases task with
  | work w =>
      simp only [finish]
      split
      · exact goes_updateWork w _ (fun _ => rfl) fun _ _ waits => waits
      · exact .refl h
  | wait w =>
      simp only [finish]
      split
      · split
        · exact .refl h
        · exact goes_updateWait w _
      · exact .refl h
  | caller c => exact .refl h
  | follower f => exact .refl h

theorem goes_release (scope : Nat) : h.Goes (h.release scope).1 := by
  unfold release
  split
  · exact .refl h
  · exact goes_setQueue scope _

theorem goes_work (name : String) (l depth : Nat) (outcome : Option Outcome)
    (owned : h.ownsLoading l = true) : h.Goes (h.work name l depth outcome) := by
  let started := { h with works := h.works ++ [Work.mk name l depth .inside outcome] }.bindTask
    name (.work h.works.length)
  have added : h.Goes started :=
    { prompts i p found := ⟨p, found, .refl p⟩
      loadings j loading found := ⟨loading, found, .refl _⟩
      ownsPrompt _ _ _ owned := owned
      ownsLoading j loading found still := by
        rw [Host.ownsLoading, show started.works = _ ++ [_] from rfl, List.any_append,
          ← Bool.or_assoc, Bool.or_eq_true] at still
        rcases still with before | new
        · exact before
        · simp only [List.any_cons, List.any_nil, Bool.or_false, Bool.and_eq_true,
            beq_iff_eq] at new
          rwa [← new.1]
      followers _ _ found _ := found
      history := ⟨[], rfl, by simp⟩
      dialogs := rfl
      held _ there := there }
  refine added.trans (goes_enterLevel h.works.length 1 fun work there => ?_)
  have last : (h.works ++ [Work.mk name l depth .inside outcome])[h.works.length]? = some work := there
  rw [List.getElem?_concat_length] at last
  cases last
  rfl

inductive Draws (h : Host) : Host → Prop
  | began (name : String) (source : DialogRef) (pictures : Option Nat) :
      Draws h (h.follow name source pictures)
  | turned (f : Nat) (next : Host) (woke : h.followShown? f = some next) : Draws h next
  | replaced (f : Nat) (next : Host) (woke : h.followVisuals? f = some next) : Draws h next

theorem carries_act (named : h.Named) (s : Session.Step) :
    h.Carries (Session.act h s).1 ∨ h.Draws (Session.act h s).1 := by
  have byName {α : Type} (found : Option α) (f : α → Host)
      (each : ∀ x, found = some x → h.Goes (f x)) : h.Carries (found.elim h f) := by
    cases found with
    | none => exact .refl h
    | some x => exact (each x rfl).carries
  have answered {α β : Type} (found : Option α) (nothing : β) (f : α → Host × β)
      (each : ∀ x, h.Goes (f x).1) : h.Carries (found.elim (h, nothing) f).1 := by
    cases found with
    | none => exact .refl h
    | some x => exact (each x).carries
  cases s with
  | call c =>
      have called : h.Carries (h.call c) := (goes_call named c).carries
      cases c <;> exact .inl called
  | openScope name parent =>
      have opened : h.Goes (h.openScope name (parent.bind h.names.scopes.find?)) := .of_eq rfl
      exact .inl opened.carries
  | openDialog name scope dialog =>
      left
      simp only [Session.act]
      cases h.names.scopes.find? scope with
      | none => exact .refl h
      | some s => exact carries_openDialog name s dialog
  | drop dialog => exact .inl (carries_dropDialog dialog)
  | hold scope => exact .inl (byName _ _ fun s _ => goes_launch _ _)
  | release scope => exact .inl (answered _ _ _ fun s => goes_release s)
  | mark scope label => exact .inl (byName _ _ fun s _ => goes_launch _ _)
  | flush scope task => exact .inl (byName _ _ fun s _ => .of_eq rfl)
  | whenCancelled scope task => exact .inl (byName _ _ fun s _ => .of_eq rfl)
  | spawn scope task => exact .inl (byName _ _ fun s _ => .of_eq rfl)
  | work dialog task outcome depth =>
      exact .inl (byName _ _ fun l found =>
        goes_work task l depth outcome (named.ownsLoading dialog l found))
  | finish task outcome => exact .inl (answered _ _ _ fun t => goes_finish t outcome)
  | observe dialog receiver visuals =>
      left
      cases visuals with
      | false =>
          refine byName _ _ fun source _ => ?_
          cases h.shown? source with
          | none => exact .refl h
          | some cell => exact .of_eq rfl
      | true =>
          refine byName _ _ fun i _ => ?_
          cases h.prompts[i]? with
          | none => exact .refl h
          | some p => exact .of_eq rfl
  | changed receiver =>
      refine .inl (answered _ _ _ fun r => ?_)
      unfold Session.readReceiver
      split <;> split <;> exact .of_eq rfl
  | keepResponder dialog name => exact .inl (byName _ _ fun i _ => .of_eq rfl)
  | overlay dialog keep =>
      refine .inl (answered _ _ _ fun d => ?_)
      unfold Session.takeOverlay
      dsimp only
      split <;> exact .of_eq rfl
  | save dialog => exact .inl (.refl h)
  | render dialog content keep =>
      refine .inl (answered _ _ _ fun k => ?_)
      unfold Session.render
      split
      · cases keep with
        | none => exact .refl h
        | some name => exact .of_eq rfl
      · exact .refl h
  | keepDismisser dialog name => exact .inl (byName _ _ fun k _ => .of_eq rfl)
  | dismiss dismisser =>
      simp only [Session.act]
      split
      · exact .inl (.refl h)
      · rename_i k _
        have hidden : h.Goes (h.setShown (.panel k) false) := goes_setShown _ false
        exact .inl hidden.carries
  | follow dialog visuals task =>
      simp only [Session.act]
      cases h.names.dialogs.find? dialog with
      | none => exact .inl (.refl h)
      | some source => exact .inr (.began task source _)
  | describeDialog dialog => exact .inl (.refl h)
  | describeScope scope => exact .inl (.refl h)
  | describeHooks hooks => exact .inl (.refl h)

theorem carries_move (m : Move) (taken : h.move? m = some next)
    (quiet : ∀ i p a, m = .deliver i → ¬ h.Accepting i p a) : h.Carries next ∨ h.Draws next := by
  cases m with
  | dispatch scope => exact .inl (goes_dispatch scope taken).carries
  | deliver i =>
      obtain ⟨p, a, -, -, ⟨accepting, -⟩ | ⟨-, rfl⟩⟩ := deliver_cases i next taken
      · exact absurd accepting (quiet i p a rfl)
      · exact .inl (goes_empty i).carries
  | retire i =>
      obtain ⟨p, a, -, -, -, -, rfl⟩ := retire_cases i next taken
      exact .inl (goes_empty i).carries
  | resumeCaller c => exact .inl (goes_resumeCaller c taken).carries
  | advanceWork w => exact .inl (goes_advanceWork w taken).carries
  | advanceWait w => exact .inl (goes_advanceWait w taken).carries
  | followShown f => exact .inr (.turned f next taken)
  | followVisuals f => exact .inr (.replaced f next taken)

end Host

namespace Moment

variable {m n : Moment}

theorem Next.carries (next : m.Next n) (named : m.host.Named) :
    m.host.Carries n.host ∨ m.host.Draws n.host := by
  cases next with
  | acts h s => exact Host.carries_act named s
  | moves h move next taken quiet => exact Host.carries_move move taken quiet
  | hears h i p a accepting => exact .inl (Host.goes_heard i p a).carries
  | calls h i request c rest => exact .inl (Host.goes_call named c).carries
  | settles h i request p present => exact .inl (Host.goes_launch p.scope _).carries

end Moment

end ModalHost
