import ModalHost.Proofs.Moments
import ModalHost.Proofs.Ledger.Overlay
import ModalHost.Proofs.Strand.Standstill
import ModalHost.Proofs.Strand.History

/-! Which scopes a cancellation reaches, and what is left of the dialogs on them: they are final, but for
an answer that lies in a mailbox when its scope is cancelled. -/

namespace ModalHost

namespace Host

/-- A prompt is what it was, but it may have gone away, and no answer to it was taken meanwhile. -/
def Unmoved (before h : Host) (i : Nat) (p : Prompt) : Prop :=
  (∃ q, h.prompts[i]? = some q ∧ p.Fades q) ∧
    h.history.filter (·.attends i) = before.history.filter (·.attends i)

/-- What a host has come to on a scope that was cancelled before: no job runs there, prompts can only
go away, and take no answer but one that lay in their mailbox, loading dialogs and panels stay as they
were, and callers that end without being dropped end as cancelled, at once if they ask only now. -/
structure Halted (before h : Host) (scope : Nat) : Prop where
  cancelled : h.isCancelled scope = true
  dispatcher : h.dispatch? scope = none
  prompts (i : Nat) (p : Prompt) : before.prompts[i]? = some p → p.scope = scope →
    ∃ q events, h.prompts[i]? = some q ∧ p.Stilled i q events ∧
      h.history.filter (·.attends i) = events ++ before.history.filter (·.attends i)
  unanswered (i : Nat) (p : Prompt) : before.prompts[i]? = some p → p.scope = scope →
    p.Unanswered → before.Unmoved h i p
  consumers (i : Nat) (p : Prompt) : before.prompts[i]? = some p → p.scope = scope →
    p.mailbox = none → h.deliver? i = none
  loadings (i : Nat) (l : Loading) : before.loadings[i]? = some l → l.scope = scope →
    ∃ k, h.loadings[i]? = some k ∧ k.scope = l.scope ∧ k.shown = l.shown ∧ k.inFlight = l.inFlight
  panels (i : Nat) (p : Panel) : before.panels[i]? = some p → p.scope = scope →
    ∃ q, h.panels[i]? = some q ∧ q.scope = p.scope ∧ q.shown = p.shown
  endings (c : Nat) (caller : Caller) (p : Prompt) : h.callers[c]? = some caller →
    before.prompts[caller.prompt]? = some p → p.scope = scope → ∀ name ending,
      .ended (.caller c) name ending ∈ h.history →
        .ended (.caller c) name ending ∈ before.history ∨ ending = .cancelled ∨ ending = .abandoned
  waiting (c : Nat) (caller : Caller) (p : Prompt) : h.callers[c]? = some caller →
    caller.ended = false → h.prompts[caller.prompt]? = some p → p.scope = scope →
      h.resumeCaller? c = some (h.endCancelled c)
  asking (i : Nat) (p : Prompt) (visuals : Visuals) (name : String) :
    h.prompts[i]? = some p → p.scope = scope → ∃ history, (h.await i visuals name).history =
      .ended (.caller h.callers.length) name .cancelled :: history

variable {h : Host}

theorem dispatch_dead (scope : Nat) (dead : h.isCancelled scope = true) :
    h.dispatch? scope = none := by
  unfold dispatch?
  split
  · rename_i lineage job jobs found
    simp [isCancelled, found] at dead
  · rfl

theorem deliver_empty (i : Nat) (p : Prompt) (present : h.prompts[i]? = some p)
    (empty : p.mailbox = none) : h.deliver? i = none := by
  simp only [deliver?, present, empty]

theorem resume_dead (c : Nat) (caller : Caller) (found : h.callers[c]? = some caller)
    (waits : caller.ended = false) (p : Prompt) (present : h.prompts[caller.prompt]? = some p)
    (dead : h.isCancelled p.scope = true) : h.resumeCaller? c = some (h.endCancelled c) := by
  simp [resumeCaller?, found, waits, present, dead]

theorem history_endCancelled (c : Nat) (caller : Caller) (found : h.callers[c]? = some caller) :
    ∃ history, (h.endCancelled c).history =
      .ended (.caller c) caller.name .cancelled :: history := by
  have still : (h.withdraw caller.prompt caller.request).callers[c]? = some caller := by
    rw [callers_withdraw, found]
  simp only [endCancelled, found, endCaller, still]
  exact ⟨_, rfl⟩

theorem history_await_dead (i : Nat) (p : Prompt) (present : h.prompts[i]? = some p)
    (dead : h.isCancelled p.scope = true) (visuals : Visuals) (name : String) :
    ∃ history, (h.await i visuals name).history =
      .ended (.caller h.callers.length) name .cancelled :: history := by
  obtain ⟨caller, there, rfl, -⟩ := caller_enrolled i p present visuals name
  rw [await_dead i p present dead]
  exact history_endCancelled _ caller there

theorem cancel_elsewhere (firm : h.ground.Firm) (root k : Nat)
    (apart : ¬ Under (treeOf h.scopes) root k) :
    (h.cancel root).scopes[k]? = h.scopes[k]? := by
  have rooted := tree_rooted firm
  simp only [cancel, List.getElem?_map]
  cases found : h.scopes[k]? with
  | none => rfl
  | some s =>
      have beside : ¬ s.lineage.contains root = true := fun below =>
        apart ((rooted.mem_lineage root k _ (Tree.treeOf_place h.scopes k s found)).mp
          (List.contains_iff_mem.mp below))
      rw [Option.map_some, Scope.cancelBy, if_neg beside]

theorem isCancelled_iff_cancelled (firm : h.ground.Firm) (k : Nat) : h.isCancelled k = true ↔
    ∃ root, Under (treeOf h.scopes) root k ∧ .cancelled root ∈ h.history := by
  have rooted := tree_rooted firm
  have recorded (root : Nat) : .cancelled root ∈ h.ground.log ↔ .cancelled root ∈ h.history :=
    mem_ground_log _ rfl
  cases found : h.scopes[k]? with
  | none =>
      simp only [isCancelled, found, Option.any_none, Bool.false_eq_true, false_iff]
      rintro ⟨root, under, happened⟩
      cases under with
      | itself =>
          have inside := rooted.known k ((recorded k).mpr happened)
          simp only [treeOf, List.length_map] at inside
          rw [List.getElem?_eq_getElem inside] at found
          cases found
      | child _ parent opened => simp [parentAt, treeOf, found] at opened
  | some s =>
      have place := Tree.treeOf_place h.scopes k s found
      calc h.isCancelled k = true
          ↔ s.cancelled = true := by simp [isCancelled, found]
        _ ↔ ∃ root ∈ s.lineage, .cancelled root ∈ h.ground.log := rooted.dead k _ place
        _ ↔ ∃ root, Under (treeOf h.scopes) root k ∧ .cancelled root ∈ h.history := by
          simp only [rooted.mem_lineage _ k _ place, recorded]

theorem openScope_child (firm : h.ground.Firm) (name : String) (parent : Nat)
    (inside : parent < h.scopes.length) :
    parentAt (treeOf (h.openScope name (some parent)).scopes) h.scopes.length = some parent ∧
      (h.openScope name (some parent)).isCancelled h.scopes.length = h.isCancelled parent := by
  have head : h.scopes[parent].lineage[0]? = some parent := (tree_rooted firm).head parent _
    (Tree.treeOf_place h.scopes parent _ (List.getElem?_eq_getElem inside))
  constructor
  · simp [openScope, parentAt, treeOf, List.getElem?_eq_getElem inside, head]
  · simp [openScope, isCancelled, List.getElem?_eq_getElem inside]

end Host

open Host

theorem Moment.Run.stands {m n : Moment} (run : m.Run n) (kept : m.Kept) (i : Nat) (p : Prompt)
    (present : m.host.prompts[i]? = some p) (dead : m.host.isCancelled p.scope = true) :
    Strand.Stands i (m.strand i) (n.strand i) p :=
  (run.strand kept i).stands (kept.woven i) p present
    ((isCancelled_strand m.host i (m.due i) p.scope).trans dead)

theorem attends_strand (h : Host) (i : Nat) (due : Option Nat) :
    (h.strand i due).log.filter (·.attends i) = h.history.filter (·.attends i) := by
  have own (e : Event) : (e.attends i && e.concerns i) = e.attends i := by
    cases e <;> simp [Event.attends, Event.concerns]
  simp only [Host.strand, List.filter_filter, own]

theorem Moment.Run.stilled {m n : Moment} (run : m.Run n) (kept : m.Kept) (i : Nat) (p : Prompt)
    (present : m.host.prompts[i]? = some p) (dead : m.host.isCancelled p.scope = true) :
    ∃ q events, n.host.prompts[i]? = some q ∧ p.Stilled i q events ∧
      n.host.history.filter (·.attends i) = events ++ m.host.history.filter (·.attends i) := by
  obtain ⟨q, events, there, stilled, attends⟩ := (run.stands kept i p present dead).prompt
  rw [Moment.strand, Moment.strand, attends_strand, attends_strand] at attends
  exact ⟨q, events, there, stilled, attends⟩

theorem Moment.Run.unmoved {m n : Moment} (run : m.Run n) (kept : m.Kept) (i : Nat) (p : Prompt)
    (present : m.host.prompts[i]? = some p) (dead : m.host.isCancelled p.scope = true)
    (unanswered : p.Unanswered) : m.host.Unmoved n.host i p := by
  obtain ⟨q, events, there, stilled, attends⟩ := run.stilled kept i p present dead
  obtain ⟨rfl, fades⟩ := stilled.fades unanswered
  exact ⟨⟨q, there, fades⟩, attends⟩

theorem Host.Accepting.attends {h : Host} {i : Nat} {p : Prompt} {a : Answer}
    (accepting : h.Accepting i p a) :
    (h.heard i p a).history.filter (·.attends i) ≠ h.history.filter (·.attends i) := by
  have heard := congrArg (fun σ : Strand => σ.log.filter (·.attends i))
    (strand_heard i none p accepting.present a)
  simp only [attends_strand, List.filter_append] at heard
  intro same
  rw [heard, List.filter_cons_of_pos (by simp [Event.attends]), attends_strand] at same
  have lengths := congrArg List.length same
  simp only [List.length_append, List.length_cons] at lengths
  omega

/-- A scope is cancelled exactly if it was, or a scope that it lies under, also if it was opened
afterwards; a cancellation reaches no parent and no sibling; and from then on the scope stands still,
except that the consumer of a prompt may still take an answer that lies in its mailbox by then. -/
theorem cancellation_final_unless_answered {m : Moment} (reached : m.Reached) :
    (∀ k, m.host.isCancelled k = true ↔
      ∃ root, Under (treeOf m.host.scopes) root k ∧ .cancelled root ∈ m.host.history) ∧
    (∀ name parent, parent < m.host.scopes.length →
      parentAt (treeOf (m.host.openScope name (some parent)).scopes) m.host.scopes.length =
          some parent ∧
        (m.host.openScope name (some parent)).isCancelled m.host.scopes.length =
          m.host.isCancelled parent) ∧
    (∀ root k, ¬ Under (treeOf m.host.scopes) root k →
      (m.host.cancel root).scopes[k]? = m.host.scopes[k]?) ∧
    (∀ k parent, parentAt (treeOf m.host.scopes) k = some parent →
      ¬ Under (treeOf m.host.scopes) k parent ∧
        ∀ sibling, sibling ≠ k → parentAt (treeOf m.host.scopes) sibling = some parent →
          ¬ Under (treeOf m.host.scopes) k sibling) ∧
    (∀ (n : Moment) (scope : Nat), m.Run n → m.host.isCancelled scope = true →
      m.host.Halted n.host scope) ∧
    ∀ (h : Host) (i : Nat) (p : Prompt), m = .between h → h.prompts[i]? = some p →
      h.isCancelled p.scope = true → h.ownsPrompt i = true →
        ((∀ n, m.Run n → h.Unmoved n.host i p) ↔ p.Unanswered) := by
  have kept := reached.kept
  refine ⟨isCancelled_iff_cancelled kept.firm, openScope_child kept.firm,
    cancel_elsewhere kept.firm, (tree_rooted kept.firm).apart, ?_, ?_⟩
  · intro n scope run cancelled
    have ground := run.ground kept
    have dead : n.host.isCancelled scope = true := by
      rw [← isCancelled_ground] at cancelled ⊢
      exact ground.persist.dead cancelled
    exact {
      cancelled := dead
      dispatcher := dispatch_dead scope dead
      prompts i p present home := run.stilled kept i p present (home ▸ cancelled)
      unanswered i p present home := run.unmoved kept i p present (home ▸ cancelled)
      consumers i p present home empty := by
        obtain ⟨q, events, there, stilled, -⟩ := run.stilled kept i p present (home ▸ cancelled)
        exact deliver_empty i q there (stilled.mailbox empty)
      loadings i l found home := by
        obtain ⟨k, there, same, shown, count, -⟩ := (run.ledger kept).frozen kept.ledger i l found
          ((isCancelled_ledger m.host l.scope).trans (home ▸ cancelled))
        exact ⟨k, there, same, shown, count⟩
      panels i p found home := ground.panel_rests kept.firm i p found
        ((isCancelled_ground m.host p.scope).trans (home ▸ cancelled))
      endings c caller p found present home name ending member := by
        have about : (Event.ended (.caller c) name ending).concerns caller.prompt = true := rfl
        have stands := run.stands kept caller.prompt p present (home ▸ cancelled)
        rcases stands.endings c caller name ending found rfl
          ((mem_log _ _ _ _ about).mpr member) with before | now
        · exact .inl ((mem_log _ _ _ _ about).mp before)
        · exact .inr now
      waiting c caller p found waits present home :=
        resume_dead c caller found waits p present (home ▸ dead)
      asking i p visuals name present home :=
        history_await_dead i p present (home ▸ dead) visuals name }
  · rintro h i p rfl present dead owned
    refine ⟨fun unmoved a full => ?_, fun unanswered n run =>
      run.unmoved kept i p present dead unanswered⟩
    -- an answer that counts can be taken next
    by_contra counts
    have accepting : h.Accepting i p a := ⟨present, full, owned, Bool.not_eq_false _ ▸ counts⟩
    exact accepting.attends (unmoved _ (.single (.hears h i p a accepting))).2

/-- A dialog on a child of the main scope waits for an answer; its hook cancels the main scope and
then asks again. -/
def quitting : Hooks Call := ⟨"k", some [.cancel "main", .showConfirm "d" (.ofTitle "Sure?")], none⟩

def quit : List (Session.Step ⊕ Move) :=
  [.inl (.openScope "c" (some "main")), .inl (.openDialog "d" "c" (.confirm quitting .blank)),
    .inl (.call (.await "d" (.ofTitle "Delete?") "t")), .inr (.dispatch 1),
    .inl (.call (.press (.fresh "d") .confirmed)), .inr (.dispatch 1)]

def quittingPrompt : Prompt where
  scope := 1
  handle := true
  shown := ⟨true, 1⟩
  visuals := ⟨.ofTitle "Delete?", 1⟩
  phase := .awaitingInput
  issued := 1
  published := 1
  parked := some ⟨1, 0⟩
  hooks := quitting
  mailbox := some ⟨1, .confirmed, none, 1⟩

def quitHost : Host :=
  ((initial.run quit).heard 0 quittingPrompt ⟨1, .confirmed, none, 1⟩).call (.cancel "main")

/-- The confirmed call ends as cancelled, and what the hook asks for does not come on screen. -/
theorem quit_cancelled : ∃ (n : Moment) (p q : Prompt),
    (Moment.within quitHost 0 1 [.showConfirm "d" (.ofTitle "Sure?")]).Run n ∧
    quitHost.isCancelled 1 = true ∧ .cancelled 1 ∉ quitHost.history ∧
    quitHost.prompts[0]? = some p ∧ n.host.prompts[0]? = some q ∧ p.Fades q ∧ q.issued = 2 ∧
    n.host.dispatch? 1 = none ∧ n.host.resumeCaller? 0 = some (n.host.endCancelled 0) := by
  have accepting : (initial.run quit).Accepting 0 quittingPrompt ⟨1, .confirmed, none, 1⟩ :=
    ⟨rfl, rfl, rfl, rfl⟩
  have reached : (Moment.within quitHost 0 1 [.showConfirm "d" (.ofTitle "Sure?")]).Reached :=
    ((Reachable.run .refl quit).reached.tail (.hears _ 0 _ _ accepting)).tail
      (.calls _ 0 1 (.cancel "main") [.showConfirm "d" (.ofTitle "Sure?")])
  let asked : Host := quitHost.call (.showConfirm "d" (.ofTitle "Sure?"))
  have goes : (Moment.within quitHost 0 1 [.showConfirm "d" (.ofTitle "Sure?")]).Run
      (.between (asked.launch 1 (.settle 0 1))) :=
    .tail (.single (.calls quitHost 0 1 _ [])) (.settles asked 0 1 _ rfl)
  have halted := (cancellation_final_unless_answered reached).2.2.2.2.1 _ 1 goes rfl
  obtain ⟨⟨q, there, fades⟩, -⟩ := halted.unanswered 0 _ rfl rfl nofun
  obtain rfl := Option.some.inj there
  exact ⟨_, _, _, goes, rfl, by decide, rfl, rfl, fades, rfl, halted.dispatcher,
    halted.waiting 0 _ _ rfl rfl rfl rfl⟩

/-- Two dialogs on the main scope are answered before either consumer moves. The hook of the first
cancels the scope. -/
def overtaken : List (Session.Step ⊕ Move) :=
  [.inl (.openDialog "d" "main" (.confirm ⟨"go", some [.cancel "main"], none⟩ .blank)),
    .inl (.openDialog "e" "main" (.confirm ⟨"late", some [], none⟩ .blank)),
    .inl (.call (.showConfirm "d" (.ofTitle "Quit?"))),
    .inl (.call (.showConfirm "e" (.ofTitle "Delete?"))), .inr (.dispatch 0), .inr (.dispatch 0),
    .inl (.call (.press (.fresh "d") .confirmed)), .inl (.call (.press (.fresh "e") .confirmed)),
    .inr (.dispatch 0), .inr (.dispatch 0), .inr (.deliver 0)]

def latePrompt : Prompt where
  scope := 0
  handle := true
  shown := ⟨true, 1⟩
  visuals := ⟨.ofTitle "Delete?", 1⟩
  phase := .awaitingInput
  issued := 1
  published := 1
  parked := none
  hooks := ⟨"late", some [], none⟩
  mailbox := some ⟨1, .confirmed, none, 1⟩

/-- The other answer is accepted all the same, and its hook starts. -/
theorem overtaken_accepted : ¬ ∀ (m n : Moment) (i : Nat) (p : Prompt), m.Reached → m.Run n →
    m.host.prompts[i]? = some p → m.host.isCancelled p.scope = true →
      n.host.history.filter (·.attends i) = m.host.history.filter (·.attends i) := by
  intro final
  have accepting : (initial.run overtaken).Accepting 1 latePrompt ⟨1, .confirmed, none, 1⟩ :=
    ⟨rfl, rfl, rfl, rfl⟩
  exact accepting.attends (final _ _ 1 latePrompt (Reachable.run .refl overtaken).reached
    (.single (.hears _ 1 latePrompt _ accepting)) rfl rfl)

end ModalHost
