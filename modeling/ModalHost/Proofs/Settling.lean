import ModalHost.Proofs.Pane.Moments

/-! Shows and hides of a dialog settle on the last call, whatever else goes on, as long as no block
of work passes the dialog. -/

namespace ModalHost

/-- Whether a dialog is shown when it is opened. -/
def Session.NewDialog.visible : NewDialog → Bool
  | .panel _ visible => visible
  | _ => false

namespace Moment

/-- The calls on a dialog that have been made and wait on the scope `k`. -/
def waiting (m : Moment) (d : DialogRef) (k : Nat) : List Bool :=
  (m.host.queued k).filterMap (Job.asks d)

/-- What is promised of a dialog on the scope `k` from the moment `m` on, when its cell is `c`. -/
structure Settles (d : DialogRef) (k : Nat) (c : Cell Bool) (m : Moment) : Prop where
  /-- A dialog that has just been opened starts with the visibility it is opened with. -/
  fresh (h : Host) (name scope : String) (dialog : Session.NewDialog) :
    (between h).Reached → h.place d = none →
    m = between (Session.act h (.openDialog name scope dialog)).1 →
    m.waiting d k = [] ∧ c.value = dialog.visible
  /-- Only a block of work that passes the dialog ends what is promised here. -/
  watched (n : Moment) : RunsWithout (fun job => job.passes d = true) m n →
    ∃ calls, Watched d m calls n
  /-- Calls take effect in the order in which they are made. -/
  effects (calls : List Bool) (n : Moment) : Watched d m calls n →
    ∃ ran rest, ran ++ rest = m.waiting d k ++ calls ∧
      n.host.shown? d = some (ran.foldl Cell.set c) ∧
      (n.host.isCancelled k = false → rest = n.waiting d k)
  /-- Once the queue has drained, the last call counts. -/
  last (calls : List Bool) (n : Moment) : Watched d m calls n → n.host.isCancelled k = false →
    n.host.queued k = [] → ∃ e, n.host.shown? d = some e ∧
      e.value = (m.waiting d k ++ calls).getLast?.getD c.value
  /-- A flush returns on a live scope only when all calls before it have taken effect. -/
  flushed (calls since : List Bool) (h g next : Host) (scope task : String) :
    Watched d m calls (between h) → h.names.scopes.find? scope = some k →
    Watched d (between (Session.act h (.flush scope task)).1) since (between g) →
    g.move? (.advanceWait h.waits.length) = some next → g.isCancelled k = false →
    ∃ later, later <+: since ∧
      g.shown? d = some ((m.waiting d k ++ calls ++ later).foldl Cell.set c)
  /-- The values that are stored alternate, each by a call for it. -/
  alternates (calls more : List Bool) (n o : Moment) : Watched d m calls n → Asks d n more o →
    ¬ Passes d n o → ∃ e f, n.host.shown? d = some e ∧ o.host.shown? d = some f ∧
      (f = e ∨ f = ⟨!e.value, e.version + 1⟩ ∧ Runs (fun job => job.asks d = some !e.value) n o)
  /-- An observer that has seen the cell is told of a call for the other value only. -/
  notified (calls : List Bool) (n : Moment) (name : String) (value : Session.Observed) :
    Watched d m calls n →
    (Session.readReceiver n.host name (.shown d c.version)).2 = .changed (some true) value →
    ∃ ran rest, ran ++ rest = m.waiting d k ++ calls ∧
      n.host.shown? d = some (ran.foldl Cell.set c) ∧ (!c.value) ∈ ran
  /-- What has not run when the scope is cancelled never takes effect. -/
  cut (calls since : List Bool) (n o : Moment) : Watched d m calls n →
    n.host.isCancelled k = true → Watched d n since o → o.host.shown? d = n.host.shown? d

variable {d : DialogRef} {k : Nat} {c : Cell Bool} {m n : Moment} {calls : List Bool}

theorem shown_of_place {h : Host} (place : h.place d = some (k, c)) : h.shown? d = some c := by
  cases d with
  | prompt i => cases place
  | loading i =>
      obtain ⟨l, found, ⟨⟩⟩ := Option.map_eq_some_iff.mp place
      exact congrArg (Option.map _) found
  | panel i =>
      obtain ⟨p, found, ⟨⟩⟩ := Option.map_eq_some_iff.mp place
      exact congrArg (Option.map _) found

theorem waiting_pane : (m.host.pane d k).waiting d = m.waiting d k := by
  unfold Pane.waiting waiting Host.pane
  rw [List.filterMap_filter]
  congr 1
  funext job
  cases asks : job.asks d with
  | none => exact ite_self none
  | some b => rw [if_pos (Job.onPane_of_asks asks)]

theorem Watched.effects (watched : Watched d m calls n) (kept : m.Kept)
    (place : m.host.place d = some (k, c)) :
    Pane.Effects d k c (m.waiting d k ++ calls) (n.host.pane d k) := by
  rw [← waiting_pane]
  exact (Pane.Effects.start place).path (watched.pane kept place)

theorem Kept.unasked (kept : m.Kept) (absent : m.host.place d = none) (k : Nat) :
    m.waiting d k = [] := by
  refine List.filterMap_eq_nil_iff.mpr fun job member => ?_
  cases asks : job.asks d with
  | none => rfl
  | some b =>
      obtain ⟨e, there⟩ := Host.place_of_asks kept.ledger.moored kept.firm k job b member asks
      cases absent.symm.trans there

theorem visible_of_openDialog (h : Host) (name : String) (s : Nat) (dialog : Session.NewDialog)
    (absent : h.place d = none)
    (there : (Session.openDialog h name s dialog).1.place d = some (k, c)) :
    c.value = dialog.visible := by
  have dropped : (h.dropDialog name).place d = none :=
    (congrArg Pane.place (Host.pane_dropDialog (k := k) name)).trans absent
  cases dialog with
  | loading =>
      cases d with
      | prompt i => cases there
      | panel i => cases dropped.symm.trans there
      | loading i =>
          cases eq_of_getElem?_concat (fun l : Loading => (l.scope, l.shown)) _ _ i _ dropped there
          rfl
  | panel kind visible =>
      cases d with
      | prompt i => cases kind <;> cases there
      | loading i => cases kind <;> cases dropped.symm.trans there
      | panel i =>
          cases kind with
          | base | custom =>
              cases eq_of_getElem?_concat (fun p : Panel => (p.scope, p.shown)) _ _ i _ dropped
                there
              rfl
  | confirm hooks start =>
      have asked (s' : Snapshot) (there : (h.openPrompt name s s' hooks).place d = some (k, c)) :
          False := by
        have same : (h.openPrompt name s s' hooks).place d = (h.dropDialog name).place d := rfl
        cases (same.trans dropped).symm.trans there
      cases start with
      | blank => exact (asked _ there).elim
      | snapshot s' => exact (asked s' there).elim
      | saved bytes =>
          simp only [Session.openDialog] at there
          split at there
          · exact (asked _ there).elim
          · cases absent.symm.trans there

theorem scopes_openDialog (h : Host) (name : String) (s : Nat) (dialog : Session.NewDialog) :
    (Session.openDialog h name s dialog).1.scopes = h.scopes := by
  have dropped : (h.dropDialog name).scopes = h.scopes := by
    unfold Host.dropDialog
    split
    · rfl
    · rename_i dialog _
      cases dialog <;> rfl
  cases dialog with
  | loading => exact dropped
  | panel kind => cases kind <;> exact dropped
  | confirm hooks start =>
      cases start with
      | blank | snapshot => exact dropped
      | saved bytes =>
          simp only [Session.openDialog]
          split
          · exact dropped
          · rfl

theorem fresh_of_openDialog (h : Host) (name scope : String) (dialog : Session.NewDialog)
    (kept : (between h).Kept) (absent : h.place d = none)
    (there : (Session.act h (.openDialog name scope dialog)).1.place d = some (k, c)) :
    (between (Session.act h (.openDialog name scope dialog)).1).waiting d k = [] ∧
      c.value = dialog.visible := by
  simp only [Session.act] at there ⊢
  cases named : h.names.scopes.find? scope with
  | none =>
      rw [named] at there
      cases absent.symm.trans there
  | some s =>
      rw [named] at there
      refine ⟨?_, visible_of_openDialog h name s dialog absent there⟩
      have queued : (Session.openDialog h name s dialog).1.queued k = h.queued k :=
        congrArg (queueAt · k) (scopes_openDialog h name s dialog)
      exact (congrArg (List.filterMap (Job.asks d)) queued).trans (kept.unasked absent k)

theorem unreported_of_returned {g next : Host} (patient : g.Patient) (w : Nat)
    (returned : g.move? (.advanceWait w) = some next) (live : g.isCancelled k = false) :
    .flushed w ∉ g.queued k := by
  intro member
  obtain ⟨wait, there, home, kind⟩ := patient.reports k w member
  obtain ⟨other, found, moved⟩ := Host.wait_cases w returned
  obtain rfl : wait = other := Option.some.inj (there.symm.trans found)
  cases moved with
  | flushed ran flush waits through =>
      cases kind.symm.trans flush
      rw [home, live] at through
      cases through
  | cancelled other => cases kind.symm.trans other
  | received given other => cases kind.symm.trans other
  | joined running outcome other => cases kind.symm.trans other

theorem flush_returns (reached : m.Reached) (place : m.host.place d = some (k, c))
    (since : List Bool) (h g next : Host) (scope task : String)
    (before : Watched d m calls (between h)) (named : h.names.scopes.find? scope = some k)
    (later : Watched d (between (Session.act h (.flush scope task)).1) since (between g))
    (returned : g.move? (.advanceWait h.waits.length) = some next)
    (live : g.isCancelled k = false) :
    ∃ later, later <+: since ∧
      g.place d = some (k, (m.waiting d k ++ calls ++ later).foldl Cell.set c) := by
  have kept := before.run.kept reached.kept
  have asked : (between h).Next (between (Session.act h (.flush scope task)).1) := .acts h _
  obtain ⟨e, there⟩ : ∃ e, h.place d = some (k, e) := by
    obtain ⟨ran, rest, -, there, -⟩ := before.effects reached.kept place
    exact ⟨_, there⟩
  have inside := Host.inside_of_place kept.ledger.sound kept.firm there
  have lives : h.isCancelled k = false :=
    Run.live (Relation.ReflTransGen.head asked later.run) kept k live
  -- The flush adds its report behind all calls that wait, so that the report fences them off.
  have flushed : (Session.act h (.flush scope task)).1.pane d k =
      { h.pane d k with jobs := (h.pane d k).jobs ++ [.flushed h.waits.length] } := by
    simp only [Session.act, named, Option.elim_some]
    exact Host.pane_flush task inside lives
  have fenced : Pane.Fenced d h.waits.length [] ((Session.act h (.flush scope task)).1.pane d k) :=
    .inl ⟨(h.pane d k).jobs, [], by rw [flushed]; exact lives, by rw [flushed], rfl⟩
  have flushing : Pane.Step d (fun _ => False) (h.pane d k) []
      ((Session.act h (.flush scope task)).1.pane d k) := by
    rw [flushed]
    exact .flushes _ lives
  have path := later.pane (asked.kept kept) ((congrArg Pane.place flushed).trans there)
  have effects := ((before.effects reached.kept place).step flushing).path path
  rw [List.append_nil] at effects
  refine (fenced.path path).effects effects live fun member => ?_
  have patient := Run.patient ((before.run.tail asked).trans later.run) reached.kept reached.patient
  exact unreported_of_returned patient _ returned live (List.mem_filter.mp member).1

theorem shows_settle (m : Moment) (reached : m.Reached) (d : DialogRef) (k : Nat) (c : Cell Bool)
    (place : m.host.place d = some (k, c)) : Settles d k c m where
  fresh h name scope dialog before absent opened := by
    subst opened
    exact fresh_of_openDialog h name scope dialog before.kept absent place
  watched n run := run.watched
  effects calls n watched := by
    obtain ⟨ran, rest, all, there, waits⟩ := watched.effects reached.kept place
    exact ⟨ran, rest, all, shown_of_place there, fun live => (waits live).trans waiting_pane⟩
  last calls n watched live drained := by
    obtain ⟨ran, rest, all, there, waits⟩ := watched.effects reached.kept place
    have none_waits : rest = [] := by
      rw [waits live, waiting_pane, waiting, drained]
      rfl
    rw [none_waits, List.append_nil] at all
    refine ⟨_, shown_of_place there, ?_⟩
    rw [Cell.value_foldl, all]
  flushed calls since h g next scope task before named later returned live := by
    obtain ⟨more, part, there⟩ :=
      flush_returns reached place since h g next scope task before named later returned live
    exact ⟨more, part, shown_of_place there⟩
  alternates calls more n o before asks idle := by
    obtain ⟨ran, rest, -, there, -⟩ := before.effects reached.kept place
    have step := asks.pane idle (before.run.kept reached.kept) there
    obtain ⟨f, after, written⟩ := step.alternates there
    refine ⟨_, f, shown_of_place there, shown_of_place after, written.imp_right ?_⟩
    rintro ⟨other, job, ⟨scope, lineage, first, jobs, front, same, taken⟩, asked⟩
    exact ⟨other, scope, lineage, first, jobs, front, same ▸ asked, taken⟩
  notified calls n name value watched told := by
    obtain ⟨ran, rest, all, there, -⟩ := watched.effects reached.kept place
    have shown := shown_of_place there
    refine ⟨ran, rest, all, shown, (c.version_foldl ran).mp ?_⟩
    simp only [Session.readReceiver, shown, Session.Response.changed.injEq] at told
    obtain ⟨unseen, -⟩ := told
    split at unseen
    · cases unseen
    · simpa using unseen
  cut calls since n o before dead later := by
    obtain ⟨ran, rest, -, there, -⟩ := before.effects reached.kept place
    have path := later.pane (before.run.kept reached.kept) there
    have still := (path.frozen dead).2.trans there
    rw [shown_of_place there, shown_of_place still]

def curtain : Host :=
  Host.initial.run [.inl (.openDialog "p" "main" (.panel .custom false)),
    .inl (.keepDismisser "p" "x")]

/-- The dispatcher is held while the panel is shown, dismissed and shown again. -/
def heldCalls : List (Session.Step ⊕ Move) :=
  [.inl (.hold "main"), .inl (.call (.setShown "p" true)), .inl (.dismiss "x"),
    .inl (.call (.setShown "p" true))]

def releasedCalls : List (Session.Step ⊕ Move) :=
  [.inl (.call (.setShown "p" false)), .inl (.release "main"), .inr (.dispatch 0),
    .inr (.dispatch 0), .inr (.dispatch 0), .inr (.dispatch 0), .inr (.dispatch 0)]

def flushedCurtain : Host :=
  (Session.act (curtain.run heldCalls) (.flush "main" "t")).1.run releasedCalls

theorem curtain_settles : Settles (.panel 0) 0 (.new false) (between curtain) ∧
    (∃ later, later <+: [false] ∧ flushedCurtain.shown? (.panel 0) =
      some (([true, false, true] ++ later).foldl Cell.set (.new false))) ∧
    (∃ e, (flushedCurtain.run [.inr (.dispatch 0)]).shown? (.panel 0) = some e ∧
      e.value = false) ∧
    ((flushedCurtain.run [.inl (.call (.cancel "main"))]).run [.inr (.dispatch 0)]).shown?
      (.panel 0) = (flushedCurtain.run [.inl (.call (.cancel "main"))]).shown? (.panel 0) := by
  have promised := shows_settle (between curtain) (Host.Reachable.run .refl _).reached (.panel 0) 0
    (.new false) rfl
  have spared (h : Host) : h.spares (Job.passes (.panel 0)) = true := by
    have never : Job.passes (.panel 0) = fun _ => false := by
      funext job
      cases job <;> rfl
    simp [Host.spares, never]
  have watch (h : Host) (turns : List (Session.Step ⊕ Move))
      (undelivered : ∀ i, .inr (.deliver i) ∉ turns) :
      Watched (.panel 0) (between h) (h.asked (.panel 0) turns) (between (h.run turns)) :=
    Watched.turns turns h (fun n _ => spared _) undelivered
  have held : Watched (.panel 0) (between curtain) [true, false, true]
      (between (curtain.run heldCalls)) := watch curtain heldCalls (by simp [heldCalls])
  have flush := watch (curtain.run heldCalls) [.inl (.flush "main" "t")] (by simp)
  have released : Watched (.panel 0)
      (between (Session.act (curtain.run heldCalls) (.flush "main" "t")).1) [false]
      (between flushedCurtain) := watch _ releasedCalls (by simp [releasedCalls])
  have all : Watched (.panel 0) (between curtain) [true, false, true, false]
      (between flushedCurtain) := (held.trans flush).trans released
  have drained : Watched (.panel 0) (between curtain) [true, false, true, false]
      (between (flushedCurtain.run [.inr (.dispatch 0)])) :=
    all.trans (watch flushedCurtain [.inr (.dispatch 0)] (by simp))
  have cancelled := all.trans (watch flushedCurtain [.inl (.call (.cancel "main"))] (by simp))
  have main : (curtain.run heldCalls).names.scopes.find? "main" = some 0 := rfl
  have live : flushedCurtain.isCancelled 0 = false := rfl
  have returns : (flushedCurtain.move?
      (.advanceWait (curtain.run heldCalls).waits.length)).isSome = true := rfl
  obtain ⟨next, returned⟩ := Option.isSome_iff_exists.mp returns
  have shown := promised.flushed _ _ _ _ next "main" "t" held main released returned live
  obtain ⟨e, last, hidden⟩ := promised.last _ _ drained rfl rfl
  have kept := promised.cut _ _ _ _ cancelled rfl (watch _ [.inr (.dispatch 0)] (by simp))
  have unasked : (between curtain).waiting (.panel 0) 0 = [] := rfl
  rw [unasked] at shown hidden
  dsimp only [host] at last
  exact ⟨promised, shown, ⟨e, last, hidden⟩, kept⟩

end Moment

end ModalHost
