import ModalHost.Proofs.Strand.Runs
import ModalHost.Proofs.Strand.History

/-! How often a request is answered. -/

namespace ModalHost.Host

variable {h : Host}

theorem acceptances_strand (i request : Nat) (due : Option Nat) :
    acceptances i request (h.strand i due).log = acceptances i request h.history :=
  acceptances_filter i request h.history

theorem resumptions_le_one (seen : h.Seen) (i request : Nat) :
    resumptions i request h.history ≤ 1 ∧
      firings i request h.history ≤ acceptances i request h.history := by
  rcases seen.strand i with ⟨due, strand⟩
  rw [← resumptions_filter, ← firings_filter, ← acceptances_filter]
  exact ⟨strand.firstAnswers.resumptions request _ (List.suffix_refl _),
    firings_le i request _ strand.heard⟩

theorem spent_of_deliver (reachable : h.Reachable) (i : Nat) (p : Prompt) (a : Answer)
    (accepting : h.Accepting i p a) (next : Host) (delivered : h.deliver? i = some next) :
    Strand.Spent a.request (next.strand i none) := by
  have woven := reachable.woven
  have same := Option.some.inj (accepting.deliver.symm.trans delivered)
  subst same
  have after : Strand.Path i (· ≠ .setPrompt i true)
      ((h.heard i p a).strand i (delivering i a.request i)) _ := path_after i woven i p a accepting
  have path : Strand.Path i (· ≠ .setPrompt i true) (h.strand i none) _ :=
    path_accept i woven i p a accepting
  have heard : acceptances i a.request
      ((h.heard i p a).strand i (delivering i a.request i)).log =
        acceptances i a.request (h.strand i none).log + 1 := by
    rw [strand_heard i _ p accepting.present a, acceptances_delivery, if_pos rfl]
    rfl
  have grown : acceptances i a.request
      ((h.heard i p a).strand i (delivering i a.request i)).log ≤ _ :=
    after.log_grows.sublist.countP_le
  rcases (path.acceptances (by simp) (woven i) a.request).2 with same | ⟨-, spent⟩
  · rw [heard] at grown
    unfold acceptances at same grown
    omega
  · exact spent

theorem acceptances_without_show (i request : Nat) (next : Host)
    (run : RunsWithoutShow i initial next) : acceptances i request next.history ≤ 1 := by
  have path := (run.path i .refl).2
  have unanswered : acceptances i request (initial.strand i none).log = 0 := rfl
  rw [← acceptances_strand i request none]
  rcases (path.acceptances (by simp) (woven_initial i) request).2 with same | ⟨more, -⟩
  · omega
  · omega

theorem unanswered_without_show (reachable : h.Reachable) (i : Nat) (p q : Prompt) (a b : Answer)
    (accepting : h.Accepting i p a) (next later : Host) (delivered : h.deliver? i = some next)
    (run : RunsWithoutShow i next later) (again : later.Accepting i q b) :
    b.request ≠ a.request := by
  have spent := spent_of_deliver reachable i p a accepting next delivered
  have reached : next.Reachable := reachable.tail (.move (.deliver i) next delivered)
  have path := (run.path i reached).2
  have still := (path.spent (by simp) (reached.woven i) a.request spent).2.1
  rcases still with ⟨now, present, -, closed⟩
  have mine : now = q := Option.some.inj (present.symm.trans again.present)
  subst mine
  have counts := (now.accepts_iff b).mp again.counts
  intro same
  exact closed (counts.1.symm.trans same) counts.2

theorem reopened_by_show (reachable : h.Reachable) (i : Nat) (p : Prompt)
    (present : h.prompts[i]? = some p) (answered : 0 < acceptances i p.issued h.history)
    (next : Host) (shows : RunsShow i h next) :
    ∃ q, next.prompts[i]? = some q ∧ q.issued = p.issued ∧
      ∀ b, q.accepts b = true ↔ b.request = p.issued := by
  have strand := reachable.woven i
  have visible : p.visuals.value.isEmpty = false := by
    rw [← acceptances_strand i p.issued none] at answered
    rcases strand.past p.issued answered with ⟨now, there, passed⟩
    have mine : now = p := Option.some.inj (there.symm.trans present)
    subst mine
    have ahead := (strand.scheduled.present now present).orderly.le
    have behind := passed.published
    exact passed.visible (by omega)
  rcases shows with ⟨scope, lineage, jobs, front, taken⟩
  have ran : next = (h.setQueue scope jobs).updatePrompt i (·.appear) := by
    simp only [move?, dispatch?, front, runJob, Option.some.injEq] at taken
    exact taken.symm
  have here : next.prompts[i]? = some p.appear := by
    rw [ran, prompts_updatePrompt, List.getElem?_modify_eq]
    simp [setQueue, present]
  refine ⟨p.appear, here, ?_, ?_⟩
  · rcases p.appear_eq with ⟨shown, phase, same⟩
    rw [same]
  · intro b
    rw [Prompt.accepts_iff]
    simp [Prompt.appear, visible]

/-- A request is answered again only when a call has shown its prompt since, and then it is. In a
run without such a call each request is answered once at most, and so its hooks run once. At most
one caller is resumed for a request in any run. -/
theorem answered_again_iff_shown (i : Nat) :
    (∀ (request : Nat) (next : Host), RunsWithoutShow i initial next →
      acceptances i request next.history ≤ 1 ∧ firings i request next.history ≤ 1) ∧
    (∀ (request : Nat) (h : Host), h.Seen → resumptions i request h.history ≤ 1) ∧
    (∀ (h next later : Host) (p q : Prompt) (a b : Answer), h.Reachable → h.Accepting i p a →
      h.deliver? i = some next → RunsWithoutShow i next later → later.Accepting i q b →
        b.request ≠ a.request) ∧
    ∀ (h next : Host) (p : Prompt), h.Reachable → h.prompts[i]? = some p →
      0 < acceptances i p.issued h.history → RunsShow i h next →
        ∃ q, next.prompts[i]? = some q ∧ q.issued = p.issued ∧
          ∀ b, q.accepts b = true ↔ b.request = p.issued := by
  refine ⟨?_, ?_, ?_, ?_⟩
  · intro request next run
    have once := acceptances_without_show i request next run
    have reachable := (run.path i .refl).1
    exact ⟨once, (resumptions_le_one (.between next reachable) i request).2.trans once⟩
  · intro request h seen
    exact (resumptions_le_one seen i request).1
  · intro h next later p q a b reachable accepting delivered run again
    exact unanswered_without_show reachable i p q a b accepting next later delivered run again
  · intro h next p reachable present answered shows
    exact reopened_by_show reachable i p present answered next shows

/-- A request is answered, and the dialog hidden; then a call asks for the dialog to be shown. -/
def askedBack : List (Session.Step ⊕ Move) :=
  [.inl (.openDialog "d" "main" (.confirm ⟨"k", some [], some []⟩ .blank)),
    .inl (.call (.showConfirm "d" (.ofTitle "Delete?"))), .inr (.dispatch 0),
    .inl (.call (.press (.fresh "d") .confirmed)), .inr (.dispatch 0), .inr (.deliver 0),
    .inr (.dispatch 0), .inl (.call (.setShown "d" true))]

theorem askedBack_opens_again : ∃ next : Host, RunsShow 0 (initial.run askedBack) next ∧
    ∃ q, next.prompts[0]? = some q ∧ q.issued = 1 ∧ ∀ b, q.accepts b = true ↔ b.request = 1 := by
  have shows : RunsShow 0 (initial.run askedBack) _ := ⟨0, [0], [], rfl, rfl⟩
  have opens := (answered_again_iff_shown 0).2.2.2 (initial.run askedBack) _ _
    (Reachable.run .refl askedBack) rfl (by decide) shows
  exact ⟨_, shows, opens⟩

/-- The second answer to the request runs the hook once more. -/
theorem askedBack_answered_twice : ¬ ∀ (h : Host) (i request : Nat), h.Reachable →
    acceptances i request h.history ≤ 1 ∧ firings i request h.history ≤ 1 := by
  intro once
  have bound := once _ 0 1 (Reachable.run .refl (askedBack ++
    [.inr (.dispatch 0), .inl (.call (.press (.fresh "d") .confirmed)), .inr (.dispatch 0),
      .inr (.deliver 0)]))
  have twice : (2 : Nat) ≤ 1 := bound.1
  omega

end ModalHost.Host
