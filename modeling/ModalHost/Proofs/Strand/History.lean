import ModalHost.Proofs.Strand.Endings
import ModalHost.Proofs.Strand.Answers

/-! What the log of a strand tells of the history of its host. -/

namespace ModalHost

theorem suffix_of_filter {α : Type} (keep : α → Bool) (x : α) (before whole : List α)
    (split : x :: before <:+ whole.filter keep) :
    ∃ earlier, x :: earlier <:+ whole ∧ earlier.filter keep = before := by
  induction whole with
  | nil => simp at split
  | cons e whole ih =>
      by_cases kept : keep e = true
      · rw [List.filter_cons_of_pos kept, List.suffix_cons_iff] at split
        rcases split with same | old
        · have parts := List.cons.inj same
          rw [parts.1]
          exact ⟨whole, List.suffix_refl _, parts.2.symm⟩
        · rcases ih old with ⟨earlier, there, same⟩
          exact ⟨earlier, there.trans (List.suffix_cons e whole), same⟩
      · rw [List.filter_cons_of_neg kept] at split
        rcases ih split with ⟨earlier, there, same⟩
        exact ⟨earlier, there.trans (List.suffix_cons e whole), same⟩

theorem Caused.of_filter {i c request : Nat} {lineage : List Nat} {earlier : List Event}
    {ending : Ending}
    (caused : Caused i c request lineage (earlier.filter (Event.concerns i)) ending) :
    Caused i c request lineage earlier ending := by
  cases ending with
  | decided decision =>
      rcases caused with ⟨a, member, same, given⟩
      exact ⟨a, List.mem_of_mem_filter member, same, given⟩
  | superseded =>
      rcases caused with ⟨newer, visuals, before, split, less, unanswered⟩
      rcases suffix_of_filter _ _ _ _ split with ⟨whole, there, rfl⟩
      refine ⟨newer, visuals, whole, there, less, ?_⟩
      intro a resumed member
      exact unanswered a resumed (List.mem_filter.mpr ⟨member, by simp [Event.concerns]⟩)
  | cancelled =>
      rcases caused with ⟨root, above, member⟩
      exact ⟨root, above, List.mem_of_mem_filter member⟩
  | abandoned => trivial
  | finished | panicked | flushed | scopeCancelled | joined | storeGone => exact caused

theorem acceptances_filter (i request : Nat) (history : List Event) :
    acceptances i request (history.filter (Event.concerns i)) = acceptances i request history := by
  rw [acceptances, acceptances, List.countP_filter]
  apply List.countP_congr
  intro e _
  cases e <;> simp +contextual [Event.answers, Event.concerns]

theorem resumptions_filter (i request : Nat) (history : List Event) :
    resumptions i request (history.filter (Event.concerns i)) = resumptions i request history := by
  rw [resumptions, resumptions, List.countP_filter]
  apply List.countP_congr
  intro e _
  cases e <;> simp +contextual [Event.resumes, Event.concerns]

theorem lastAnswered_filter (i : Nat) (history : List Event) :
    lastAnswered i (history.filter (Event.concerns i)) = lastAnswered i history := by
  induction history with
  | nil => rfl
  | cons e history ih =>
      by_cases kept : e.concerns i = true
      · rw [List.filter_cons_of_pos kept]
        cases e <;> simp [lastAnswered, ih]
      · rw [List.filter_cons_of_neg kept, ih]
        cases e <;> simp_all [lastAnswered, Event.concerns]

theorem firings_filter (i request : Nat) (history : List Event) :
    firings i request (history.filter (Event.concerns i)) = firings i request history := by
  induction history with
  | nil => rfl
  | cons e history ih =>
      by_cases kept : e.concerns i = true
      · rw [List.filter_cons_of_pos kept]
        cases e <;> simp [firings, ih, lastAnswered_filter]
      · rw [List.filter_cons_of_neg kept, ih]
        cases e <;> simp_all [firings, Event.concerns]

namespace Host

variable (h : Host) (i : Nat) (due : Option Nat)

theorem mem_log (e : Event) (about : e.concerns i = true) :
    e ∈ (h.strand i due).log ↔ e ∈ h.history := by
  rw [strand, List.mem_filter]
  exact and_iff_left about

theorem suffix_log (e : Event) (earlier : List Event) (about : e.concerns i = true)
    (split : e :: earlier <:+ h.history) :
    e :: earlier.filter (Event.concerns i) <:+ (h.strand i due).log := by
  have filtered := split.filter (Event.concerns i)
  rw [List.filter_cons_of_pos about] at filtered
  exact filtered

end Host

end ModalHost
