import ModalHost.Proofs.Strand.Runs
import ModalHost.Proofs.Strand.History

/-! What becomes of the callers that wait for a decision. -/

namespace ModalHost.Host

variable {h : Host}

/-- The scope with this number and its ancestors. -/
def lineage (h : Host) (scope : Nat) : List Nat := (h.scopes[scope]?.map (·.lineage)).getD []

theorem lineage_strand (i : Nat) (due : Option Nat) (scope : Nat) :
    (h.strand i due).lineage scope = h.lineage scope := by
  simp only [Strand.lineage, strand, lineage, List.getElem?_map]
  cases h.scopes[scope]? <;> rfl

theorem caller_ended_iff (seen : h.Seen) (c : Nat) (caller : Caller)
    (found : h.callers[c]? = some caller) :
    caller.ended = true ↔ ∃ name ending, .ended (.caller c) name ending ∈ h.history := by
  rcases seen.strand caller.prompt with ⟨due, strand⟩
  rw [strand.concluded.logged c caller found rfl]
  constructor
  · rintro ⟨name, ending, member⟩
    exact ⟨name, ending, (mem_log h _ due _ rfl).mp member⟩
  · rintro ⟨name, ending, member⟩
    exact ⟨name, ending, (mem_log h _ due _ rfl).mpr member⟩

theorem caller_ends_once (seen : h.Seen) (c : Nat) (caller : Caller)
    (found : h.callers[c]? = some caller) (name : String) (ending : Ending) (earlier : List Event)
    (split : .ended (.caller c) name ending :: earlier <:+ h.history) :
    ∀ other again, .ended (.caller c) other again ∉ earlier := by
  rcases seen.strand caller.prompt with ⟨due, strand⟩
  have filtered := suffix_log h caller.prompt due _ _ rfl split
  intro other again member
  exact strand.ended.once c caller name ending _ found rfl filtered other again
    (List.mem_filter.mpr ⟨member, rfl⟩)

theorem caller_ending_caused (seen : h.Seen) (c : Nat) (caller : Caller) (p : Prompt)
    (found : h.callers[c]? = some caller) (present : h.prompts[caller.prompt]? = some p)
    (name : String) (ending : Ending) (earlier : List Event)
    (split : .ended (.caller c) name ending :: earlier <:+ h.history) :
    Caused caller.prompt c caller.request (h.lineage p.scope) earlier ending := by
  rcases seen.strand caller.prompt with ⟨due, strand⟩
  have filtered := suffix_log h caller.prompt due _ _ rfl split
  have caused := strand.ended.caused c caller name ending _ p found rfl present filtered
  rw [lineage_strand] at caused
  exact caused.of_filter

theorem resumed_caller_unique (seen : h.Seen) (i c d : Nat) (a b : Answer)
    (first : .accepted i a (some c) ∈ h.history) (second : .accepted i b (some d) ∈ h.history)
    (same : a.request = b.request) : c = d := by
  rcases seen.strand i with ⟨due, strand⟩
  have asked (e : Nat) (answer : Answer) (member : .accepted i answer (some e) ∈ h.history) :
      ∃ caller, h.callers[e]? = some caller ∧ caller.prompt = i ∧
        caller.request = answer.request := by
    have logged := (mem_log h i due _ (by simp [Event.concerns])).mpr member
    rcases List.append_of_mem logged with ⟨later, earlier, whole⟩
    exact (strand.firstAnswers answer e earlier ⟨later, whole.symm⟩).1
  rcases asked c a first with ⟨caller, found, own, request⟩
  rcases asked d b second with ⟨other, there, his, wanted⟩
  have opened : ∃ p, h.prompts[i]? = some p := strand.moored.callers c caller found own
  rcases opened with ⟨p, present⟩
  exact (strand.attended.present p present).distinct c d caller other found own there his
    (request.trans (same.trans wanted.symm))

theorem parked_iff_waits (seen : h.Seen) (i : Nat) (p : Prompt) (present : h.prompts[i]? = some p)
    (live : h.isCancelled p.scope = false) (still : h.StillOn p.scope) (c request : Nat) :
    p.parked = some ⟨request, c⟩ ↔ ∃ caller, h.callers[c]? = some caller ∧ caller.prompt = i ∧
      caller.request = request ∧ caller.ended = false := by
  rcases seen.strand i with ⟨due, strand⟩
  have attended := strand.attended.present p present
  constructor
  · intro parked
    rcases attended.parked _ parked with ⟨caller, found, own, request, -, waits⟩
    exact ⟨caller, found, own, request, waits⟩
  · rintro ⟨caller, found, own, rfl, waits⟩
    refine attended.waiting c caller found own waits ?_
    have stuck := still.callers c caller p found (own ▸ present) rfl
    cases reply : caller.reply with
    | none => rfl
    | some told =>
        unfold resumeCaller? at stuck
        rw [found] at stuck
        simp only [waits, own, present, live, reply, Option.any_some, Bool.false_eq_true,
          if_false] at stuck
        cases told with
        | decided decision => simp at stuck
        | superseded => simp at stuck

/-- Every caller of a prompt ends at most once, and as the history before it calls for: with a
decision if an answer to its request was accepted while it was parked, as superseded if a newer
request came before any answer, as cancelled if the scope of the prompt or an ancestor was. No two
callers are resumed for one request. When nothing is left to run on a live scope, the one that is
parked waits for the newest request, and all others have ended. -/
theorem callers_accounted (seen : h.Seen) (i : Nat) (p : Prompt)
    (present : h.prompts[i]? = some p) :
    (∀ c caller name ending earlier, h.callers[c]? = some caller → caller.prompt = i →
      .ended (.caller c) name ending :: earlier <:+ h.history →
      (∀ other again, .ended (.caller c) other again ∉ earlier) ∧
        Caused i c caller.request (h.lineage p.scope) earlier ending) ∧
    (∀ a b c d, .accepted i a (some c) ∈ h.history → .accepted i b (some d) ∈ h.history →
      a.request = b.request → c = d) ∧
    (h.isCancelled p.scope = false → h.StillOn p.scope →
      (∀ q, p.parked = some q → q.request = p.issued) ∧
      ∀ c request, p.parked = some ⟨request, c⟩ ↔ ∃ caller, h.callers[c]? = some caller ∧
        caller.prompt = i ∧ caller.request = request ∧
        ∀ name ending, .ended (.caller c) name ending ∉ h.history) := by
  refine ⟨?_, ?_, ?_⟩
  · rintro c caller name ending earlier found rfl split
    exact ⟨caller_ends_once seen c caller found name ending earlier split,
      caller_ending_caused seen c caller p found present name ending earlier split⟩
  · intro a b c d first second same
    exact resumed_caller_unique seen i c d a b first second same
  · intro live still
    rcases seen.strand i with ⟨due, strand⟩
    refine ⟨(strand.attended.present p present).newest, ?_⟩
    intro c request
    rw [parked_iff_waits seen i p present live still c request]
    have waits (caller : Caller) (found : h.callers[c]? = some caller) : caller.ended = false ↔
        ∀ name ending, .ended (.caller c) name ending ∉ h.history := by
      rw [← Bool.not_eq_true, caller_ended_iff seen c caller found]
      simp only [not_exists]
    constructor
    · rintro ⟨caller, found, own, same, finished⟩
      exact ⟨caller, found, own, same, (waits caller found).mp finished⟩
    · rintro ⟨caller, found, own, same, finished⟩
      exact ⟨caller, found, own, same, (waits caller found).mpr finished⟩

def threeAsked : List (Session.Step ⊕ Move) :=
  [.inl (.openDialog "d" "main" (.confirm .none .blank)),
    .inl (.call (.await "d" (.ofTitle "One?") "a")),
    .inl (.call (.await "d" (.ofTitle "Two?") "b")),
    .inr (.resumeCaller 0), .inr (.dispatch 0), .inr (.dispatch 0),
    .inl (.call (.press (.fresh "d") .confirmed)),
    .inr (.dispatch 0), .inr (.deliver 0), .inr (.resumeCaller 1), .inr (.dispatch 0),
    .inl (.call (.await "d" (.ofTitle "Three?") "c")), .inr (.dispatch 0)]

theorem threeAsked_still : (initial.run threeAsked).StillOn 0 where
  dispatcher := rfl
  consumers i p present _ := by
    cases i with
    | zero => rfl
    | succ i => cases present
  callers c caller p found _ _ := by
    rcases c with _ | _ | _ | c
    · rfl
    · rfl
    · rfl
    · cases found

theorem threeAsked_accounted : ∃ p : Prompt, (initial.run threeAsked).prompts[0]? = some p ∧
    p.parked = some ⟨3, 2⟩ ∧ p.issued = 3 ∧
    (∃ earlier, .ended (.caller 1) "b" (.decided .confirmed) :: earlier <:+
      (initial.run threeAsked).history ∧ Caused 0 1 2 [0] earlier (.decided .confirmed)) ∧
    ∃ earlier, .ended (.caller 0) "a" .superseded :: earlier <:+
      (initial.run threeAsked).history ∧ Caused 0 0 1 [0] earlier .superseded := by
  have seen := Seen.between _ (Reachable.run .refl threeAsked)
  have accounted := callers_accounted seen 0 _ rfl
  have quiet := accounted.2.2 rfl threeAsked_still
  have decided : .ended (.caller 1) "b" (.decided .confirmed) :: _ <:+
      (initial.run threeAsked).history := ⟨[.issued 0 3 (.ofTitle "Three?")], rfl⟩
  have superseded : .ended (.caller 0) "a" .superseded :: _ <:+
      (initial.run threeAsked).history :=
    ⟨[.issued 0 3 (.ofTitle "Three?"), .ended (.caller 1) "b" (.decided .confirmed),
      .accepted 0 ⟨2, .confirmed, none, 2⟩ (some 1)], rfl⟩
  refine ⟨_, rfl, (quiet.2 2 3).mpr ⟨_, rfl, rfl, rfl, ?_⟩, (quiet.1 ⟨3, 2⟩ rfl).symm,
    ⟨_, decided, (accounted.1 1 _ "b" _ _ rfl rfl decided).2⟩,
    ⟨_, superseded, (accounted.1 0 _ "a" _ _ rfl rfl superseded).2⟩⟩
  intro name ending member
  have finished := (caller_ended_iff seen 2 _ rfl).mpr ⟨name, ending, member⟩
  cases finished

end ModalHost.Host
