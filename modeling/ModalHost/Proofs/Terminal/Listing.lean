import Mathlib.Data.List.Sublists
import ModalHost.Proofs.Apps.Order
import ModalHost.Proofs.Terminal.Answer
import ModalHost.Proofs.Text.Lines

/-! What the `apps` command prints: a row for each app of the listing, on a line of its own. -/

namespace ModalHost

/-! ### Labels and package names are parts of a line -/

namespace PackageList

end PackageList

namespace Terminal

/-! ### Rows -/

/-- The words say what an app is: each word that is true of it once, in this order, and no others. -/
structure Marks (a : App) (words : List String) : Prop where
  enabled : "enabled" ∈ words ↔ a.isEnabled = true
  recommended : "recommended" ∈ words ↔ a.isRecommended = true
  system : "system" ∈ words ↔ a.isSystem = true
  ordered : words.Sublist ["enabled", "recommended", "system"]

theorem marks_flags (a : App) : Marks a (flags a) := by
  constructor <;> rw [flags] <;> cases a.isEnabled <;> cases a.isRecommended <;>
    cases a.isSystem <;> decide

theorem marks_iff (a : App) (words : List String) : Marks a words ↔ words = flags a := by
  refine ⟨fun marks => ?_, fun same => same ▸ marks_flags a⟩
  have all : ∀ words ∈ ["enabled", "recommended", "system"].sublists, ∀ e r s : Bool,
      ("enabled" ∈ words ↔ e = true) → ("recommended" ∈ words ↔ r = true) →
        ("system" ∈ words ↔ s = true) →
          words = (if e then ["enabled"] else []) ++ (if r then ["recommended"] else []) ++
            (if s then ["system"] else []) := by
    decide +kernel
  exact all words (List.mem_sublists.mpr marks.ordered) _ _ _ marks.enabled marks.recommended
    marks.system

example : flags ⟨"Maps", "org.a", 0, true, false, true⟩ = ["enabled", "system"] := rfl

end Terminal

end ModalHost
