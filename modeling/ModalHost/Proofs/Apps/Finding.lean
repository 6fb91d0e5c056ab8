import ModalHost.Proofs.Apps.Order
import ModalHost.Proofs.Text.Lowercase

/-! A search finds what is literally there, unless a capital sigma of the query gets another form
from what surrounds it in the label or the package name. -/

namespace ModalHost

/-- The label or the package name is the query between these two texts. -/
def App.Holds (a : App) (query before after : List Char) : Prop :=
  a.label.toList = before ++ query ++ after ∨ a.package.toList = before ++ query ++ after

namespace Catalog

theorem mem_listing (c : Catalog) (s : Search) (a : App) :
    a ∈ c.listing s ↔ a ∈ c.apps ∧ s.Wants a := s.mem_results c.apps a

/-- What comes of a search for a text that stands literally in an app of the list. -/
structure Finds (c : Catalog) (s : Search) (a : App) (before after : List Char) : Prop where
  /-- The place is recognised if the sigmas keep their forms, and only then. -/
  recognised : Text.lowerWithin before.reverse s.query.toList after = Text.lower s.query.toList ↔
    Text.SameSigmas before s.query.toList after
  found : Text.SameSigmas before s.query.toList after → a ∈ c.listing s
  found_plain : 'Σ' ∉ s.query.toList → a ∈ c.listing s
  /-- Only a sigma at an end of the query can hide the app. -/
  missed : a ∉ c.listing s → ∃ front back, s.query.toList = front ++ 'Σ' :: back ∧
    ((∀ x ∈ front, Text.isCaseIgnorable x = true) ∨ ∀ x ∈ back, Text.isCaseIgnorable x = true)

theorem finds_literal (c : Catalog) (s : Search) (a : App) (before after : List Char)
    (present : a ∈ c.apps) (visible : a.isSystem = true → s.showSystem = true)
    (holds : a.Holds s.query.toList before after) : c.Finds s a before after := by
  have found (same : Text.SameSigmas before s.query.toList after) : a ∈ c.listing s := by
    refine (c.mem_listing s a).mpr ⟨present, ?_, visible⟩
    rcases holds with in_label | in_package
    · exact .inl (in_label ▸ Text.lower_infix same)
    · exact .inr (in_package ▸ Text.lower_infix same)
  exact
    { recognised := Text.lowerWithin_eq_lower_iff
      found
      found_plain := fun plain => found (Text.sameSigmas_of_not_mem plain)
      missed := fun missing => Text.sigma_at_end fun same => missing (found same) }

def greek (label : String) : App := ⟨label, "com.x", 0, false, false, false⟩

def listed (a : App) : Catalog := { new with apps := [a] }

/-- The sigma in the middle stays what it is, so the app is found. -/
theorem finds_inner_sigma :
    greek "ΑΣΑΣ" ∈ (listed (greek "ΑΣΑΣ")).listing (.ofQuery "ΑΣΑ") :=
  (finds_literal (listed (greek "ΑΣΑΣ")) (.ofQuery "ΑΣΑ") (greek "ΑΣΑΣ") [] ['Σ']
    (List.mem_singleton.mpr rfl) nofun (.inl (by decide))).found (by decide +kernel)

/-- The query ends with a sigma, which is final there and not in the label. -/
theorem misses_final_sigma : ¬∀ (c : Catalog) (s : Search) (a : App), a ∈ c.apps →
    (a.isSystem = true → s.showSystem = true) →
    (s.query.toList <:+: a.label.toList ∨ s.query.toList <:+: a.package.toList) →
    a ∈ c.listing s := by
  intro finds
  have found := finds (listed (greek "ΑΣΑ")) (.ofQuery "ΑΣ") (greek "ΑΣΑ")
    (List.mem_singleton.mpr rfl) nofun (.inl ⟨[], ['Α'], by decide⟩)
  have wanted := ((mem_listing _ _ _).mp found).2
  revert wanted
  decide +kernel

end Catalog

end ModalHost
