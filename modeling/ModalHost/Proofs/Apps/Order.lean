import Mathlib.Data.List.Infix
import Mathlib.Order.Lattice
import ModalHost.Proofs.Apps.History
import ModalHost.Proofs.Text.LowerForms

/-! The listing is what a search admits, in display order, and a stable arrangement of it. -/

namespace ModalHost

/-! ### Texts in code point order -/

namespace Text

theorem occurs_iff (part text : List Char) : occurs part text = true ↔ part <:+: text := by
  induction text with
  | nil => rw [occurs, List.isEmpty_iff, List.infix_nil]
  | cons c rest ih =>
      rw [occurs, Bool.or_eq_true, List.isPrefixOf_iff_prefix, ih, List.infix_cons_iff]

theorem compare_char_eq_lt (c d : Char) : compare c d = .lt ↔ c < d := compareOfLessAndEq_eq_lt

theorem compare_eq_lt (s t : List Char) : compare s t = .lt ↔ s < t := by
  induction s generalizing t with
  | nil => cases t <;> simp
  | cons c s ih =>
      cases t with
      | nil => simp
      | cons d t =>
          rw [List.compare_eq_compareLex] at ih ⊢
          rw [List.compareLex_cons_cons, Ordering.then_eq_lt, compare_char_eq_lt,
            Std.LawfulEqCmp.compare_eq_iff_eq, ih, List.cons_lt_cons_iff]

end Text

/-! ### The display order -/

namespace App

/-- The first of the two stands before the second, whatever their order in the list. -/
inductive Before (a b : App) : Prop
  | enabled (first : a.isEnabled = true) (second : b.isEnabled = false)
  | recommended (enabled : a.isEnabled = b.isEnabled) (first : a.isRecommended = true)
      (second : b.isRecommended = false)
  | label (enabled : a.isEnabled = b.isEnabled) (recommended : a.isRecommended = b.isRecommended)
      (less : Text.lower a.label.toList < Text.lower b.label.toList)
  | package (enabled : a.isEnabled = b.isEnabled)
      (recommended : a.isRecommended = b.isRecommended)
      (label : Text.lower a.label.toList = Text.lower b.label.toList)
      (less : a.package.toList < b.package.toList)

structure Ties (a b : App) : Prop where
  enabled : a.isEnabled = b.isEnabled
  recommended : a.isRecommended = b.isRecommended
  label : Text.lower a.label.toList = Text.lower b.label.toList
  package : a.package = b.package

theorem compare_bool_eq_lt (x y : Bool) : compare x y = .lt ↔ x = false ∧ y = true := by
  cases x <;> cases y <;> decide

theorem listingOrder_eq_lt (a b : App) : a.listingOrder b = .lt ↔ a.Before b := by
  simp only [listingOrder, Ordering.then_eq_lt, compare_bool_eq_lt, Text.compare_eq_lt,
    Std.LawfulEqCmp.compare_eq_iff_eq]
  constructor
  · rintro (⟨second, first⟩ | ⟨enabled, ⟨second, first⟩ | ⟨recommended, less | ⟨label, less⟩⟩⟩)
    · exact .enabled first second
    · exact .recommended enabled.symm first second
    · exact .label enabled.symm recommended.symm less
    · exact .package enabled.symm recommended.symm label less
  · rintro (⟨first, second⟩ | ⟨enabled, first, second⟩ | ⟨enabled, recommended, less⟩ |
      ⟨enabled, recommended, label, less⟩)
    · exact .inl ⟨second, first⟩
    · exact .inr ⟨enabled.symm, .inl ⟨second, first⟩⟩
    · exact .inr ⟨enabled.symm, .inr ⟨recommended.symm, .inl less⟩⟩
    · exact .inr ⟨enabled.symm, .inr ⟨recommended.symm, .inr ⟨label, less⟩⟩⟩

instance (a b : App) : Decidable (a.Before b) := decidable_of_iff _ (listingOrder_eq_lt a b)

theorem listingOrder_eq_eq (a b : App) : a.listingOrder b = .eq ↔ a.Ties b := by
  simp only [listingOrder, Ordering.then_eq_eq, Std.LawfulEqCmp.compare_eq_iff_eq]
  constructor
  · rintro ⟨enabled, recommended, label, package⟩
    exact ⟨enabled.symm, recommended.symm, label, String.toList_injective package⟩
  · rintro ⟨enabled, recommended, label, package⟩
    exact ⟨enabled.symm, recommended.symm, label, congrArg String.toList package⟩

instance (a b : App) : Decidable (a.Ties b) := decidable_of_iff _ (listingOrder_eq_eq a b)

theorem listingOrder_isLE (a b : App) : (a.listingOrder b).isLE = true ↔ a.Before b ∨ a.Ties b := by
  rw [← listingOrder_eq_lt, ← listingOrder_eq_eq, Ordering.isLE_iff_eq_lt_or_eq_eq]

/-- The four keys in turn, each with its own comparison. -/
instance : Std.TransCmp listingOrder :=
  inferInstanceAs (Std.TransCmp (compareLex (fun a b => compareOn App.isEnabled b a)
    (compareLex (fun a b => compareOn App.isRecommended b a)
      (compareLex (compareOn fun a => Text.lower a.label.toList)
        (compareOn fun a => a.package.toList)))))

end App

/-! ### Stable sorting -/

section Sorting

variable {α : Type} {le : α → α → Bool} (transitive : ∀ a b c, le a b → le b c → le a c)
  (total : ∀ a b, (le a b || le b a) = true)

theorem append_split_unique {q : α → Bool} {before after before' after' : List α}
    (same : before ++ after = before' ++ after') (passes : ∀ x ∈ before, q x = true)
    (fails : ∀ x ∈ after, ¬q x = true) (passes' : ∀ x ∈ before', q x = true)
    (fails' : ∀ x ∈ after', ¬q x = true) : before = before' ∧ after = after' := by
  have front : before = before' := by
    have filtered := congrArg (List.filter q) same
    rwa [List.filter_append, List.filter_append, List.filter_eq_self.mpr passes,
      List.filter_eq_self.mpr passes', List.filter_eq_nil_iff.mpr fails,
      List.filter_eq_nil_iff.mpr fails', List.append_nil, List.append_nil] at filtered
  subst front
  exact ⟨rfl, List.append_cancel_left same⟩

include transitive total

/-- Where the first element of a list goes: behind all that is strictly less, before all else. -/
theorem mergeSort_cons_split (a : α) (l : List α) : ∃ before after,
    (a :: l).mergeSort le = before ++ a :: after ∧ l.mergeSort le = before ++ after ∧
      (∀ b ∈ before, (!le a b) = true) ∧ ∀ b ∈ after, ¬(!le a b) = true := by
  obtain ⟨before, after, sorted, rest, less⟩ := List.mergeSort_cons transitive total a l
  refine ⟨before, after, sorted, rest, less, fun b member => ?_⟩
  have ordered := List.pairwise_mergeSort transitive total (a :: l)
  rw [sorted] at ordered
  have least := List.rel_of_pairwise_cons (List.pairwise_append.mp ordered).2.1 member
  rw [least]
  nofun

theorem filter_mergeSort (p : α → Bool) (l : List α) :
    (l.mergeSort le).filter p = (l.filter p).mergeSort le := by
  induction l with
  | nil => rw [List.mergeSort_nil, List.filter_nil, List.mergeSort_nil]
  | cons a l ih =>
      obtain ⟨before, after, sorted, rest, less, least⟩ :=
        mergeSort_cons_split transitive total a l
      rw [rest, List.filter_append] at ih
      rw [sorted, List.filter_append]
      by_cases kept : p a = true
      · obtain ⟨before', after', sorted', rest', less', least'⟩ :=
          mergeSort_cons_split transitive total a (l.filter p)
        obtain ⟨front, back⟩ := append_split_unique (ih.trans rest')
          (fun x member => less x (List.mem_of_mem_filter member))
          (fun x member => least x (List.mem_of_mem_filter member)) less' least'
        rw [List.filter_cons_of_pos kept, List.filter_cons_of_pos kept, sorted', front, back]
      · rw [List.filter_cons_of_neg kept, List.filter_cons_of_neg kept, ih]

theorem filter_mergeSort_of_ordered (p : α → Bool) (l : List α)
    (ordered : (l.filter p).Pairwise fun a b => le a b = true) :
    (l.mergeSort le).filter p = l.filter p := by
  rw [filter_mergeSort transitive total, List.mergeSort_of_pairwise ordered]

end Sorting

/-! ### What a search lists -/

namespace Search

/-- The query is in the label or in the package name, all of them in lower case, and the app is not
hidden as a system app. -/
structure Wants (s : Search) (a : App) : Prop where
  found : Text.lower s.query.toList <:+: Text.lower a.label.toList ∨
    Text.lower s.query.toList <:+: Text.lower a.package.toList
  visible : a.isSystem = true → s.showSystem = true

theorem admits_iff (s : Search) (a : App) : s.admits a = true ↔ s.Wants a := by
  rw [admits, App.mentions, Bool.and_eq_true, Bool.or_eq_true, Text.occurs_iff, Text.occurs_iff,
    Bool.or_eq_true, Bool.not_eq_true']
  constructor
  · rintro ⟨found, visible⟩
    exact ⟨found, fun system => visible.resolve_right (by rw [system]; nofun)⟩
  · rintro ⟨found, visible⟩
    refine ⟨found, ?_⟩
    cases system : a.isSystem with
    | true => exact .inl (visible system)
    | false => exact .inr rfl

instance (s : Search) (a : App) : Decidable (s.Wants a) := decidable_of_iff _ (s.admits_iff a)

theorem admits_eq (s : Search) (a : App) : s.admits a = decide (s.Wants a) :=
  Bool.eq_iff_iff.mpr ((s.admits_iff a).trans decide_eq_true_iff.symm)

theorem listingOrder_trans (a b c : App) (ab : (a.listingOrder b).isLE = true)
    (bc : (b.listingOrder c).isLE = true) : (a.listingOrder c).isLE = true :=
  Std.TransCmp.isLE_trans ab bc

theorem listingOrder_total (a b : App) :
    ((a.listingOrder b).isLE || (b.listingOrder a).isLE) = true := by
  have swapped : b.listingOrder a = (a.listingOrder b).swap := Std.OrientedCmp.eq_swap
  rw [swapped]
  cases a.listingOrder b <;> rfl

theorem mem_results (s : Search) (apps : List App) (a : App) :
    a ∈ s.results apps ↔ a ∈ apps ∧ s.Wants a := by
  rw [results, List.mem_mergeSort, List.mem_filter, admits_iff]

theorem count_results (s : Search) (apps : List App) (a : App) :
    (s.results apps).count a = if s.Wants a then apps.count a else 0 := by
  rw [results, (List.mergeSort_perm _ _).count_eq]
  by_cases wanted : s.Wants a
  · rw [if_pos wanted]
    exact List.count_filter ((s.admits_iff a).mpr wanted)
  · rw [if_neg wanted]
    exact List.count_eq_zero.mpr fun member =>
      wanted ((s.admits_iff a).mp (List.mem_filter.mp member).2)

theorem pairwise_results (s : Search) (apps : List App) :
    (s.results apps).Pairwise fun a b => a.Before b ∨ a.Ties b :=
  (List.pairwise_mergeSort listingOrder_trans listingOrder_total _).imp
    fun {a b} ordered => (a.listingOrder_isLE b).mp ordered

theorem ties_results (s : Search) (apps : List App) (a : App) :
    (s.results apps).filter (fun b => a.Ties b) =
      apps.filter fun b => s.Wants b ∧ a.Ties b := by
  rw [results, filter_mergeSort_of_ordered listingOrder_trans listingOrder_total,
    List.filter_filter]
  · refine List.filter_congr fun b _ => ?_
    rw [Bool.decide_and, Bool.and_comm, s.admits_eq b]
  · -- apps that tie with one app tie with each other
    refine List.pairwise_of_forall_mem_list fun b there c here => ?_
    have first := of_decide_eq_true (List.mem_filter.mp there).2
    have second := of_decide_eq_true (List.mem_filter.mp here).2
    exact (b.listingOrder_isLE c).mpr (.inr
      ⟨first.enabled.symm.trans second.enabled, first.recommended.symm.trans second.recommended,
        first.label.symm.trans second.label, first.package.symm.trans second.package⟩)

theorem results_without_system (s : Search) (apps : List App) :
    (s.withSystem false).results apps =
      ((s.withSystem true).results apps).filter (!·.isSystem) := by
  rw [results, results, filter_mergeSort listingOrder_trans listingOrder_total, List.filter_filter]
  congr 1
  refine List.filter_congr fun a _ => ?_
  rw [admits, admits, withSystem, withSystem, Bool.false_or, Bool.true_or, Bool.and_true,
    Bool.and_comm]

end Search

/-- A list is the display of what a search wants of some apps, each as often as it is there. -/
structure Displays (s : Search) (apps listed : List App) : Prop where
  multiplicity (a : App) : listed.count a = if s.Wants a then apps.count a else 0
  sorted : listed.Pairwise fun a b => a.Before b ∨ a.Ties b
  /-- Apps that tie stand in the order in which they were scanned. -/
  stable (a : App) : listed.filter (fun b => a.Ties b) = apps.filter fun b => s.Wants b ∧ a.Ties b

theorem Displays.perm {s : Search} {apps listed : List App} (displays : Displays s apps listed) :
    listed.Perm (apps.filter s.admits) := by
  refine List.perm_iff_count.mpr fun a => ?_
  rw [displays.multiplicity a, ← s.count_results, Search.results,
    (List.mergeSort_perm _ _).count_eq]

namespace Desk

/-- Searches a list between the operations on it, and collects what is found. -/
def consult (d : Desk) : List (Operation ⊕ Search) → Desk × List (List App)
  | [] => (d, [])
  | .inl op :: steps => (d.perform op).consult steps
  | .inr s :: steps => ((d.consult steps).1, d.catalog.listing s :: (d.consult steps).2)

theorem consult_fst (steps : List (Operation ⊕ Search)) (d : Desk) :
    (d.consult steps).1 = d.run (steps.filterMap Sum.getLeft?) := by
  induction steps generalizing d with
  | nil => rfl
  | cons step steps ih =>
      cases step with
      | inl op => exact ih (d.perform op)
      | inr s => exact ih d

/-- At any point of any history, a search is answered with the stable display of what it wants, and
the list stays what the operations alone make of it. What it compares in lower case is what the
letters come to one by one; for ASCII texts that is a to z for A to Z, and all else as it is. -/
theorem listing_displays (start : Desk) (steps : List (Operation ⊕ Search)) (s : Search) :
    let d := (start.consult steps).1
    Displays s d.catalog.apps (d.catalog.listing s) ∧
      d.catalog.listing (s.withSystem false) =
        (d.catalog.listing (s.withSystem true)).filter (!·.isSystem) ∧
      (start.consult (steps ++ [.inr s])).1 = d ∧
      (∀ text out, Text.Lowers [] text out ↔ Text.lower text = out) ∧
      ∀ text, (∀ c ∈ text, c.toNat < 0x80) → Text.lower text = text.map Char.toLower := by
  intro d
  refine ⟨⟨s.count_results _, s.pairwise_results _, s.ties_results _⟩,
    s.results_without_system _, ?_, fun _ _ => Text.lowers_iff, fun _ => Text.lower_ascii⟩
  rw [consult_fst, List.filterMap_append]
  simp only [d, consult_fst, List.filterMap_cons, List.filterMap_nil, Sum.getLeft?_inr,
    List.append_nil]

def atlas : Desk :=
  ((new ⟨.absent, .absent⟩ .absent).load
    (.packages [⟨"org.a", some "MAPS", 0, false⟩, ⟨"org.b", some "Zoo", 0, false⟩,
      ⟨"org.c", some "apps", 0, false⟩]) false).1

/-- The case of the letters does not count, neither for what is found nor for its order. -/
theorem atlas_displayed : atlas.catalog.listing (.ofQuery "Ap") =
    [⟨"apps", "org.c", 0, false, false, false⟩, ⟨"MAPS", "org.a", 0, false, false, false⟩] := by
  let expected : List App :=
    [⟨"apps", "org.c", 0, false, false, false⟩, ⟨"MAPS", "org.a", 0, false, false, false⟩]
  have displays := (listing_displays atlas [] (.ofQuery "Ap")).1
  have found : expected.Perm (atlas.catalog.apps.filter (Search.ofQuery "Ap").admits) := by
    decide +kernel
  have sorted : expected.Pairwise fun a b => a.Before b ∨ a.Ties b := by decide +kernel
  have strict : ∀ a ∈ expected, ∀ b ∈ expected, a.Before b ∨ a.Ties b → b.Before a ∨ b.Ties a →
      a = b := by decide +kernel
  have same := displays.perm.trans found.symm
  exact List.Perm.eq_of_pairwise (fun a b here there => strict a (same.mem_iff.mp here) b there)
    displays.sorted sorted same

end Desk

end ModalHost
