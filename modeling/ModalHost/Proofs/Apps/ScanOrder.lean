import Mathlib.Data.List.Nodup
import ModalHost.Proofs.Apps.Order

/-! What a search lists does not depend on the order in which a scan reports the packages, as long as
no name is reported twice: the package name is the last key of the display order. -/

namespace ModalHost

theorem App.ties_of_isLE {a b : App} (ab : (a.listingOrder b).isLE = true)
    (ba : (b.listingOrder a).isLE = true) : a.Ties b := by
  rw [listingOrder_isLE] at ab
  refine ab.resolve_left fun before => ?_
  -- the other way round the comparison would be `.gt`
  have swapped : b.listingOrder a = (a.listingOrder b).swap := Std.OrientedCmp.eq_swap
  rw [swapped, (a.listingOrder_eq_lt b).mpr before] at ba
  cases ba

theorem Search.results_of_perm (s : Search) {apps apps' : List App} (reordered : apps.Perm apps')
    (apart : ∀ a ∈ apps, ∀ b ∈ apps, a.Ties b → a = b) : s.results apps = s.results apps' := by
  have admitted : (apps.filter s.admits).Perm (apps'.filter s.admits) := reordered.filter _
  have sorted (l : List App) := List.pairwise_mergeSort listingOrder_trans listingOrder_total l
  refine List.Perm.eq_of_pairwise ?_ (sorted _) (sorted _)
    ((List.mergeSort_perm _ _).trans (admitted.trans (List.mergeSort_perm _ _).symm))
  intro a b here there ab ba
  have first := (s.mem_results apps a).mp here
  have second := (s.mem_results apps' b).mp there
  exact apart a first.1 b (reordered.mem_iff.mpr second.1) (App.ties_of_isLE ab ba)

namespace Desk

theorem rows_apart {packages : List Package} (distinct : (packages.map Package.name).Nodup)
    (gamelist applist : FileContent) : ∀ a ∈ rows packages gamelist applist,
      ∀ b ∈ rows packages gamelist applist, a.Ties b → a = b := by
  intro a here b there ties
  obtain ⟨p, first, rfl⟩ := List.mem_map.mp here
  obtain ⟨q, second, rfl⟩ := List.mem_map.mp there
  obtain rfl := List.inj_on_of_nodup_map distinct first second ties.package
  rfl

end Desk

namespace Catalog

theorem load_of_found {ε : Type} {c : Catalog} (config : ConfigFiles)
    {source : Catalog → Except ε (List Package)} {force : Bool} {packages : List Package}
    (scans : c.scans force = true) (found : source c.duringScan = .ok packages) :
    (c.load config source force).2 = .ok packages.length ∧
      (c.load config source force).1.apps = Desk.rows packages config.gamelist config.applist := by
  simp only [load, scans, if_true, found, Desk.mark_eq_rows, Desk.rows, List.length_map, true_and]

/-- Two catalogs are loaded under the same files with the same packages in another order: the loads
return the same number, and from then on every search lists the very same rows. -/
theorem listing_of_reordered {ε ε' : Type} (c c' : Catalog) (config : ConfigFiles)
    (source : Catalog → Except ε (List Package)) (source' : Catalog → Except ε' (List Package))
    (force force' : Bool) (packages packages' : List Package)
    (scans : c.scans force = true) (scans' : c'.scans force' = true)
    (found : source c.duringScan = .ok packages)
    (found' : source' c'.duringScan = .ok packages')
    (reordered : packages.Perm packages') (distinct : (packages.map Package.name).Nodup)
    (s : Search) :
    (c.load config source force).2 = .ok packages.length ∧
      (c'.load config source' force').2 = .ok packages.length ∧
      (c.load config source force).1.listing s = (c'.load config source' force').1.listing s := by
  obtain ⟨count, apps⟩ := load_of_found config scans found
  obtain ⟨count', apps'⟩ := load_of_found config scans' found'
  refine ⟨count, reordered.length_eq ▸ count', ?_⟩
  rw [listing, listing, apps, apps']
  exact s.results_of_perm (reordered.map _) (Desk.rows_apart distinct _ _)

def sameLabels : List Package :=
  [⟨"com.b", some "MAPS", 1, false⟩, .ofName "com.c", ⟨"com.a", some "Maps", 2, true⟩]

def settled : Catalog := { new with apps := [⟨"B", "com.b", 7, true, true, true⟩] }

def reporting (packages : List Package) (_ : Catalog) : Except ScanFailure (List Package) :=
  .ok packages

theorem sameLabels_reordered :
    sameLabels.Perm sameLabels.reverse ∧ (sameLabels.map Package.name).Nodup ∧
      (new.load ⟨.absent, .directory⟩ (reporting sameLabels) false).1.listing (.ofQuery "MAP") =
        (settled.load ⟨.absent, .directory⟩ (reporting sameLabels.reverse) true).1.listing
          (.ofQuery "MAP") := by
  have reordered : sameLabels.Perm sameLabels.reverse := (List.reverse_perm _).symm
  have distinct : (sameLabels.map Package.name).Nodup := by decide
  refine ⟨reordered, distinct, ?_⟩
  exact (listing_of_reordered new settled _ _ _ false true _ _ rfl rfl rfl rfl reordered distinct
    (.ofQuery "MAP")).2.2

end Catalog

end ModalHost
