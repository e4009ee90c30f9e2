import LiveUnits.Catalog
import LiveUnits.Proofs.Loader.Renaming

/-!
# Catalogs with other handles

Loaders that differ in number and order make catalogs that differ in the handles of their units and in
nothing else (`Loader.Renamed.make_eq`).  Queries read handles only to tell units apart, so they find the
same entries if the handles of different units stay different (`Catalog.byType_relabel`).
-/

namespace LiveUnits

/-- An entry with other handles. -/
def CatalogEntry.relabel (f : Handle → Handle) (e : CatalogEntry) : CatalogEntry :=
  { e with unit := e.unit.relabel f }

namespace CatalogEntry

variable (f : Handle → Handle) (e : CatalogEntry)

@[simp] theorem name_relabel : (e.relabel f).name = e.name := e.unit.relabel_name f

@[simp] theorem text_relabel : (e.relabel f).text = e.text := congrArg Identity.text (e.name_relabel f)

@[simp] theorem sourceFile_relabel : (e.relabel f).sourceFile = e.sourceFile := rfl

end CatalogEntry

namespace Catalog

/-- A catalog with other handles. -/
def relabel (f : Handle → Handle) (c : Catalog) : Catalog :=
  ⟨c.compiled.map (CatalogEntry.relabel f), c.foreign.map (CatalogEntry.relabel f)⟩

variable (f : Handle → Handle)

/-! ## Queries -/

/-- The first entry under a name is the same but for the numbers. -/
theorem find?_relabel (entries : List CatalogEntry) (name : String) :
    find? (entries.map (CatalogEntry.relabel f)) name =
      (find? entries name).map (CatalogEntry.relabel f) := by
  unfold find?
  rw [List.find?_map]
  congr 2
  funext e
  simp

/-- What a catalog has under a name is the same but for the numbers. -/
theorem get?_relabel (c : Catalog) (name : String) :
    (c.relabel f).get? name = (c.get? name).map (CatalogEntry.relabel f) := by
  unfold get? relabel
  rw [find?_relabel, find?_relabel]
  cases find? c.compiled name <;> rfl

/-- Source files have no numbers in them. -/
theorem sourceFileOf_relabel (c : Catalog) (name : String) :
    (c.relabel f).sourceFileOf name = c.sourceFileOf name := by
  unfold sourceFileOf relabel
  rw [find?_relabel]
  cases find? c.compiled name <;> rfl

/-- The units with a marker are the same but for the numbers. -/
theorem byMarker_relabel (c : Catalog) (marker : String) :
    (c.relabel f).byMarker marker = (c.byMarker marker).map (CatalogEntry.relabel f) := by
  unfold byMarker relabel
  rw [List.filter_map]
  congr 2
  funext e
  simp [CatalogEntry.relabel, LinkedUnit.hasMarker]

/-- The entries are the same but for the numbers, in the same order. -/
theorem entries_relabel (c : Catalog) :
    (c.relabel f).entries = c.entries.map (CatalogEntry.relabel f) := by
  unfold entries relabel
  rw [List.map_merge]
  simp

/-- **The entries that are of a type are the same** if the handles of different units stay different. -/
theorem byType_relabel (hf : Function.Injective f) (c : Catalog) (type : String) :
    (c.relabel f).byType type = (c.byType type).map (CatalogEntry.relabel f) := by
  unfold byType
  rw [get?_relabel, entries_relabel]
  cases c.get? type with
  | none => rfl
  | some target =>
      simp only [Option.map_some]
      rw [List.filter_map]
      congr 2
      funext e
      exact e.unit.descendsFrom_relabel f hf target.unit

end Catalog

/-! ## Making a catalog -/

namespace Loader

namespace Renamed

variable {f : Handle → Handle} {l l' : Loader} (h : l.Renamed f l')

include h

/-- The same listed names are left to ask for. -/
theorem uncompiled_eq (kept : List CatalogEntry) :
    Catalog.uncompiled l' (kept.map (CatalogEntry.relabel f)) = Catalog.uncompiled l kept := by
  unfold Catalog.uncompiled
  rw [h.available_eq]
  refine List.filter_congr fun n _ => ?_
  rw [Catalog.find?_relabel, Option.isNone_map]

/-- The units that were not compiled are the same but for the numbers. -/
theorem foreignUnits_eq (r : Registry) (listed : List Identity) :
    Catalog.foreignUnits l'.host (r.relabel f) listed =
      (Catalog.foreignUnits l.host r listed).map (LinkedUnit.relabel f) := by
  have hhost : (l.host.units.filter fun u => !listed.contains u.name).map (LinkedUnit.relabel f) =
      l.host.units.filter fun u => !listed.contains u.name :=
    (List.map_congr_left fun u hu => h.fixed u (List.mem_of_mem_filter hu)).trans (List.map_id' _)
  unfold Catalog.foreignUnits
  rw [← sortByKey_map fun u => by rw [LinkedUnit.relabel_name], List.map_append, hhost, h.host]
  rfl

/-- **The second loader makes the same catalog** with other handles. -/
theorem make_eq (entries : List CatalogEntry) (r : Registry) :
    Catalog.make l' (entries.map (CatalogEntry.relabel f)) (r.relabel f) =
      ((Catalog.make l entries r).1.relabel f, (Catalog.make l entries r).2.relabel f) := by
  have hkept : sortByKey CatalogEntry.text (entries.map (CatalogEntry.relabel f)) =
      (sortByKey CatalogEntry.text entries).map (CatalogEntry.relabel f) :=
    sortByKey_map (fun e => e.text_relabel f) entries
  unfold Catalog.make
  simp only
  rw [hkept, h.uncompiled_eq, h.visit_eq, h.available_eq, h.foreignUnits_eq]
  refine Prod.ext (congrArg (Catalog.mk _) ?_) rfl
  rw [List.filter_map, List.map_map, List.map_map]
  simp only [Function.comp_def, LinkedUnit.relabel_name, Catalog.find?_relabel, Option.isNone_map]
  rfl

end Renamed

end Loader

end LiveUnits
