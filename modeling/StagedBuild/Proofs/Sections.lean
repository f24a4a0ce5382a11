import StagedBuild.Document.Draft

/-! A document of headers with plain keys below them. If no name comes twice, it holds one table for each
header, with the keys below it and their values, in the order in which they stand. -/
namespace StagedBuild.Document

structure Section where
  name : String
  fields : Entries

def assignment (field : String × Value) : Statement := .assign ⟨[], field.1⟩ field.2

def Section.statements (s : Section) : List Statement :=
  .header ⟨[], s.name⟩ :: s.fields.map assignment

def Section.entry (s : Section) : String × Value := (s.name, .table s.fields)

def fieldDrafts (fields : Entries) : Drafts := fields.map fun field => (field.1, .value field.2)

def Section.draft (s : Section) : String × Draft := (s.name, .table .header (fieldDrafts s.fields))

theorem lookupFresh {drafts : Drafts} {name : String} (fresh : name ∉ drafts.map Prod.fst) :
    drafts.lookup name = none := by
  rw [List.lookup_eq_none_iff]
  intro entry member
  have other : name ≠ entry.1 := by
    rintro rfl
    exact fresh (List.mem_map_of_mem member)
  simpa using other

theorem lookupLast {drafts : Drafts} {name : String} (fresh : name ∉ drafts.map Prod.fst)
    (draft : Draft) : (drafts ++ [(name, draft)]).lookup name = some draft := by
  simp [List.lookup_append, lookupFresh fresh]

theorem replaceLast {drafts : Drafts} {name : String} (fresh : name ∉ drafts.map Prod.fst)
    (old new : Draft) : replace name new (drafts ++ [(name, old)]) = drafts ++ [(name, new)] := by
  have kept : replace name new drafts = drafts := by
    refine (List.map_congr_left fun entry member => ?_).trans (List.map_id drafts)
    have other : entry.1 ≠ name := by
      rintro rfl
      exact fresh (List.mem_map_of_mem member)
    simp [other]
  simpa [replace] using kept

theorem headerAdded {drafts : Drafts} {name : String} (fresh : name ∉ drafts.map Prod.fst)
    (current : List String) :
    Progress.add ⟨drafts, current⟩ (.header ⟨[], name⟩) =
      some ⟨drafts ++ [(name, .table .header [])], [name]⟩ := by
  simp [Progress.add, within, openTable, lookupFresh fresh]

theorem fieldAdded {drafts entries : Drafts} {name : String} (fresh : name ∉ drafts.map Prod.fst)
    (field : String × Value) (absent : field.1 ∉ entries.map Prod.fst) :
    Progress.add ⟨drafts ++ [(name, .table .header entries)], [name]⟩ (assignment field) =
      some ⟨drafts ++ [(name, .table .header (entries ++ fieldDrafts [field]))], [name]⟩ := by
  simp [assignment, Progress.add, within, assignTo, lookupLast fresh, lookupFresh absent,
    replaceLast fresh, fieldDrafts]

theorem fieldsAdded {drafts entries : Drafts} {name : String} (fresh : name ∉ drafts.map Prod.fst)
    (fields : Entries) (distinct : (entries.map Prod.fst ++ fields.map Prod.fst).Nodup) :
    (fields.map assignment).foldlM Progress.add ⟨drafts ++ [(name, .table .header entries)], [name]⟩ =
      some ⟨drafts ++ [(name, .table .header (entries ++ fieldDrafts fields))], [name]⟩ := by
  induction fields generalizing entries with
  | nil => simp [fieldDrafts]
  | cons field fields ih =>
    have absent : field.1 ∉ entries.map Prod.fst := fun member =>
      (List.nodup_append.mp distinct).2.2 _ member _ (by simp) rfl
    have later : ((entries ++ fieldDrafts [field]).map Prod.fst ++ fields.map Prod.fst).Nodup := by
      simpa [fieldDrafts] using distinct
    rw [List.map_cons, List.foldlM_cons, fieldAdded fresh field absent, Option.bind_eq_bind,
      Option.bind_some, ih later]
    simp [fieldDrafts]

theorem sectionAdded {drafts : Drafts} (s : Section) (fresh : s.name ∉ drafts.map Prod.fst)
    (distinct : (s.fields.map Prod.fst).Nodup) (current : List String) :
    s.statements.foldlM Progress.add ⟨drafts, current⟩ = some ⟨drafts ++ [s.draft], [s.name]⟩ := by
  rw [Section.statements, List.foldlM_cons, headerAdded fresh, Option.bind_eq_bind, Option.bind_some,
    fieldsAdded fresh s.fields (by simpa using distinct)]
  rfl

theorem sectionsAdded (drafts : Drafts) (sections : List Section)
    (distinct : (drafts.map Prod.fst ++ sections.map Section.name).Nodup)
    (fields : ∀ s ∈ sections, (s.fields.map Prod.fst).Nodup) (current : List String) :
    ∃ last, (sections.flatMap Section.statements).foldlM Progress.add ⟨drafts, current⟩ =
      some ⟨drafts ++ sections.map Section.draft, last⟩ := by
  induction sections generalizing drafts current with
  | nil => exact ⟨current, by simp⟩
  | cons s sections ih =>
    have fresh : s.name ∉ drafts.map Prod.fst := fun member =>
      (List.nodup_append.mp distinct).2.2 _ member _ (by simp) rfl
    have later : ((drafts ++ [s.draft]).map Prod.fst ++ sections.map Section.name).Nodup := by
      simpa [Section.draft] using distinct
    obtain ⟨last, added⟩ := ih _ later (fun other member => fields other (by simp [member])) [s.name]
    refine ⟨last, ?_⟩
    rw [List.flatMap_cons, List.foldlM_append, sectionAdded s fresh (fields s (by simp)) current,
      Option.bind_eq_bind, Option.bind_some, added]
    simp

theorem finishFields (fields : Entries) : finishAll (fieldDrafts fields) = fields := by
  induction fields with
  | nil => rfl
  | cons field fields ih =>
    rw [fieldDrafts, List.map_cons, finishAll, Draft.finish]
    exact congrArg _ ih

theorem finishSections (sections : List Section) :
    finishAll (sections.map Section.draft) = sections.map Section.entry := by
  induction sections with
  | nil => rfl
  | cons s sections ih =>
    rw [List.map_cons, List.map_cons, ← ih, Section.draft, finishAll, Draft.finish, finishFields]
    rfl

theorem ofSections (sections : List Section) (distinct : (sections.map Section.name).Nodup)
    (fields : ∀ s ∈ sections, (s.fields.map Prod.fst).Nodup) :
    ofStatements? (sections.flatMap Section.statements) = some (sections.map Section.entry) := by
  obtain ⟨last, added⟩ := sectionsAdded [] sections (by simpa using distinct) fields []
  simp only [List.nil_append] at added
  have whole : (sections.flatMap Section.statements).foldlM Progress.add {} = _ := added
  rw [ofStatements?, whole, Option.bind_eq_bind, Option.bind_some, finishSections]

end StagedBuild.Document
