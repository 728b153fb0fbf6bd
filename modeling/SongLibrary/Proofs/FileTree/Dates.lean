/-
  File trees aside from the dates in tables.

  `FileTree.undated` leaves out the dates of the rows of every table.  Keeping a table in its
  file and renaming do not look at dates, so that they come to the same in trees that are the
  same aside from them (`keepTable_undated`, `rename_undated`).
-/
import SongLibrary.Proofs.SongTable.Dates
import SongLibrary.Proofs.SongTable.File

namespace SongLibrary

/-- A table aside from its dates. -/
def SongTable.undated (table : SongTable) : SongTable :=
  table.redate fun _ => ""

/-- What a file holds, aside from the dates in a table. -/
def Content.undated : Content → Content
  | songs table => songs table.undated
  | content => content

/-- What is at a location, aside from the dates in a table. -/
def Entry.undated : Entry → Entry
  | file content => file content.undated
  | directory => directory

namespace FileTree

variable (t : FileTree)

/-- A file tree aside from the dates in tables. -/
def undated : FileTree :=
  { t with entries := t.entries.map fun e => (e.1, e.2.undated) }

theorem filter_map_undated (entries : List (Location × Entry)) (keep : Location → Bool) :
    (entries.map fun e => (e.1, e.2.undated)).filter (fun e => keep e.1) =
      (entries.filter fun e => keep e.1).map fun e => (e.1, e.2.undated) := by
  rw [List.filter_map]
  rfl

@[simp] theorem get?_undated (l : Location) : t.undated.get? l = (t.get? l).map Entry.undated := by
  have hlookup : ∀ entries : List (Location × Entry),
      (entries.map fun e => (e.1, e.2.undated)).lookup l = (entries.lookup l).map Entry.undated := by
    intro entries
    induction entries with
    | nil => rfl
    | cons e rest ih =>
      obtain ⟨k, e⟩ := e
      simp only [List.map_cons, List.lookup_cons, ih]
      cases l == k <;> rfl
  unfold get? undated
  split
  · rfl
  · exact hlookup t.entries

theorem put_undated (l : Location) (e : Entry) :
    (t.put l e).undated = t.undated.put l e.undated := by
  unfold put undated
  simp only [List.map_cons, filter_map_undated t.entries (· != l)]

theorem erase_undated (l : Location) : (t.erase l).undated = t.undated.erase l := by
  unfold erase undated
  simp only [filter_map_undated t.entries (· != l)]

theorem hasChildren_undated (l : Location) : t.undated.hasChildren l = t.hasChildren l := by
  unfold hasChildren undated
  rw [List.any_map]
  rfl

theorem relocate_undated (source target : Location) :
    (t.relocate source target).undated = t.undated.relocate source target := by
  unfold relocate undated
  simp only [filter_map_undated t.entries (· != target), List.map_map]
  rfl

/-! ## Following paths -/

theorem enter_undated (l : Location) (part : Name) : t.undated.enter l part = t.enter l part := by
  unfold enter
  rw [get?_undated]
  cases t.get? (l ++ [part]) with
  | none => rfl
  | some e => cases e <;> rfl

theorem descend_undated (l : Location) (parts : List Name) :
    t.undated.descend l parts = t.descend l parts := by
  induction parts generalizing l with
  | nil => rfl
  | cons part rest ih =>
    unfold descend
    rw [enter_undated]
    cases t.enter l part with
    | error fault => rfl
    | ok l => exact ih l

theorem follow_undated (p : Path) : t.undated.follow p = t.follow p := by
  have hstart : ∀ l, (t.undated.get? l != some .directory) = (t.get? l != some .directory) := by
    intro l
    rw [get?_undated]
    cases t.get? l with
    | none => rfl
    | some e => cases e <;> rfl
  unfold follow
  simp only [hstart, descend_undated]
  rfl

theorem locate_undated (p : Path) : t.undated.locate p = t.locate p := by
  unfold locate
  rw [follow_undated]

/-! ## Tables -/

theorem keepTable_undated (l : Location) (table : SongTable) :
    (t.keepTable l table).undated = t.undated.keepTable l table.undated := by
  unfold keepTable
  rw [get?_undated]
  cases t.get? l with
  | none => rfl
  | some e =>
    cases e with
    | directory => rfl
    | file content =>
      cases content with
      | songs old => exact t.put_undated l _
      | _ => rfl

theorem rowsAt_undated (l : Location) : t.undated.rowsAt l = (t.rowsAt l).map Row.undated := by
  unfold rowsAt tableAt?
  rw [get?_undated]
  cases t.get? l with
  | none => rfl
  | some e =>
    cases e with
    | directory => rfl
    | file content => cases content <;> rfl

/-! ## Renaming -/

theorem rename_undated (source target : Path) :
    t.undated.rename source target = (t.rename source target).map undated := by
  unfold rename
  simp only [locate_undated, get?_undated, hasChildren_undated]
  -- Renaming looks at where paths lead and at what is there, never at a date.
  cases t.locate source with
  | error fault => rfl
  | ok spot =>
    cases t.locate target with
    | error fault => cases spot <;> rfl
    | ok spot' =>
      cases spot with
      | directory _ => rfl
      | entry l name asDirectory =>
        cases spot' with
        | directory _ => rfl
        | entry k newName asDirectory' =>
          change (if !t.sameDevice l k then _ else _) = _
          dsimp only
          cases t.sameDevice l k with
          | false => rfl
          | true =>
            generalize l ++ [name] = old, k ++ [newName] = new
            cases t.get? old with
            | none => rfl
            | some e =>
              cases e with
              | file content =>
                cases asDirectory || asDirectory' with
                | true => rfl
                | false =>
                  have hmoved : ((t.undated.erase old).put new (.file content.undated)) =
                      ((t.erase old).put new (.file content)).undated := by
                    rw [put_undated, erase_undated]
                    rfl
                  by_cases hsame : old = new
                  · simp [hsame, Entry.undated, Except.map]
                  · cases hnew : t.get? new with
                    | none => simp [hsame, Entry.undated, Except.map, hmoved]
                    | some e => cases e <;> simp [hsame, Entry.undated, Except.map, hmoved]
              | directory =>
                by_cases hsame : old = new
                · simp [hsame, Entry.undated, Except.map]
                · have hmounts : t.undated.mounts = t.mounts := rfl
                  simp only [Option.map_some, Entry.undated, if_neg hsame, hmounts]
                  cases t.mounts.contains old || t.mounts.contains new with
                  | true => rfl
                  | false =>
                    cases old.isPrefixOf new with
                    | true => rfl
                    | false =>
                      cases new.isPrefixOf old with
                      | true => rfl
                      | false =>
                        cases t.get? new with
                        | none => exact congrArg Except.ok (t.relocate_undated old new).symm
                        | some e =>
                          cases e with
                          | file _ => rfl
                          | directory =>
                            cases t.hasChildren new with
                            | true => rfl
                            | false => exact congrArg Except.ok (t.relocate_undated old new).symm

end FileTree

end SongLibrary
