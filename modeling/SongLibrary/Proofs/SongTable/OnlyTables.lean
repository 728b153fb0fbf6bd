/-
  Trees that differ in tables alone.

  What is found, and where a walk comes, does not depend on what is in the tables
  (`OnlyTables.find`, `OnlyTables.mem_walk_iff`).
-/
import SongLibrary.Proofs.SongTable.File

namespace SongLibrary.FileTree

variable {t t' t'' : FileTree} {p root : Path} {l : Location}

/-- Two trees have the same entries, aside from the tables at some places. -/
structure OnlyTables (t t' : FileTree) : Prop where
  workingDir : t'.workingDir = t.workingDir
  get? : ∀ m, t'.get? m = t.get? m ∨ (t.tableAt? m).isSome ∧ (t'.tableAt? m).isSome

namespace OnlyTables

theorem refl (t : FileTree) : OnlyTables t t :=
  ⟨rfl, fun _ => .inl rfl⟩

theorem symm (h : OnlyTables t t') : OnlyTables t' t :=
  ⟨h.workingDir.symm, fun m => (h.get? m).imp Eq.symm And.symm⟩

theorem trans (h : OnlyTables t t') (h' : OnlyTables t' t'') : OnlyTables t t'' := by
  refine ⟨h'.workingDir.trans h.workingDir, fun m => ?_⟩
  rcases h.get? m with heq | htables <;> rcases h'.get? m with heq' | htables'
  · exact .inl (heq'.trans heq)
  · exact .inr ⟨tableAt?_congr heq ▸ htables'.1, htables'.2⟩
  · exact .inr ⟨htables.1, tableAt?_congr heq' ▸ htables.2⟩
  · exact .inr ⟨htables.1, htables'.2⟩

/-- Where files come and go at places that have tables before and after, only tables change. -/
theorem of_retabled {gone new : List Location} (h : Retabled gone new t t')
    (htables : ∀ l ∈ gone, (t.tableAt? l).isSome ∧ (t'.tableAt? l).isSome) : OnlyTables t t' :=
  ⟨h.workingDir, fun m => if hm : m ∈ gone then .inr (htables m hm) else .inl (h.get? m hm)⟩

/-- A table that goes back into its file changes that alone. -/
theorem keepTable (hl : l ≠ []) (table : SongTable) : OnlyTables t (t.keepTable l table) := by
  refine ⟨workingDir_keepTable t l table, fun m => ?_⟩
  rcases t.keepTable_cases l table with ⟨-, hkept⟩ | ⟨hsome, hkept⟩
  · exact .inl (by rw [hkept])
  · by_cases hm : m = l
    · subst hm
      rw [hkept, tableAt?_put_self hl]
      exact .inr ⟨hsome, rfl⟩
    · exact .inl (get?_keepTable_ne hl table hm)

theorem directory (h : OnlyTables t t') (hl : t.get? l = some .directory) :
    t'.get? l = some .directory := by
  rcases h.get? l with heq | ⟨htable, -⟩
  · exact heq.trans hl
  · rw [tableAt?, hl] at htable
    cases htable

theorem hasFile (h : OnlyTables t t') (hl : t.HasFile l) : t'.HasFile l := by
  rcases h.get? l with heq | ⟨-, htable⟩
  · obtain ⟨c, hc⟩ := hl
    exact ⟨c, heq.trans hc⟩
  · obtain ⟨table, htable⟩ := Option.isSome_iff_exists.1 htable
    exact ⟨_, tableAt?_eq_some.1 htable⟩

/-- A path finds the same, or a table in both trees. -/
theorem find {e : Entry} (hwf : t.WellFormed) (h : OnlyTables t t') (hfind : t.find p = .ok (l, e)) :
    t'.find p = .ok (l, e) ∨ ∃ a b, e = .file (.songs a) ∧ t'.find p = .ok (l, .file (.songs b)) := by
  obtain ⟨hroute, rfl⟩ := route_of_find hfind
  rcases h.get? (t.destination p) with heq | ⟨hbefore, hafter⟩
  · exact .inl (find_congr h.workingDir (fun _ _ => h.directory) heq hfind)
  · obtain ⟨a, ha⟩ := Option.isSome_iff_exists.1 hbefore
    obtain ⟨b, hb⟩ := Option.isSome_iff_exists.1 hafter
    rw [tableAt?_eq_some] at ha hb
    cases e with
    | directory =>
      rw [hwf.directory_of_find hfind] at ha
      cases ha
    | file c =>
      obtain ⟨-, -, -, -, hget⟩ := find_file_iff.1 hfind
      rw [ha] at hget
      cases hget
      exact .inr ⟨a, b, rfl, find_of_route h.workingDir (fun d hd => h.directory (hroute d hd)) hb
        hfind⟩

theorem pathExists (hwf : t.WellFormed) (hwf' : t'.WellFormed) (h : OnlyTables t t') (p : Path) :
    t'.pathExists p = t.pathExists p := by
  have hmono : ∀ {t t' : FileTree}, t.WellFormed → OnlyTables t t' → t.pathExists p →
      t'.pathExists p := by
    intro t t' hwf h hp
    unfold FileTree.pathExists at hp ⊢
    cases hfind : t.find p with
    | error fault =>
      rw [hfind] at hp
      cases hp
    | ok found =>
      rcases h.find hwf hfind with hsame | ⟨_, _, -, htable⟩
      · rw [hsame]
        rfl
      · rw [htable]
        rfl
  exact Bool.eq_iff_iff.2 ⟨hmono hwf' h.symm, hmono hwf h⟩

/-- What is read is the same, or a table in both trees. -/
theorem read (hwf : t.WellFormed) (h : OnlyTables t t') {c : Content} (hread : t.read p = .ok c) :
    t'.read p = .ok c ∨ ∃ a b, c = .songs a ∧ t'.read p = .ok (.songs b) := by
  obtain ⟨l, hfind⟩ := read_eq_ok_iff.1 hread
  rcases h.find hwf hfind with hsame | ⟨a, b, heq, hother⟩
  · exact .inl (read_eq_ok_iff.2 ⟨l, hsame⟩)
  · cases heq
    exact .inr ⟨a, b, rfl, read_eq_ok_iff.2 ⟨l, hother⟩⟩

/-- **A walk comes to the same files.** -/
theorem mem_walk_iff (hwf : t.WellFormed) (hlisted : t.Listed) (hwf' : t'.WellFormed)
    (hlisted' : t'.Listed) (h : OnlyTables t t') : p ∈ t'.walk root ↔ p ∈ t.walk root := by
  have hmono : ∀ {t t' : FileTree}, t'.WellFormed → t'.Listed → OnlyTables t t' →
      p ∈ t'.walk root → p ∈ t.walk root := by
    intro t t' hwf' hlisted' h hp
    have hfile := file_of_mem_walk hwf' hlisted' hp
    rw [destination_congr h.workingDir] at hfile
    obtain ⟨c, hget⟩ := h.symm.hasFile hfile
    exact mem_walk_of hwf' hlisted' h.workingDir (fun _ => h.symm.directory) hp hget
  exact ⟨hmono hwf' hlisted' h, hmono hwf hlisted h.symm⟩

end OnlyTables

end SongLibrary.FileTree
