/-
  Tables in file trees.

  * `FileTree.tableAt?` is the table in the file at a location, and
    `FileTree.rowsAt` are its rows;
  * the path of a table leads where its parts lead, whether or not the way is
    there (`WellFormed.tableLocation?_eq`), and a path with something added to its
    last name leads to another location (`destination_addSuffix_ne`);
  * `Opened` lists what opening a table comes to (`openTable_cases`): no table
    loses a row by it;
  * `Retabled` relates trees that differ where tables come and go, and nowhere
    else.
-/
import SongLibrary.Proofs.FileTree.Walk
import SongLibrary.SongTable.File

namespace SongLibrary

/-! ## Suffixes -/

theorem Name.isSilent_of_length {name : Name} (h : 2 ≤ name.length) : name.isSilent = false := by
  have hempty : name ≠ [] := by
    rintro rfl
    simp at h
  have hhere : name ≠ Name.here := by
    rintro rfl
    simp [Name.here] at h
  simp [Name.isSilent, hempty, hhere]

theorem Name.ne_up_of_length {name : Name} (h : 3 ≤ name.length) : name ≠ Name.up := by
  rintro rfl
  simp [Name.up] at h

theorem Path.addSuffix_addSuffix (p : Path) (a b : String) :
    (p.addSuffix a).addSuffix b = p.addSuffix (a ++ b) := by
  simp [Path.addSuffix, Text.symbolsOf]

namespace FileTree

variable {t t' : FileTree} {l m : Location} {p : Path}

/-- A path with something added to its last name leads to another name in the
    directory that the way of the path ends in. -/
theorem destination_addSuffix (t : FileTree) (p : Path) {suffix : String}
    (hs : Path.slash ∉ Text.symbolsOf suffix) (hlength : 3 ≤ (Text.symbolsOf suffix).length) :
    ∃ l last, t.destination p = arriveAt l last ∧
      t.destination (p.addSuffix suffix) = l ++ [last ++ Text.symbolsOf suffix] := by
  obtain ⟨front, last, hp, hps⟩ := p.parts_addSuffix hs
  have horigin : t.origin (p.addSuffix suffix) = t.origin p := by
    simp only [origin, Path.addSuffix, Path.isAbsolute_append (.inl hs)]
  have hlong : 3 ≤ (last ++ Text.symbolsOf suffix).length := by
    rw [List.length_append]
    omega
  refine ⟨arrive (t.origin p) front, last, ?_, ?_⟩
  · simp [destination, hp, arrive_append]
  · simp [destination, hps, horigin, arrive_append, arriveAt,
      Name.isSilent_of_length (Nat.le_of_succ_le hlong), Name.ne_up_of_length hlong]

theorem destination_addSuffix_ne (t : FileTree) (p : Path) {suffix : String}
    (hs : Path.slash ∉ Text.symbolsOf suffix) (hlength : 3 ≤ (Text.symbolsOf suffix).length) :
    t.destination (p.addSuffix suffix) ≠ t.destination p := by
  obtain ⟨l, last, hp, hps⟩ := t.destination_addSuffix p hs hlength
  rw [hp, hps, arriveAt]
  intro h
  split at h
  · simp at h
  · split at h
    · have hlen := congrArg List.length h
      rw [List.length_append, List.length_dropLast, List.length_singleton] at hlen
      omega
    · have hlast := List.head_eq_of_cons_eq (List.append_inj' h rfl).2
      have hlen := congrArg List.length hlast
      rw [List.length_append] at hlen
      omega

/-! ## Tables -/

variable (t) in
/-- The table in the file at a location. -/
def tableAt? (l : Location) : Option SongTable :=
  match t.get? l with
  | some (.file (.songs table)) => some table
  | _ => none

variable (t) in
/-- The rows of the table at a location, where there is one. -/
def rowsAt (l : Location) : List Row :=
  ((t.tableAt? l).map SongTable.rows).getD []

theorem tableAt?_eq_some {table : SongTable} :
    t.tableAt? l = some table ↔ t.get? l = some (.file (.songs table)) := by
  unfold tableAt?
  split
  · next h => simp [h, eq_comm]
  · next h => simpa using fun hl => h table hl

theorem tableAt?_congr (h : t'.get? l = t.get? l) : t'.tableAt? l = t.tableAt? l := by
  simp [tableAt?, h]

theorem rowsAt_congr (h : t'.tableAt? l = t.tableAt? l) : t'.rowsAt l = t.rowsAt l := by
  simp [rowsAt, h]

theorem rowsAt_of_table {table : SongTable} (h : t.tableAt? l = some table) :
    t.rowsAt l = table.rows := by
  simp [rowsAt, h]

theorem tableAt?_put_self (hl : l ≠ []) (table : SongTable) :
    (t.put l (.file (.songs table))).tableAt? l = some table :=
  tableAt?_eq_some.2 (by rw [get?_put _ hl, if_pos rfl])

theorem tableAt?_put_ne (hl : l ≠ []) (e : Entry) (hm : m ≠ l) :
    (t.put l e).tableAt? m = t.tableAt? m :=
  tableAt?_congr (by rw [get?_put _ hl, if_neg hm])

theorem ne_nil_of_get? {c : Content} (h : t.get? l = some (.file c)) : l ≠ [] := by
  rintro rfl
  simp at h

theorem tableAt?_of_iff
    (h : ∀ c, t'.get? l = some (.file c) ↔ t.get? l = some (.file c)) :
    t'.tableAt? l = t.tableAt? l :=
  Option.ext fun table => by rw [tableAt?_eq_some, tableAt?_eq_some, h]

/-- Where another file is, there is no table. -/
theorem tableAt?_eq_none {c : Content} (hl : t.get? l = some (.file c))
    (hc : ∀ table, c ≠ .songs table) : t.tableAt? l = none := by
  refine Option.eq_none_iff_forall_ne_some.2 ?_
  intro table htable
  rw [tableAt?_eq_some, hl] at htable
  cases htable
  exact hc table rfl

theorem AddsDirectories.tableAt? (h : AddsDirectories t t') (m : Location) :
    t'.tableAt? m = t.tableAt? m :=
  tableAt?_of_iff fun _ => ⟨h.file, h.some⟩

theorem Prunes.tableAt? (h : Prunes t t') (m : Location) : t'.tableAt? m = t.tableAt? m :=
  tableAt?_of_iff fun _ => h.file_iff

/-- A file that is no table replaces what is where it is moved. -/
theorem MovesFile.tableAt? {k : Location} {c : Content} (h : MovesFile t t' l k c)
    (hl : t.get? l = some (.file c)) (hc : ∀ table, c ≠ .songs table) (m : Location) :
    t'.tableAt? m = if m = k then none else t.tableAt? m := by
  have hget := h.get? m
  split
  · next hmk =>
    rw [if_pos hmk] at hget
    exact tableAt?_eq_none hget hc
  · next hmk =>
    rw [if_neg hmk] at hget
    split at hget
    · next hml =>
      rw [hml, tableAt?_eq_none hl hc]
      simp [FileTree.tableAt?, ← hml, hget]
    · exact tableAt?_congr hget

/-! ## Where the path of a table leads -/

theorem proper_arrive {parts : List Name} (hl : ∀ name ∈ l, name.IsProper)
    (hparts : ∀ part ∈ parts, Path.slash ∉ part) : ∀ name ∈ arrive l parts, name.IsProper := by
  induction parts generalizing l with
  | nil => exact hl
  | cons part rest ih =>
    obtain ⟨hpart, hrest⟩ := List.forall_mem_cons.1 hparts
    refine ih ?_ hrest
    unfold arriveAt
    split
    · exact hl
    · next hloud =>
      split
      · exact fun name hname => hl name (List.dropLast_subset _ hname)
      · next hup =>
        intro name hname
        rcases List.mem_append.1 hname with hname | hname
        · exact hl name hname
        · rw [List.mem_singleton.1 hname]
          exact ⟨by simpa using hloud, hup, hpart⟩

theorem WellFormed.proper_destination (h : t.WellFormed) (p : Path) :
    ∀ name ∈ t.destination p, name.IsProper := by
  refine proper_arrive ?_ fun part hpart => Path.slash_not_mem_of_mem_parts hpart
  unfold origin
  split
  · simp
  · exact h.workingDir

theorem foldlM_enterForTable? {parts : List Name} {k : Location}
    (h : parts.foldlM t.enterForTable? l = some k) : k = arrive l parts := by
  induction parts generalizing l with
  | nil => simpa [eq_comm] using h
  | cons part rest ih =>
    simp only [List.foldlM_cons, Option.bind_eq_bind, Option.bind_eq_some_iff] at h
    obtain ⟨next, hnext, hrest⟩ := h
    have harrive : next = arriveAt l part := by
      unfold enterForTable? at hnext
      unfold arriveAt
      grind
    rw [ih hrest, harrive, arrive_cons]

/-- **The path of a table leads to its destination.** -/
theorem WellFormed.tableLocation?_eq (h : t.WellFormed) (hp : t.tableLocation? p = some l) :
    l = t.destination p ∧ l ≠ [] := by
  unfold tableLocation? at hp
  simp only [Option.bind_eq_bind, Option.bind_eq_some_iff] at hp
  obtain ⟨text, -, k, hfold, hk⟩ := hp
  split at hk
  · cases hk
  · next hok =>
    cases hk
    simp only [Bool.or_eq_true, not_or, Bool.not_eq_true, List.isEmpty_eq_false_iff] at hok
    refine ⟨?_, hok.1.2⟩
    rw [foldlM_enterForTable? hfold, arrive_append, destination, origin]
    split
    · rfl
    · rw [arrive_of_proper h.workingDir, List.nil_append]

theorem WellFormed.tableFile?_eq (h : t.WellFormed) (hp : t.tableFile? p = some l) :
    l = t.destination p ∧ l ≠ [] := by
  unfold tableFile? at hp
  split at hp
  · cases hp
  · exact h.tableLocation?_eq hp

/-! ## Opening -/

/-- What opening a table comes to. -/
inductive Opened (t : FileTree) (p : Path) : FileTree × Option SongTable → Prop where
  | refused : Opened t p (t, none)
  | fileless (h : isFileless p) : Opened t p (t, some .empty)
  | found {l : Location} {table : SongTable} (hp : t.tableFile? p = some l)
      (h : t.tableAt? l = some table) : Opened t p (t, some table)
  /-- There is a new file, perhaps an empty one. -/
  | created {l : Location} {c : Content} {result : Option SongTable}
      (hp : t.tableFile? p = some l) (hparent : t.get? l.dropLast = some .directory)
      (hfree : t.get? l = none ∨ t.get? l = some (.file (.text "")))
      (hc : c = .text "" ∧ result = none ∨ c = .songs .empty ∧ result = some .empty) :
      Opened t p (t.put l (.file c), result)

theorem createTable_cases (hp : t.tableFile? p = some l)
    (hfree : t.get? l = none ∨ t.get? l = some (.file (.text ""))) :
    Opened t p (t.createTable l) := by
  unfold createTable
  dsimp only
  split
  · exact .refused
  · next hparent =>
    replace hparent : t.get? l.dropLast = some .directory := by simpa using hparent
    split
    · exact .created hp hparent hfree (.inl ⟨rfl, rfl⟩)
    · exact .created hp hparent hfree (.inr ⟨rfl, rfl⟩)

theorem openTable_cases (t : FileTree) (p : Path) : Opened t p (t.openTable p) := by
  unfold openTable
  split
  · next hp => exact .fileless hp
  · next hp =>
    split
    · exact .refused
    · next l hl =>
      have hfile : t.tableFile? p = some l := by simpa [tableFile?, hp] using hl
      split
      · next table hget => exact .found hfile (tableAt?_eq_some.2 hget)
      · next hget => exact createTable_cases hfile (.inr hget)
      · next hget => exact createTable_cases hfile (.inl hget)
      · exact .refused

namespace Opened

variable {result : FileTree × Option SongTable}

theorem workingDir (h : Opened t p result) : result.1.workingDir = t.workingDir := by
  cases h <;> rfl

theorem wellFormed (h : Opened t p result) (hwf : t.WellFormed) : result.1.WellFormed := by
  cases h with
  | @created l c _ hp hparent hfree hc =>
    obtain ⟨hl, hne⟩ := hwf.tableFile?_eq hp
    have hproper := hwf.proper_destination p
    rw [← hl] at hproper
    rcases List.eq_nil_or_concat l with rfl | ⟨front, name, rfl⟩
    · exact absurd rfl hne
    · rw [List.concat_eq_append] at hparent hfree hproper ⊢
      rw [List.dropLast_concat] at hparent
      refine hwf.put hparent (hproper name (by simp)) ?_
      intro hdir
      rcases hfree with hget | hget <;> rw [hget] at hdir <;> cases hdir
  | _ => exact hwf

/-- A table that is in a file stays there. -/
theorem tableAt? {table : SongTable} (h : Opened t p result) (hwf : t.WellFormed)
    (hm : t.tableAt? m = some table) : result.1.tableAt? m = some table := by
  cases h with
  | @created l c _ hp hparent hfree hc =>
    have hne := (hwf.tableFile?_eq hp).2
    have hml : m ≠ l := by
      rintro rfl
      rw [tableAt?_eq_some] at hm
      rcases hfree with hget | hget <;> rw [hget] at hm <;> cases hm
    rwa [tableAt?_put_ne hne _ hml]
  | _ => exact hm

/-- A table that was not there has no rows. -/
theorem rowsAt (h : Opened t p result) (hwf : t.WellFormed) (m : Location) :
    result.1.rowsAt m = t.rowsAt m := by
  cases hm : t.tableAt? m with
  | some table => rw [rowsAt_of_table hm, rowsAt_of_table (h.tableAt? hwf hm)]
  | none =>
    cases h with
    | @created l c _ hp hparent hfree hc =>
      have hne := (hwf.tableFile?_eq hp).2
      by_cases hml : m = l
      · subst hml
        rw [show t.rowsAt m = [] by simp [FileTree.rowsAt, hm]]
        rcases hc with ⟨rfl, -⟩ | ⟨rfl, -⟩
        · simp [FileTree.rowsAt, FileTree.tableAt?, get?_put _ hne]
        · rw [rowsAt_of_table (tableAt?_put_self hne _)]
          rfl
      · exact rowsAt_congr (tableAt?_put_ne hne _ hml)
    | _ => rfl

/-- A table is opened with what is in its file. -/
theorem table {table : SongTable} (h : Opened t p (t', some table)) (hwf : t.WellFormed) :
    isFileless p ∨ ∃ l, t.tableFile? p = some l ∧ t'.tableAt? l = some table := by
  generalize hresult : some table = opened at h
  cases h with
  | refused => cases hresult
  | fileless h => exact .inl h
  | found hp h =>
    cases hresult
    exact .inr ⟨_, hp, h⟩
  | @created l _ _ hp _ _ hc =>
    rcases hc with ⟨-, rfl⟩ | ⟨rfl, rfl⟩
    · cases hresult
    · cases hresult
      exact .inr ⟨l, hp, tableAt?_put_self (hwf.tableFile?_eq hp).2 _⟩

/-- A table is opened with the rows that are where its path leads, if that is to
    its file. -/
theorem rows {table : SongTable} (h : Opened t p (t', some table)) (hwf : t.WellFormed) :
    t.tableFile? p = (if isFileless p then none else some (t.destination p)) ∧
      table.rows = if isFileless p then [] else t.rowsAt (t.destination p) := by
  by_cases hp : isFileless p
  · have hnone : t.tableFile? p = none := by simp [tableFile?, hp]
    simp only [hp, if_true]
    refine ⟨hnone, ?_⟩
    generalize hresult : some table = opened at h
    cases h with
    | refused => cases hresult
    | fileless _ =>
      cases hresult
      rfl
    | found hl _ =>
      rw [hnone] at hl
      cases hl
    | created hl _ _ _ =>
      rw [hnone] at hl
      cases hl
  · obtain ⟨l, hl, htable⟩ := (h.table hwf).resolve_left hp
    have hdest := (hwf.tableFile?_eq hl).1
    simp only [hp, Bool.false_eq_true, if_false, ← hdest]
    exact ⟨hl, by rw [← rowsAt_of_table htable, h.rowsAt hwf]⟩

end Opened

/-! ## Saving -/

/-- A table goes back into its file, as long as that is there. -/
theorem keepTable_cases (t : FileTree) (l : Location) (table : SongTable) :
    t.tableAt? l = none ∧ t.keepTable l table = t ∨
      (t.tableAt? l).isSome ∧ t.keepTable l table = t.put l (.file (.songs table)) := by
  unfold keepTable
  split
  · next old hget => exact .inr ⟨by simp [tableAt?_eq_some.2 hget], rfl⟩
  · next hget =>
    refine .inl ⟨Option.eq_none_iff_forall_ne_some.2 ?_, rfl⟩
    intro old hold
    exact hget old (tableAt?_eq_some.1 hold)

/-- No row is lost where a table goes back with the rows that are there. -/
theorem rowsAt_keepTable (hl : l ≠ []) {table : SongTable} (h : m = l → table.rows = t.rowsAt m) :
    (t.keepTable l table).rowsAt m = t.rowsAt m := by
  rcases t.keepTable_cases l table with ⟨-, hkeep⟩ | ⟨-, hkeep⟩ <;> rw [hkeep]
  by_cases hm : m = l
  · rw [← h hm, hm, rowsAt_of_table (tableAt?_put_self hl table)]
  · exact rowsAt_congr (tableAt?_put_ne hl _ hm)

theorem get?_keepTable_ne (hl : l ≠ []) (table : SongTable) (hm : m ≠ l) :
    (t.keepTable l table).get? m = t.get? m := by
  rcases t.keepTable_cases l table with ⟨-, hkeep⟩ | ⟨-, hkeep⟩ <;> rw [hkeep]
  rw [get?_put _ hl, if_neg hm]

theorem get?_keepTable (hl : l ≠ []) (h : (t.tableAt? l).isSome) (table : SongTable) (m : Location) :
    (t.keepTable l table).get? m = if m = l then some (.file (.songs table)) else t.get? m := by
  rcases t.keepTable_cases l table with ⟨hnone, -⟩ | ⟨-, hkeep⟩
  · simp [hnone] at h
  · rw [hkeep, get?_put _ hl]

theorem WellFormed.keepTable (h : t.WellFormed) (l : Location) (table : SongTable) :
    (t.keepTable l table).WellFormed := by
  rcases t.keepTable_cases l table with ⟨-, hkeep⟩ | ⟨hsome, hkeep⟩ <;> rw [hkeep]
  · exact h
  · obtain ⟨old, hold⟩ := Option.isSome_iff_exists.1 hsome
    exact h.rewrite_file (tableAt?_eq_some.1 hold)

@[simp] theorem workingDir_keepTable (t : FileTree) (l : Location) (table : SongTable) :
    (t.keepTable l table).workingDir = t.workingDir := by
  rcases t.keepTable_cases l table with ⟨-, hkeep⟩ | ⟨-, hkeep⟩ <;> rw [hkeep]
  rfl

/-! ## Where tables come and go -/

/-- The second tree differs from the first in files alone, at some locations: some
    of these files may be gone, and some may be new. -/
structure Retabled (gone new : List Location) (t t' : FileTree) : Prop where
  wellFormed : t'.WellFormed
  listed : t.Listed → t'.Listed
  workingDir : t'.workingDir = t.workingDir
  get? : ∀ m ∉ gone, t'.get? m = t.get? m
  file : ∀ m c, t'.get? m = some (.file c) → m ∈ new ∨ t.get? m = some (.file c)
  directory : ∀ d, t'.get? d = some .directory → t.get? d = some .directory

namespace Retabled

variable {files : FileTree} {gone new : List Location} {k : Location} {c : Content}

theorem refl (h : t.WellFormed) : Retabled gone new t t :=
  ⟨h, id, rfl, fun _ _ => rfl, fun _ _ hc => .inr hc, fun _ hd => hd⟩

theorem mono {gone' new' : List Location} (h : Retabled gone new t t') (hgone : gone ⊆ gone')
    (hnew : new ⊆ new') : Retabled gone' new' t t' :=
  ⟨h.wellFormed, h.listed, h.workingDir, fun m hm => h.get? m fun hmem => hm (hgone hmem),
    fun m c hc => (h.file m c hc).imp_left (hnew ·), h.directory⟩

theorem hasFile (h : Retabled gone new t t') (hm : m ∉ gone) : t'.HasFile m ↔ t.HasFile m := by
  rw [HasFile, HasFile, h.get? m hm]

theorem erase (h : Retabled gone new files t) (hget : t.get? k = some (.file c)) (hk : k ∈ gone) :
    Retabled gone new files (t.erase k) := by
  have hne := ne_nil_of_get? hget
  have hother : ∀ m ∉ gone, m ≠ k := by
    rintro m hm rfl
    exact hm hk
  refine ⟨h.wellFormed.erase_file hget, fun hl => (h.listed hl).erase k, h.workingDir, ?_, ?_, ?_⟩
  · intro m hm
    rw [get?_erase _ hne, if_neg (hother m hm), h.get? m hm]
  · intro m c hc
    rw [get?_erase _ hne] at hc
    split at hc
    · cases hc
    · exact h.file m c hc
  · intro d hd
    rw [get?_erase _ hne] at hd
    split at hd
    · cases hd
    · exact h.directory d hd

theorem put (h : Retabled gone new files t) (hwf : (t.put k (.file c)).WellFormed) (hne : k ≠ [])
    (hk : k ∈ gone) (hk' : k ∈ new) : Retabled gone new files (t.put k (.file c)) := by
  have hother : ∀ m ∉ gone, m ≠ k := by
    rintro m hm rfl
    exact hm hk
  refine ⟨hwf, fun hl => (h.listed hl).put hne _, h.workingDir, ?_, ?_, ?_⟩
  · intro m hm
    rw [get?_put _ hne, if_neg (hother m hm), h.get? m hm]
  · intro m c' hc
    rw [get?_put _ hne] at hc
    split at hc
    · next hmk => exact .inl (hmk ▸ hk')
    · exact h.file m c' hc
  · intro d hd
    rw [get?_put _ hne] at hd
    split at hd
    · cases hd
    · exact h.directory d hd

theorem opened {result : FileTree × Option SongTable} (h : Retabled gone new files t)
    (ho : Opened t p result) (hp : ∀ l, t.tableFile? p = some l → l ∈ gone ∧ l ∈ new) :
    Retabled gone new files result.1 := by
  have hwf := ho.wellFormed h.wellFormed
  cases ho with
  | created hl _ _ _ => exact h.put hwf (h.wellFormed.tableFile?_eq hl).2 (hp _ hl).1 (hp _ hl).2
  | _ => exact h

theorem keepTable (h : Retabled gone new files t) (hne : k ≠ []) (hk : k ∈ gone) (hk' : k ∈ new)
    (table : SongTable) : Retabled gone new files (t.keepTable k table) := by
  have hwf := h.wellFormed.keepTable k table
  rcases t.keepTable_cases k table with ⟨-, hkeep⟩ | ⟨-, hkeep⟩ <;> rw [hkeep] at hwf ⊢
  · exact h
  · exact h.put hwf hne hk hk'

/-- A file may be renamed. -/
theorem renamed {source target : Path} (h : Retabled gone new files t)
    (hs : t.find source = .ok (l, .file c)) (hr : t.rename source target = .ok t') (hl : l ∈ gone)
    (hk : t.destination target ∈ gone) (hk' : t.destination target ∈ new) :
    Retabled gone new files t' := by
  obtain ⟨-, -, -, -, hget⟩ := find_file_iff.1 hs
  have hne := ne_nil_of_get? hget
  obtain ⟨k, hlands, -, rfl⟩ := (rename_eq_ok_iff hs).1 hr
  rw [← hlands.eq_destination] at hk hk'
  split
  · exact h
  · next hlk =>
    have hmoves : MovesFile t ((t.erase l).put k (.file c)) l k c := by
      refine ⟨rfl, rfl, ?_⟩
      intro m
      rw [get?_put _ hlands.ne_nil, get?_erase _ hne]
    exact (h.erase hget hl).put (h.wellFormed.moves hget hlands (fun e => hlk e.symm) hmoves)
      hlands.ne_nil hk hk'

end Retabled

/-- The second tree has the directories of the first. -/
def KeepsDirectories (t t' : FileTree) : Prop :=
  ∀ d, t.get? d = some .directory → t'.get? d = some .directory

namespace KeepsDirectories

variable {files : FileTree} {k : Location} {c : Content}

theorem erase (h : KeepsDirectories files t) (hget : t.get? k = some (.file c)) :
    KeepsDirectories files (t.erase k) := by
  intro d hd
  have hdk : d ≠ k := by
    rintro rfl
    rw [h d hd] at hget
    cases hget
  rw [get?_erase _ (ne_nil_of_get? hget), if_neg hdk]
  exact h d hd

theorem opened {result : FileTree × Option SongTable} (h : KeepsDirectories files t)
    (hwf : t.WellFormed) (ho : Opened t p result) : KeepsDirectories files result.1 := by
  cases ho with
  | @created l c _ hp _ hfree _ =>
    intro d hd
    have hdl : d ≠ l := by
      rintro rfl
      rcases hfree with hnone | htext
      · rw [h d hd] at hnone
        cases hnone
      · rw [h d hd] at htext
        cases htext
    rw [get?_put _ (hwf.tableFile?_eq hp).2, if_neg hdl]
    exact h d hd
  | _ => exact h

end KeepsDirectories

/-- Where tables come and go, paths that do not lead to their places lead where they
    did. -/
theorem Retabled.pathExists {gone new : List Location} (h : Retabled gone new t t')
    (hd : KeepsDirectories t t') (hp : t.destination p ∉ gone) : t'.pathExists p = t.pathExists p := by
  have hdest : t'.destination p = t.destination p := destination_congr h.workingDir p
  unfold FileTree.pathExists
  rw [Bool.eq_iff_iff]
  constructor
  · intro hok
    cases hfind : t'.find p with
    | error _ =>
      rw [hfind] at hok
      cases hok
    | ok found =>
      rw [find_congr h.workingDir.symm (fun d _ => h.directory d) (by rw [hdest, h.get? _ hp]) hfind]
      rfl
  · intro hok
    cases hfind : t.find p with
    | error _ =>
      rw [hfind] at hok
      cases hok
    | ok found =>
      rw [find_congr h.workingDir (fun d _ => hd d) (h.get? _ hp) hfind]
      rfl

end FileTree

end SongLibrary
