/-
  The way of a path.

  * `way` lists the directories that parts of a path lead through, and `arrive`
    is the location they lead to.  Neither looks at a tree: a tree only decides
    whether the way is there (`descend_eq_ok_iff`);
  * `FileTree.route` and `FileTree.destination` are the way and the end of a
    path.  A path that can be followed in a tree can be followed in any other
    that has the directories of its route (`follow_of_route`, `find_of_route`);
  * `FileTree.IsDirect`: a direct path leads only through directories that its
    end is in.
-/
import SongLibrary.FileTree.Lookup

namespace SongLibrary

/-! ## Parts -/

/-- The location that a part of a path leads to. -/
def arriveAt (l : Location) (part : Name) : Location :=
  if part.isSilent then l else if part = Name.up then l.dropLast else l ++ [part]

/-- The location that the parts of a path lead to. -/
def arrive (l : Location) (parts : List Name) : Location :=
  parts.foldl arriveAt l

/-- The directories that the parts of a path name on their way. -/
def way (l : Location) : List Name → List Location
  | [] => []
  | part :: rest =>
    if part.isSilent || part == Name.up then way (arriveAt l part) rest
    else (l ++ [part]) :: way (arriveAt l part) rest

@[simp] theorem arrive_nil (l : Location) : arrive l [] = l :=
  rfl

@[simp] theorem arrive_cons (l : Location) (part : Name) (rest : List Name) :
    arrive l (part :: rest) = arrive (arriveAt l part) rest :=
  rfl

theorem arrive_append (l : Location) (parts rest : List Name) :
    arrive l (parts ++ rest) = arrive (arrive l parts) rest := by
  simp [arrive]

theorem isTooLong_of_silent {part : Name} (h : part.isSilent) :
    FileTree.isTooLong part = false := by
  simp only [Name.isSilent, Bool.or_eq_true, List.isEmpty_iff, beq_iff_eq] at h
  rcases h with rfl | rfl <;> decide

theorem isTooLong_up : FileTree.isTooLong Name.up = false := by
  decide

/-- Silent parts lead nowhere else. -/
theorem arrive_filter {keep : Name → Bool} (hkeep : ∀ part, keep part = false → part.isSilent)
    (l : Location) (parts : List Name) : arrive l (parts.filter keep) = arrive l parts := by
  induction parts generalizing l with
  | nil => rfl
  | cons part rest ih =>
    cases h : keep part with
    | true => simp [h, ih]
    | false => simp [h, ih, arriveAt, hkeep part h]

namespace FileTree

variable {t t' : FileTree}

/-! ## Descending -/

theorem enter_eq_ok_iff {l l' : Location} {part : Name} :
    t.enter l part = .ok l' ↔
      l' = arriveAt l part ∧ isTooLong part = false ∧
        (part.isSilent ∨ part = Name.up ∨ t.get? (l ++ [part]) = some .directory) := by
  unfold enter arriveAt
  by_cases hs : part.isSilent
  · simp [hs, isTooLong_of_silent hs, eq_comm]
  · by_cases hu : part = Name.up
    · have hns : ¬ Name.up.isSilent := by decide
      simp [hu, hns, isTooLong_up, eq_comm]
    · by_cases hl : isTooLong part
      · simp [hs, hu, hl]
      · cases hg : t.get? (l ++ [part]) with
        | none => simp [hs, hu, hl]
        | some e => cases e <;> simp [hs, hu, hl, eq_comm]

/-- **A tree lets one descend just if the directories on the way are there.** -/
theorem descend_eq_ok_iff {l l' : Location} {parts : List Name} :
    t.descend l parts = .ok l' ↔
      l' = arrive l parts ∧ (∀ part ∈ parts, isTooLong part = false) ∧
        ∀ d ∈ way l parts, t.get? d = some .directory := by
  induction parts generalizing l with
  | nil => simp [descend, way, @eq_comm _ l l']
  | cons part rest ih =>
    have hstep : t.descend l (part :: rest) = .ok l' ↔
        t.enter l part = .ok (arriveAt l part) ∧ t.descend (arriveAt l part) rest = .ok l' := by
      rw [descend]
      cases he : t.enter l part with
      | error fault => simp
      | ok m => simp [(enter_eq_ok_iff.1 he).1]
    rw [hstep, ih, enter_eq_ok_iff]
    by_cases hs : part.isSilent || part == Name.up
    · have hsu : part.isSilent ∨ part = Name.up := by simpa using hs
      simp only [way, hs, if_true, arrive_cons, List.forall_mem_cons, true_and]
      grind
    · have hsu : ¬ part.isSilent ∧ part ≠ Name.up := by simpa using hs
      simp only [way, hs, Bool.false_eq_true, if_false, arrive_cons, List.forall_mem_cons, true_and]
      grind

/-- Where the directories on the way are there, only the length of a name can
    stop a descent. -/
theorem descend_error {l : Location} {parts : List Name} {fault : Fault}
    (hway : ∀ d ∈ way l parts, t.get? d = some .directory)
    (h : t.descend l parts = .error fault) : fault = .nameTooLong := by
  induction parts generalizing l with
  | nil => cases h
  | cons part rest ih =>
    rw [descend] at h
    cases he : t.enter l part with
    | ok l' =>
      simp only [he] at h
      obtain ⟨rfl, -, -⟩ := enter_eq_ok_iff.1 he
      refine ih (fun d hd => hway d ?_) h
      unfold way
      split
      · exact hd
      · exact List.mem_cons_of_mem _ hd
    | error fault' =>
      simp only [he] at h
      cases h
      unfold enter at he
      split at he
      · cases he
      · next hs =>
        split at he
        · cases he
        · next hu =>
          split at he
          · cases he
            rfl
          · rw [hway (l ++ [part]) (by simp [way, hs, hu])] at he
            cases he

/-! ## Paths -/

variable (t) in
/-- Where a path begins. -/
def origin (p : Path) : Location :=
  if p.isAbsolute then [] else t.workingDir

variable (t) in
/-- The directories that a path leads through, from where it begins. -/
def route (p : Path) : List Location :=
  t.origin p :: way (t.origin p) (p.parts.filter (!·.isEmpty)).dropLast

variable (t) in
/-- The location that a path leads to, if its way is there. -/
def destination (p : Path) : Location :=
  arrive (t.origin p) p.parts

theorem destination_eq (p : Path) :
    t.destination p = arrive (t.origin p) (p.parts.filter (!·.isEmpty)) := by
  refine (arrive_filter ?_ _ _).symm
  intro part h
  have hempty : part.isEmpty := by simpa using h
  rw [Name.isSilent, hempty, Bool.true_or]

theorem filter_parts (p : Path) : (p.parts.filter fun part => !part.isSilent) = p.names := by
  unfold Path.names Path.body
  split
  · next hstart =>
    unfold Path.start at hstart
    split at hstart
    · next h => simp [h, Name.isSilent]
    · split at hstart <;> cases hstart
    · cases hstart
  · next hstart =>
    unfold Path.start at hstart
    split at hstart
    · cases hstart
    · next h =>
      split at hstart
      · next hhere => simp [h, Name.isSilent, hhere]
      · cases hstart
    · cases hstart
  · rfl

/-- A path leads where its names lead. -/
theorem destination_eq_names (p : Path) : t.destination p = arrive (t.origin p) p.names := by
  rw [← filter_parts]
  refine (arrive_filter ?_ _ _).symm
  intro part h
  simpa using h

/-- Paths that are the same lead to the same location. -/
theorem destination_of_sameAs {p q : Path} (h : p.sameAs q) :
    t.destination p = t.destination q := by
  have hboth : p.start = q.start ∧ p.names = q.names := by
    simpa [Path.sameAs, Path.components] using h
  rw [destination_eq_names, destination_eq_names, hboth.2, origin, origin, Path.isAbsolute,
    Path.isAbsolute, hboth.1]

variable (t) in
/-- A path leads only through directories that its end is in. -/
def IsDirect (p : Path) : Prop :=
  ∀ d ∈ t.route p, d <+: t.destination p

instance (p : Path) : Decidable (t.IsDirect p) :=
  inferInstanceAs (Decidable (∀ d ∈ t.route p, d <+: t.destination p))

theorem origin_congr (h : t'.workingDir = t.workingDir) (p : Path) : t'.origin p = t.origin p := by
  simp [origin, h]

theorem route_congr (h : t'.workingDir = t.workingDir) (p : Path) : t'.route p = t.route p := by
  simp [route, origin_congr h]

theorem destination_congr (h : t'.workingDir = t.workingDir) (p : Path) :
    t'.destination p = t.destination p := by
  simp [destination, origin_congr h]

theorem isDirect_congr (h : t'.workingDir = t.workingDir) {p : Path} :
    t'.IsDirect p ↔ t.IsDirect p := by
  simp [IsDirect, route_congr h, destination_congr h]

/-! ## Following -/

/-- Whether a path can be followed, where its route is there: it is a text of
    some length, and no name on its way is too long. -/
def isFollowable (p : Path) : Prop :=
  let bytes := Text.encode p.symbols
  (bytes.contains 0 = false ∧ bytes.isEmpty = false ∧ bytes.length ≤ maxPathBytes) ∧
    ∀ part ∈ (p.parts.filter (!·.isEmpty)).dropLast, isTooLong part = false

variable (t) in
/-- What a path leads to, if its way is there. -/
def spotOf (p : Path) : Spot :=
  let parts := p.parts.filter (!·.isEmpty)
  match parts.getLast? with
  | none => .directory (t.origin p)
  | some last =>
    let l := arrive (t.origin p) parts.dropLast
    if last = Name.here then .directory l
    else if last = Name.up then .directory l.dropLast
    else .entry l last (p.parts.getLast? == some [])

theorem follow_eq_ok_iff {p : Path} {spot : Spot} :
    t.follow p = .ok spot ↔
      isFollowable p ∧ spot = t.spotOf p ∧ ∀ d ∈ t.route p, t.get? d = some .directory := by
  unfold follow isFollowable spotOf route
  simp only
  generalize hparts : p.parts.filter (!·.isEmpty) = parts
  generalize Text.encode p.symbols = bytes
  -- The text of the path is checked first, then the way; the last part only tells the spot.
  by_cases hbytes : bytes.contains 0 = false ∧ bytes.isEmpty = false ∧ bytes.length ≤ maxPathBytes
  · obtain ⟨hnul, hempty, hlength⟩ := hbytes
    have hlength' : ¬ bytes.length > maxPathBytes := Nat.not_lt.2 hlength
    simp only [hnul, hempty, hlength, hlength', Bool.false_eq_true, if_false, true_and,
      List.forall_mem_cons]
    rw [show (if p.isAbsolute then [] else t.workingDir) = t.origin p from rfl]
    by_cases hstart : t.get? (t.origin p) = some .directory
    case neg => simp [hstart]
    simp only [hstart, bne_self_eq_false, Bool.false_eq_true, if_false, true_and]
    cases hlast : parts.getLast? with
    | none =>
      rw [List.getLast?_eq_none_iff] at hlast
      subst hlast
      constructor
      · rintro ⟨⟩
        exact ⟨by simp, rfl, by simp [way]⟩
      · rintro ⟨-, rfl, -⟩
        rfl
    | some last =>
      dsimp only
      cases hdescend : t.descend (t.origin p) parts.dropLast with
      | error fault =>
        refine iff_of_false (by simp) ?_
        rintro ⟨hshort, -, hway⟩
        rw [descend_eq_ok_iff.2 ⟨rfl, hshort, hway⟩] at hdescend
        cases hdescend
      | ok l =>
        obtain ⟨rfl, hshort, hway⟩ := descend_eq_ok_iff.1 hdescend
        simp only [and_iff_left hway, and_iff_right hshort]
        by_cases hhere : last = Name.here
        · simp [hhere, @eq_comm _ spot]
        · by_cases hup : last = Name.up
          · simp [hup, show Name.up ≠ Name.here by decide, @eq_comm _ spot]
          · simp [hhere, hup, @eq_comm _ spot]
  · refine iff_of_false ?_ fun h => hbytes h.1.1
    intro h
    split at h
    · cases h
    · next hnul =>
      split at h
      · cases h
      · next hempty =>
        split at h
        · cases h
        · exact hbytes ⟨Bool.eq_false_iff.2 hnul, Bool.eq_false_iff.2 hempty, by omega⟩

/-- A path whose route is there leads somewhere, unless it cannot be followed in
    any tree. -/
theorem follow_ne_notFound {p : Path} (hp : (Text.encode p.symbols).isEmpty = false)
    (hr : ∀ d ∈ t.route p, t.get? d = some .directory) : t.follow p ≠ .error .notFound := by
  rw [route, List.forall_mem_cons] at hr
  intro h
  unfold follow at h
  rw [show (if p.isAbsolute then [] else t.workingDir) = t.origin p from rfl] at h
  simp only [hp, hr.1, Bool.false_eq_true, if_false, bne_self_eq_false] at h
  split at h
  · cases h
  · split at h
    · cases h
    · split at h
      · cases h
      · split at h
        · next hdescend =>
          cases h
          cases descend_error hr.2 hdescend
        · split at h
          · cases h
          · split at h <;> cases h

/-- A path that can be followed in a tree can be followed in any other that has
    the directories of its route. -/
theorem follow_of_route {p : Path} {spot : Spot} (hw : t'.workingDir = t.workingDir)
    (hr : ∀ d ∈ t.route p, t'.get? d = some .directory) (h : t.follow p = .ok spot) :
    t'.follow p = .ok spot := by
  obtain ⟨hfollowable, hspot, -⟩ := follow_eq_ok_iff.1 h
  refine follow_eq_ok_iff.2 ⟨hfollowable, ?_, ?_⟩
  · rw [hspot]
    simp [spotOf, origin_congr hw]
  · rwa [route_congr hw]

/-- What a path leads to is at its destination. -/
theorem location_spotOf (p : Path) : (t.spotOf p).location = t.destination p := by
  rw [destination_eq]
  unfold spotOf
  simp only
  generalize hparts : p.parts.filter (!·.isEmpty) = parts
  split
  · next hlast =>
    rw [List.getLast?_eq_none_iff] at hlast
    simp [hlast, Spot.location]
  · next last hlast =>
    have hne : last.isEmpty = false := by
      have hmem := List.mem_of_getLast? hlast
      rw [← hparts, List.mem_filter] at hmem
      simpa using hmem.2
    have harrive : arrive (t.origin p) parts =
        arriveAt (arrive (t.origin p) parts.dropLast) last := by
      obtain ⟨front, rfl⟩ := List.getLast?_eq_some_iff.1 hlast
      simp [arrive_append]
    have hns : ¬ Name.up.isSilent := by decide
    rw [harrive]
    split
    · next hhere => simp [Spot.location, arriveAt, Name.isSilent, hhere]
    · next hhere =>
      split
      · next hup => simp [Spot.location, arriveAt, hup, hns]
      · next hup => simp [Spot.location, arriveAt, Name.isSilent, hhere, hup, hne]

/-! ## Finding -/

/-- A spot that is located is followed, and its name is short enough. -/
theorem locate_eq_ok_iff {p : Path} {spot : Spot} :
    t.locate p = .ok spot ↔ t.follow p = .ok spot ∧
      ∀ parent name asDirectory, spot = .entry parent name asDirectory →
        isTooLong name = false := by
  unfold locate
  cases h : t.follow p with
  | error fault => simp
  | ok s =>
    cases s with
    | directory l =>
      simp only [Except.ok.injEq, iff_self_and]
      rintro rfl parent name asDirectory ⟨⟩
    | entry l name asDirectory =>
      by_cases hlong : isTooLong name
      · simp only [hlong, if_true, Except.ok.injEq, reduceCtorEq, false_iff, not_and]
        rintro rfl hshort
        simp [hshort l name asDirectory rfl] at hlong
      · simp only [hlong, Bool.false_eq_true, if_false, Except.ok.injEq, iff_self_and]
        rintro rfl parent name' asDirectory' ⟨⟩
        simpa using hlong

/-- A spot that is located is where the path leads. -/
theorem location_of_locate {p : Path} {spot : Spot} (h : t.locate p = .ok spot) :
    spot.location = t.destination p := by
  obtain ⟨-, hspot, -⟩ := follow_eq_ok_iff.1 (locate_eq_ok_iff.1 h).1
  rw [hspot, location_spotOf]

/-- Finding a file: it is in a directory that the path leads to, under the last
    name of the path, which does not end in a slash. -/
theorem find_file_iff {p : Path} {l : Location} {c : Content} :
    t.find p = .ok (l, .file c) ↔
      ∃ parent name, t.locate p = .ok (.entry parent name false) ∧ l = parent ++ [name] ∧
        t.get? l = some (.file c) := by
  unfold find
  constructor
  · intro h
    split at h
    · next spot hlocate =>
      cases spot with
      | directory l' => cases h
      | entry parent name asDirectory =>
        unfold entryAt at h
        simp only at h
        split at h
        · cases h
        · cases h
        · next content hget =>
          split at h
          · cases h
          · next hnot =>
            cases h
            have hfalse : asDirectory = false := by simpa using hnot
            exact ⟨parent, name, hfalse ▸ hlocate, rfl, hget⟩
    · cases h
  · rintro ⟨parent, name, hlocate, rfl, hget⟩
    simp [hlocate, entryAt, hget]

theorem read_eq_ok_iff {p : Path} {c : Content} :
    t.read p = .ok c ↔ ∃ l, t.find p = .ok (l, .file c) := by
  unfold read
  constructor
  · intro h
    split at h
    · next l content hfind =>
      cases h
      exact ⟨l, hfind⟩
    · cases h
    · cases h
  · rintro ⟨l, hfind⟩
    simp [hfind]

theorem route_of_find {p : Path} {l : Location} {e : Entry} (h : t.find p = .ok (l, e)) :
    (∀ d ∈ t.route p, t.get? d = some .directory) ∧ l = t.destination p := by
  unfold find at h
  split at h
  · next spot hlocate =>
    refine ⟨(follow_eq_ok_iff.1 (locate_eq_ok_iff.1 hlocate).1).2.2, ?_⟩
    rw [← location_of_locate hlocate]
    cases spot with
    | directory l' =>
      cases h
      rfl
    | entry parent name asDirectory =>
      unfold entryAt at h
      simp only at h
      split at h
      · cases h
      · cases h
        rfl
      · split at h
        · cases h
        · cases h
          rfl
  · cases h

theorem locate_of_route {p : Path} {spot : Spot} (hw : t'.workingDir = t.workingDir)
    (hr : ∀ d ∈ t.route p, t'.get? d = some .directory) (h : t.locate p = .ok spot) :
    t'.locate p = .ok spot := by
  obtain ⟨hfollow, hshort⟩ := locate_eq_ok_iff.1 h
  exact locate_eq_ok_iff.2 ⟨follow_of_route hw hr hfollow, hshort⟩

/-- A file that a path leads to is found in any other tree that has the route of
    the path and a file there. -/
theorem find_of_route {p : Path} {l : Location} {c c' : Content}
    (hw : t'.workingDir = t.workingDir) (hr : ∀ d ∈ t.route p, t'.get? d = some .directory)
    (hl : t'.get? l = some (.file c')) (h : t.find p = .ok (l, .file c)) :
    t'.find p = .ok (l, .file c') := by
  obtain ⟨parent, name, hlocate, rfl, -⟩ := find_file_iff.1 h
  exact find_file_iff.2 ⟨parent, name, locate_of_route hw hr hlocate, rfl, hl⟩

/-- What a path leads to is found in any other tree that has the directories of its
    route, and the same at the end of the path. -/
theorem find_congr {p : Path} {l : Location} {e : Entry} (hw : t'.workingDir = t.workingDir)
    (hdirs : ∀ d ∈ t.route p, t.get? d = some .directory → t'.get? d = some .directory)
    (hget : t'.get? (t.destination p) = t.get? (t.destination p)) (h : t.find p = .ok (l, e)) :
    t'.find p = .ok (l, e) := by
  have hroute := (route_of_find h).1
  unfold find at h ⊢
  split at h
  · next spot hlocate =>
    rw [locate_of_route hw (fun d hd => hdirs d hd (hroute d hd)) hlocate]
    cases spot with
    | directory _ => exact h
    | entry parent name asDirectory =>
      have hend : parent ++ [name] = t.destination p := location_of_locate hlocate
      dsimp only [entryAt] at h ⊢
      rwa [hend, hget, ← hend]
  · cases h

end FileTree

end SongLibrary
