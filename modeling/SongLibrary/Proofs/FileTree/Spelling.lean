/-
  Other spellings of a path.

  * empty parts and parts `.` add nothing to the way of a path (`way_filter`), so a path whose
    last part is a name leads through what its names lead through (`route_of_loud`), and to
    the place of the last one (`spotOf_of_loud`);
  * paths with the same components find the same file, as long as they are not too long
    (`find_of_sameAs`);
  * a path without `..` is direct (`isDirect_of_plain`).
-/
import SongLibrary.Proofs.FileTree.Blocked

namespace SongLibrary

/-- Silent parts lead through nothing else. -/
theorem way_filter {keep : Name → Bool} (hkeep : ∀ part, keep part = false → part.isSilent)
    (l : Location) (parts : List Name) : way l (parts.filter keep) = way l parts := by
  induction parts generalizing l with
  | nil => rfl
  | cons part rest ih =>
    cases h : keep part with
    | true =>
      rw [List.filter_cons_of_pos h]
      unfold way
      rw [ih]
    | false =>
      have hsilent := hkeep part h
      rw [List.filter_cons_of_neg (by simp [h]), ih, way, if_pos (by simp [hsilent]), arriveAt,
        if_pos hsilent]

namespace FileTree

variable {t : FileTree} {p q : Path} {front : List Name} {last : Name} {l : Location} {c : Content}

/-- A path without `..` leads only through directories that its end is in. -/
theorem isDirect_of_plain (hup : Name.up ∉ p.names) : t.IsDirect p := by
  intro d hd
  obtain ⟨front, rest, hnames, rfl⟩ := exists_front_of_route hd
  rw [destination_eq_names, hnames, arrive_append]
  refine prefix_arrive fun name hname heq => hup ?_
  rw [hnames, ← heq]
  exact List.mem_append_right _ hname

theorem silent_of_isEmpty {part : Name} (h : (!part.isEmpty) = false) : part.isSilent := by
  have hempty : part.isEmpty := by simpa using h
  rw [Name.isSilent, hempty, Bool.true_or]

theorem names_of_loud (hparts : p.parts = front ++ [last]) (hloud : last.isSilent = false) :
    p.names = front.filter (fun part => !part.isSilent) ++ [last] := by
  rw [Path.names_eq_filter, hparts, List.filter_append]
  simp [hloud]

theorem filter_of_loud (hparts : p.parts = front ++ [last]) (hloud : last.isSilent = false) :
    p.parts.filter (!·.isEmpty) = front.filter (!·.isEmpty) ++ [last] := by
  have hne : last ≠ [] := by
    rintro rfl
    cases hloud
  rw [hparts, List.filter_append]
  simp [hne]

theorem route_of_loud (hparts : p.parts = front ++ [last]) (hloud : last.isSilent = false) :
    t.route p = t.origin p :: way (t.origin p) p.names.dropLast := by
  rw [route, filter_of_loud hparts hloud, names_of_loud hparts hloud, List.dropLast_concat,
    List.dropLast_concat, way_filter fun part h => silent_of_isEmpty h,
    way_filter fun part h => by simpa using h]

theorem spotOf_of_loud (hparts : p.parts = front ++ [last]) (hloud : last.isSilent = false)
    (hup : last ≠ Name.up) :
    t.spotOf p = .entry (arrive (t.origin p) p.names.dropLast) last false := by
  obtain ⟨hne, hhere⟩ : last ≠ [] ∧ last ≠ Name.here := by
    constructor <;> (rintro rfl; cases hloud)
  unfold spotOf
  simp only [filter_of_loud hparts hloud, names_of_loud hparts hloud, List.dropLast_concat,
    arrive_filter fun part h => silent_of_isEmpty h, arrive_loud, List.getLast?_concat]
  simp [hhere, hup, hne, hparts]

/-- A file is found under the last part of a path. -/
theorem loud_of_find (h : t.find p = .ok (l, .file c)) :
    ∃ front last, p.parts = front ++ [last] ∧ last.isSilent = false ∧ last ≠ Name.up := by
  obtain ⟨parent, name, hlocate, -, -⟩ := find_file_iff.1 h
  obtain ⟨-, hspot, -⟩ := follow_eq_ok_iff.1 (locate_eq_ok_iff.1 hlocate).1
  rcases List.eq_nil_or_concat p.parts with hnil | ⟨front, last, hparts⟩
  · exact absurd hnil p.splitOn_ne_nil
  · rw [List.concat_eq_append] at hparts
    refine ⟨front, last, hparts, ?_⟩
    by_cases hne : last = []
    · unfold spotOf at hspot
      dsimp only at hspot
      rw [hparts, hne] at hspot
      repeat' split at hspot
      all_goals simp at hspot
    · have hlast : (p.parts.filter (!·.isEmpty)).getLast? = some last := by
        rw [hparts, List.filter_append]
        simp [hne]
      unfold spotOf at hspot
      simp only [hlast] at hspot
      split at hspot
      · cases hspot
      · next hhere =>
        split at hspot
        · cases hspot
        · next hup => exact ⟨by simp [Name.isSilent, hne, hhere], hup⟩

/-- What stands in a path is a slash, or stands in one of its parts. -/
theorem mem_symbols {x : Text.Symbol} (h : x ∈ p.symbols) :
    x = Path.slash ∨ ∃ part ∈ p.parts, x ∈ part := by
  rw [← p.ofParts_parts] at h
  exact Path.mem_symbols_ofParts h

/-- A path through the same names has a NUL character just if the other has. -/
theorem nul_of_names (hnames : q.names = p.names) (h : (Text.encode p.symbols).contains 0 = false) :
    (Text.encode q.symbols).contains 0 = false := by
  rw [Bool.eq_false_iff, ne_eq, List.contains_iff_mem, Text.encode, List.mem_flatMap] at h ⊢
  rintro ⟨x, hx, hnul⟩
  rcases mem_symbols hx with rfl | ⟨part, hpart, hx⟩
  · revert hnul
    decide
  · by_cases hsilent : part.isSilent
    · rw [Name.isSilent, Bool.or_eq_true, List.isEmpty_iff, beq_iff_eq] at hsilent
      rcases hsilent with rfl | rfl
      · cases hx
      · rw [Name.here, List.mem_singleton] at hx
        rw [hx] at hnul
        revert hnul
        decide
    · have hname : part ∈ p.names := by
        rw [← hnames, ← filter_parts]
        exact List.mem_filter.2 ⟨hpart, by simpa using hsilent⟩
      rw [← filter_parts] at hname
      exact h ⟨x, Path.subset_of_mem_splitOn (List.mem_filter.1 hname).1 hx, hnul⟩

/-- **A file is found under every spelling of its path**, as long as the text of the path ends
    in its name and is not too long. -/
theorem find_of_sameAs (hsame : q.sameAs p) (hparts : q.parts = front ++ [last])
    (hloud : last.isSilent = false) (hempty : (Text.encode q.symbols).isEmpty = false)
    (hlength : (Text.encode q.symbols).length ≤ maxPathBytes) (h : t.find p = .ok (l, .file c)) :
    t.find q = .ok (l, .file c) := by
  obtain ⟨hstart, hnames⟩ : q.start = p.start ∧ q.names = p.names := by
    simpa [Path.sameAs, Path.components] using hsame
  have horigin : t.origin q = t.origin p := by rw [origin, origin, Path.isAbsolute, hstart]; rfl
  obtain ⟨front', last', hparts', hloud', hup⟩ := loud_of_find h
  obtain ⟨parent, name, hlocate, rfl, hget⟩ := find_file_iff.1 h
  obtain ⟨hfollow, hshort⟩ := locate_eq_ok_iff.1 hlocate
  obtain ⟨⟨⟨hnul, -, -⟩, hnamesShort⟩, hspot, hroute⟩ := follow_eq_ok_iff.1 hfollow
  obtain rfl : last = last' := by
    have hboth := hnames
    rw [names_of_loud hparts hloud, names_of_loud hparts' hloud'] at hboth
    exact List.singleton_inj.1 (List.append_inj_right' hboth rfl)
  have hspot' : Spot.entry parent name false = t.spotOf q := by
    rw [hspot, spotOf_of_loud hparts' hloud' hup, spotOf_of_loud hparts hloud hup, horigin, hnames]
  have hroute' : ∀ d ∈ t.route q, t.get? d = some .directory := by
    rwa [route_of_loud hparts hloud, horigin, hnames, ← route_of_loud hparts' hloud']
  have hfollowable : isFollowable q := by
    refine ⟨⟨nul_of_names hnames hnul, hempty, hlength⟩, fun part hpart => ?_⟩
    by_cases hsilent : part.isSilent
    · exact isTooLong_of_silent hsilent
    · have hfront := names_of_loud hparts hloud
      rw [hnames, names_of_loud hparts' hloud'] at hfront
      rw [filter_of_loud hparts hloud, List.dropLast_concat] at hpart
      have hname : part ∈ front'.filter fun part => !part.isSilent := by
        rw [List.append_cancel_right hfront]
        exact List.mem_filter.2 ⟨(List.mem_filter.1 hpart).1, by simpa using hsilent⟩
      refine hnamesShort part ?_
      rw [filter_of_loud hparts' hloud', List.dropLast_concat]
      exact List.mem_filter.2 ⟨(List.mem_filter.1 hname).1, (List.mem_filter.1 hpart).2⟩
  exact find_file_iff.2 ⟨parent, name, locate_eq_ok_iff.2
    ⟨follow_eq_ok_iff.2 ⟨hfollowable, hspot', hroute'⟩, hshort⟩, rfl, hget⟩

end FileTree

end SongLibrary
