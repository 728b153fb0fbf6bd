/-
  The parts of the path of a song.

  A song is written into the segments of the groups that are written, and the extension
  follows: `Template.line` is that line, its literal text taken apart into characters.
  What a placeholder writes holds no character that the platform forbids
  (`forbids_of_mem_rendered`), and so no slash: the slashes of the path are those of the line,
  and its parts are what is written for the stretches of the line between two slashes
  (`parts_render`).

  * `staysBelow_render_iff`: the path stays below just if none of these is `..`, and
    something is written before the first slash;
  * `Template.IsTidy`: literal text that leads nowhere else by itself; then the path
    stays below if every placeholder writes something besides dots
    (`IsTidy.staysBelow_render`).
-/
import Mathlib.Data.List.TakeDrop
import Mathlib.Data.List.TakeWhile
import SongLibrary.Proofs.Location
import SongLibrary.Proofs.Sanitizer
import SongLibrary.Template.Rendering

namespace SongLibrary

open Text (Symbol)

/-! ## Extensions -/

/-- What is shown of a name holds a character besides that for ill-formed bytes only where
    the name does. -/
theorem Name.mem_of_mem_shown {name : Name} {c : Char} (hc : c ≠ '\uFFFD')
    (h : c ∈ name.shown.toList) : .char c ∈ name := by
  rw [Name.shown, Text.shownText, String.toList_ofList, List.mem_map] at h
  obtain ⟨x | bytes, hx, rfl⟩ := h
  · exact hx
  · exact absurd rfl hc

theorem Name.extension?_subset {name ext : Name} (h : name.extension? = some ext) :
    ext ⊆ name ∧ .char '.' ∉ ext := by
  have hafter : (name.reverse.takeWhile (· != .char '.')).reverse = ext := by
    unfold Name.extension? at h
    rw [List.span_eq_takeWhile_dropWhile] at h
    split at h
    · cases h
    · cases h
    · next heq =>
      cases h
      rw [(Prod.mk.inj heq).1]
  subst hafter
  refine ⟨fun x hx => ?_, fun hdot => ?_⟩
  · exact List.mem_reverse.1 ((List.takeWhile_prefix _).subset (List.mem_reverse.1 hx))
  · simpa using List.mem_takeWhile_imp (List.mem_reverse.1 hdot)

/-- The extension of a song's file holds no slash and no dot. -/
theorem Song.not_mem_extension {song : Song} {ext : String} (h : song.extension? = some ext) :
    '/' ∉ ext.toList ∧ '.' ∉ ext.toList := by
  obtain ⟨suffix, hsuffix, rfl⟩ := Option.map_eq_some_iff.1 h
  obtain ⟨name, hname, hsuffix⟩ := Option.bind_eq_some_iff.1 hsuffix
  obtain ⟨hsub, hdot⟩ := Name.extension?_subset hsuffix
  have hpart : name ∈ (Path.ofString song.uri).parts := by
    have hlast := List.mem_of_getLast? (Option.filter_eq_some_iff.1 hname).1
    rw [Path.names_eq_filter] at hlast
    exact (List.mem_filter.1 hlast).1
  refine ⟨fun hslash => ?_, fun hdot' => ?_⟩
  · exact Path.slash_not_mem_of_mem_parts hpart (hsub (Name.mem_of_mem_shown (by decide) hslash))
  · exact hdot (Name.mem_of_mem_shown (by decide) hdot')

/-! ## What is written -/

namespace Template

theorem toList_toString (n : Nat) : (toString n).toList = Nat.toDigits 10 n := by
  simp

theorem toList_writeNumber (conversion : Conversion) (n : Nat) : ∃ zeros : Nat,
    (writeNumber conversion n).toList = List.replicate zeros '0' ++ Nat.toDigits 10 n := by
  unfold writeNumber
  split
  · exact ⟨1, by rw [String.toList_append, toList_toString]; rfl⟩
  · exact ⟨0, by rw [toList_toString]; rfl⟩

theorem isDigit_of_mem_writeNumber {conversion : Conversion} {n : Nat} {c : Char}
    (h : c ∈ (writeNumber conversion n).toList) : c.isDigit := by
  obtain ⟨zeros, htext⟩ := toList_writeNumber conversion n
  rw [htext, List.mem_append] at h
  rcases h with hzero | hdigit
  · rw [List.eq_of_mem_replicate hzero]
    rfl
  · exact Nat.isDigit_of_mem_toDigits (by decide) (by decide) hdigit

theorem isDigit_of_mem_numberValue {song : Song} {conversion : Conversion} {key : TagKey} {c : Char}
    (h : c ∈ (numberValue song conversion key).toList) : c.isDigit := by
  unfold numberValue at h
  split at h
  · cases h
  · exact isDigit_of_mem_writeNumber h

variable (t : Template) (refs : ReferenceData) (song : Song) (bypass : Option String) (s : Sanitizer)

section

variable {t refs song bypass s} {field : Field} {c : Char}

/-- **What is written for a number are digits.** -/
theorem isDigit_of_mem_rendered (h : field.isNumeric) (hc : c ∈ t.rendered refs song bypass s field) :
    c.isDigit := by
  cases field with
  | bpm | trackNumber | paddedTrackNumber => exact isDigit_of_mem_numberValue hc
  | disc =>
    change c ∈ (if song.number .discTotal ≤ 1 then "" else numberValue song _ _).toList at hc
    split at hc
    · cases hc
    · exact isDigit_of_mem_numberValue hc
  | _ => cases h

/-- **What a placeholder writes is allowed in a file name**, but for a piece of path that is
    written as it is. -/
theorem forbids_of_mem_rendered (h : field ≠ .bypass)
    (hc : c ∈ t.rendered refs song bypass s field) : s.platform.forbids c = false := by
  cases hconversion : field.conversion with
  | text =>
    have hclean : t.rendered refs song bypass s field =
        s.clean (t.value refs song bypass field).toList := by
      simp only [rendered, hconversion]
    exact s.mem_clean (hclean ▸ hc)
  | number | zeroPadded =>
    have hnumeric : field.isNumeric := by simp [Field.isNumeric, hconversion]
    exact s.platform.forbids_of_isDigit (isDigit_of_mem_rendered hnumeric hc)
  | verbatim => cases field <;> simp_all [Field.conversion]

end

/-- What a placeholder writes holds no slash. -/
theorem slash_not_mem_rendered {field : Field} (h : field ≠ .bypass) :
    '/' ∉ t.rendered refs song bypass s field := by
  intro hslash
  have hallowed := forbids_of_mem_rendered h hslash
  rw [s.platform.forbids_slash] at hallowed
  cases hallowed

/-- The extension that is written holds no slash. -/
theorem slash_not_mem_renderExtension {song : Song} : '/' ∉ renderExtension song := by
  unfold renderExtension
  split
  · next ext hext => simp [(Song.not_mem_extension hext).1]
  · simp

/-! ## Lines -/

/-- What a line is written from: a literal character, or the field of a placeholder. -/
inductive Atom where
  | char (c : Char)
  | field (f : Field)
  deriving DecidableEq, Repr

/-- The atoms of a segment. -/
def Segment.atoms : Segment → List Atom
  | literal text => text.map .char
  | placeholder p => [.field p.field]

/-- The atoms of a group. -/
def Group.atoms (g : Group) : List Atom :=
  g.segments.flatMap Segment.atoms

/-- The atoms of a template, whether they are written or not. -/
def atoms (t : Template) : List Atom :=
  t.groups.flatMap Group.atoms

/-- What is written for an atom. -/
def writeAtom : Atom → List Char
  | .char c => [c]
  | .field f => t.rendered refs song bypass s f

/-- The line that the path of a song is written from: the atoms of the groups that are
    written, and the extension. -/
def line : List Atom :=
  (t.groups.filter (t.isWritten refs song bypass s)).flatMap Group.atoms ++
    (renderExtension song).map .char

/-- What stands between the slashes of a line. -/
def stretches (line : List Atom) : List (List Atom) :=
  line.splitOn (.char '/')

/-- What is written for a stretch. -/
def writeStretch (stretch : List Atom) : List Char :=
  stretch.flatMap (t.writeAtom refs song bypass s)

variable {t refs song bypass s}

theorem flatMap_renderSegment (segments : List Segment) :
    segments.flatMap (t.renderSegment refs song bypass s) =
      t.writeStretch refs song bypass s (segments.flatMap Segment.atoms) := by
  have hone : ∀ segment : Segment,
      t.renderSegment refs song bypass s segment =
        segment.atoms.flatMap (t.writeAtom refs song bypass s) := by
    rintro (text | p)
    · simp [renderSegment, Segment.atoms, writeAtom, List.flatMap_map]
    · simp [renderSegment, Segment.atoms, writeAtom]
  rw [writeStretch, List.flatMap_assoc]
  exact congrArg (segments.flatMap ·) (funext hone)

/-- The groups that are written are written whole, the others not at all. -/
theorem renderGroups_eq : t.renderGroups refs song bypass s =
    (t.groups.filter (t.isWritten refs song bypass s)).flatMap fun g =>
      g.segments.flatMap (t.renderSegment refs song bypass s) := by
  unfold renderGroups
  induction t.groups with
  | nil => rfl
  | cons g rest ih =>
    rw [List.flatMap_cons, ih, renderGroup, List.filter_cons]
    split
    · rw [List.flatMap_cons]
    · rw [List.nil_append]

/-- The path of a song is what is written for its line. -/
theorem toList_render : (t.render refs song bypass s).toList =
    t.writeStretch refs song bypass s (t.line refs song bypass s) := by
  have hextension : t.writeStretch refs song bypass s ((renderExtension song).map .char) =
      renderExtension song := by
    simp [writeStretch, writeAtom, List.flatMap_map]
  have hgroups : t.renderGroups refs song bypass s = t.writeStretch refs song bypass s
      ((t.groups.filter (t.isWritten refs song bypass s)).flatMap Group.atoms) := by
    rw [renderGroups_eq, writeStretch, List.flatMap_assoc]
    simp only [flatMap_renderSegment]
    rfl
  rw [render, String.toList_ofList, hgroups, ← hextension, line]
  exact List.flatMap_append.symm

theorem exists_placeholder {f : Field} (h : .field f ∈ t.atoms) :
    ∃ p ∈ t.placeholders, p.field = f := by
  obtain ⟨g, hg, hatom⟩ := List.mem_flatMap.1 h
  obtain ⟨segment, hsegment, hatom⟩ := List.mem_flatMap.1 hatom
  cases segment with
  | literal text => simp [Segment.atoms] at hatom
  | placeholder p =>
    exact ⟨p, List.mem_flatMap.2 ⟨g, hg, List.mem_filterMap.2 ⟨_, hsegment, rfl⟩⟩,
      by simpa [Segment.atoms, eq_comm] using hatom⟩

theorem ne_bypass_of_mentions (h : t.mentions .bypass = false) {p : Placeholder}
    (hp : p ∈ t.placeholders) : p.field ≠ .bypass := by
  intro hfield
  have hmentions : t.mentions .bypass = true := List.any_eq_true.2 ⟨p, hp, by simp [hfield]⟩
  rw [h] at hmentions
  cases hmentions

theorem ne_bypass_of_mem {f : Field} (hbypass : t.mentions .bypass = false)
    (h : .field f ∈ t.atoms) : f ≠ .bypass := by
  obtain ⟨p, hp, rfl⟩ := exists_placeholder h
  exact ne_bypass_of_mentions hbypass hp

theorem mem_atoms_of_mem_line {f : Field} (h : .field f ∈ t.line refs song bypass s) :
    .field f ∈ t.atoms := by
  rcases List.mem_append.1 h with h | h
  · obtain ⟨g, hg, hatom⟩ := List.mem_flatMap.1 h
    exact List.mem_flatMap.2 ⟨g, (List.mem_filter.1 hg).1, hatom⟩
  · simp at h

/-- **The parts of a song's path are what is written between the slashes of its line.** -/
theorem parts_render (hbypass : t.mentions .bypass = false) :
    (Path.ofString (t.render refs song bypass s)).parts =
      (stretches (t.line refs song bypass s)).map fun stretch =>
        (t.writeStretch refs song bypass s stretch).map .char := by
  have hline : Path.ofString (t.render refs song bypass s) =
      ⟨(t.line refs song bypass s).flatMap fun atom =>
        (t.writeAtom refs song bypass s atom).map .char⟩ := by
    rw [Path.ofString, Text.symbolsOf, toList_render, writeStretch, List.map_flatMap]
  rw [hline, Path.parts, Path.splitOn_flatMap (a := Atom.char '/') rfl]
  · simp only [stretches, writeStretch, List.map_flatMap]
  · rintro (c | f) hatom hne
    · have hc : c ≠ '/' := fun h => hne (h ▸ rfl)
      simpa [writeAtom, Path.slash] using hc.symm
    · have hslash := slash_not_mem_rendered t refs song bypass s
        (ne_bypass_of_mem hbypass (mem_atoms_of_mem_line hatom))
      simpa [writeAtom, Path.slash] using hslash

/-! ## Paths that stay below -/

variable (t refs song bypass s) in
/-- Nothing is written before the first slash of the line of a song. -/
def IsRooted : Prop :=
  (stretches (t.line refs song bypass s)).tail ≠ [] ∧
    ∀ first ∈ (stretches (t.line refs song bypass s)).head?,
      t.writeStretch refs song bypass s first = []

variable (t refs song bypass s) in
/-- `..` is written between two slashes of the line of a song. -/
def Climbs : Prop :=
  ∃ stretch ∈ stretches (t.line refs song bypass s),
    t.writeStretch refs song bypass s stretch = ['.', '.']

/-- **The path of a song stays below** where it is seen from just if something is written
    before the first slash of its line, and `..` nowhere between two slashes. -/
theorem staysBelow_render_iff (hbypass : t.mentions .bypass = false) :
    (Path.ofString (t.render refs song bypass s)).StaysBelow ↔
      ¬ t.IsRooted refs song bypass s ∧ ¬ t.Climbs refs song bypass s := by
  have hparts : (Path.ofString (t.render refs song bypass s)).parts = _ := parts_render hbypass
  obtain ⟨first, rest, hline⟩ := List.exists_cons_of_ne_nil
    (List.splitOn_ne_nil (Atom.char '/') (t.line refs song bypass s))
  replace hline : stretches (t.line refs song bypass s) = first :: rest := hline
  have hup : Name.up = ['.', '.'].map Symbol.char := rfl
  have hmap : ∀ a b : List Char, a.map Symbol.char = b.map .char ↔ a = b := fun a b =>
    List.map_inj_right fun _ _ h => Symbol.char.inj h
  unfold Path.StaysBelow
  refine and_congr ?_ ?_
  · rw [hline, List.map_cons] at hparts
    rw [IsRooted, Path.isAbsolute, Path.start_eq _ hparts, hline]
    by_cases hrest : rest = [] <;>
      by_cases hfirst : t.writeStretch refs song bypass s first = [] <;>
      simp [hrest, hfirst, Name.here] <;> split <;> simp
  · have hloud : (!Name.up.isSilent) = true := by decide
    rw [Path.names_eq_filter, List.mem_filter, hloud, hparts, List.mem_map, hup]
    simp only [hmap, and_true, Climbs]

/-- A template whose literal text does not lead anywhere else by itself: it does not begin
    with a slash, and no part of it is `.` or `..`. -/
structure IsTidy (t : Template) : Prop where
  opening : t.atoms.head? ≠ some (.char '/')
  parts : ∀ part ∈ stretches t.atoms, part ≠ [.char '.'] ∧ part ≠ [.char '.', .char '.']

instance (t : Template) : Decidable t.IsTidy :=
  decidable_of_iff (t.atoms.head? ≠ some (.char '/') ∧
      ∀ part ∈ stretches t.atoms, part ≠ [.char '.'] ∧ part ≠ [.char '.', .char '.'])
    ⟨fun ⟨h₁, h₂⟩ => ⟨h₁, h₂⟩, fun h => ⟨h.opening, h.parts⟩⟩

/-- Every placeholder writes something besides dots. -/
def IsFilled (t : Template) (refs : ReferenceData) (song : Song) (bypass : Option String)
    (s : Sanitizer) : Prop :=
  ∀ p ∈ t.placeholders, ∃ c ∈ t.rendered refs song bypass s p.field, c ≠ '.'

instance (t : Template) (refs : ReferenceData) (song : Song) (bypass : Option String)
    (s : Sanitizer) : Decidable (t.IsFilled refs song bypass s) :=
  decidable_of_iff
    (t.placeholders.all fun p => (t.rendered refs song bypass s p.field).any (· != '.'))
    (by simp [IsFilled])

theorem isWritten_of_isFilled (h : t.IsFilled refs song bypass s) {g : Group} (hg : g ∈ t.groups) :
    t.isWritten refs song bypass s g := by
  unfold isWritten
  rw [Bool.or_eq_true, List.isEmpty_iff]
  cases hp : g.placeholders with
  | nil => exact .inl rfl
  | cons p rest =>
    obtain ⟨c, hc, -⟩ := h p (List.mem_flatMap.2 ⟨g, hg, by simp [hp]⟩)
    exact .inr (List.any_eq_true.2 ⟨p, by simp, by simp [List.ne_nil_of_mem hc]⟩)

/-- The line of a song that fills a template is the whole template. -/
theorem line_of_isFilled (h : t.IsFilled refs song bypass s) :
    t.line refs song bypass s = t.atoms ++ (renderExtension song).map .char := by
  rw [line, List.filter_eq_self.2 fun g hg => isWritten_of_isFilled h hg]
  rfl

/-- A stretch of a template that a song fills is literal, or something besides dots is
    written for it. -/
theorem literal_or_filled (h : t.IsFilled refs song bypass s) {part : List Atom}
    (hpart : part ⊆ t.atoms) :
    (∃ text : List Char, part = text.map .char) ∨
      ∃ c ∈ t.writeStretch refs song bypass s part, c ≠ '.' := by
  induction part with
  | nil => exact .inl ⟨[], rfl⟩
  | cons atom rest ih =>
    obtain ⟨hatom, hrest⟩ := List.cons_subset.1 hpart
    cases atom with
    | char x =>
      rcases ih hrest with ⟨text, rfl⟩ | ⟨c, hc, hne⟩
      · exact .inl ⟨x :: text, rfl⟩
      · exact .inr ⟨c, List.mem_append_right _ hc, hne⟩
    | field f =>
      obtain ⟨p, hp, rfl⟩ := exists_placeholder hatom
      obtain ⟨c, hc, hne⟩ := h p hp
      exact .inr ⟨c, List.mem_append_left _ hc, hne⟩

theorem renderExtension_ne : renderExtension song ≠ ['.', '.'] := by
  unfold renderExtension
  split
  · next ext hext =>
    intro heq
    have hdot := (Song.not_mem_extension hext).2
    rw [(List.cons.inj heq).2] at hdot
    exact hdot (by simp)
  · simp

theorem writeStretch_literal (text : List Char) :
    t.writeStretch refs song bypass s (text.map .char) = text := by
  simp [writeStretch, writeAtom, List.flatMap_map]

/-- **A song that fills a tidy template stays below.** -/
theorem IsTidy.staysBelow_render (ht : t.IsTidy) (hbypass : t.mentions .bypass = false)
    (h : t.IsFilled refs song bypass s) :
    (Path.ofString (t.render refs song bypass s)).StaysBelow := by
  have hslash : Atom.char '/' ∉ (renderExtension song).map .char := by
    simpa using slash_not_mem_renderExtension
  obtain ⟨front, last, hparts, hline⟩ := Path.splitOn_append t.atoms hslash
  replace hparts : stretches t.atoms = front ++ [last] := hparts
  have hsub : ∀ part ∈ front ++ [last], part ⊆ t.atoms := fun part hpart =>
    Path.subset_of_mem_splitOn (hparts ▸ hpart)
  rw [staysBelow_render_iff hbypass, IsRooted, Climbs, line_of_isFilled h, stretches, hline]
  -- A stretch that is written as nothing, or as dots, was so in the template already.
  constructor
  · rintro ⟨htail, hhead⟩
    cases front with
    | nil => exact htail rfl
    | cons first rest =>
      have hnone := hhead first rfl
      rcases literal_or_filled h (hsub first (by simp)) with ⟨text, htext⟩ | ⟨c, hc, -⟩
      · rw [htext, writeStretch_literal] at hnone
        subst hnone
        have hopening : t.atoms.splitOn (.char '/') = [] :: (rest ++ [last]) := by
          rw [← stretches, hparts, htext]
          rfl
        exact ht.opening (Path.head?_of_splitOn hopening (by simp))
      · rw [hnone] at hc
        cases hc
  · rintro ⟨stretch, hstretch, heq⟩
    rcases List.mem_append.1 hstretch with hfront | hlast
    · rcases literal_or_filled h (hsub stretch (by simp [hfront])) with ⟨text, htext⟩ | ⟨c, hc, hne⟩
      · rw [htext, writeStretch_literal] at heq
        rw [heq] at htext
        exact (ht.parts stretch (by simp [hparts, hfront])).2 htext
      · simp [heq] at hc
        exact hne hc
    · rw [List.mem_singleton.1 hlast] at heq
      have htidy := ht.parts last (by simp [hparts])
      rcases literal_or_filled h (hsub last (by simp)) with ⟨text, htext⟩ | ⟨c, hc, hne⟩
      · rw [htext, ← List.map_append, writeStretch_literal] at heq
        rcases text with - | ⟨x, - | ⟨y, rest⟩⟩
        · exact renderExtension_ne heq
        · rw [(List.cons.inj heq).1] at htext
          exact htidy.1 htext
        · obtain ⟨hx, htail⟩ := List.cons.inj heq
          obtain ⟨hy, hrest⟩ := List.cons.inj htail
          rw [hx, hy, (List.append_eq_nil_iff.1 hrest).1] at htext
          exact htidy.2 htext
      · have hmem : c ∈ t.writeStretch refs song bypass s
            (last ++ (renderExtension song).map .char) := by
          rw [writeStretch, List.flatMap_append]
          exact List.mem_append_left _ hc
        simp [heq] at hmem
        exact hne hmem

end Template

end SongLibrary
