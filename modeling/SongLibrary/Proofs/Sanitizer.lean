/-
  What cleaning keeps.

  * `fitting_isLongestFit`: of the characters that the platform allows, the longest beginning
    that fits is kept;
  * `IsClean`: text that a sanitizer has nothing to remove from; it is left as it is
    (`IsClean.clean_eq`), and whatever is cleaned is such text (`isClean_clean`,
    `isClean_cleanBytes`);
  * `fittingSymbols_sublist`: cleaning a byte string adds nothing to the characters that the
    bytes encode, and on the bytes of a text it is cleaning that text (`cleanBytes_toUTF8`).

  `cleaning` puts these together.
-/
import Mathlib.Data.String.Basic
import Mathlib.Tactic.ByContra
import SongLibrary.Proofs.Text.Utf8
import SongLibrary.Sanitizer

namespace SongLibrary

open Text (Symbol)

/-! ## What is forbidden -/

/-- No platform allows a slash. -/
theorem Platform.forbids_slash (p : Platform) : p.forbids '/' = true := by
  simp [forbids, forbiddenCharacters]

/-- Every platform allows digits. -/
theorem Platform.forbids_of_isDigit (p : Platform) {c : Char} (h : c.isDigit) :
    p.forbids c = false := by
  have hdigits : ∀ x ∈ '^' :: forbiddenCharacters, x.isDigit = false := by
    simp [forbiddenCharacters]
  by_contra hforbidden
  have hmem : c ∈ '^' :: forbiddenCharacters := by
    simp only [forbids, Bool.not_eq_false, Bool.or_eq_true, Bool.and_eq_true, List.contains_iff_mem,
      beq_iff_eq] at hforbidden
    rcases hforbidden with hmem | ⟨-, rfl⟩
    · exact List.mem_cons_of_mem _ hmem
    · exact List.mem_cons_self ..
  rw [hdigits c hmem] at h
  cases h

theorem Platform.stripsTrailingDots_iff (p : Platform) :
    p.stripsTrailingDots = true ↔ p = .windows := by
  cases p <;> simp [stripsTrailingDots]

/-! ## The parts of a text that are kept -/

namespace Text

/-- The longest beginning of a text that takes at most `capacity` bytes. -/
structure IsLongestFit (capacity : Nat) (text kept : List Char) : Prop where
  begins : kept <+: text
  fits : String.utf8Len kept ≤ capacity
  longest : ∀ other, other <+: text → String.utf8Len other ≤ capacity → other <+: kept

/-- There is one longest beginning. -/
theorem IsLongestFit.unique {capacity : Nat} {text kept kept' : List Char}
    (h : IsLongestFit capacity text kept) (h' : IsLongestFit capacity text kept') :
    kept = kept' := by
  have hle := (h'.longest kept h.begins h.fits).length_le
  have hge := h.longest kept' h'.begins h'.fits
  exact (hge.eq_of_length_le hle).symm

theorem isLongestFit_self {capacity : Nat} {text : List Char}
    (h : String.utf8Len text ≤ capacity) : IsLongestFit capacity text text :=
  ⟨List.prefix_rfl, h, fun _ hother _ => hother⟩

/-- A text without the dots at its end. -/
structure IsWithoutDots (text kept : List Char) : Prop where
  dots : ∃ n, text = kept ++ List.replicate n '.'
  ending : kept.getLast? ≠ some '.'

theorem dropEndWhile_append {α : Type} (p : α → Bool) (l : List α) :
    ∃ dropped, l = dropEndWhile p l ++ dropped ∧ ∀ a ∈ dropped, p a = true := by
  induction l with
  | nil => exact ⟨[], rfl, by simp⟩
  | cons a l ih =>
    obtain ⟨dropped, hl, hdropped⟩ := ih
    rw [dropEndWhile_cons]
    split
    · next hempty =>
      rw [hempty, List.nil_append] at hl
      subst hl
      split
      · next ha =>
        refine ⟨a :: l, rfl, fun b hb => ?_⟩
        rcases List.mem_cons.1 hb with rfl | hb
        · exact ha
        · exact hdropped b hb
      · exact ⟨l, rfl, hdropped⟩
    · exact ⟨dropped, by rw [List.cons_append, ← hl], hdropped⟩

theorem isWithoutDots_dropEndWhile (text : List Char) :
    IsWithoutDots text (dropEndWhile (· == '.') text) := by
  obtain ⟨dropped, htext, hdropped⟩ := dropEndWhile_append (· == '.') text
  refine ⟨⟨dropped.length, ?_⟩, fun hdot => ?_⟩
  · rw [← List.eq_replicate_length.2 fun c hc => by simpa using hdropped c hc]
    exact htext
  · have hlast := dropEndWhile_getLast? (· == '.') text '.' hdot
    cases hlast

/-- The characters of a byte string, without its ill-formed sequences. -/
def characters : List Symbol → List Char
  | [] => []
  | .char c :: rest => c :: characters rest
  | .stray _ :: rest => characters rest

theorem toUTF8_eq_encode (text : String) :
    text.toUTF8.data.toList = encode (text.toList.map .char) := by
  have hbytes : text.toUTF8 = text.toList.utf8Encode := String.utf8Encode_toList.symm
  rw [hbytes, List.utf8Encode, List.toList_data_toByteArray, encode, List.flatMap_map]
  rfl

end Text

namespace Sanitizer

open Text (IsLongestFit IsWithoutDots)

variable (s : Sanitizer)

/-- The characters of a text that the platform allows. -/
def allowed (text : List Char) : List Char :=
  text.filter (!s.platform.forbids ·)

/-- Text that there is nothing to remove from. -/
structure IsClean (text : List Char) : Prop where
  allowed : ∀ c ∈ text, s.platform.forbids c = false
  fits : String.utf8Len text ≤ s.capacity
  ending : s.platform = .windows → text.getLast? ≠ some '.'

/-! ## Cleaning a text -/

/-- **Of the allowed characters, the longest beginning that fits is kept.** -/
theorem fitting_isLongestFit (room : Nat) (text : List Char) :
    IsLongestFit room (s.allowed text) (s.fitting room text) := by
  induction text generalizing room with
  | nil => exact Text.isLongestFit_self (Nat.zero_le room)
  | cons c rest ih =>
    unfold fitting allowed
    by_cases hc : s.platform.forbids c = true
    · rw [if_pos hc, List.filter_cons_of_neg (by simp [hc])]
      exact ih room
    rw [if_neg hc, List.filter_cons_of_pos (by simpa using hc)]
    by_cases hroom : c.utf8Size ≤ room
    · rw [if_pos hroom]
      have hrest := ih (room - c.utf8Size)
      refine ⟨List.cons_prefix_cons.2 ⟨rfl, hrest.begins⟩, ?_, fun other hother hfits => ?_⟩
      · rw [String.utf8Len_cons]
        have := hrest.fits
        omega
      · cases other with
        | nil => exact List.nil_prefix
        | cons c' other =>
          obtain ⟨rfl, htail⟩ := List.cons_prefix_cons.1 hother
          rw [String.utf8Len_cons] at hfits
          exact List.cons_prefix_cons.2 ⟨rfl, hrest.longest other htail (by omega)⟩
    · rw [if_neg hroom]
      refine ⟨List.nil_prefix, Nat.zero_le room, fun other hother hfits => ?_⟩
      cases other with
      | nil => exact List.nil_prefix
      | cons c' other =>
        obtain ⟨rfl, -⟩ := List.cons_prefix_cons.1 hother
        rw [String.utf8Len_cons] at hfits
        omega

theorem withoutTrailingDots_prefix (text : List Char) : s.withoutTrailingDots text <+: text := by
  unfold withoutTrailingDots
  split
  · exact Text.dropEndWhile_prefix _ _
  · exact List.prefix_rfl

/-- Where the platform allows them, the dots at the end stay. -/
theorem withoutTrailingDots_spec (text : List Char) :
    if s.platform = .windows then IsWithoutDots text (s.withoutTrailingDots text)
    else s.withoutTrailingDots text = text := by
  unfold withoutTrailingDots
  split <;> rename_i hplatform
  · rw [if_pos ((Platform.stripsTrailingDots_iff _).2 hplatform)]
    exact Text.isWithoutDots_dropEndWhile text
  · rw [if_neg (mt (Platform.stripsTrailingDots_iff _).1 hplatform)]

/-- Removing the dots at the end of allowed text that fits leaves clean text. -/
theorem isClean_withoutTrailingDots {text : List Char}
    (hallowed : ∀ c ∈ text, s.platform.forbids c = false)
    (hfits : String.utf8Len text ≤ s.capacity) : s.IsClean (s.withoutTrailingDots text) := by
  have hkept := s.withoutTrailingDots_prefix text
  refine ⟨fun c hc => hallowed c (hkept.subset hc),
    Nat.le_trans (String.utf8Len_le_of_sublist hkept.sublist) hfits, fun hwindows => ?_⟩
  have hspec := s.withoutTrailingDots_spec text
  rw [if_pos hwindows] at hspec
  exact hspec.ending

theorem isClean_clean (text : List Char) : s.IsClean (s.clean text) := by
  have hkept := s.fitting_isLongestFit s.capacity text
  refine s.isClean_withoutTrailingDots (fun c hc => ?_) hkept.fits
  have hallowed := (List.mem_filter.1 (hkept.begins.subset hc)).2
  simpa using hallowed

/-- Cleaned text holds only characters that its platform allows. -/
theorem mem_clean {c : Char} {text : List Char} (h : c ∈ s.clean text) :
    s.platform.forbids c = false :=
  (s.isClean_clean text).allowed c h

/-- **Clean text is left as it is.** -/
theorem IsClean.clean_eq {s : Sanitizer} {text : List Char} (h : s.IsClean text) :
    s.clean text = text := by
  have hallowed : s.allowed text = text :=
    List.filter_eq_self.2 fun c hc => by simp [h.allowed c hc]
  have hkept := s.fitting_isLongestFit s.capacity text
  rw [hallowed] at hkept
  rw [clean, hkept.unique (Text.isLongestFit_self h.fits), withoutTrailingDots]
  split
  · next hstrips =>
    refine Text.dropEndWhile_eq_self _ fun c hc => ?_
    have hdot := h.ending ((Platform.stripsTrailingDots_iff _).1 hstrips)
    rw [Option.mem_def.1 hc] at hdot
    simpa using hdot
  · rfl

/-! ## Cleaning a byte string -/

/-- What is kept of a byte string are some of its characters, all of them allowed and
    together within the room. -/
theorem fittingSymbols_spec (room : Nat) (whole : Bool) (symbols : List Symbol) :
    (s.fittingSymbols room whole symbols).Sublist (s.allowed (Text.characters symbols)) ∧
      String.utf8Len (s.fittingSymbols room whole symbols) ≤ room := by
  fun_induction fittingSymbols s room whole symbols with
  | case1 => simp
  | case2 room _ _ rest ih => exact ih
  | case3 room c rest ih =>
    exact ⟨ih.1.trans ((List.sublist_cons_self ..).filter _), ih.2⟩
  | case4 room c rest hc ih =>
    rw [Text.characters, allowed, List.filter_cons_of_neg (by simp [hc])]
    exact ih
  | case5 room c rest hc hroom ih =>
    rw [Text.characters, allowed, List.filter_cons_of_pos (by simpa using hc), String.utf8Len_cons]
    exact ⟨ih.1.cons_cons c, by omega⟩
  | case6 room c rest hc hroom ih =>
    exact ⟨ih.1.trans ((List.sublist_cons_self ..).filter _), ih.2⟩

theorem isClean_cleanBytes (bytes : List UInt8) : s.IsClean (s.cleanBytes bytes) := by
  obtain ⟨hsublist, hfits⟩ := s.fittingSymbols_spec s.capacity true (Text.decode bytes)
  refine s.isClean_withoutTrailingDots (fun c hc => ?_) hfits
  have hallowed := (List.mem_filter.1 (hsublist.subset hc)).2
  simpa using hallowed

theorem cleanBytes_sublist (bytes : List UInt8) :
    (s.cleanBytes bytes).Sublist (Text.characters (Text.decode bytes)) := by
  have hkept := (s.fittingSymbols_spec s.capacity true (Text.decode bytes)).1
  exact (s.withoutTrailingDots_prefix _).sublist.trans (hkept.trans List.filter_sublist)

/-- After the first character that does not fit, nothing more of a text is kept. -/
theorem fittingSymbols_false (room : Nat) (text : List Char) :
    s.fittingSymbols room false (text.map .char) = [] := by
  induction text with
  | nil => rfl
  | cons c text ih => rw [List.map_cons, fittingSymbols, ih]

theorem fittingSymbols_text (room : Nat) (text : List Char) :
    s.fittingSymbols room true (text.map .char) = s.fitting room text := by
  induction text generalizing room with
  | nil => rfl
  | cons c text ih =>
    rw [List.map_cons, fittingSymbols, fitting, ih, ih, fittingSymbols_false]

/-- The bytes of a text are cleaned as the text. -/
theorem cleanBytes_toUTF8 (text : String) :
    s.cleanBytes text.toUTF8.data.toList = s.clean text.toList := by
  rw [cleanBytes, Text.toUTF8_eq_encode, Text.decode_encode, fittingSymbols_text, clean]

/-! ## The laws of cleaning -/

/-- **Cleaning keeps the longest beginning of the allowed characters that fits**, less the dots
    at its end on Windows.  Of a byte string it keeps clean text made of characters that the
    bytes encode, and clean text is not changed again. -/
theorem cleaning (s : Sanitizer) :
    (∀ text, ∃ kept, IsLongestFit s.capacity (s.allowed text) kept ∧
      if s.platform = .windows then IsWithoutDots kept (s.clean text) else s.clean text = kept) ∧
    (∀ bytes, Text.encode (Text.decode bytes) = bytes ∧ s.IsClean (s.cleanBytes bytes) ∧
      (s.cleanBytes bytes).Sublist (Text.characters (Text.decode bytes))) ∧
    (∀ text : String, s.cleanBytes text.toUTF8.data.toList = s.clean text.toList) ∧
    (∀ text, s.clean (s.clean text) = s.clean text) ∧
    (∀ bytes, s.clean (s.cleanBytes bytes) = s.cleanBytes bytes) := by
  refine ⟨fun text => ?_, fun bytes => ?_, s.cleanBytes_toUTF8, fun text => ?_, fun bytes => ?_⟩
  · exact ⟨s.fitting s.capacity text, s.fitting_isLongestFit s.capacity text,
      s.withoutTrailingDots_spec _⟩
  · exact ⟨Text.encode_decode bytes, s.isClean_cleanBytes bytes, s.cleanBytes_sublist bytes⟩
  · exact (s.isClean_clean text).clean_eq
  · exact (s.isClean_cleanBytes bytes).clean_eq

end Sanitizer

end SongLibrary
