/-
  Reading what was written.

  * `stringFrom?_escape`: a text that is escaped is read again;
  * `parse?_print_textMembers`: an object of texts is read again;
  * `TagMap.parse?_json`: tags are read again from their text, so that a song keeps its
    tags in the row that it is stored in (`Song.song_row`).
-/
import SongLibrary.SongTable.Basic

namespace SongLibrary

namespace Json

/-! ## Strings -/

theorem hexCode?_hexDigit {n : Nat} (h : n < 0x20) :
    hexCode? '0' '0' (Text.hexDigit (n / 16)) (Text.hexDigit (n % 16)) = some n := by
  have hzero : Text.hexValue? '0' = some 0 := by decide
  unfold hexCode?
  rw [hzero, Text.hexValue?_hexDigit _ (by omega), Text.hexValue?_hexDigit _ (by omega)]
  simp only [Option.some.injEq]
  omega

/-- A character that stands for itself is read. -/
theorem stringFrom?_plain {c : Char} (hquote : c ≠ '"') (hbackslash : c ≠ '\\') (hprinted : ¬ c.toNat < 0x20)
    (rest : List Char) : stringFrom? none (c :: rest) = consText c (stringFrom? none rest) := by
  rw [stringFrom?.eq_def]
  split
  · next heq => cases heq
  · next heq => exact absurd (List.cons.inj heq).1 hquote
  · next heq => exact absurd (List.cons.inj heq).1 hbackslash
  · next heq => exact absurd (List.cons.inj heq).1 hbackslash
  · next heq =>
    obtain ⟨rfl, rfl⟩ := List.cons.inj heq
    rw [if_neg (not_or.2 ⟨hbackslash, hprinted⟩)]
    rfl

/-- A character that is escaped is read again. -/
theorem stringFrom?_escapeChar (c : Char) (rest : List Char) :
    stringFrom? none (escapeChar c ++ rest) = consText c (stringFrom? none rest) := by
  unfold escapeChar
  split
  case h_8 hquote hbackslash _ _ _ _ _ =>
    split
    · next hcontrol =>
      have hcode := hexCode?_hexDigit hcontrol
      have hplain : ¬ (0xDC00 ≤ c.toNat ∧ c.toNat ≤ 0xDFFF) ∧
          ¬ (0xD800 ≤ c.toNat ∧ c.toNat ≤ 0xDBFF) := by omega
      simp [stringFrom?, hcode, hplain]
    · next hprinted => exact stringFrom?_plain hquote hbackslash hprinted rest
  all_goals simp [stringFrom?, escaped?]

/-- **A text that is escaped is read again**, up to the closing quote. -/
theorem stringFrom?_escape (text rest : List Char) :
    stringFrom? none (text.flatMap escapeChar ++ '"' :: rest) = some (some text, rest) := by
  induction text with
  | nil => simp [stringFrom?]
  | cons c text ih =>
    rw [List.flatMap_cons, List.append_assoc, stringFrom?_escapeChar, ih]
    rfl

theorem skipSpace_cons {c : Char} (h : isSpace c = false) (rest : List Char) :
    skipSpace (c :: rest) = c :: rest := by
  simp [skipSpace, h]

theorem writeString_append (text : String) (rest : List Char) :
    writeString text ++ rest = '"' :: (text.toList.flatMap escapeChar ++ '"' :: rest) := by
  simp [writeString]

/-- A string is read again as a value. -/
theorem valueFrom?_writeString {fuel : Nat} (text : String) (rest : List Char) :
    valueFrom? (fuel + 1) (writeString text ++ rest) = some (.text text, rest) := by
  rw [writeString_append, valueFrom?, skipSpace_cons (by decide)]
  simp [stringFrom?_escape, Json.text]

/-! ## Objects of texts -/

variable {members : List (String × String)}

/-- The members of an object whose values are texts. -/
def textMembers (members : List (String × String)) : List (Option String × Json) :=
  members.map fun m => (some m.1, .text m.2)

theorem writeMembers_cons (name value : String) (rest : List (Option String × Json)) :
    writeMembers ((some name, .text value) :: rest) = writeString name ++ ':' :: writeString value ++
      (if rest.isEmpty then ['\x7d'] else ',' :: writeMembers rest) := by
  cases rest <;> simp [writeMembers, write, Json.text]

/-- The members of an object of texts are read again, up to the closing brace. -/
theorem membersFrom?_writeMembers {fuel : Nat} (hne : members ≠ []) (hfuel : members.length < fuel)
    (rest : List Char) : membersFrom? fuel (writeMembers (textMembers members) ++ rest) =
      some (textMembers members, rest) := by
  induction members generalizing fuel with
  | nil => exact absurd rfl hne
  | cons m members ih =>
    obtain ⟨name, value⟩ := m
    obtain ⟨fuel, rfl⟩ : ∃ n, fuel = n + 2 := ⟨fuel - 2, by simp at hfuel; omega⟩
    rw [textMembers, List.map_cons, writeMembers_cons, List.append_assoc, List.append_assoc,
      writeString_append, membersFrom?, skipSpace_cons (by decide)]
    simp only [stringFrom?_escape, List.cons_append, skipSpace_cons (show isSpace ':' = false by decide),
      valueFrom?_writeString]
    cases members with
    | nil => simp [skipSpace_cons (show isSpace '\x7d' = false by decide)]
    | cons m' members =>
      have hmore : (m' :: members).length < fuel + 1 := by simpa using hfuel
      have hrest := ih (List.cons_ne_nil _ _) hmore
      rw [textMembers, List.map_cons] at hrest
      simp [skipSpace_cons (show isSpace ',' = false by decide), hrest]

theorem length_le_writeMembers (members : List (String × String)) :
    members.length ≤ (writeMembers (textMembers members)).length := by
  induction members with
  | nil => simp
  | cons m members ih =>
    rw [textMembers, List.map_cons, writeMembers_cons]
    cases members with
    | nil =>
      simp
      omega
    | cons m' members =>
      have hmore : (textMembers (m' :: members)).isEmpty = false := rfl
      rw [← textMembers, hmore, if_neg Bool.false_ne_true]
      simp only [List.length_cons, List.length_append] at ih ⊢
      omega

theorem valueFrom?_object (fuel : Nat) (text : List Char) :
    valueFrom? (fuel + 1) ('\x7b' :: '"' :: text) =
      (membersFrom? fuel ('"' :: text)).map fun read => (.object read.1, read.2) := by
  rw [valueFrom?, skipSpace_cons (by decide)]
  simp only [skipSpace_cons (show isSpace '"' = false by decide)]
  split
  · next h => cases h
  · rfl

theorem isPlain_record (members : List (String × String)) :
    isPlain (.object (textMembers members)) := by
  have hmembers : membersPlainWithin (maxDepth - 1) (textMembers members) := by
    induction members with
    | nil => rfl
    | cons m members ih =>
      rw [textMembers, List.map_cons, membersPlainWithin, ← textMembers, ih]
      simp [Json.text, isPlainWithin]
  simpa [isPlain, isPlainWithin, maxDepth] using hmembers

/-- **An object of texts is read again.** -/
theorem parse?_print_textMembers (members : List (String × String)) :
    parse? (print (.object (textMembers members))) = some (.object (textMembers members)) := by
  have hread : read? (write (.object (textMembers members))) = some (.object (textMembers members)) := by
    rw [write, read?]
    cases members with
    | nil => rfl
    | cons m members =>
      have hfuel : (m :: members).length <
          2 * ('\x7b' :: writeMembers (textMembers (m :: members))).length + 1 := by
        have hle := length_le_writeMembers (m :: members)
        simp at hle ⊢
        omega
      have hmembers := membersFrom?_writeMembers (List.cons_ne_nil m members) hfuel []
      rw [List.append_nil] at hmembers
      obtain ⟨tail, htail⟩ : ∃ tail, writeMembers (textMembers (m :: members)) = '"' :: tail := by
        rw [textMembers, List.map_cons, writeMembers_cons, List.append_assoc, writeString_append]
        exact ⟨_, rfl⟩
      rw [htail] at hmembers
      rw [htail, valueFrom?_object, hmembers]
      rfl
  rw [parse?, print, String.toList_ofList, hread]
  simp [isPlain_record]

end Json

/-! ## Tags -/

namespace TagKey

@[simp] theorem ofName?_name (key : TagKey) : ofName? key.name = some key := by
  cases key <;> decide

end TagKey

namespace TagMap

theorem get?_foldl_set (tags : TagMap) (keys : List TagKey) (m : TagMap) (key : TagKey) :
    ((keys.filterMap fun k => (tags.get? k).map (k, ·)).foldl (fun m v => m.set v.1 v.2) m).get? key =
      if key ∈ keys ∧ (tags.get? key).isSome then tags.get? key else m.get? key := by
  induction keys generalizing m with
  | nil => simp
  | cons k keys ih =>
    cases hk : tags.get? k with
    | none =>
      simp only [List.filterMap_cons, hk, Option.map_none, ih, List.mem_cons]
      by_cases hkey : key = k
      · simp [hkey, hk]
      · simp [hkey]
    | some value =>
      simp only [List.filterMap_cons, hk, Option.map_some, List.foldl_cons, ih, List.mem_cons,
        get?_set]
      by_cases hkey : key = k
      · simp [hkey, hk]
      · simp [hkey]

/-- A map is that of its keys with their values. -/
@[simp] theorem ofList_toList (tags : TagMap) : ofList tags.toList = tags := by
  ext key : 1
  rw [ofList, toList, get?_foldl_set]
  cases tags.get? key <;> simp [TagKey.mem_all]

theorem mapM_tagOfMember? (values : List (TagKey × String)) :
    (Json.textMembers (values.map fun v => (v.1.name, v.2))).mapM tagOfMember? = some values := by
  induction values with
  | nil => rfl
  | cons v values ih =>
    rw [Json.textMembers, List.map_cons, List.map_cons, List.mapM_cons, ← Json.textMembers, ih]
    simp [tagOfMember?, Json.text, Json.text?]

/-- **Tags are read again from their text.** -/
@[simp] theorem parse?_json (tags : TagMap) : parse? tags.json = some tags := by
  have hmembers : tags.toJson =
      .object (Json.textMembers (tags.toList.map fun v => (v.1.name, v.2))) := by
    simp [toJson, Json.record, Json.textMembers, Function.comp_def]
  rw [parse?, json, hmembers, Json.parse?_print_textMembers, Option.bind_some, ofJson?]
  simp [Json.members?, mapM_tagOfMember?]

end TagMap

/-- **A song that is stored is read again**, with the id of its row. -/
@[simp] theorem Song.song_row (song : Song) (id : Int64) :
    (song.row id).song = { song with id := some id } := by
  simp [Song.row, Row.song]

end SongLibrary
