/-
  Byte strings and the characters they encode.

  The first byte of a character says how many bytes follow, and each of these gives six bits of
  the code (`tailBytes`).

  * `decode_encode`: the bytes of a text are split into its characters, with nothing between
    them;
  * `encode_decode`: no byte is lost when a byte string is split.
-/
import Mathlib.Tactic.Ring
import SongLibrary.Text.Utf8

namespace SongLibrary.Text

/-! ## The bytes of a character -/

/-- The last `m` bytes of a character, from the last bits of its code. -/
def tailBytes : Nat → Nat → List UInt8
  | 0, _ => []
  | m + 1, n => .ofNat (n / 64 ^ m % 64 + 0x80) :: tailBytes m n

/-- The last bytes depend on the last bits alone. -/
theorem tailBytes_add (m a n : Nat) : tailBytes m (a * 64 ^ m + n) = tailBytes m n := by
  induction m generalizing a with
  | zero => rfl
  | succ m ih =>
    have hhead : (a * 64 ^ (m + 1) + n) / 64 ^ m % 64 = n / 64 ^ m % 64 := by
      rw [Nat.pow_succ', ← Nat.mul_assoc, Nat.add_comm, Nat.add_mul_div_right _ _ (Nat.pow_pos (by decide))]
      omega
    rw [tailBytes, tailBytes, hhead, Nat.pow_succ', ← Nat.mul_assoc, ih]

/-- No character is a surrogate. -/
theorem toNat_valid (c : Char) : c.toNat < 0xD800 ∨ 0xDFFF < c.toNat ∧ c.toNat < 0x110000 :=
  c.valid

theorem toNat_byte {k : Nat} (h : k < 256) : (UInt8.ofNat k).toNat = k :=
  UInt8.toNat_ofNat_of_lt' h

theorem toNat_tailByte (n : Nat) : (UInt8.ofNat (n % 64 + 0x80)).toNat = n % 64 + 0x80 :=
  toNat_byte (by omega)

theorem utf8EncodeChar_eq (c : Char) : String.utf8EncodeChar c =
    if c.toNat < 0x80 then [.ofNat c.toNat]
    else if c.toNat < 0x800 then .ofNat (c.toNat / 64 + 0xC0) :: tailBytes 1 c.toNat
    else if c.toNat < 0x10000 then .ofNat (c.toNat / 64 ^ 2 + 0xE0) :: tailBytes 2 c.toNat
    else .ofNat (c.toNat / 64 ^ 3 + 0xF0) :: tailBytes 3 c.toNat := by
  have hvalid := toNat_valid c
  have hcode : c.val.toNat = c.toNat := rfl
  unfold String.utf8EncodeChar
  simp only [hcode, tailBytes]
  generalize c.toNat = n at *
  by_cases h₁ : n < 0x80
  · rw [if_pos h₁, if_pos (by omega)]
  by_cases h₂ : n < 0x800
  · have hfirst : n / 64 % 32 = n / 64 := by omega
    rw [if_neg (by omega), if_pos (by omega), if_neg h₁, if_pos h₂, hfirst]
    simp
  by_cases h₃ : n < 0x10000
  · have hfirst : n / 4096 % 16 = n / 4096 := by omega
    rw [if_neg (by omega), if_neg (by omega), if_pos (by omega), if_neg h₁, if_neg h₂, if_pos h₃,
      hfirst]
    simp
  · have hfirst : n / 262144 % 8 = n / 262144 := by omega
    rw [if_neg (by omega), if_neg (by omega), if_neg (by omega), if_neg h₁, if_neg h₂, if_neg h₃,
      hfirst]
    simp

/-! ## What a byte opens -/

section

variable {k : Nat}

theorem opening_one (h : k < 0x80) : opening (.ofNat k) = .inl (.char (Char.ofNat k)) := by
  have hk := toNat_byte (show k < 256 by omega)
  simp only [opening, UInt8.lt_iff_toNat_lt, hk]
  exact if_pos h

theorem opening_two (hlow : 0xC2 ≤ k) (hhigh : k < 0xE0) :
    opening (.ofNat k) = .inr ⟨[.ofNat k], k % 32, 1, 0x80, 0xBF⟩ := by
  have hk := toNat_byte (show k < 256 by omega)
  simp only [opening, UInt8.lt_iff_toNat_lt, hk]
  rw [if_neg (by simp; omega), if_neg (by simpa using hlow), if_pos (by simpa using hhigh)]

theorem ofNat_eq_iff (hk : k < 256) {n : Nat} (hn : n < 256) :
    UInt8.ofNat k = .ofNat n ↔ k = n := by
  rw [← UInt8.toNat_inj, toNat_byte hk, toNat_byte hn]

theorem opening_three (hlow : 0xE0 ≤ k) (hhigh : k < 0xF0) :
    opening (.ofNat k) = .inr ⟨[.ofNat k], k % 16, 2, if k = 0xE0 then 0xA0 else 0x80,
      if k = 0xED then 0x9F else 0xBF⟩ := by
  have hk := toNat_byte (show k < 256 by omega)
  have hfirst : UInt8.ofNat k = 0xE0 ↔ k = 0xE0 := ofNat_eq_iff (by omega) (by decide)
  have hlast : UInt8.ofNat k = 0xED ↔ k = 0xED := ofNat_eq_iff (by omega) (by decide)
  simp only [opening, UInt8.lt_iff_toNat_lt, hk, hfirst, hlast]
  rw [if_neg (by simp; omega), if_neg (by simp; omega), if_neg (by simpa using hlow),
    if_pos (by simpa using hhigh)]

theorem opening_four (hlow : 0xF0 ≤ k) (hhigh : k < 0xF5) :
    opening (.ofNat k) = .inr ⟨[.ofNat k], k % 8, 3, if k = 0xF0 then 0x90 else 0x80,
      if k = 0xF4 then 0x8F else 0xBF⟩ := by
  have hk := toNat_byte (show k < 256 by omega)
  have hfirst : UInt8.ofNat k = 0xF0 ↔ k = 0xF0 := ofNat_eq_iff (by omega) (by decide)
  have hlast : UInt8.ofNat k = 0xF4 ↔ k = 0xF4 := ofNat_eq_iff (by omega) (by decide)
  simp only [opening, UInt8.lt_iff_toNat_lt, hk, hfirst, hlast]
  rw [if_neg (by simp; omega), if_neg (by simp; omega), if_neg (by simp; omega),
    if_neg (by simpa using hlow), if_pos (by simpa using hhigh)]

end

/-! ## Reading what was written -/

section

variable {o : Opened} {b : UInt8}

theorem decodeFrom_last (hlow : o.low ≤ b) (hhigh : b ≤ o.high) (h : o.missing ≤ 1)
    (rest : List UInt8) :
    decodeFrom (some o) (b :: rest) =
      .char (Char.ofNat (o.code * 64 + b.toNat % 64)) :: decodeFrom none rest := by
  rw [decodeFrom, if_pos ⟨hlow, hhigh⟩]
  exact if_pos h

theorem decodeFrom_more (hlow : o.low ≤ b) (hhigh : b ≤ o.high) (h : 1 < o.missing)
    (rest : List UInt8) :
    decodeFrom (some o) (b :: rest) =
      decodeFrom (some ⟨o.bytes ++ [b], o.code * 64 + b.toNat % 64, o.missing - 1, 0x80, 0xBF⟩)
        rest := by
  rw [decodeFrom, if_pos ⟨hlow, hhigh⟩]
  exact if_neg (Nat.not_le.2 h)

theorem decodeFrom_stray (h : ¬ (o.low ≤ b ∧ b ≤ o.high)) (rest : List UInt8) :
    decodeFrom (some o) (b :: rest) = .stray o.bytes :: decodeFrom none (b :: rest) :=
  if_neg h

/-- The bytes that are missing give the rest of the code. -/
theorem decodeFrom_tailBytes {m n : Nat} (hmissing : o.missing = m + 1)
    (hlow : o.low.toNat ≤ n / 64 ^ m % 64 + 0x80) (hhigh : n / 64 ^ m % 64 + 0x80 ≤ o.high.toNat)
    (rest : List UInt8) :
    decodeFrom (some o) (tailBytes (m + 1) n ++ rest) =
      .char (Char.ofNat (o.code * 64 ^ (m + 1) + n % 64 ^ (m + 1))) :: decodeFrom none rest := by
  induction m generalizing o with
  | zero =>
    have hbyte := toNat_tailByte (n / 64 ^ 0)
    have hbits : (n / 64 ^ 0 % 64 + 0x80) % 64 = n / 64 ^ 0 % 64 := by omega
    rw [← hbyte, ← UInt8.le_iff_toNat_le] at hlow hhigh
    rw [tailBytes, List.cons_append, decodeFrom_last hlow hhigh (Nat.le_of_eq hmissing), hbyte,
      hbits]
    simp [tailBytes]
  | succ m ih =>
    have hbyte := toNat_tailByte (n / 64 ^ (m + 1))
    have hbits : (n / 64 ^ (m + 1) % 64 + 0x80) % 64 = n / 64 ^ (m + 1) % 64 := by omega
    rw [← hbyte, ← UInt8.le_iff_toNat_le] at hlow hhigh
    rw [tailBytes, List.cons_append, decodeFrom_more hlow hhigh (by omega), hbyte, hbits,
      ih (by simp [hmissing]) (Nat.le_add_left ..) (by change _ ≤ 0xBF; omega)]
    congr 3
    rw [Nat.mod_pow_succ (b := 64) (k := m + 1), Nat.pow_succ 64 (m + 1)]
    ring

end

/-- The bytes of a character are split off as that character. -/
theorem decodeFrom_utf8EncodeChar (c : Char) (rest : List UInt8) :
    decodeFrom none (String.utf8EncodeChar c ++ rest) = .char c :: decodeFrom none rest := by
  have hvalid := toNat_valid c
  have hcode : Char.ofNat c.toNat = c := Char.ofNat_toNat c
  rw [utf8EncodeChar_eq]
  generalize c.toNat = n at *
  -- By the number of bytes: the first one tells it, and the others give six bits each.
  by_cases h₁ : n < 0x80
  · rw [if_pos h₁, List.singleton_append, decodeFrom, opening_one h₁, hcode]
  by_cases h₂ : n < 0x800
  · rw [if_neg h₁, if_pos h₂, List.cons_append, decodeFrom, opening_two (by omega) (by omega)]
    dsimp only
    rw [decodeFrom_tailBytes rfl (Nat.le_add_left ..) (by change _ ≤ 0xBF; omega)]
    dsimp only
    rw [show (n / 64 + 0xC0) % 32 * 64 ^ (0 + 1) + n % 64 ^ (0 + 1) = n by omega, hcode]
  by_cases h₃ : n < 0x10000
  · rw [if_neg h₁, if_neg h₂, if_pos h₃, List.cons_append, decodeFrom,
      opening_three (by omega) (by omega)]
    refine (decodeFrom_tailBytes rfl ?_ ?_ rest).trans ?_
    · dsimp only
      split
      · change 0xA0 ≤ _; omega
      · exact Nat.le_add_left ..
    · dsimp only
      split
      · change _ ≤ 0x9F; omega
      · change _ ≤ 0xBF; omega
    · dsimp only
      rw [show (n / 64 ^ 2 + 0xE0) % 16 * 64 ^ (1 + 1) + n % 64 ^ (1 + 1) = n by omega, hcode]
  · rw [if_neg h₁, if_neg h₂, if_neg h₃, List.cons_append, decodeFrom,
      opening_four (by omega) (by omega)]
    refine (decodeFrom_tailBytes rfl ?_ ?_ rest).trans ?_
    · dsimp only
      split
      · change 0x90 ≤ _; omega
      · exact Nat.le_add_left ..
    · dsimp only
      split
      · change _ ≤ 0x8F; omega
      · change _ ≤ 0xBF; omega
    · dsimp only
      rw [show (n / 64 ^ 3 + 0xF0) % 8 * 64 ^ (2 + 1) + n % 64 ^ (2 + 1) = n by omega, hcode]

/-- **The bytes of a text are split into its characters.** -/
theorem decode_encode (text : List Char) : decode (encode (text.map .char)) = text.map .char := by
  induction text with
  | nil => rfl
  | cons c text ih =>
    rw [decode] at ih ⊢
    rw [List.map_cons, encode, List.flatMap_cons, Symbol.bytes, decodeFrom_utf8EncodeChar]
    exact congrArg _ ih

/-! ## Nothing is lost -/

/-- Every way to go on that the ranges allow completes a character with the bytes read so far. -/
structure Opened.Begins (o : Opened) : Prop where
  missing : 0 < o.missing
  low : 0x80 ≤ o.low.toNat
  high : o.high.toNat ≤ 0xBF
  completes : ∀ n < 64 ^ o.missing, o.low.toNat ≤ n / 64 ^ (o.missing - 1) + 0x80 →
    n / 64 ^ (o.missing - 1) + 0x80 ≤ o.high.toNat →
    String.utf8EncodeChar (Char.ofNat (o.code * 64 ^ o.missing + n)) =
      o.bytes ++ tailBytes o.missing n

theorem toNat_ofNat {n : Nat} (h : n < 0xD800 ∨ 0xDFFF < n ∧ n < 0x110000) :
    (Char.ofNat n).toNat = n := by
  rw [Char.ofNat, dif_pos h]
  rfl

/-- The byte read with the given bits after its mark. -/
theorem byte_eq {b : UInt8} (hlow : 0x80 ≤ b.toNat) (hhigh : b.toNat ≤ 0xBF) :
    .ofNat (b.toNat % 64 % 64 + 0x80) = b := by
  rw [show b.toNat % 64 % 64 + 0x80 = b.toNat by omega, UInt8.ofNat_toNat]

section

variable {o : Opened} {b : UInt8}

theorem Opened.Begins.last (h : o.Begins) (hlow : o.low ≤ b) (hhigh : b ≤ o.high)
    (hlast : o.missing ≤ 1) :
    String.utf8EncodeChar (Char.ofNat (o.code * 64 + b.toNat % 64)) = o.bytes ++ [b] := by
  rw [UInt8.le_iff_toNat_le] at hlow hhigh
  have hbounds := And.intro h.low h.high
  have hone : o.missing = 1 := Nat.le_antisymm hlast h.missing
  have hcompletes := h.completes (b.toNat % 64) (by rw [hone]; omega) (by simp [hone]; omega)
    (by simp [hone]; omega)
  rw [hone] at hcompletes
  rw [tailBytes, Nat.pow_zero, Nat.div_one, byte_eq (by omega) (by omega)] at hcompletes
  simpa [tailBytes] using hcompletes

theorem Opened.Begins.more (h : o.Begins) (hlow : o.low ≤ b) (hhigh : b ≤ o.high)
    (hmore : 1 < o.missing) :
    Opened.Begins ⟨o.bytes ++ [b], o.code * 64 + b.toNat % 64, o.missing - 1, 0x80, 0xBF⟩ := by
  rw [UInt8.le_iff_toNat_le] at hlow hhigh
  have hbounds := And.intro h.low h.high
  obtain ⟨m, hm⟩ : ∃ m, o.missing = m + 1 := ⟨o.missing - 1, by omega⟩
  refine ⟨by simp; omega, Nat.le_refl _, Nat.le_refl _, fun n hn _ _ => ?_⟩
  dsimp only at hn ⊢
  rw [hm, Nat.add_sub_cancel] at hn ⊢
  have hfirst : (b.toNat % 64 * 64 ^ m + n) / 64 ^ m = b.toNat % 64 := by
    rw [Nat.add_comm, Nat.add_mul_div_right _ _ (Nat.pow_pos (by decide)), Nat.div_eq_of_lt hn,
      Nat.zero_add]
  have hlt : b.toNat % 64 * 64 ^ m + n < 64 ^ (m + 1) := by
    rw [Nat.pow_succ']
    exact Nat.lt_of_lt_of_le (Nat.add_lt_add_left hn _)
      (by rw [← Nat.succ_mul]; exact Nat.mul_le_mul_right _ (Nat.mod_lt _ (by decide)))
  have hcompletes := h.completes (b.toNat % 64 * 64 ^ m + n) (by rw [hm]; exact hlt)
    (by rw [hm, Nat.add_sub_cancel, hfirst]; omega) (by rw [hm, Nat.add_sub_cancel, hfirst]; omega)
  rw [hm, tailBytes, hfirst, byte_eq (by omega) (by omega), tailBytes_add] at hcompletes
  rw [List.append_assoc, List.singleton_append, ← hcompletes]
  congr 2
  ring

end

section

variable {k : Nat}

theorem begins_two (hlow : 0xC2 ≤ k) (hhigh : k < 0xE0) :
    Opened.Begins ⟨[.ofNat k], k % 32, 1, 0x80, 0xBF⟩ := by
  refine ⟨Nat.one_pos, Nat.le_refl _, Nat.le_refl _, fun n hn _ _ => ?_⟩
  dsimp only at hn ⊢
  have hcode := toNat_ofNat (n := k % 32 * 64 ^ 1 + n) (by omega)
  rw [utf8EncodeChar_eq, hcode, if_neg (by omega), if_pos (by omega), tailBytes_add,
    show (k % 32 * 64 ^ 1 + n) / 64 + 0xC0 = k by omega]
  rfl

theorem begins_three (hlow : 0xE0 ≤ k) (hhigh : k < 0xF0) :
    Opened.Begins ⟨[.ofNat k], k % 16, 2, if k = 0xE0 then 0xA0 else 0x80,
      if k = 0xED then 0x9F else 0xBF⟩ := by
  refine ⟨Nat.two_pos, ?_, ?_, fun n hn hfrom hto => ?_⟩
  · dsimp only
    split <;> decide
  · dsimp only
    split <;> decide
  · dsimp only at hn hfrom hto ⊢
    -- Overlong codes and surrogates are out of the range.
    have hlong : k = 0xE0 → 0x800 ≤ n := fun h => by
      rw [if_pos h] at hfrom
      change 0xA0 ≤ _ at hfrom
      omega
    have hscalar : k = 0xED → n < 0x800 := fun h => by
      rw [if_pos h] at hto
      change _ ≤ 0x9F at hto
      omega
    have hcode := toNat_ofNat (n := k % 16 * 64 ^ 2 + n) (by omega)
    rw [utf8EncodeChar_eq, hcode, if_neg (by omega), if_neg (by omega), if_pos (by omega),
      tailBytes_add, show (k % 16 * 64 ^ 2 + n) / 64 ^ 2 + 0xE0 = k by omega]
    rfl

theorem begins_four (hlow : 0xF0 ≤ k) (hhigh : k < 0xF5) :
    Opened.Begins ⟨[.ofNat k], k % 8, 3, if k = 0xF0 then 0x90 else 0x80,
      if k = 0xF4 then 0x8F else 0xBF⟩ := by
  refine ⟨Nat.succ_pos 2, ?_, ?_, fun n hn hfrom hto => ?_⟩
  · dsimp only
    split <;> decide
  · dsimp only
    split <;> decide
  · dsimp only at hn hfrom hto ⊢
    have hlong : k = 0xF0 → 0x10000 ≤ n := fun h => by
      rw [if_pos h] at hfrom
      change 0x90 ≤ _ at hfrom
      omega
    have hscalar : k = 0xF4 → n < 0x10000 := fun h => by
      rw [if_pos h] at hto
      change _ ≤ 0x8F at hto
      omega
    have hcode := toNat_ofNat (n := k % 8 * 64 ^ 3 + n) (by omega)
    rw [utf8EncodeChar_eq, hcode, if_neg (by omega), if_neg (by omega), if_neg (by omega),
      tailBytes_add, show (k % 8 * 64 ^ 3 + n) / 64 ^ 3 + 0xF0 = k by omega]
    rfl

end

/-- A byte is a symbol by itself, or it begins one. -/
theorem opening_cases (b : UInt8) : (∃ s, opening b = .inl s ∧ s.bytes = [b]) ∨
    ∃ o, opening b = .inr o ∧ o.Begins ∧ o.bytes = [b] := by
  have hb : UInt8.ofNat b.toNat = b := UInt8.ofNat_toNat
  have hlt := UInt8.toNat_lt b
  generalize b.toNat = k at *
  subst hb
  by_cases h₁ : k < 0x80
  · refine .inl ⟨_, opening_one h₁, ?_⟩
    rw [Symbol.bytes, utf8EncodeChar_eq, toNat_ofNat (by omega), if_pos h₁]
  by_cases h₂ : k < 0xC2
  · have hstray : opening (.ofNat k) = .inl (.stray [.ofNat k]) := by
      simp only [opening, UInt8.lt_iff_toNat_lt, toNat_byte hlt]
      rw [if_neg (by simpa using h₁), if_pos (by simpa using h₂)]
    exact .inl ⟨_, hstray, rfl⟩
  by_cases h₃ : k < 0xE0
  · exact .inr ⟨_, opening_two (by omega) h₃, begins_two (by omega) h₃, rfl⟩
  by_cases h₄ : k < 0xF0
  · exact .inr ⟨_, opening_three (by omega) h₄, begins_three (by omega) h₄, rfl⟩
  by_cases h₅ : k < 0xF5
  · exact .inr ⟨_, opening_four (by omega) h₅, begins_four (by omega) h₅, rfl⟩
  · have hstray : opening (.ofNat k) = .inl (.stray [.ofNat k]) := by
      simp only [opening, UInt8.lt_iff_toNat_lt, toNat_byte hlt]
      rw [if_neg (by simpa using h₁), if_neg (by simpa using h₂), if_neg (by simpa using h₃),
        if_neg (by simpa using h₄), if_neg (by simpa using h₅)]
    exact .inl ⟨_, hstray, rfl⟩

theorem encode_cons (s : Symbol) (symbols : List Symbol) :
    encode (s :: symbols) = s.bytes ++ encode symbols := by
  rw [encode, List.flatMap_cons, encode]

/-- The bytes that have been read and those that follow are those of the symbols. -/
theorem encode_decodeFrom (bytes : List UInt8) : encode (decodeFrom none bytes) = bytes ∧
    ∀ o : Opened, o.Begins → encode (decodeFrom (some o) bytes) = o.bytes ++ bytes := by
  induction bytes with
  | nil => exact ⟨rfl, fun o _ => by simp [decodeFrom, encode, Symbol.bytes]⟩
  | cons b bytes ih =>
    have hopening : encode (decodeFrom none (b :: bytes)) = b :: bytes := by
      rcases opening_cases b with ⟨s, heq, hs⟩ | ⟨o, heq, ho, hbytes⟩ <;> rw [decodeFrom, heq]
      · rw [encode_cons, hs, ih.1, List.singleton_append]
      · dsimp only
        rw [ih.2 o ho, hbytes, List.singleton_append]
    refine ⟨hopening, fun o ho => ?_⟩
    by_cases hrange : o.low ≤ b ∧ b ≤ o.high
    · by_cases hlast : o.missing ≤ 1
      · rw [decodeFrom_last hrange.1 hrange.2 hlast, encode_cons, Symbol.bytes,
          ho.last hrange.1 hrange.2 hlast, ih.1]
        simp
      · rw [decodeFrom_more hrange.1 hrange.2 (Nat.not_le.1 hlast),
          ih.2 _ (ho.more hrange.1 hrange.2 (Nat.not_le.1 hlast))]
        simp
    · rw [decodeFrom_stray hrange, encode_cons, hopening]
      rfl

/-- **No byte is lost** when a byte string is split. -/
theorem encode_decode (bytes : List UInt8) : encode (decode bytes) = bytes :=
  (encode_decodeFrom bytes).1

end SongLibrary.Text
