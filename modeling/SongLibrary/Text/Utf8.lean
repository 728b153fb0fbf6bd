/-
  Byte strings as characters and ill-formed bytes.

  A byte string splits into `Symbol`s: the characters it encodes and, between
  them, its ill-formed sequences.  An ill-formed sequence is maximal: it is
  the longest beginning of an encoded character that is not continued, or one
  byte that begins no character.

  * `decode` splits a byte string, `encode` joins the symbols again;
  * `shownText` writes symbols as text, with a replacement character for each
    ill-formed sequence; on the symbols of a text it is that text
    (`shownText_symbolsOf`);
  * `wholeText?` is the text of a byte string that is well formed throughout.
-/

namespace SongLibrary.Text

/-- A character of a byte string, or a maximal ill-formed sequence in it. -/
inductive Symbol where
  | char (c : Char)
  | stray (bytes : List UInt8)
  deriving DecidableEq, Repr

/-- The bytes of a symbol. -/
def Symbol.bytes : Symbol → List UInt8
  | .char c => String.utf8EncodeChar c
  | .stray bytes => bytes

/-- How a symbol is shown: a replacement character stands for ill-formed
    bytes. -/
def Symbol.shown : Symbol → Char
  | .char c => c
  | .stray _ => '\uFFFD'

/-! ## Splitting -/

/-- A character whose first bytes have been read: those `bytes`, the `code`
    they give so far, the number of bytes `missing`, and the range of the next
    one. -/
structure Opened where
  bytes : List UInt8
  code : Nat
  missing : Nat
  low : UInt8
  high : UInt8

/-- The symbol a byte is by itself, or the character it opens.  The second
    byte's range leaves out overlong forms, surrogates and codes above
    `10FFFF`. -/
def opening (b : UInt8) : Symbol ⊕ Opened :=
  if b < 0x80 then .inl (.char (Char.ofNat b.toNat))
  else if b < 0xC2 then .inl (.stray [b])
  else if b < 0xE0 then .inr ⟨[b], b.toNat % 32, 1, 0x80, 0xBF⟩
  else if b < 0xF0 then
    .inr ⟨[b], b.toNat % 16, 2, if b = 0xE0 then 0xA0 else 0x80, if b = 0xED then 0x9F else 0xBF⟩
  else if b < 0xF5 then
    .inr ⟨[b], b.toNat % 8, 3, if b = 0xF0 then 0x90 else 0x80, if b = 0xF4 then 0x8F else 0xBF⟩
  else .inl (.stray [b])

/-- The symbols of a byte string, when the beginning of a character may
    already have been read. -/
def decodeFrom : Option Opened → List UInt8 → List Symbol
  | none, [] => []
  | some o, [] => [.stray o.bytes]
  | none, b :: rest => match opening b with
    | .inl s => s :: decodeFrom none rest
    | .inr o => decodeFrom (some o) rest
  | some o, b :: rest =>
    if o.low ≤ b ∧ b ≤ o.high then
      let code := o.code * 64 + b.toNat % 64
      if o.missing ≤ 1 then .char (Char.ofNat code) :: decodeFrom none rest
      else decodeFrom (some ⟨o.bytes ++ [b], code, o.missing - 1, 0x80, 0xBF⟩) rest
    else .stray o.bytes :: match opening b with
      | .inl s => s :: decodeFrom none rest
      | .inr o => decodeFrom (some o) rest

/-- The symbols of a byte string. -/
def decode (bytes : List UInt8) : List Symbol :=
  decodeFrom none bytes

/-- The bytes of a list of symbols. -/
def encode (symbols : List Symbol) : List UInt8 :=
  symbols.flatMap Symbol.bytes

/-! ## Text -/

/-- The symbols of a text: its characters. -/
def symbolsOf (text : String) : List Symbol :=
  text.toList.map .char

/-- The text of symbols, each ill-formed sequence shown as one replacement
    character. -/
def shownText (symbols : List Symbol) : String :=
  String.ofList (symbols.map Symbol.shown)

/-- The text of symbols that are all characters. -/
def textOf? : List Symbol → Option (List Char)
  | [] => some []
  | .char c :: rest => (textOf? rest).map (c :: ·)
  | .stray _ :: _ => none

/-- The text of a byte string that is well formed throughout. -/
def wholeText? (bytes : List UInt8) : Option String :=
  (textOf? (decode bytes)).map String.ofList

@[simp] theorem shownText_symbolsOf (text : String) : shownText (symbolsOf text) = text := by
  simp [shownText, symbolsOf, Symbol.shown, Function.comp_def]

end SongLibrary.Text
