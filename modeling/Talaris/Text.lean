import Mathlib

/-!
# Bytes, UTF-8 and the string operations of the upgrade response

The crate works on byte slices and turns them into `&str` where a text is needed.
This module models the parts of the Rust standard library used for that: strict
UTF-8 decoding, whitespace trimming, splitting, ASCII case folding and the
decimal parser of `u16`.
-/

namespace Talaris

/-- A byte slice. -/
abbrev Bytes := List UInt8

/-- Decoded text. -/
abbrev Text := List Char

namespace Utf8

/-- The low six bits of a continuation byte. -/
def low6 (b : UInt8) : Nat := b.toNat % 64

/-- `0x80..=0xBF` -/
def isCont (b : UInt8) : Bool := 0x80 ≤ b && b ≤ 0xBF

def isTwo (b0 b1 : UInt8) : Bool := (0xC2 ≤ b0 && b0 ≤ 0xDF) && isCont b1

/-- Second byte of a three-byte sequence: no overlong form, no surrogate. -/
def isThree (b0 b1 b2 : UInt8) : Bool :=
  ((b0 == 0xE0 && (0xA0 ≤ b1 && b1 ≤ 0xBF)) ||
    ((0xE1 ≤ b0 && b0 ≤ 0xEC) && isCont b1) ||
    (b0 == 0xED && (0x80 ≤ b1 && b1 ≤ 0x9F)) ||
    ((0xEE ≤ b0 && b0 ≤ 0xEF) && isCont b1)) && isCont b2

/-- Four-byte sequences stop at `U+10FFFF`. -/
def isFour (b0 b1 b2 b3 : UInt8) : Bool :=
  ((b0 == 0xF0 && (0x90 ≤ b1 && b1 ≤ 0xBF)) ||
    ((0xF1 ≤ b0 && b0 ≤ 0xF3) && isCont b1) ||
    (b0 == 0xF4 && (0x80 ≤ b1 && b1 ≤ 0x8F))) && isCont b2 && isCont b3

/-- `std::str::from_utf8`: the text of a well-formed byte string. -/
def fromUtf8 : Bytes → Option Text
  | [] => some []
  | b0 :: rest =>
      if b0 < 0x80 then
        (fromUtf8 rest).map (Char.ofNat b0.toNat :: ·)
      else
        match rest with
        | [] => none
        | b1 :: rest =>
            if isTwo b0 b1 then
              (fromUtf8 rest).map (Char.ofNat (b0.toNat % 32 * 64 + low6 b1) :: ·)
            else
              match rest with
              | [] => none
              | b2 :: rest =>
                  if isThree b0 b1 b2 then
                    (fromUtf8 rest).map
                      (Char.ofNat (b0.toNat % 16 * 4096 + low6 b1 * 64 + low6 b2) :: ·)
                  else
                    match rest with
                    | [] => none
                    | b3 :: rest =>
                        if isFour b0 b1 b2 b3 then
                          (fromUtf8 rest).map
                            (Char.ofNat (b0.toNat % 8 * 262144 + low6 b1 * 4096 +
                              low6 b2 * 64 + low6 b3) :: ·)
                        else none

/-- `std::str::from_utf8(bytes).is_ok()` -/
def valid (bytes : Bytes) : Bool := (fromUtf8 bytes).isSome

-- "é", and its two halves alone
example : fromUtf8 [0xC3, 0xA9] = some ['é'] := by decide
example : valid [0xC3] = false ∧ valid [0xA9] = false := by decide

end Utf8

namespace Text

/-- The bytes of a `str`. -/
def utf8 (text : Text) : Bytes := text.flatMap String.utf8EncodeChar

/-- `char::is_whitespace`, the Unicode `White_Space` property. -/
def isWhitespace (c : Char) : Bool :=
  let n := c.toNat
  (9 ≤ n && n ≤ 13) || n == 0x20 || n == 0x85 || n == 0xA0 || n == 0x1680 ||
    (0x2000 ≤ n && n ≤ 0x200A) || n == 0x2028 || n == 0x2029 || n == 0x202F ||
    n == 0x205F || n == 0x3000

/-- `str::trim` -/
def trim (s : Text) : Text :=
  ((s.dropWhile isWhitespace).reverse.dropWhile isWhitespace).reverse

/-- `str::eq_ignore_ascii_case` -/
def eqIgnoreAsciiCase (a b : Text) : Bool := a.map Char.toLower == b.map Char.toLower

/-- `str::split_once` at a character. -/
def splitOnce (sep : Char) : Text → Option (Text × Text)
  | [] => none
  | c :: rest =>
      if c == sep then some ([], rest)
      else (splitOnce sep rest).map fun (head, tail) => (c :: head, tail)

/-- `str::split` at a character: always at least one piece. -/
def split (sep : Char) : Text → List Text
  | [] => [[]]
  | c :: rest =>
      if c == sep then [] :: split sep rest
      else
        match split sep rest with
        | piece :: pieces => (c :: piece) :: pieces
        | [] => [[c]]

/-- `str::split("\r\n")` -/
def splitCrlf : Text → List Text
  | [] => [[]]
  | '\r' :: '\n' :: rest => [] :: splitCrlf rest
  | c :: rest =>
      match splitCrlf rest with
      | piece :: pieces => (c :: piece) :: pieces
      | [] => [[c]]

/-- The value of a decimal digit. -/
def digit? (c : Char) : Option Nat :=
  if '0' ≤ c ∧ c ≤ '9' then some (c.toNat - 48) else none

/-- Decimal digits after those already read, as `u16` arithmetic reads them. -/
def parseDigits (value : Nat) : Text → Option Nat
  | [] => some value
  | c :: rest =>
      match digit? c with
      | none => none
      | some d =>
          let next := value * 10 + d
          if next < 65536 then parseDigits next rest else none

/-- `str::parse::<u16>`: an optional plus sign and at least one digit. -/
def parseU16 : Text → Option Nat
  | [] => none
  | '+' :: [] => none
  | '+' :: rest => parseDigits 0 rest
  | s => parseDigits 0 s

example : splitCrlf ['a', '\r', '\n', 'b'] = [['a'], ['b']] := by decide
example : parseU16 ['1', '0', '1'] = some 101 ∧ parseU16 ['+'] = none := by decide

end Text

end Talaris
