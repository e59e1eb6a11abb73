import BaseLib.Text.Case
import BaseLib.Text.Search
import BaseLib.Text.Utf16

namespace BaseLib

/-- Encodings between texts and bytes. Bytes that are no encoding are read as replacement characters, one for
each longest beginning of a character. -/
inductive Encoding
  | utf8
  | ascii
  | latin1
  | utf16
  | utf16BigEndian
  deriving DecidableEq, Repr, Inhabited

namespace Encoding

def replacement : Char := '\uFFFD'

def codeName : Encoding → String
  | utf8 => "utf-8"
  | ascii => "ascii"
  | latin1 => "latin-1"
  | utf16 => "utf-16-le"
  | utf16BigEndian => "utf-16-be"

def keys : Encoding → List String
  | utf8 => ["utf_8", "utf8", "u8", "utf", "utf8_ucs2", "utf8_ucs4", "cp65001"]
  | ascii =>
    ["ascii", "us_ascii", "us", "646", "ansi_x3.4_1968", "ansi_x3_4_1968", "ansi_x3.4_1986", "cp367",
      "csascii", "ibm367", "iso646_us", "iso_646.irv_1991", "iso_ir_6"]
  | latin1 =>
    ["latin_1", "latin1", "latin", "l1", "8859", "cp819", "csisolatin1", "ibm819", "iso8859",
      "iso8859_1", "iso_8859_1", "iso_8859_1_1987", "iso_ir_100"]
  | utf16 => ["utf_16_le", "utf_16le", "unicodelittleunmarked"]
  | utf16BigEndian => ["utf_16_be", "utf_16be", "unicodebigunmarked"]

def all : List Encoding := [utf8, ascii, latin1, utf16, utf16BigEndian]

def isKeyChar (c : Char) : Bool := c.isAlphanum || c == '.'

def keyOf (name : List Char) : List Char :=
  let words := (Text.lower name).splitBy fun a b => isKeyChar a == isKeyChar b
  Text.join ['_'] (words.filter fun w => w.any isKeyChar)

def ofName? (name : List Char) : Option Encoding :=
  all.find? fun e => e.keys.contains (String.ofList (keyOf name))

def utf8OfCode (n : Nat) : List Nat :=
  if n < 0x80 then [n]
  else if n < 0x800 then [0xC0 + n / 0x40, 0x80 + n % 0x40]
  else if n < 0x10000 then [0xE0 + n / 0x1000, 0x80 + n / 0x40 % 0x40, 0x80 + n % 0x40]
  else [0xF0 + n / 0x40000, 0x80 + n / 0x1000 % 0x40, 0x80 + n / 0x40 % 0x40, 0x80 + n % 0x40]

def littleEndian (u : Nat) : List Nat := [u % 0x100, u / 0x100]

/-- The bytes with those of each pair exchanged; a last one without a partner stays. -/
def swapPairs : List Nat → List Nat
  | a :: b :: rest => b :: a :: swapPairs rest
  | bs => bs

def encode : Encoding → List Char → List Nat
  | utf8, s => s.flatMap fun c => utf8OfCode c.toNat
  | ascii, s => s.map fun c => if c.toNat < 0x80 then c.toNat else 0x3F
  | latin1, s => s.map fun c => if c.toNat < 0x100 then c.toNat else 0x3F
  | utf16, s => (Text.Utf16.units s).flatMap littleEndian
  | utf16BigEndian, s => swapPairs ((Text.Utf16.units s).flatMap littleEndian)

def isContinuation (b : Nat) : Bool := 0x80 ≤ b && b ≤ 0xBF

def secondRange (first : Nat) : Nat × Nat :=
  if first = 0xE0 then (0xA0, 0xBF)
  else if first = 0xED then (0x80, 0x9F)
  else if first = 0xF0 then (0x90, 0xBF)
  else if first = 0xF4 then (0x80, 0x8F)
  else (0x80, 0xBF)

def isSecond (first b : Nat) : Bool := (secondRange first).1 ≤ b && b ≤ (secondRange first).2

/-- The character at the front of UTF-8 bytes and its width. The width of a replacement is that of the
longest beginning of a character. -/
def utf8Front (first : Nat) (rest : List Nat) : Char × Nat :=
  if first < 0x80 then (Char.ofNat first, 1)
  else if 0xC2 ≤ first ∧ first ≤ 0xDF then
    match rest with
    | b :: _ =>
      if isContinuation b then (Char.ofNat ((first - 0xC0) * 0x40 + (b - 0x80)), 2)
      else (replacement, 1)
    | [] => (replacement, 1)
  else if 0xE0 ≤ first ∧ first ≤ 0xEF then
    match rest with
    | b :: rest =>
      if isSecond first b then
        match rest with
        | c :: _ =>
          if isContinuation c then
            (Char.ofNat ((first - 0xE0) * 0x1000 + (b - 0x80) * 0x40 + (c - 0x80)), 3)
          else (replacement, 2)
        | [] => (replacement, 2)
      else (replacement, 1)
    | [] => (replacement, 1)
  else if 0xF0 ≤ first ∧ first ≤ 0xF4 then
    match rest with
    | b :: rest =>
      if isSecond first b then
        match rest with
        | c :: rest =>
          if isContinuation c then
            match rest with
            | d :: _ =>
              if isContinuation d then
                (Char.ofNat ((first - 0xF0) * 0x40000 + (b - 0x80) * 0x1000 + (c - 0x80) * 0x40 +
                  (d - 0x80)), 4)
              else (replacement, 3)
            | [] => (replacement, 3)
          else (replacement, 2)
        | [] => (replacement, 2)
      else (replacement, 1)
    | [] => (replacement, 1)
  else (replacement, 1)

def decodeUtf8 : Nat → List Nat → List Char
  | _, [] => []
  | skip + 1, _ :: bs => decodeUtf8 skip bs
  | 0, b :: bs =>
    let (c, width) := utf8Front b bs
    c :: decodeUtf8 (width - 1) bs

def validUtf8 : Nat → List Nat → Bool
  | _, [] => true
  | skip + 1, _ :: bs => validUtf8 skip bs
  | 0, b :: bs =>
    let (c, width) := utf8Front b bs
    (c != replacement || width == 3 && b == 0xEF) && validUtf8 (width - 1) bs

def isHighUnit (u : Nat) : Bool := 0xD800 ≤ u && u ≤ 0xDBFF

def isLowUnit (u : Nat) : Bool := 0xDC00 ≤ u && u ≤ 0xDFFF

/-- Reads UTF-16, low byte first. An unpaired surrogate is replaced; what is left at the end and no
whole character is replaced as one. -/
def decodeUtf16 : List Nat → List Char
  | [] => []
  | [_] => [replacement]
  | a :: b :: rest =>
    let u := a + 0x100 * b
    if isHighUnit u then
      match rest with
      | c :: d :: rest' =>
        let v := c + 0x100 * d
        if isLowUnit v then
          Char.ofNat (0x10000 + (u - 0xD800) * 0x400 + (v - 0xDC00)) :: decodeUtf16 rest'
        else replacement :: decodeUtf16 (c :: d :: rest')
      | _ => [replacement]
    else if isLowUnit u then replacement :: decodeUtf16 rest
    else Char.ofNat u :: decodeUtf16 rest

def decode : Encoding → List Nat → List Char
  | utf8, bs => decodeUtf8 0 bs
  | ascii, bs => bs.map fun b => if b < 0x80 then Char.ofNat b else replacement
  | latin1, bs => bs.map Char.ofNat
  | utf16, bs => decodeUtf16 bs
  | utf16BigEndian, bs => decodeUtf16 (swapPairs bs)

end Encoding

end BaseLib
