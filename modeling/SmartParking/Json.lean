import Mathlib.Data.Int.Notation
import Mathlib.Data.List.Basic

-- The values of JSON. A number is a mantissa and a power of ten, and the members
-- of an object are in the order of its text.
inductive Json where
  | null
  | bool (value : Bool)
  | number (mantissa exponent : ℤ)
  | string (value : String)
  | array (items : List Json)
  | object (members : List (String × Json))

namespace Json

-- Of several members with one name the last counts.
def get? (name : String) : Json → Option Json
  | object members => (members.reverse.find? fun member => member.1 = name).map Prod.snd
  | _ => none

def hexDigit (n : ℕ) : Char := "0123456789abcdef".toList.getD n '0'

def escape (c : Char) : List Char :=
  if c = '"' then ['\\', '"']
  else if c = '\\' then ['\\', '\\']
  else if c = '\x08' then ['\\', 'b']
  else if c = '\x0c' then ['\\', 'f']
  else if c = '\n' then ['\\', 'n']
  else if c = '\r' then ['\\', 'r']
  else if c = '\t' then ['\\', 't']
  else if c.toNat < 0x20 then
    ['\\', 'u', '0', '0', hexDigit (c.toNat / 16), hexDigit (c.toNat % 16)]
  else [c]

-- A text after its opening quote.
def quoted (text : String) : List Char := text.toList.flatMap escape ++ ['"']

def integerText (n : ℤ) : List Char :=
  if n < 0 then '-' :: Nat.toDigits 10 n.natAbs else Nat.toDigits 10 n.natAbs

-- An integer has neither a point nor an exponent, up to the length from which on
-- the language writes numbers in another way.
def numeral (mantissa exponent : ℤ) : List Char :=
  if exponent = 0 then integerText mantissa
  else integerText mantissa ++ 'e' :: integerText exponent

mutual

def text : Json → List Char
  | null => "null".toList
  | bool true => "true".toList
  | bool false => "false".toList
  | number mantissa exponent => numeral mantissa exponent
  | string value => '"' :: quoted value
  | array [] => ['[', ']']
  | array (item :: items) => '[' :: text item ++ textItems items
  | object [] => ['\x7b', '\x7d']
  | object (member :: members) => '\x7b' :: textMember member ++ textMembers members

-- What follows an item, or a member.
def textItems : List Json → List Char
  | [] => [']']
  | item :: items => ',' :: text item ++ textItems items

def textMembers : List (String × Json) → List Char
  | [] => ['\x7d']
  | member :: members => ',' :: textMember member ++ textMembers members

def textMember : String × Json → List Char
  | (name, value) => '"' :: quoted name ++ ':' :: text value

end

def stringify (value : Json) : String := String.ofList value.text

-- Reading: each function gives what it has read, and what follows.

def skipBlanks (input : List Char) : List Char :=
  input.dropWhile fun c => c = ' ' || c = '\t' || c = '\n' || c = '\r'

def hexValue (c : Char) : Option ℕ :=
  if c.isDigit then some (c.toNat - 48)
  else if 'a' ≤ c && c ≤ 'f' then some (c.toNat - 87)
  else if 'A' ≤ c && c ≤ 'F' then some (c.toNat - 55)
  else none

def hex4 (a b c d : Char) : Option ℕ := do
  let a ← hexValue a
  let b ← hexValue b
  let c ← hexValue c
  let d ← hexValue d
  some (((a * 16 + b) * 16 + c) * 16 + d)

def unescape (c : Char) : Option Char :=
  if c = '"' ∨ c = '\\' ∨ c = '/' then some c
  else if c = 'b' then some '\x08'
  else if c = 'f' then some '\x0c'
  else if c = 'n' then some '\n'
  else if c = 'r' then some '\r'
  else if c = 't' then some '\t'
  else none

-- A piece of a text is a character, or an escaped unit of UTF-16.
def pieces : List Char → Option (List (Char ⊕ ℕ) × List Char)
  | [] => none
  | c :: rest =>
      if c = '"' then some ([], rest)
      else if c = '\\' then
        match rest with
        | [] => none
        | e :: rest =>
            if e = 'u' then
              match rest with
              | h₁ :: h₂ :: h₃ :: h₄ :: rest => do
                  let unit ← hex4 h₁ h₂ h₃ h₄
                  let (read, rest) ← pieces rest
                  some (.inr unit :: read, rest)
              | _ => none
            else do
              let c ← unescape e
              let (read, rest) ← pieces rest
              some (.inl c :: read, rest)
      else if c.toNat < 0x20 then none
      else do
        let (read, rest) ← pieces rest
        some (.inl c :: read, rest)

-- A high and a low surrogate are one character. One alone has no place in a text
-- of characters, and is replaced.
def join : List (Char ⊕ ℕ) → List Char
  | [] => []
  | .inl c :: rest => c :: join rest
  | .inr high :: .inr low :: rest =>
      if 0xD800 ≤ high ∧ high < 0xDC00 ∧ 0xDC00 ≤ low ∧ low < 0xE000 then
        Char.ofNat (0x10000 + (high - 0xD800) * 0x400 + (low - 0xDC00)) :: join rest
      else (if high.isValidChar then Char.ofNat high else '\uFFFD') :: join (.inr low :: rest)
  | .inr unit :: rest => (if unit.isValidChar then Char.ofNat unit else '\uFFFD') :: join rest

def readText (input : List Char) : Option (String × List Char) := do
  let (read, rest) ← pieces input
  some (String.ofList (join read), rest)

-- At least one digit.
def readDigits (input : List Char) : Option (List Char × List Char) :=
  let digits := input.takeWhile Char.isDigit
  if digits = [] then none else some (digits, input.dropWhile Char.isDigit)

def readWhole (input : List Char) : Option (List Char × List Char) :=
  if input.head? = some '0' then some (['0'], input.tail) else readDigits input

def readFraction (input : List Char) : Option (List Char × List Char) :=
  if input.head? = some '.' then readDigits input.tail else some ([], input)

def signed (negative : Bool) (digits : List Char) : ℤ :=
  if negative then -Nat.ofDigitChars 10 digits 0 else Nat.ofDigitChars 10 digits 0

def readExponent (input : List Char) : Option (ℤ × List Char) :=
  if input.head? = some 'e' ∨ input.head? = some 'E' then
    let rest := input.tail
    let negative : Bool := rest.head? = some '-'
    do
      let (digits, rest) ← readDigits (if negative ∨ rest.head? = some '+' then rest.tail else rest)
      some (signed negative digits, rest)
  else some (0, input)

def readNumber (input : List Char) : Option (Json × List Char) :=
  let negative : Bool := input.head? = some '-'
  do
    let (whole, rest) ← readWhole (if negative then input.tail else input)
    let (fraction, rest) ← readFraction rest
    let (exponent, rest) ← readExponent rest
    some (number (signed negative (whole ++ fraction)) (exponent - fraction.length), rest)

-- Each call uses up some of the fuel, of which the length of a text is enough.
mutual

def read : (fuel : ℕ) → List Char → Option (Json × List Char)
  | 0, _ => none
  | fuel + 1, input =>
      match skipBlanks input with
      | 'n' :: 'u' :: 'l' :: 'l' :: rest => some (null, rest)
      | 't' :: 'r' :: 'u' :: 'e' :: rest => some (bool true, rest)
      | 'f' :: 'a' :: 'l' :: 's' :: 'e' :: rest => some (bool false, rest)
      | '"' :: rest => (readText rest).map fun (value, rest) => (string value, rest)
      | '[' :: rest =>
          if (skipBlanks rest).head? = some ']' then some (array [], (skipBlanks rest).tail)
          else do
            let (item, rest) ← read fuel rest
            let (items, rest) ← readItems fuel rest
            some (array (item :: items), rest)
      | '\x7b' :: rest =>
          if (skipBlanks rest).head? = some '\x7d' then some (object [], (skipBlanks rest).tail)
          else do
            let (member, rest) ← readMember fuel rest
            let (members, rest) ← readMembers fuel rest
            some (object (member :: members), rest)
      | rest => readNumber rest

def readItems : (fuel : ℕ) → List Char → Option (List Json × List Char)
  | 0, _ => none
  | fuel + 1, input =>
      match skipBlanks input with
      | ']' :: rest => some ([], rest)
      | ',' :: rest => do
          let (item, rest) ← read fuel rest
          let (items, rest) ← readItems fuel rest
          some (item :: items, rest)
      | _ => none

def readMembers : (fuel : ℕ) → List Char → Option (List (String × Json) × List Char)
  | 0, _ => none
  | fuel + 1, input =>
      match skipBlanks input with
      | '\x7d' :: rest => some ([], rest)
      | ',' :: rest => do
          let (member, rest) ← readMember fuel rest
          let (members, rest) ← readMembers fuel rest
          some (member :: members, rest)
      | _ => none

def readMember : (fuel : ℕ) → List Char → Option ((String × Json) × List Char)
  | 0, _ => none
  | fuel + 1, input =>
      match skipBlanks input with
      | '"' :: rest => do
          let (name, rest) ← readText rest
          match skipBlanks rest with
          | ':' :: rest => do
              let (value, rest) ← read fuel rest
              some ((name, value), rest)
          | _ => none
      | _ => none

end

-- The whole text is one value, with blanks around it.
def parse (input : String) : Option Json := do
  let (value, rest) ← read (input.toList.length + 1) input.toList
  if skipBlanks rest = [] then some value else none

end Json
