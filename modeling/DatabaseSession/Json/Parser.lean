import DatabaseSession.Json

namespace DatabaseSession.Json

/-- A reader takes the front of a text and leaves the rest. -/
abbrev Reader (α : Type) := List Char → Option (α × List Char)

def skipBlank (cs : List Char) : List Char :=
  cs.dropWhile fun c => c = ' ' || c = '\t' || c = '\n' || c = '\r'

def natOfDigits (ds : List Char) : Nat :=
  ds.foldl (fun n d => 10 * n + (d.toNat - 48)) 0

def spanDigits (cs : List Char) : List Char × List Char := cs.span Char.isDigit

/-- A whole number without fraction and exponent that fits 64 bits stays whole; any other
number is the nearest float. -/
def readNumber : Reader Json := fun cs =>
  let (negative, cs) := match cs with
    | '-' :: rest => (true, rest)
    | _ => (false, cs)
  let (whole, cs) := spanDigits cs
  if whole.isEmpty then none
  else
    let (fraction, hasPoint, cs) := match cs with
      | '.' :: rest =>
        let (ds, rest) := spanDigits rest
        (ds, true, rest)
      | _ => ([], false, cs)
    let (exponent, hasExponent, cs) : Int × Bool × List Char := match cs with
      | c :: rest =>
        if c = 'e' ∨ c = 'E' then
          let (sign, rest) := match rest with
            | '-' :: r => (true, r)
            | '+' :: r => (false, r)
            | _ => (false, rest)
          let (ds, rest) := spanDigits rest
          (if sign then -(natOfDigits ds : Int) else natOfDigits ds, true, rest)
        else (0, false, cs)
      | [] => (0, false, [])
    let digits := natOfDigits (whole ++ fraction)
    let signed : Int := if negative then -digits else digits
    if !hasPoint && !hasExponent && decide (-Int.pow 2 63 ≤ signed ∧ signed < Int.pow 2 64)
        && !(negative && digits == 0) then
      some (.int signed, cs)
    else some (.float (Binary64.ofDecimal negative digits (exponent - fraction.length)), cs)

def hexValue (c : Char) : Option Nat :=
  if c.isDigit then some (c.toNat - 48)
  else if 'a' ≤ c ∧ c ≤ 'f' then some (c.toNat - 87)
  else if 'A' ≤ c ∧ c ≤ 'F' then some (c.toNat - 55)
  else none

def readHex4 : Reader Nat
  | a :: b :: c :: d :: rest => do
    let a ← hexValue a
    let b ← hexValue b
    let c ← hexValue c
    let d ← hexValue d
    some (((a * 16 + b) * 16 + c) * 16 + d, rest)
  | _ => none

/-- The character after a backslash; two escaped surrogates make one character. -/
def readEscape : Reader Char
  | '"' :: rest => some ('"', rest)
  | '\\' :: rest => some ('\\', rest)
  | '/' :: rest => some ('/', rest)
  | 'b' :: rest => some ('\x08', rest)
  | 'f' :: rest => some ('\x0c', rest)
  | 'n' :: rest => some ('\n', rest)
  | 'r' :: rest => some ('\r', rest)
  | 't' :: rest => some ('\t', rest)
  | 'u' :: rest => do
    let (high, rest) ← readHex4 rest
    if 0xD800 ≤ high ∧ high < 0xDC00 then
      match rest with
      | '\\' :: 'u' :: rest =>
        let (low, rest) ← readHex4 rest
        if 0xDC00 ≤ low ∧ low < 0xE000 then
          some (Char.ofNat (0x10000 + (high - 0xD800) * 0x400 + (low - 0xDC00)), rest)
        else none
      | _ => none
    else if 0xDC00 ≤ high ∧ high < 0xE000 then none
    else some (Char.ofNat high, rest)
  | _ => none

/-- The characters up to the closing quote, gathered in reverse. -/
def readChars : Nat → List Char → Reader String
  | 0, _, _ => none
  | _ + 1, acc, '"' :: rest => some (String.ofList acc.reverse, rest)
  | fuel + 1, acc, '\\' :: rest => do
    let (c, rest) ← readEscape rest
    readChars fuel (c :: acc) rest
  | fuel + 1, acc, c :: rest => if c.toNat < 0x20 then none else readChars fuel (c :: acc) rest
  | _ + 1, _, [] => none

def readString : Reader String
  | '"' :: rest => readChars (rest.length + 1) [] rest
  | _ => none

def readWord (word : List Char) (j : Json) : Reader Json := fun cs =>
  if word.isPrefixOf cs then some (j, cs.drop word.length) else none

mutual

def readValue : Nat → Reader Json
  | 0, _ => none
  | fuel + 1, cs =>
    match skipBlank cs with
    | '"' :: rest => do
      let (s, rest) ← readString ('"' :: rest)
      some (.string s, rest)
    | '[' :: rest =>
      match skipBlank rest with
      | ']' :: rest => some (.array [], rest)
      | rest => do
        let (items, rest) ← readItems fuel rest
        some (.array items, rest)
    | '\x7b' :: rest =>
      match skipBlank rest with
      | '\x7d' :: rest => some (.object [], rest)
      | rest => do
        let (entries, rest) ← readEntries fuel rest
        some (obj entries, rest)
    | 't' :: rest => readWord ['t', 'r', 'u', 'e'] (.bool true) ('t' :: rest)
    | 'f' :: rest => readWord ['f', 'a', 'l', 's', 'e'] (.bool false) ('f' :: rest)
    | 'n' :: rest => readWord ['n', 'u', 'l', 'l'] .null ('n' :: rest)
    | rest => readNumber rest

def readItems : Nat → Reader (List Json)
  | 0, _ => none
  | fuel + 1, cs => do
    let (j, rest) ← readValue fuel cs
    match skipBlank rest with
    | ',' :: rest =>
      let (items, rest) ← readItems fuel rest
      some (j :: items, rest)
    | ']' :: rest => some ([j], rest)
    | _ => none

def readEntries : Nat → Reader (List (String × Json))
  | 0, _ => none
  | fuel + 1, cs => do
    let (name, rest) ← readString (skipBlank cs)
    match skipBlank rest with
    | ':' :: rest =>
      let (j, rest) ← readValue fuel rest
      match skipBlank rest with
      | ',' :: rest =>
        let (entries, rest) ← readEntries fuel rest
        some ((name, j) :: entries, rest)
      | '\x7d' :: rest => some ([(name, j)], rest)
      | _ => none
    | _ => none

end

def parse? (text : String) : Option Json :=
  let cs := text.toList
  match readValue (cs.length + 1) cs with
  | some (j, rest) => if (skipBlank rest).isEmpty then some j else none
  | none => none

end DatabaseSession.Json
