/-
The words of a JSON text. Blanks between words are the four of the standard:
space, tab, line feed and carriage return. A string's escapes are read here;
numbers must have the standard's form.
-/
import VmFleet.Text.Decimal

namespace VmFleet.Json

inductive Token where
  | openArr | closeArr | openObj | closeObj | comma | colon
  | null
  | bool (b : Bool)
  | int (n : Int)
  | real
  /-- `none` for a text with an unpaired surrogate escape. -/
  | str (s : Option String)
  deriving DecidableEq, Repr

namespace Token

/-- A piece of a string literal: a character as it stands, or a UTF-16 unit from an escape. -/
inductive Piece where
  | char (c : Char)
  | unit (n : Nat)

def hexValue? (c : Char) : Option Nat :=
  if c.isDigit then some (c.toNat - 48)
  else if 'a' ≤ c ∧ c ≤ 'f' then some (c.toNat - 87)
  else if 'A' ≤ c ∧ c ≤ 'F' then some (c.toNat - 55)
  else none

def escaped? (c : Char) : Option Char :=
  match c with
  | '"' => some '"'
  | '\\' => some '\\'
  | '/' => some '/'
  | 'b' => some '\x08'
  | 'f' => some '\x0c'
  | 'n' => some '\n'
  | 'r' => some '\r'
  | 't' => some '\t'
  | _ => none

/-- The pieces up to the closing quote, and what follows it. Control characters must be escaped. -/
def pieces? : List Char → Option (List Piece × List Char)
  | [] => none
  | '"' :: rest => some ([], rest)
  | '\\' :: 'u' :: a :: b :: c :: d :: rest =>
    match hexValue? a, hexValue? b, hexValue? c, hexValue? d with
    | some a, some b, some c, some d =>
      (pieces? rest).map fun (ps, rest) => (.unit (((a * 16 + b) * 16 + c) * 16 + d) :: ps, rest)
    | _, _, _, _ => none
  | '\\' :: c :: rest =>
    match escaped? c with
    | some e => (pieces? rest).map fun (ps, rest) => (.char e :: ps, rest)
    | none => none
  | c :: rest =>
    if c.toNat < 0x20 || c == '\\' then none
    else (pieces? rest).map fun (ps, rest) => (.char c :: ps, rest)

/-- Joins surrogate pairs; a surrogate without its partner has no character. -/
def join? : List Piece → Option (List Char)
  | [] => some []
  | .char c :: ps => (join? ps).map (c :: ·)
  | .unit hi :: .unit lo :: ps =>
    if 0xD800 ≤ hi ∧ hi < 0xDC00 ∧ 0xDC00 ≤ lo ∧ lo < 0xE000 then
      (join? ps).map (Char.ofNat (0x10000 + (hi - 0xD800) * 0x400 + (lo - 0xDC00)) :: ·)
    else if 0xD800 ≤ hi ∧ hi < 0xE000 then none
    else (join? (.unit lo :: ps)).map (Char.ofNat hi :: ·)
  | .unit n :: ps =>
    if 0xD800 ≤ n ∧ n < 0xE000 then none else (join? ps).map (Char.ofNat n :: ·)

/-- The digits of a number's fraction: absent, or a point and at least one digit. -/
def fraction? : List Char → Option (Bool × List Char)
  | '.' :: rest =>
    match Text.spanDigits rest.length rest with
    | ([], _) => none
    | (_, rest) => some (true, rest)
  | cs => some (false, cs)

/-- A number's exponent: absent, or a mark, an optional sign and at least one digit. -/
def exponent? : List Char → Option (Bool × List Char)
  | c :: rest =>
    if c = 'e' ∨ c = 'E' then
      let digits := match rest with
        | s :: more => if s = '+' ∨ s = '-' then more else rest
        | [] => rest
      match Text.spanDigits digits.length digits with
      | ([], _) => none
      | (_, rest) => some (true, rest)
    else some (false, c :: rest)
  | [] => some (false, [])

/-- A number after its sign. No digit may follow a leading zero. -/
def number? (negative : Bool) (cs : List Char) : Option (Token × List Char) := do
  let (digits, rest) := Text.spanDigits cs.length cs
  if digits.isEmpty || (digits.length > 1 && digits.head? == some '0') then none
  let (point, rest) ← fraction? rest
  let (power, rest) ← exponent? rest
  let n := Text.digitsValue digits
  if point || power || (negative && n == 0) then some (.real, rest)
  else some (.int (if negative then -(n : Int) else n), rest)

/-- The first word of a text that starts with no blank, and what follows it. -/
def next? : List Char → Option (Token × List Char)
  | '[' :: rest => some (.openArr, rest)
  | ']' :: rest => some (.closeArr, rest)
  | '{' :: rest => some (.openObj, rest)
  | '}' :: rest => some (.closeObj, rest)
  | ',' :: rest => some (.comma, rest)
  | ':' :: rest => some (.colon, rest)
  | 'n' :: 'u' :: 'l' :: 'l' :: rest => some (.null, rest)
  | 't' :: 'r' :: 'u' :: 'e' :: rest => some (.bool true, rest)
  | 'f' :: 'a' :: 'l' :: 's' :: 'e' :: rest => some (.bool false, rest)
  | '"' :: rest => (pieces? rest).map fun (ps, rest) => (.str ((join? ps).map String.ofList), rest)
  | '-' :: rest => number? true rest
  | cs => number? false cs

def isGap (c : Char) : Bool :=
  c == ' ' || c == '\t' || c == '\n' || c == '\r'

/-- All words of a text, given as many turns as the text has characters. -/
def lexFrom? : (turns : Nat) → List Char → Option (List Token)
  | turns + 1, cs =>
    match cs.dropWhile isGap with
    | [] => some []
    | c :: cs => do
      let (token, rest) ← next? (c :: cs)
      let tokens ← lexFrom? turns rest
      some (token :: tokens)
  | 0, _ => none

def lex? (cs : List Char) : Option (List Token) :=
  lexFrom? (cs.length + 1) cs

end Token

end VmFleet.Json
