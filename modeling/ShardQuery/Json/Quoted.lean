import ShardQuery.Text.Numeral
/-! # JSON strings

A quoted string escapes the quote, the backslash and the control characters below a space, five of them
by a letter and the others by four hexadecimal digits. Reading accepts every escape of JSON; half of a
surrogate pair is grammatical but names no string. -/

namespace ShardQuery.Json

def escapeChar (c : Char) : List Char :=
  if c = '"' then ['\\', '"']
  else if c = '\\' then ['\\', '\\']
  else if c = '\n' then ['\\', 'n']
  else if c = '\r' then ['\\', 'r']
  else if c = '\t' then ['\\', 't']
  else if c = '\x08' then ['\\', 'b']
  else if c = '\x0c' then ['\\', 'f']
  else if c.toNat < 0x20 then ['\\', 'u'] ++ Text.padded 16 4 c.toNat
  else [c]

def quoteChars (cs : List Char) : List Char := '"' :: (cs.flatMap escapeChar ++ ['"'])

def quote (s : String) : String := String.ofList (quoteChars s.toList)

inductive CodeUnit where
  | char (c : Char)
  | surrogate (n : Nat)
deriving DecidableEq

def hexUnit? (ds : List Char) : Option CodeUnit := do
  let n ← Text.readNat? 16 (ds.map Char.toLower)
  return if 0xd800 ≤ n ∧ n < 0xe000 then .surrogate n else .char (Char.ofNat n)

def letterEscape? : Char → Option Char
  | '"' => some '"'
  | '\\' => some '\\'
  | '/' => some '/'
  | 'b' => some '\x08'
  | 'f' => some '\x0c'
  | 'n' => some '\n'
  | 'r' => some '\r'
  | 't' => some '\t'
  | _ => none

/-- Reads up to the closing quote; what follows it is left. -/
def scanString : List Char → Option (List CodeUnit × List Char)
  | [] => none
  | '"' :: rest => some ([], rest)
  | '\\' :: 'u' :: a :: b :: c :: d :: rest => do
    let unit ← hexUnit? [a, b, c, d]
    let (units, left) ← scanString rest
    return (unit :: units, left)
  | '\\' :: e :: rest => do
    let c ← letterEscape? e
    let (units, left) ← scanString rest
    return (.char c :: units, left)
  | c :: rest =>
    if c.toNat < 0x20 then none
    else do
      let (units, left) ← scanString rest
      return (.char c :: units, left)

def assemble : List CodeUnit → Option (List Char)
  | [] => some []
  | .char c :: units => (assemble units).map (c :: ·)
  | .surrogate h :: .surrogate l :: units =>
    if h < 0xdc00 ∧ 0xdc00 ≤ l then
      (assemble units).map (Char.ofNat (0x10000 + (h - 0xd800) * 0x400 + (l - 0xdc00)) :: ·)
    else none
  | .surrogate _ :: _ => none

end ShardQuery.Json
