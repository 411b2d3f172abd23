import NatServer.Json.Value
/-!
# JSON text

`dump` without indentation, and `parse`. The parser is a pushdown automaton
over the characters: the lexer's states (`Scan`) emit tokens, and the stack of
open containers (`sax_parse_internal`'s `states`, `json_sax_dom_parser`'s
`ref_stack`) takes them.
-/

namespace Json

/-! ## dump -/

def hexDigit (n : Nat) : Char := Nat.digitChar n

/-- `dump_escaped`, for one character. -/
def escape (c : Char) : List Char :=
  if c = '\x08' then ['\\', 'b']
  else if c = '\t' then ['\\', 't']
  else if c = '\n' then ['\\', 'n']
  else if c = '\x0c' then ['\\', 'f']
  else if c = '\r' then ['\\', 'r']
  else if c = '"' then ['\\', '"']
  else if c = '\\' then ['\\', '\\']
  else if c.toNat < 0x20 then ['\\', 'u', '0', '0', hexDigit (c.toNat / 16), hexDigit (c.toNat % 16)]
  else [c]

def dumpString (s : String) : List Char := '"' :: s.toList.flatMap escape ++ ['"']

mutual
/-- `serializer::dump`, a float as the literal it was read from. -/
def Value.dump : Value → List Char
  | .null => "null".toList
  | .boolean true => "true".toList
  | .boolean false => "false".toList
  | .integer n => n.dump
  | .float f => f.text
  | .string s => dumpString s
  | .array [] => ['[', ']']
  | .array (v :: l) => '[' :: v.dump ++ dumpItems l ++ [']']
  | .object [] => ['{', '}']
  | .object ((k, v) :: l) => '{' :: dumpString k ++ ':' :: v.dump ++ dumpMembers l ++ ['}']

/-- The elements after the first. -/
def dumpItems : List Value → List Char
  | [] => []
  | v :: l => ',' :: v.dump ++ dumpItems l

/-- The members after the first. -/
def dumpMembers : List (String × Value) → List Char
  | [] => []
  | (k, v) :: l => ',' :: dumpString k ++ ':' :: v.dump ++ dumpMembers l
end

/-- `basic_json::dump()`. -/
def dump (j : Json) : String := String.ofList j.val.dump

/-! ## The lexer -/

inductive Token where
  | begin_object
  | end_object
  | begin_array
  | end_array
  | name_separator
  | value_separator
  /-- A literal, string or number. -/
  | scalar (j : Json)

/-- Where the lexer is in a token. `buf` is `token_buffer`, last character first. -/
inductive Scan where
  | start
  | literal (rest : List Char) (j : Json)
  | string (buf : List Char)
  | escape (buf : List Char)
  /-- In the digits after `\u`: the high surrogate before it, the digits read and their value. -/
  | codepoint (buf : List Char) (high : Option Nat) (digits : Nat) (val : Nat)
  /-- After a high surrogate: a backslash is expected. -/
  | surrogate (buf : List Char) (high : Nat)
  /-- And a `u` after that. -/
  | surrogateU (buf : List Char) (high : Nat)
  | number (st : NumState) (buf : List Char)

def hexValue (c : Char) : Option Nat :=
  if '0' ≤ c ∧ c ≤ '9' then some (c.toNat - 48)
  else if 'a' ≤ c ∧ c ≤ 'f' then some (c.toNat - 87)
  else if 'A' ≤ c ∧ c ≤ 'F' then some (c.toNat - 55)
  else none

/-- What follows the fourth digit of a `\u` escape of value `val`. -/
def Scan.codepointDone (buf : List Char) (high : Option Nat) (val : Nat) : Option Scan :=
  match high with
  | some h =>
    if 0xDC00 ≤ val ∧ val ≤ 0xDFFF then
      some (.string (Char.ofNat (0x10000 + (h - 0xD800) * 0x400 + (val - 0xDC00)) :: buf))
    else none
  | none =>
    if 0xD800 ≤ val ∧ val ≤ 0xDBFF then some (.surrogate buf val)
    else if 0xDC00 ≤ val ∧ val ≤ 0xDFFF then none
    else some (.string (Char.ofNat val :: buf))

/-- `scan_number_done`: the value of a finished literal. -/
def numberOf (st : NumState) (lit : List Char) : Option Json :=
  if st.isFinal then
    match toInteger? lit with
    | some n => some (integer n)
    | none => if h : isFloatLit lit = true then some (float ⟨lit, h⟩) else none
  else none

/-- `scan`, at the first character of a token. -/
def Scan.feedStart (c : Char) : Option (Scan × List Token) :=
  match c with
  | ' ' | '\t' | '\n' | '\r' => some (.start, [])
  | '[' => some (.start, [.begin_array])
  | ']' => some (.start, [.end_array])
  | '{' => some (.start, [.begin_object])
  | '}' => some (.start, [.end_object])
  | ':' => some (.start, [.name_separator])
  | ',' => some (.start, [.value_separator])
  | 't' => some (.literal ['r', 'u', 'e'] (boolean true), [])
  | 'f' => some (.literal ['a', 'l', 's', 'e'] (boolean false), [])
  | 'n' => some (.literal ['u', 'l', 'l'] null, [])
  | '"' => some (.string [], [])
  | c => (NumState.init c).map fun st => (.number st [c], [])

/-- One character; `none` is a `parse_error`. -/
def Scan.feed : Scan → Char → Option (Scan × List Token)
  | .start, c => feedStart c
  | .literal [] _, _ => none
  | .literal [x] j, c => if c = x then some (.start, [.scalar j]) else none
  | .literal (x :: xs) j, c => if c = x then some (.literal xs j, []) else none
  | .string buf, c =>
    if c = '"' then some (.start, [.scalar (Json.string (String.ofList buf.reverse))])
    else if c = '\\' then some (.escape buf, [])
    else if c.toNat < 0x20 then none
    else some (.string (c :: buf), [])
  | .escape buf, c =>
    match c with
    | '"' => some (.string ('"' :: buf), [])
    | '\\' => some (.string ('\\' :: buf), [])
    | '/' => some (.string ('/' :: buf), [])
    | 'b' => some (.string ('\x08' :: buf), [])
    | 'f' => some (.string ('\x0c' :: buf), [])
    | 'n' => some (.string ('\n' :: buf), [])
    | 'r' => some (.string ('\r' :: buf), [])
    | 't' => some (.string ('\t' :: buf), [])
    | 'u' => some (.codepoint buf none 0 0, [])
    | _ => none
  | .codepoint buf high digits val, c => do
    let d ← hexValue c
    if digits = 3 then (codepointDone buf high (16 * val + d)).map (·, [])
    else some (.codepoint buf high (digits + 1) (16 * val + d), [])
  | .surrogate buf high, c => if c = '\\' then some (.surrogateU buf high, []) else none
  | .surrogateU buf high, c => if c = 'u' then some (.codepoint buf (some high) 0 0, []) else none
  | .number st buf, c =>
    match st.next c with
    | some st' => some (.number st' (c :: buf), [])
    | none => do
      -- `unget`: the character after a number starts the next token
      let j ← numberOf st buf.reverse
      let (sc, toks) ← feedStart c
      some (sc, .scalar j :: toks)

/-- The tokens still pending at the end of input. -/
def Scan.finish : Scan → Option (List Token)
  | .start => some []
  | .number st buf => (numberOf st buf.reverse).map fun j => [.scalar j]
  | _ => none

/-! ## The parser -/

/-- An open container. -/
inductive Frame where
  /-- The elements so far, last first. -/
  | array (items : List Json)
  /-- The members so far and the key whose value is being read. -/
  | object (members : StrMap Json) (key : String)

/-- What the parser expects next, inside which containers. -/
inductive Parser where
  | value (stack : List Frame)
  /-- Right after `[`. -/
  | valueOrEnd (stack : List Frame)
  /-- Right after `{`. -/
  | keyOrEnd (stack : List Frame)
  /-- After a `,` between members. -/
  | key (members : StrMap Json) (stack : List Frame)
  | separator (members : StrMap Json) (key : String) (stack : List Frame)
  /-- After an element: `,` or `]`. -/
  | arrayNext (items : List Json) (stack : List Frame)
  /-- After a member: `,` or `}`. -/
  | objectNext (members : StrMap Json) (stack : List Frame)
  /-- After the whole value: end of input. -/
  | done (j : Json)

/-- A value has been read. -/
def Parser.deliver (j : Json) : List Frame → Parser
  | [] => .done j
  | .array items :: stack => .arrayNext (j :: items) stack
  | .object members k :: stack => .objectNext (members.insert k j) stack

def Parser.onValue (stack : List Frame) : Token → Option Parser
  | .begin_object => some (.keyOrEnd stack)
  | .begin_array => some (.valueOrEnd stack)
  | .scalar j => some (deliver j stack)
  | _ => none

def Parser.onKey (members : StrMap Json) (stack : List Frame) : Token → Option Parser
  | .scalar j =>
    match j.view with
    | .string k => some (.separator members k stack)
    | _ => none
  | _ => none

/-- One token; `none` is a `parse_error`. -/
def Parser.onToken : Parser → Token → Option Parser
  | .value stack, t => onValue stack t
  | .valueOrEnd stack, .end_array => some (deliver (array []) stack)
  | .valueOrEnd stack, t => onValue (.array [] :: stack) t
  | .keyOrEnd stack, .end_object => some (deliver (object ∅) stack)
  | .keyOrEnd stack, t => onKey ∅ stack t
  | .key members stack, t => onKey members stack t
  | .separator members k stack, .name_separator => some (.value (.object members k :: stack))
  | .arrayNext items stack, .value_separator => some (.value (.array items :: stack))
  | .arrayNext items stack, .end_array => some (deliver (array items.reverse) stack)
  | .objectNext members stack, .value_separator => some (.key members stack)
  | .objectNext members stack, .end_object => some (deliver (object members) stack)
  | _, _ => none

/-- Lexer and parser after one more character. -/
def feed (st : Scan × Parser) (c : Char) : Option (Scan × Parser) := do
  let (sc, toks) ← st.1.feed c
  let p ← toks.foldlM Parser.onToken st.2
  some (sc, p)

/-- The value read when the input ends here. -/
def finish (st : Scan × Parser) : Option Json := do
  let toks ← st.1.finish
  match ← toks.foldlM Parser.onToken st.2 with
  | .done j => some j
  | _ => none

def run (st : Scan × Parser) (cs : List Char) : Option Json := do
  let st ← cs.foldlM feed st
  finish st

/-- A NUL character ends the input, and a byte order mark may start it. -/
def inputOf (cs : List Char) : List Char :=
  match cs.takeWhile (· ≠ '\x00') with
  | '\uFEFF' :: cs => cs
  | cs => cs

/-- `basic_json::parse`; `none` where it throws, which is where `accept` is false. -/
def parse (s : String) : Option Json := run (.start, .value []) (inputOf s.toList)

end Json
