import Atoms.Library.Checked
import Mathlib.Data.List.Sort

namespace json

/-- A JSON value; an object lists its members in the order they were written. -/
inductive Json
  | null
  | bool (value : Bool)
  | int (value : Int)
  /-- A number with a fraction or an exponent, or one of `NaN` and the infinities, as its text. -/
  | float (text : String)
  | str (value : String)
  | arr (items : List Json)
  | obj (members : List (String × Json))

/-! Writing, with `","` and `":"` as separators. -/

def hex_digit (value : Nat) : Char := Nat.digitChar (value % 16)

/-- `\u` and four lowercase hexadecimal digits. -/
def unicode_escape (code : Nat) : List Char :=
  ['\\', 'u', hex_digit (code / 4096), hex_digit (code / 256), hex_digit (code / 16), hex_digit code]

/-- One character of a string, escaped beyond the printable ASCII characters if `ensure_ascii`. -/
def write_char (ensure_ascii : Bool) (c : Char) : List Char :=
  if c = '"' then ['\\', '"']
  else if c = '\\' then ['\\', '\\']
  else if c = '\n' then ['\\', 'n']
  else if c = '\r' then ['\\', 'r']
  else if c = '\t' then ['\\', 't']
  else if c = '\x0c' then ['\\', 'f']
  else if c = '\x08' then ['\\', 'b']
  else if c.toNat < 0x20 then unicode_escape c.toNat
  else if ensure_ascii ∧ 0x7e < c.toNat then
    if c.toNat < 0x10000 then unicode_escape c.toNat
    else unicode_escape (0xd800 + (c.toNat - 0x10000) / 1024) ++ unicode_escape (0xdc00 + (c.toNat - 0x10000) % 1024)
  else [c]

def write_string (ensure_ascii : Bool) (value : String) : List Char :=
  '"' :: (value.toList.flatMap (write_char ensure_ascii) ++ ['"'])

def write_int : Int → List Char
  | .ofNat value => Nat.toDigits 10 value
  | .negSucc value => '-' :: Nat.toDigits 10 (value + 1)

mutual

def write (ensure_ascii : Bool) : Json → List Char
  | .null => ['n', 'u', 'l', 'l']
  | .bool true => ['t', 'r', 'u', 'e']
  | .bool false => ['f', 'a', 'l', 's', 'e']
  | .int value => write_int value
  | .float text => text.toList
  | .str value => write_string ensure_ascii value
  | .arr [] => ['[', ']']
  | .arr (item :: rest) => '[' :: (write ensure_ascii item ++ write_items ensure_ascii rest)
  | .obj [] => ['{', '}']
  | .obj ((key, value) :: rest) =>
    '{' :: (write_string ensure_ascii key ++ ':' :: (write ensure_ascii value ++ write_members ensure_ascii rest))

/-- The items after the first one, and the end of the array. -/
def write_items (ensure_ascii : Bool) : List Json → List Char
  | [] => [']']
  | item :: rest => ',' :: (write ensure_ascii item ++ write_items ensure_ascii rest)

/-- The members after the first one, and the end of the object. -/
def write_members (ensure_ascii : Bool) : List (String × Json) → List Char
  | [] => ['}']
  | (key, value) :: rest => ',' :: (write_string ensure_ascii key ++
      ':' :: (write ensure_ascii value ++ write_members ensure_ascii rest))

end

/-- The members of an object in the order of their keys. -/
def sorted_members (members : List (String × Json)) : List (String × Json) :=
  members.insertionSort fun left right => left.1 ≤ right.1

mutual

/-- Every object with its members in the order of their keys. -/
def sort_keys : Json → Json
  | .arr items => .arr (sort_items items)
  | .obj members => .obj (sorted_members (sort_members members))
  | value => value

def sort_items : List Json → List Json
  | [] => []
  | item :: rest => sort_keys item :: sort_items rest

def sort_members : List (String × Json) → List (String × Json)
  | [] => []
  | (key, value) :: rest => (key, sort_keys value) :: sort_members rest

end

/-- `json.dumps(value, separators=(",", ":"), sort_keys=True, ensure_ascii=ensure_ascii)` -/
def dumps (ensure_ascii : Bool) (value : Json) : String := String.ofList (write ensure_ascii (sort_keys value))

/-! Reading. -/

inductive JsonError
  | malformed
  | duplicate_key (key : String)
  deriving DecidableEq

def hex_value (c : Char) : Option Nat :=
  if '0' ≤ c ∧ c ≤ '9' then some (c.toNat - 48)
  else if 'a' ≤ c ∧ c ≤ 'f' then some (c.toNat - 87)
  else if 'A' ≤ c ∧ c ≤ 'F' then some (c.toNat - 55)
  else none

/-- The code unit that four hexadecimal digits write. -/
def read_unit : List Char → Option (Nat × List Char)
  | a :: b :: c :: d :: rest => do
    let a ← hex_value a
    let b ← hex_value b
    let c ← hex_value c
    let d ← hex_value d
    pure (a * 4096 + b * 256 + c * 16 + d, rest)
  | _ => none

/-- The escapes of one character. -/
def simple_escape (c : Char) : Option Char :=
  if c = '"' then some '"'
  else if c = '\\' then some '\\'
  else if c = '/' then some '/'
  else if c = 'b' then some '\x08'
  else if c = 'f' then some '\x0c'
  else if c = 'n' then some '\n'
  else if c = 'r' then some '\r'
  else if c = 't' then some '\t'
  else none

/-- What follows `\u`; a surrogate that is not half of a pair names no character. -/
def read_unicode_escape (text : List Char) : Option (Char × List Char) := do
  let (unit, rest) ← read_unit text
  if 0xd800 ≤ unit ∧ unit ≤ 0xdbff then
    match rest with
    | '\\' :: 'u' :: rest => do
      let (low, rest) ← read_unit rest
      if 0xdc00 ≤ low ∧ low ≤ 0xdfff then
        pure (Char.ofNat (0x10000 + (unit - 0xd800) * 1024 + (low - 0xdc00)), rest)
      else none
    | _ => none
  else if 0xdc00 ≤ unit ∧ unit ≤ 0xdfff then none
  else pure (Char.ofNat unit, rest)

/-- The next character of a string, or none at its closing quote. -/
def read_char : List Char → Option (Option Char × List Char)
  | [] => none
  | c :: rest =>
    if c = '"' then some (none, rest)
    else if c = '\\' then
      match rest with
      | 'u' :: rest => (read_unicode_escape rest).map fun item => (some item.1, item.2)
      | escape :: rest => (simple_escape escape).map fun c => (some c, rest)
      | [] => none
    else if c.toNat < 0x20 then none
    else some (some c, rest)

/-- The rest of a string after its opening quote: `fuel` bounds the number of characters. -/
def read_string : Nat → List Char → Option (List Char × List Char)
  | 0, _ => none
  | fuel + 1, text => do
    match ← read_char text with
    | (none, rest) => pure ([], rest)
    | (some c, rest) => do
      let (value, rest) ← read_string fuel rest
      pure (c :: value, rest)

def is_space (c : Char) : Bool := c = ' ' ∨ c = '\t' ∨ c = '\n' ∨ c = '\r'

def skip_space (text : List Char) : List Char := text.dropWhile is_space

/-- The digits at the start of a text. -/
def read_digits (text : List Char) : List Char × List Char := text.span Char.isDigit

def digits_value (digits : List Char) : Nat := Nat.ofDigitChars 10 digits 0

/-- An optional fraction: a point and at least one digit. -/
def read_fraction : List Char → List Char × List Char
  | '.' :: rest =>
    match read_digits rest with
    | ([], _) => ([], '.' :: rest)
    | (digits, rest) => ('.' :: digits, rest)
  | text => ([], text)

def read_sign : List Char → List Char × List Char
  | '+' :: rest => (['+'], rest)
  | '-' :: rest => (['-'], rest)
  | text => ([], text)

/-- An optional exponent: a mark, a sign and at least one digit. -/
def read_exponent : List Char → List Char × List Char
  | [] => ([], [])
  | c :: rest =>
    if c = 'e' ∨ c = 'E' then
      match read_sign rest with
      | (sign, rest') => match read_digits rest' with
        | ([], _) => ([], c :: rest)
        | (digits, rest'') => (c :: (sign ++ digits), rest'')
    else ([], c :: rest)

/-- A number without its sign; no digit follows a leading zero. -/
def read_magnitude (negative : Bool) (text : List Char) : Except JsonError (Json × List Char) :=
  match read_digits text with
  | ([], _) => .error .malformed
  | (digits, rest) =>
    let (digits, rest) := if digits.head? = some '0' then (['0'], text.drop 1) else (digits, rest)
    let (fraction, rest') := read_fraction rest
    let (exponent, rest'') := read_exponent rest'
    if fraction = [] ∧ exponent = [] then
      .ok (.int (if negative then -(digits_value digits : Int) else digits_value digits), rest)
    else .ok (.float (String.ofList ((if negative then ['-'] else []) ++ digits ++ fraction ++ exponent)), rest'')

/-- The text after `word`, if the text starts with it. -/
def after_word : (word text : List Char) → Option (List Char)
  | [], text => some text
  | _ :: _, [] => none
  | c :: word, d :: text => if c = d then after_word word text else none

/-- A number or one of the words. -/
def read_scalar (text : List Char) : Except JsonError (Json × List Char) :=
  match after_word ['n', 'u', 'l', 'l'] text with
  | some rest => .ok (.null, rest)
  | none => match after_word ['t', 'r', 'u', 'e'] text with
    | some rest => .ok (.bool true, rest)
    | none => match after_word ['f', 'a', 'l', 's', 'e'] text with
      | some rest => .ok (.bool false, rest)
      | none => match after_word ['N', 'a', 'N'] text with
        | some rest => .ok (.float "NaN", rest)
        | none => match after_word ['I', 'n', 'f', 'i', 'n', 'i', 't', 'y'] text with
          | some rest => .ok (.float "Infinity", rest)
          | none => match after_word ['-', 'I', 'n', 'f', 'i', 'n', 'i', 't', 'y'] text with
            | some rest => .ok (.float "-Infinity", rest)
            | none => match text with
              | '-' :: rest => read_magnitude true rest
              | _ => read_magnitude false text

/-- The first key that an object repeats, in the order of its members. -/
def repeated_key : List String → List String → Option String
  | _, [] => none
  | seen, key :: rest => if key ∈ seen then some key else repeated_key (key :: seen) rest

/-- An object, unless it repeats a key. -/
def new_object (members : List (String × Json)) : Except JsonError Json :=
  match repeated_key [] (members.map Prod.fst) with
  | some key => .error (.duplicate_key key)
  | none => .ok (.obj members)

/-- The quoted string that a text starts with. -/
def read_quoted (text : List Char) : Except JsonError (String × List Char) :=
  match read_string text.length text with
  | some (value, rest) => .ok (String.ofList value, rest)
  | none => .error .malformed

mutual

/-- The value that a text starts with: `fuel` bounds the depth and the number of values. -/
def read_value : Nat → List Char → Except JsonError (Json × List Char)
  | 0, _ => .error .malformed
  | fuel + 1, text =>
    match text with
    | '"' :: rest => do
      let (value, rest) ← read_quoted rest
      pure (.str value, rest)
    | '[' :: rest =>
      match skip_space rest with
      | ']' :: rest => .ok (.arr [], rest)
      | rest => do
        let (items, rest) ← read_items fuel rest
        pure (.arr items, rest)
    | '{' :: rest =>
      match skip_space rest with
      | '}' :: rest => .ok (.obj [], rest)
      | rest => do
        let (members, rest) ← read_members fuel rest
        let value ← new_object members
        pure (value, rest)
    | _ => read_scalar text

/-- The items of an array up to its end. -/
def read_items : Nat → List Char → Except JsonError (List Json × List Char)
  | 0, _ => .error .malformed
  | fuel + 1, text => do
    let (item, rest) ← read_value fuel text
    match skip_space rest with
    | ']' :: rest => pure ([item], rest)
    | ',' :: rest => do
      let (items, rest) ← read_items fuel (skip_space rest)
      pure (item :: items, rest)
    | _ => .error .malformed

/-- The members of an object up to its end. -/
def read_members : Nat → List Char → Except JsonError (List (String × Json) × List Char)
  | 0, _ => .error .malformed
  | fuel + 1, text =>
    match text with
    | '"' :: rest => do
      let (key, rest) ← read_quoted rest
      match skip_space rest with
      | ':' :: rest => do
        let (value, rest) ← read_value fuel (skip_space rest)
        match skip_space rest with
        | '}' :: rest => pure ([(key, value)], rest)
        | ',' :: rest => do
          let (members, rest) ← read_members fuel (skip_space rest)
          pure ((key, value) :: members, rest)
        | _ => .error .malformed
      | _ => .error .malformed
    | _ => .error .malformed

end

/-- `json.loads(text)`, with repeated keys refused. -/
def loads (text : String) : Except JsonError Json := do
  let (value, rest) ← read_value (text.length + 1) (skip_space text.toList)
  match skip_space rest with
  | [] => pure value
  | _ => .error .malformed

/-- The bytes of a text in UTF-8. -/
def utf8 (text : String) : List UInt8 := text.toByteArray.data.toList

/-- `data.decode("utf-8")` -/
def utf8_decode (data : List UInt8) : Option String := String.fromUTF8? (ByteArray.mk data.toArray)

end json
