import SharkRail.Lib.Json
import SharkRail.Lib.PyStr

/-!
# JSON texts

The text that `json.dumps` gives a value, and the value that `json.loads` reads in a text. Strings are strings of code points. With
`ensure_ascii` every code point outside printable ASCII is escaped, one above the basic plane as a pair of surrogates; the scanner puts
two escapes of surrogates together again, so it can not tell a pair from the code point it stands for. The text of a float is taken from
outside, with what is known about it (`FloatText`).
-/

/-- A JSON value of the program. -/
inductive PyJson where
  | null
  | bool (b : Bool)
  | int (n : ℤ)
  | float (x : PyFloat)
  | str (s : PyStr)
  | arr (items : List PyJson)
  | obj (members : List (PyStr × PyJson))

namespace PyJson

mutual

/-- Equality of JSON values is decidable. -/
def decEq : (a b : PyJson) → Decidable (a = b)
  | null, null => isTrue rfl
  | bool a, bool b => decidable_of_iff (a = b) (by simp)
  | int a, int b => decidable_of_iff (a = b) (by simp)
  | float a, float b => decidable_of_iff (a = b) (by simp)
  | str a, str b => decidable_of_iff (a = b) (by simp)
  | arr a, arr b => match decEqItems a b with
    | isTrue h => isTrue (by rw [h])
    | isFalse h => isFalse (by simpa using h)
  | obj a, obj b => match decEqMembers a b with
    | isTrue h => isTrue (by rw [h])
    | isFalse h => isFalse (by simpa using h)
  | null, bool _ | null, int _ | null, float _ | null, str _ | null, arr _ | null, obj _ => isFalse nofun
  | bool _, null | bool _, int _ | bool _, float _ | bool _, str _ | bool _, arr _ | bool _, obj _ => isFalse nofun
  | int _, null | int _, bool _ | int _, float _ | int _, str _ | int _, arr _ | int _, obj _ => isFalse nofun
  | float _, null | float _, bool _ | float _, int _ | float _, str _ | float _, arr _ | float _, obj _ => isFalse nofun
  | str _, null | str _, bool _ | str _, int _ | str _, float _ | str _, arr _ | str _, obj _ => isFalse nofun
  | arr _, null | arr _, bool _ | arr _, int _ | arr _, float _ | arr _, str _ | arr _, obj _ => isFalse nofun
  | obj _, null | obj _, bool _ | obj _, int _ | obj _, float _ | obj _, str _ | obj _, arr _ => isFalse nofun

def decEqItems : (a b : List PyJson) → Decidable (a = b)
  | [], [] => isTrue rfl
  | [], _ :: _ => isFalse nofun
  | _ :: _, [] => isFalse nofun
  | x :: xs, y :: ys => match decEq x y, decEqItems xs ys with
    | isTrue h, isTrue h' => isTrue (by rw [h, h'])
    | isFalse h, _ => isFalse (fun e => h (List.cons.inj e).1)
    | _, isFalse h => isFalse (fun e => h (List.cons.inj e).2)

def decEqMembers : (a b : List (PyStr × PyJson)) → Decidable (a = b)
  | [], [] => isTrue rfl
  | [], _ :: _ => isFalse nofun
  | _ :: _, [] => isFalse nofun
  | (k, x) :: xs, (l, y) :: ys => match decEq x y, decEqMembers xs ys with
    | isTrue h, isTrue h' =>
      if hk : k = l then isTrue (by rw [h, h', hk])
      else isFalse (fun e => hk (Prod.mk.inj (List.cons.inj e).1).1)
    | isFalse h, _ => isFalse (fun e => h (Prod.mk.inj (List.cons.inj e).1).2)
    | _, isFalse h => isFalse (fun e => h (List.cons.inj e).2)

end

instance : DecidableEq PyJson := decEq

open CodePoint

/-! ## Dictionaries -/

/-- `members.get(key)`. -/
def get? (members : List (PyStr × PyJson)) (key : PyStr) : Option PyJson := (members.find? (fun m => m.1 = key)).map (·.2)

/-- `members[key] = value`: the value replaced in its place, or a new last member. -/
def set (members : List (PyStr × PyJson)) (key : PyStr) (value : PyJson) : List (PyStr × PyJson) :=
  if members.any (fun m => m.1 = key) then members.map fun m => if m.1 = key then (key, value) else m
  else members ++ [(key, value)]

/-- `dict(pairs)`: of the members with one key the last one counts. -/
def ofPairs (pairs : List (PyStr × PyJson)) : List (PyStr × PyJson) := pairs.foldl (fun members m => set members m.1 m.2) []

/-! ## Order of the members -/

mutual

/-- What `json.dumps(value, sort_keys=True)` writes: the members of every object in key order. -/
def sortKeys : PyJson → PyJson
  | arr items => arr (sortKeysItems items)
  | obj members => obj ((sortKeysMembers members).insertionSort fun a b => a.1 ≤ b.1)
  | v => v

def sortKeysItems : List PyJson → List PyJson
  | [] => []
  | x :: xs => sortKeys x :: sortKeysItems xs

def sortKeysMembers : List (PyStr × PyJson) → List (PyStr × PyJson)
  | [] => []
  | (k, x) :: ms => (k, sortKeys x) :: sortKeysMembers ms

end

/-! ## Equality -/

/-- The number that a boolean or a number is. -/
def number : PyJson → Option PyFloat
  | bool b => some (.finite (if b then 1 else 0))
  | int n => some (.finite n)
  | float x => some x
  | _ => none

/-- Two numbers are equal: by value, and a NaN equals nothing. -/
def numbersEqual : Option PyFloat → Option PyFloat → Bool
  | some (.finite q), some (.finite q') => q = q'
  | some (.inf negative), some (.inf negative') => negative = negative'
  | _, _ => false

mutual

/-- `v == w`. -/
def equals : PyJson → PyJson → Bool
  | null, null => true
  | str s, str s' => s = s'
  | arr xs, arr ys => equalsItems xs ys
  | obj ms, obj ms' => ms.length = ms'.length && equalsMembers ms ms'
  | v, w => numbersEqual v.number w.number

def equalsItems : List PyJson → List PyJson → Bool
  | [], [] => true
  | x :: xs, y :: ys => equals x y && equalsItems xs ys
  | _, _ => false

/-- Every member has an equal one under its key. -/
def equalsMembers : List (PyStr × PyJson) → List (PyStr × PyJson) → Bool
  | [], _ => true
  | (k, x) :: ms, ms' =>
    (match get? ms' k with
    | some y => equals x y
    | none => false) && equalsMembers ms ms'

end

/-! ## Numbers -/

def isDigit (c : CodePoint) : Bool := 48 ≤ c.val && c.val ≤ 57

/-- The sign of a number, and what follows it. -/
def scanSign : PyStr → PyStr × PyStr
  | [] => ([], [])
  | c :: t => if c = ofChar '-' then ([c], t) else ([], c :: t)

/-- The integer part: no digit follows a leading zero. -/
def scanInteger : PyStr → Option (PyStr × PyStr)
  | [] => none
  | c :: t =>
    if c = ofChar '0' then some ([c], t)
    else if isDigit c then some ((c :: t).takeWhile isDigit, (c :: t).dropWhile isDigit)
    else none

/-- Digits, if there is one, after what was read of a part. -/
def scanDigits (before t whole : PyStr) : PyStr × PyStr :=
  if t.head?.any isDigit then (before ++ t.takeWhile isDigit, t.dropWhile isDigit) else ([], whole)

def scanFraction : PyStr → PyStr × PyStr
  | [] => ([], [])
  | c :: t => if c = ofChar '.' then scanDigits [c] t (c :: t) else ([], c :: t)

/-- The sign of an exponent. -/
def scanExponentSign : PyStr → PyStr × PyStr
  | [] => ([], [])
  | c :: t => if c = ofChar '+' ∨ c = ofChar '-' then ([c], t) else ([], c :: t)

def scanExponent : PyStr → PyStr × PyStr
  | [] => ([], [])
  | c :: t =>
    if c = ofChar 'e' ∨ c = ofChar 'E' then scanDigits (c :: (scanExponentSign t).1) (scanExponentSign t).2 (c :: t)
    else ([], c :: t)

/-- The integer part of a number, its fraction and exponent, and what follows. -/
def scanNumberText (t : PyStr) : Option (PyStr × PyStr × PyStr) :=
  (scanInteger (scanSign t).2).map fun (integer, t') =>
    ((scanSign t).1 ++ integer, (scanFraction t').1 ++ (scanExponent (scanFraction t').2).1, (scanExponent (scanFraction t').2).2)

/-- A float that has 53 significant bits at most: a value of the type `double`. -/
def IsDouble (q : ℚ) : Prop := ∃ m e : ℤ, m.natAbs < 2 ^ 53 ∧ -1074 ≤ e ∧ e ≤ 971 ∧ q = m * 2 ^ e

/-- The texts of floats: `repr`, whose text of a finite float is a number with a fraction or an exponent, in ASCII, and `float`, which
reads it. -/
structure FloatText where
  repr : ℚ → PyStr
  read : PyStr → PyFloat
  ascii : ∀ q, ∀ c ∈ repr q, c.val < 128
  isNumber : ∀ q, IsDouble q → ∃ integer tail, scanNumberText (repr q) = some (integer, tail, []) ∧ tail ≠ [] ∧ repr q = integer ++ tail
  read_repr : ∀ q, IsDouble q → read (repr q) = .finite q

/-- The text of a natural number, and of an integer. -/
def natText (n : ℕ) : PyStr := (Nat.toDigits 10 n).map ofChar

def intText : ℤ → PyStr
  | .ofNat n => natText n
  | .negSucc n => ofChar '-' :: natText (n + 1)

def readNat (s : PyStr) : ℕ := s.foldl (fun n c => 10 * n + (c.val - 48)) 0

def readInt : PyStr → ℤ
  | [] => 0
  | c :: s => if c = ofChar '-' then -(readNat s : ℤ) else (readNat (c :: s) : ℤ)

/-- A number: an integer, or a float where it has a fraction or an exponent. -/
def scanNumber (F : FloatText) (t : PyStr) : Option (PyJson × PyStr) :=
  (scanNumberText t).map fun (integer, tail, t) =>
    (if tail = [] then .int (readInt integer) else .float (F.read (integer ++ tail)), t)

/-! ## Strings -/

def hexDigit (n : ℕ) : CodePoint := ofNat (if n < 10 then 48 + n else 87 + n)

def hexValue (c : CodePoint) : Option ℕ :=
  if 48 ≤ c.val ∧ c.val ≤ 57 then some (c.val - 48)
  else if 97 ≤ c.val ∧ c.val ≤ 102 then some (c.val - 87)
  else if 65 ≤ c.val ∧ c.val ≤ 70 then some (c.val - 55)
  else none

/-- `\u` and four hexadecimal digits. -/
def escapeUnit (n : ℕ) : PyStr :=
  [ofChar '\\', ofChar 'u', hexDigit (n / 4096 % 16), hexDigit (n / 256 % 16), hexDigit (n / 16 % 16), hexDigit (n % 16)]

/-- The surrogates that a code point above the basic plane is written with. -/
def highOf (c : CodePoint) : CodePoint := ofNat (0xD800 + (c.val - 0x10000) / 0x400)

def lowOf (c : CodePoint) : CodePoint := ofNat (0xDC00 + (c.val - 0x10000) % 0x400)

def escapeUnicode (c : CodePoint) : PyStr :=
  if c.val < 0x10000 then escapeUnit c.val else escapeUnit (highOf c).val ++ escapeUnit (lowOf c).val

/-- The letter of a short escape: the quote, the backslash and the control characters that have one. -/
def shortEscape (c : CodePoint) : Option CodePoint :=
  if c = ofChar '"' ∨ c = ofChar '\\' then some c
  else if c.val = 10 then some (ofChar 'n')
  else if c.val = 13 then some (ofChar 'r')
  else if c.val = 9 then some (ofChar 't')
  else if c.val = 12 then some (ofChar 'f')
  else if c.val = 8 then some (ofChar 'b')
  else none

/-- A code point is written as it is. -/
def isPlain (ensureAscii : Bool) (c : CodePoint) : Bool := 32 ≤ c.val && (!ensureAscii || c.val ≤ 126)

/-- One code point of a string. -/
def escape (ensureAscii : Bool) (c : CodePoint) : PyStr :=
  match shortEscape c with
  | some letter => [ofChar '\\', letter]
  | none => if isPlain ensureAscii c then [c] else escapeUnicode c

def quote (ensureAscii : Bool) (s : PyStr) : PyStr := ofChar '"' :: s.flatMap (escape ensureAscii) ++ [ofChar '"']

/-- What the letter of a short escape stands for. -/
def unescapeShort (c : CodePoint) : Option CodePoint :=
  if c = ofChar '"' ∨ c = ofChar '\\' ∨ c = ofChar '/' then some c
  else if c = ofChar 'n' then some (ofNat 10)
  else if c = ofChar 'r' then some (ofNat 13)
  else if c = ofChar 't' then some (ofNat 9)
  else if c = ofChar 'f' then some (ofNat 12)
  else if c = ofChar 'b' then some (ofNat 8)
  else none

/-- Where the scanner of a string is: at a code point, after a backslash, or in the digits of an escape. -/
inductive ScanMode where
  | plain
  | escaped
  | unit (left : ℕ) (read : ℕ)

/-- The code points of a string up to its quote, each with whether it was read from four digits, and what follows the quote. -/
def unescape : ScanMode → PyStr → Option (List (Bool × CodePoint) × PyStr)
  | _, [] => none
  | .plain, c :: t =>
    if c = ofChar '"' then some ([], t)
    else if c = ofChar '\\' then unescape .escaped t
    else if c.val < 32 then none
    else (unescape .plain t).map fun (units, rest) => ((false, c) :: units, rest)
  | .escaped, c :: t =>
    if c = ofChar 'u' then unescape (.unit 4 0) t
    else match unescapeShort c with
      | some d => (unescape .plain t).map fun (units, rest) => ((false, d) :: units, rest)
      | none => none
  | .unit left read, c :: t =>
    match hexValue c with
    | none => none
    | some digit =>
      if left ≤ 1 then (unescape .plain t).map fun (units, rest) => ((true, ofNat (16 * read + digit)) :: units, rest)
      else unescape (.unit (left - 1) (16 * read + digit)) t

/-- An escaped high surrogate and the escaped low one after it are read as one code point. -/
def joinUnits : List (Bool × CodePoint) → PyStr
  | [] => []
  | [(_, c)] => [c]
  | (escaped, c) :: (escaped', d) :: units =>
    if escaped && escaped' && c.isHigh && d.isLow then pair c d :: joinUnits units else c :: joinUnits ((escaped', d) :: units)

/-- A string after its opening quote. -/
def scanString (t : PyStr) : Option (PyStr × PyStr) := (unescape .plain t).map fun (units, rest) => (joinUnits units, rest)

/-! ## Writing -/

/-- How a value is written: whether the text is ASCII, and whether a blank follows each separator. -/
structure DumpStyle where
  ensureAscii : Bool
  spaced : Bool

/-- What follows a separator. -/
def DumpStyle.blank (style : DumpStyle) : PyStr := if style.spaced then [ofChar ' '] else []

def floatText (F : FloatText) : PyFloat → PyStr
  | .finite q => F.repr q
  | .inf false => PyStr.ofString "Infinity"
  | .inf true => PyStr.ofString "-Infinity"
  | .nan => PyStr.ofString "NaN"

mutual

/-- `json.dumps(value)`. -/
def dumps (F : FloatText) (style : DumpStyle) : PyJson → PyStr
  | null => PyStr.ofString "null"
  | bool true => PyStr.ofString "true"
  | bool false => PyStr.ofString "false"
  | int n => intText n
  | float x => floatText F x
  | str s => quote style.ensureAscii s
  | arr items => ofChar '[' :: dumpsItems F style items ++ [ofChar ']']
  | obj members => ofChar '{' :: dumpsMembers F style members ++ [ofChar '}']

def dumpsItems (F : FloatText) (style : DumpStyle) : List PyJson → PyStr
  | [] => []
  | [x] => dumps F style x
  | x :: y :: xs => dumps F style x ++ ofChar ',' :: (style.blank ++ dumpsItems F style (y :: xs))

def dumpsMembers (F : FloatText) (style : DumpStyle) : List (PyStr × PyJson) → PyStr
  | [] => []
  | [(k, x)] => quote style.ensureAscii k ++ ofChar ':' :: (style.blank ++ dumps F style x)
  | (k, x) :: m :: ms =>
    quote style.ensureAscii k ++ ofChar ':' ::
      (style.blank ++ (dumps F style x ++ ofChar ',' :: (style.blank ++ dumpsMembers F style (m :: ms))))

end

/-! ## Reading -/

def isSpace (c : CodePoint) : Bool := c.val = 32 || c.val = 9 || c.val = 10 || c.val = 13

def skipWs (t : PyStr) : PyStr := t.dropWhile isSpace

/-- What follows a literal. -/
def expect (literal t : PyStr) : Option PyStr := if literal.isPrefixOf t then some (t.drop literal.length) else none

/-- The values with a name of their own. -/
def names : List (PyStr × PyJson) :=
  [(PyStr.ofString "null", .null), (PyStr.ofString "true", .bool true), (PyStr.ofString "false", .bool false),
    (PyStr.ofString "NaN", .float .nan), (PyStr.ofString "Infinity", .float (.inf false)),
    (PyStr.ofString "-Infinity", .float (.inf true))]

/-- A value that is no string, object or array. -/
def scanScalar (F : FloatText) (t : PyStr) : Option (PyJson × PyStr) :=
  match names.findSome? fun (name, value) => (expect name t).map fun rest => (value, rest) with
  | some found => some found
  | none => scanNumber F t

mutual

/-- A value. The fuel bounds the nesting, which the length of the text does. -/
def scanOnce (F : FloatText) : ℕ → PyStr → Option (PyJson × PyStr)
  | 0, _ => none
  | fuel + 1, t =>
    match t.head? with
    | none => none
    | some c =>
      if c = ofChar '"' then (scanString t.tail).map fun (s, rest) => (str s, rest)
      else if c = ofChar '{' then
        match expect [ofChar '}'] (skipWs t.tail) with
        | some rest => some (obj [], rest)
        | none => do
          let t ← expect [ofChar '"'] (skipWs t.tail)
          let (members, rest) ← scanMembers F fuel t
          some (obj (ofPairs members), rest)
      else if c = ofChar '[' then
        match expect [ofChar ']'] (skipWs t.tail) with
        | some rest => some (arr [], rest)
        | none => (scanItems F fuel (skipWs t.tail)).map fun (items, rest) => (arr items, rest)
      else scanScalar F t

/-- The items of an array, up to its bracket. -/
def scanItems (F : FloatText) : ℕ → PyStr → Option (List PyJson × PyStr)
  | 0, _ => none
  | fuel + 1, t => do
    let (item, t) ← scanOnce F fuel t
    match expect [ofChar ']'] (skipWs t) with
    | some rest => some ([item], rest)
    | none =>
      let t ← expect [ofChar ','] (skipWs t)
      let (items, rest) ← scanItems F fuel (skipWs t)
      some (item :: items, rest)

/-- The members of an object, from within the quote of the first key. -/
def scanMembers (F : FloatText) : ℕ → PyStr → Option (List (PyStr × PyJson) × PyStr)
  | 0, _ => none
  | fuel + 1, t => do
    let (key, t) ← scanString t
    let t ← expect [ofChar ':'] (skipWs t)
    let (value, t) ← scanOnce F fuel (skipWs t)
    match expect [ofChar '}'] (skipWs t) with
    | some rest => some ([(key, value)], rest)
    | none =>
      let t ← expect [ofChar ','] (skipWs t)
      let t ← expect [ofChar '"'] (skipWs t)
      let (members, rest) ← scanMembers F fuel t
      some ((key, value) :: members, rest)

end

/-- `json.loads(text)`, `none` where it raises `JSONDecodeError`. -/
def loads (F : FloatText) (t : PyStr) : Option PyJson :=
  if t.head? = some (ofNat 0xFEFF) then none
  else match scanOnce F (2 * t.length + 2) (skipWs t) with
    | some (value, rest) => if skipWs rest = [] then some value else none
    | none => none

end PyJson
