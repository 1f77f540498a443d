import Mathlib.Data.List.Basic

/-!
# JSON strings

The text of a JSON string as a standard encoder writes it, what the grammar admits between two
quotation marks, and the characters such a text stands for.

* `quote`: the encoder.  It escapes the quotation mark, the reverse solidus and the control
  characters, five of these by a letter and the others by their code, and nothing else.
* `skipString`: the scanner.  It reads to the closing quotation mark and asks no more of an escape
  than the grammar does, so a lone surrogate passes.
* `string?`: the reader.  It also decodes the escapes, surrogate pairs included.

`skipString_escape` and `string?_quote` are the two facts about the encoder: the scanner reads its
text to the end and no further, and the reader gives back the characters.
-/

namespace WsFanout.Lib.Json

/-! ## The encoder -/

/-- The text of one character within a string. -/
def escapeChar (c : Char) : List Char :=
  if c = '"' then ['\\', '"']
  else if c = '\\' then ['\\', '\\']
  else if c = '\x08' then ['\\', 'b']
  else if c = '\x0c' then ['\\', 'f']
  else if c = '\n' then ['\\', 'n']
  else if c = '\r' then ['\\', 'r']
  else if c = '\t' then ['\\', 't']
  else if c.toNat < 32 then
    ['\\', 'u', '0', '0', Nat.digitChar (c.toNat / 16), Nat.digitChar (c.toNat % 16)]
  else [c]

/-- The text of a string. -/
def quote (s : List Char) : List Char :=
  '"' :: s.flatMap escapeChar ++ ['"']

/-! ## The scanner -/

/-- What the letter after a reverse solidus stands for. -/
def escapes : List (Char × Char) :=
  [('"', '"'), ('\\', '\\'), ('/', '/'), ('b', '\x08'), ('f', '\x0c'), ('n', '\n'), ('r', '\r'),
    ('t', '\t')]

def hexDigit? (c : Char) : Option Nat :=
  if '0' ≤ c ∧ c ≤ '9' then some (c.toNat - '0'.toNat)
  else if 'a' ≤ c ∧ c ≤ 'f' then some (c.toNat - 'a'.toNat + 10)
  else if 'A' ≤ c ∧ c ≤ 'F' then some (c.toNat - 'A'.toNat + 10)
  else none

/-- Where the scanner stands in a string. -/
inductive Within where
  | plain
  /-- After a reverse solidus. -/
  | escape
  /-- In the code of a character, with one digit and `more` to come. -/
  | hex (more : Nat)
  deriving DecidableEq, Repr

/-- What is left behind the closing quotation mark. -/
def skipString : Within → List Char → Option (List Char)
  | _, [] => none
  | .plain, c :: s =>
    if c = '"' then some s
    else if c = '\\' then skipString .escape s
    else if c.toNat < 32 then none
    else skipString .plain s
  | .escape, c :: s =>
    if c = 'u' then skipString (.hex 3) s
    else if (escapes.lookup c).isSome then skipString .plain s
    else none
  | .hex more, c :: s =>
    if (hexDigit? c).isSome then
      match more with
      | 0 => skipString .plain s
      | more + 1 => skipString (.hex more) s
    else none

/-! ## The reader -/

/-- Four hexadecimal digits. -/
def hex4 : List Char → Option (Nat × List Char)
  | a :: b :: c :: d :: s => do
    let a ← hexDigit? a
    let b ← hexDigit? b
    let c ← hexDigit? c
    let d ← hexDigit? d
    some (((a * 16 + b) * 16 + c) * 16 + d, s)
  | _ => none

/-- The character of one code, or of the two codes of a surrogate pair. -/
def readUnicode (s : List Char) : Option (Char × List Char) := do
  let (high, s) ← hex4 s
  if 0xD800 ≤ high ∧ high < 0xDC00 then
    match s with
    | '\\' :: 'u' :: s => do
      let (low, s) ← hex4 s
      if 0xDC00 ≤ low ∧ low < 0xE000 then
        some (Char.ofNat (0x10000 + (high - 0xD800) * 0x400 + (low - 0xDC00)), s)
      else none
    | _ => none
  else if 0xDC00 ≤ high ∧ high < 0xE000 then none
  else some (Char.ofNat high, s)

/-- The character of an escape, after the reverse solidus. -/
def readEscape : List Char → Option (Char × List Char)
  | [] => none
  | c :: s => if c = 'u' then readUnicode s else (escapes.lookup c).map (·, s)

/-- The characters up to the closing quotation mark, and what is left behind it. -/
def readString : Nat → List Char → Option (List Char × List Char)
  | 0, _ => none
  | _ + 1, [] => none
  | fuel + 1, c :: s =>
    if c = '"' then some ([], s)
    else if c = '\\' then do
      let (d, s) ← readEscape s
      let (ds, s) ← readString fuel s
      some (d :: ds, s)
    else if c.toNat < 32 then none
    else do
      let (ds, s) ← readString fuel s
      some (c :: ds, s)

/-- The string a text is the text of. -/
def string? (raw : List Char) : Option (List Char) :=
  match raw with
  | [] => none
  | c :: s =>
    if c = '"' then
      match readString raw.length s with
      | some (str, []) => some str
      | _ => none
    else none

/-! ## Reading what was written -/

/-- The three shapes of a character's text: itself, a letter, or its code. -/
inductive Escaped (c : Char) : List Char → Prop
  | itself (notQuote : c ≠ '"') (notSolidus : c ≠ '\\') (printable : ¬ c.toNat < 32) :
      Escaped c [c]
  | letter {l : Char} (notCode : l ≠ 'u') (means : escapes.lookup l = some c) :
      Escaped c ['\\', l]
  | code (control : c.toNat < 32) :
      Escaped c ['\\', 'u', '0', '0', Nat.digitChar (c.toNat / 16), Nat.digitChar (c.toNat % 16)]

theorem escapeChar_cases (c : Char) : Escaped c (escapeChar c) := by
  unfold escapeChar
  by_cases quoteMark : c = '"'
  · subst quoteMark
    exact .letter (by decide) (by decide)
  by_cases solidus : c = '\\'
  · subst solidus
    exact .letter (by decide) (by decide)
  by_cases backspace : c = '\x08'
  · subst backspace
    exact .letter (by decide) (by decide)
  by_cases formFeed : c = '\x0c'
  · subst formFeed
    exact .letter (by decide) (by decide)
  by_cases newline : c = '\n'
  · subst newline
    exact .letter (by decide) (by decide)
  by_cases carriage : c = '\r'
  · subst carriage
    exact .letter (by decide) (by decide)
  by_cases tab : c = '\t'
  · subst tab
    exact .letter (by decide) (by decide)
  rw [if_neg quoteMark, if_neg solidus, if_neg backspace, if_neg formFeed, if_neg newline,
    if_neg carriage, if_neg tab]
  by_cases control : c.toNat < 32
  · rw [if_pos control]
    exact .code control
  · rw [if_neg control]
    exact .itself quoteMark solidus control

theorem hexDigit?_digitChar {d : Nat} (small : d < 16) : hexDigit? (Nat.digitChar d) = some d := by
  revert d
  decide

/-- The scanner passes over the text of a character. -/
theorem skipString_escapeChar (c : Char) (s : List Char) :
    skipString .plain (escapeChar c ++ s) = skipString .plain s := by
  have shape := escapeChar_cases c
  generalize escapeChar c = text at shape ⊢
  cases shape with
  | itself notQuote notSolidus printable =>
      rw [List.singleton_append, skipString, if_neg notQuote, if_neg notSolidus, if_neg printable]
  | letter notCode means =>
      simp [skipString, notCode, means]
  | code control =>
      have high := hexDigit?_digitChar (d := c.toNat / 16) (by omega)
      have low := hexDigit?_digitChar (d := c.toNat % 16) (by omega)
      have zero : hexDigit? '0' = some 0 := by decide
      simp [skipString, zero, high, low]

/-- The reader decodes it. -/
theorem readString_escapeChar (fuel : Nat) (c : Char) (s : List Char) :
    readString (fuel + 1) (escapeChar c ++ s) =
      (readString fuel s).map fun out => (c :: out.1, out.2) := by
  have shape := escapeChar_cases c
  generalize escapeChar c = text at shape ⊢
  cases shape with
  | itself notQuote notSolidus printable =>
      rw [List.singleton_append, readString, if_neg notQuote, if_neg notSolidus, if_neg printable]
      cases readString fuel s <;> rfl
  | @letter l notCode means =>
      have read : readEscape (l :: s) = some (c, s) := by
        rw [readEscape, if_neg notCode, means]
        rfl
      change readString (fuel + 1) ('\\' :: l :: s) = _
      rw [readString, if_neg (by decide), if_pos rfl, read]
      simp only [Option.bind_eq_bind, Option.bind_some]
      cases readString fuel s <;> rfl
  | code control =>
      have high := hexDigit?_digitChar (d := c.toNat / 16) (by omega)
      have low := hexDigit?_digitChar (d := c.toNat % 16) (by omega)
      have zero : hexDigit? '0' = some 0 := by decide
      have value : ((0 * 16 + 0) * 16 + c.toNat / 16) * 16 + c.toNat % 16 = c.toNat := by omega
      have read : readEscape ('u' :: '0' :: '0' :: Nat.digitChar (c.toNat / 16) ::
          Nat.digitChar (c.toNat % 16) :: s) = some (c, s) := by
        have digits : hex4 ('0' :: '0' :: Nat.digitChar (c.toNat / 16) ::
            Nat.digitChar (c.toNat % 16) :: s) = some (c.toNat, s) := by
          simp only [hex4, zero, high, low, Option.bind_eq_bind, Option.bind_some, value]
        rw [readEscape, if_pos rfl, readUnicode, digits]
        simp only [Option.bind_eq_bind, Option.bind_some]
        rw [if_neg (by omega), if_neg (by omega), Char.ofNat_toNat]
      change readString (fuel + 1) ('\\' :: 'u' :: '0' :: '0' :: _ :: _ :: s) = _
      rw [readString, if_neg (by decide), if_pos rfl, read]
      simp only [Option.bind_eq_bind, Option.bind_some]
      cases readString fuel s <;> rfl

/-- The scanner reads the text of a string to its end. -/
theorem skipString_escape (s rest : List Char) :
    skipString .plain (s.flatMap escapeChar ++ '"' :: rest) = some rest := by
  induction s with
  | nil => simp [skipString]
  | cons c s ih => rw [List.flatMap_cons, List.append_assoc, skipString_escapeChar, ih]

theorem readString_escape (s rest : List Char) {n : Nat} (enough : s.length < n) :
    readString n (s.flatMap escapeChar ++ '"' :: rest) = some (s, rest) := by
  induction s generalizing n with
  | nil =>
      cases n with
      | zero => cases enough
      | succ n => simp [readString]
  | cons c s ih =>
      cases n with
      | zero => cases enough
      | succ n =>
          rw [List.length_cons, Nat.add_lt_add_iff_right] at enough
          rw [List.flatMap_cons, List.append_assoc, readString_escapeChar, ih enough]
          rfl

theorem length_le_flatMap_escapeChar (s : List Char) :
    s.length ≤ (s.flatMap escapeChar).length := by
  induction s with
  | nil => exact Nat.le_refl _
  | cons c s ih =>
      have one : 1 ≤ (escapeChar c).length := by
        have shape := escapeChar_cases c
        generalize escapeChar c = text at shape ⊢
        cases shape <;> simp
      rw [List.flatMap_cons, List.length_append, List.length_cons]
      omega

/-- What is written as a string is read as the same string. -/
@[simp] theorem string?_quote (s : List Char) : string? (quote s) = some s := by
  have long := length_le_flatMap_escapeChar s
  have read := readString_escape s [] (n := (quote s).length) (by
    simp only [quote, List.length_append, List.length_cons]
    omega)
  rw [quote] at read ⊢
  rw [List.cons_append] at read ⊢
  simp only [string?, ↓reduceIte, read]

example : quote ['a', '"', '\n'] = ['"', 'a', '\\', '"', '\\', 'n', '"'] := by decide

example : string? ("\"\\ud83d\\ude00\"".toList) = some ['😀'] := by decide

end WsFanout.Lib.Json
