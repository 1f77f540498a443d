import Mathlib.Data.List.Basic
import Mathlib.Data.List.TakeWhile
import WsFanout.Lib.JsonString

/-!
# JSON values

The grammar of JSON values (`Value`) and a scanner that finds where a value ends without building it
(`skipValue`).  `Value.skips` ties the two: whatever follows the text of a value, the scanner stops
exactly at its end.
-/

namespace WsFanout.Lib.Json

/-! ## Space and numbers -/

def isWs (c : Char) : Bool :=
  c = ' ' || c = '\t' || c = '\n' || c = '\r'

def skipWs (s : List Char) : List Char :=
  s.dropWhile isWs

def isDigits (s : List Char) : Bool :=
  !s.isEmpty && s.all Char.isDigit

/-- One zero, or digits that do not begin with a zero. -/
def isInteger (s : List Char) : Bool :=
  isDigits s && (s = ['0'] || s.head? ≠ some '0')

/-- An exponent, or nothing. -/
def isExponent : List Char → Bool
  | [] => true
  | c :: s =>
    (c = 'e' || c = 'E') &&
      isDigits (if s.head? = some '+' ∨ s.head? = some '-' then s.tail else s)

/-- A fraction and an exponent, each of which may be missing. -/
def isFraction : List Char → Bool
  | [] => true
  | c :: s =>
    if c = '.' then isDigits (s.takeWhile Char.isDigit) && isExponent (s.dropWhile Char.isDigit)
    else isExponent (c :: s)

def isUnsigned (s : List Char) : Bool :=
  isInteger (s.takeWhile Char.isDigit) && isFraction (s.dropWhile Char.isDigit)

def isNumber : List Char → Bool
  | [] => false
  | c :: s => if c = '-' then isUnsigned s else isUnsigned (c :: s)

/-- The characters of which numbers are made. -/
def isNumChar (c : Char) : Bool :=
  c.isDigit || c = '-' || c = '+' || c = '.' || c = 'e' || c = 'E'

/-! ## The scanner -/

/-- A string with its quotation marks. -/
def skipQuoted : List Char → Option (List Char)
  | [] => none
  | c :: s => if c = '"' then skipString .plain s else none

/-- What `skip` passes over, without the space around it, and what is left. -/
def padded (skip : List Char → Option (List Char)) (s : List Char) :
    Option (List Char × List Char) :=
  (skip (skipWs s)).map fun rest =>
    ((skipWs s).take ((skipWs s).length - rest.length), skipWs rest)

/-- One or more of what `item` reads, with commas between them, up to `close`. -/
def sequence {α : Type} (item : List Char → Option (α × List Char)) (close : Char) :
    Nat → List Char → Option (List α × List Char)
  | 0, _ => none
  | n + 1, s => do
    let (a, s) ← item s
    match s with
    | [] => none
    | c :: s =>
      if c = ',' then do
        let (as, s) ← sequence item close n s
        some (a :: as, s)
      else if c = close then some ([a], s)
      else none

/-- As `sequence`, or none at all. -/
def bracketed {α : Type} (item : List Char → Option (α × List Char)) (close : Char) (n : Nat)
    (s : List Char) : Option (List α × List Char) :=
  match skipWs s with
  | [] => none
  | c :: rest => if c = close then some ([], rest) else sequence item close n s

/-- A key and a value. -/
def member (skip : List Char → Option (List Char)) (s : List Char) :
    Option ((List Char × List Char) × List Char) := do
  let (key, s) ← padded skipQuoted s
  match s with
  | [] => none
  | c :: s =>
    if c = ':' then do
      let (value, s) ← padded skip s
      some ((key, value), s)
    else none

def literal (text s : List Char) : Option (List Char) :=
  if text.isPrefixOf s then some (s.drop text.length) else none

/-- What is left behind the value a text begins with. -/
def skipValue : Nat → List Char → Option (List Char)
  | 0, _ => none
  | _ + 1, [] => none
  | n + 1, c :: s =>
    if c = '"' then skipString .plain s
    else if c = '[' then (bracketed (padded (skipValue n)) ']' n s).map Prod.snd
    else if c = '{' then (bracketed (member (skipValue n)) '}' n s).map Prod.snd
    else if c = 'n' then literal ['u', 'l', 'l'] s
    else if c = 't' then literal ['r', 'u', 'e'] s
    else if c = 'f' then literal ['a', 'l', 's', 'e'] s
    else if isNumber ((c :: s).takeWhile isNumChar) then some ((c :: s).dropWhile isNumChar)
    else none

/-! ## The grammar -/

/-- A text with space around it. -/
structure Padded where
  before : List Char
  text : List Char
  after : List Char
  wsBefore : ∀ c ∈ before, isWs c
  wsAfter : ∀ c ∈ after, isWs c

namespace Padded

def whole (p : Padded) : List Char :=
  p.before ++ (p.text ++ p.after)

/-- No space at all. -/
def bare (text : List Char) : Padded where
  before := []
  text := text
  after := []
  wsBefore := by simp
  wsAfter := by simp

@[simp] theorem whole_bare (text : List Char) : (bare text).whole = text := by
  simp [whole, bare]

@[simp] theorem text_bare (text : List Char) : (bare text).text = text := rfl

end Padded

/-- The text of a member from those of its key and its value. -/
def memberText (m : Padded × Padded) : List Char :=
  m.1.whole ++ ':' :: m.2.whole

/-- The text of one JSON value, with no space around it. -/
inductive Value : List Char → Prop
  | nullLiteral : Value ['n', 'u', 'l', 'l']
  | trueLiteral : Value ['t', 'r', 'u', 'e']
  | falseLiteral : Value ['f', 'a', 'l', 's', 'e']
  | number {v : List Char} (number : isNumber v) : Value v
  | string {s : List Char} (closed : skipString .plain s = some []) : Value ('"' :: s)
  | emptyArray {space : List Char} (ws : ∀ c ∈ space, isWs c) : Value ('[' :: (space ++ [']']))
  | emptyObject {space : List Char} (ws : ∀ c ∈ space, isWs c) : Value ('{' :: (space ++ ['}']))
  | array {items : List Padded} (nonempty : items ≠ []) (values : ∀ p ∈ items, Value p.text) :
      Value ('[' :: ([','].intercalate (items.map Padded.whole) ++ [']']))
  | object {members : List (Padded × Padded)} (nonempty : members ≠ [])
      (keys : ∀ m ∈ members, skipQuoted m.1.text = some [])
      (values : ∀ m ∈ members, Value m.2.text) :
      Value ('{' :: ([','].intercalate (members.map memberText) ++ ['}']))

/-! ## Numbers -/

theorem numChar_of_isDigits {s : List Char} (digits : isDigits s) : ∀ c ∈ s, isNumChar c := by
  intro c mem
  simp only [isDigits, Bool.and_eq_true, List.all_eq_true] at digits
  simp [isNumChar, digits.2 c mem]

theorem numChar_of_isExponent {s : List Char} (exponent : isExponent s) :
    ∀ c ∈ s, isNumChar c := by
  cases s with
  | nil => intro c mem; cases mem
  | cons e s =>
      simp only [isExponent, Bool.and_eq_true, Bool.or_eq_true, decide_eq_true_eq] at exponent
      obtain ⟨isE, digits⟩ := exponent
      have tail : ∀ c ∈ s, isNumChar c := by
        intro c mem
        by_cases signed : s.head? = some '+' ∨ s.head? = some '-'
        · rw [if_pos signed] at digits
          cases s with
          | nil => cases mem
          | cons d s =>
              simp only [List.head?_cons, Option.some.injEq] at signed
              rcases List.mem_cons.mp mem with rfl | mem
              · rcases signed with rfl | rfl <;> decide
              · exact numChar_of_isDigits digits c mem
        · rw [if_neg signed] at digits
          exact numChar_of_isDigits digits c mem
      intro c mem
      rcases List.mem_cons.mp mem with rfl | mem
      · rcases isE with rfl | rfl <;> decide
      · exact tail c mem

/-- A text is made of number characters when both parts of it are. -/
theorem numChar_of_parts {s : List Char}
    (first : ∀ c ∈ s.takeWhile Char.isDigit, isNumChar c)
    (second : ∀ c ∈ s.dropWhile Char.isDigit, isNumChar c) : ∀ c ∈ s, isNumChar c := by
  intro c mem
  rw [← List.takeWhile_append_dropWhile (p := Char.isDigit) (l := s)] at mem
  rcases List.mem_append.mp mem with mem | mem
  · exact first c mem
  · exact second c mem

theorem numChar_of_isFraction {s : List Char} (fraction : isFraction s) :
    ∀ c ∈ s, isNumChar c := by
  cases s with
  | nil => intro c mem; cases mem
  | cons d s =>
      rw [isFraction] at fraction
      by_cases point : d = '.'
      · rw [if_pos point, Bool.and_eq_true] at fraction
        intro c mem
        rcases List.mem_cons.mp mem with rfl | mem
        · subst point
          decide
        · exact numChar_of_parts (numChar_of_isDigits fraction.1)
            (numChar_of_isExponent fraction.2) c mem
      · rw [if_neg point] at fraction
        exact numChar_of_isExponent fraction

theorem numChar_of_isUnsigned {s : List Char} (unsigned : isUnsigned s) :
    ∀ c ∈ s, isNumChar c := by
  simp only [isUnsigned, isInteger, Bool.and_eq_true] at unsigned
  exact numChar_of_parts (numChar_of_isDigits unsigned.1.1) (numChar_of_isFraction unsigned.2)

theorem numChar_of_isNumber {s : List Char} (number : isNumber s) : ∀ c ∈ s, isNumChar c := by
  cases s with
  | nil => cases number
  | cons d s =>
      rw [isNumber] at number
      by_cases minus : d = '-'
      · rw [if_pos minus] at number
        intro c mem
        rcases List.mem_cons.mp mem with rfl | mem
        · subst minus
          decide
        · exact numChar_of_isUnsigned number c mem
      · rw [if_neg minus] at number
        exact numChar_of_isUnsigned number

/-- A number begins as no other value does, and no space is part of one. -/
theorem opens_not_numChar {c : Char} (num : isNumChar c) :
    isWs c = false ∧ c ≠ '"' ∧ c ≠ '[' ∧ c ≠ ']' ∧ c ≠ '{' ∧ c ≠ 'n' ∧ c ≠ 't' ∧ c ≠ 'f' := by
  refine ⟨?_, ?_, ?_, ?_, ?_, ?_, ?_, ?_⟩
  · rw [← Bool.not_eq_true]
    intro ws
    simp only [isWs, Bool.or_eq_true, decide_eq_true_eq] at ws
    rcases ws with ((rfl | rfl) | rfl) | rfl <;> cases num
  all_goals
    rintro rfl
    cases num

/-! ## The pieces of the scanner -/

/-- A scanned string does not depend on what follows it. -/
theorem skipString_append {w : Within} {s r : List Char} (more : List Char)
    (scanned : skipString w s = some r) : skipString w (s ++ more) = some (r ++ more) := by
  fun_induction skipString w s with
  -- the text ends, or a character that may not stand there
  | case1 | case4 | case8 | case11 => cases scanned
  -- the closing quotation mark
  | case2 =>
      cases scanned
      simp [skipString]
  -- the scanner goes on
  | case3 | case5 | case6 | case7 | case9 | case10 => simp_all [skipString]

theorem skipQuoted_append {s r : List Char} (more : List Char) (scanned : skipQuoted s = some r) :
    skipQuoted (s ++ more) = some (r ++ more) := by
  cases s with
  | nil => cases scanned
  | cons c s =>
      rw [skipQuoted] at scanned
      rw [List.cons_append, skipQuoted]
      by_cases quoteMark : c = '"'
      · rw [if_pos quoteMark] at scanned ⊢
        exact skipString_append more scanned
      · rw [if_neg quoteMark] at scanned
        cases scanned

theorem skipWs_append {space : List Char} (ws : ∀ c ∈ space, isWs c) (s : List Char) :
    skipWs (space ++ s) = skipWs s :=
  List.dropWhile_append_of_pos ws

theorem skipWs_cons {c : Char} (solid : isWs c = false) (s : List Char) :
    skipWs (c :: s) = c :: s :=
  List.dropWhile_cons_of_neg (by simp [solid])

/-- Where a token begins, behind the space before it. -/
theorem skipWs_whole {p : Padded} {c : Char} {t : List Char} (starts : p.text = c :: t)
    (solid : isWs c = false) (s : List Char) :
    skipWs (p.whole ++ s) = c :: (t ++ (p.after ++ s)) := by
  rw [Padded.whole, List.append_assoc, List.append_assoc, skipWs_append p.wsBefore, starts,
    List.cons_append, skipWs_cons solid]

/-- A token is read without the space around it. -/
theorem padded_whole {skip : List Char → Option (List Char)} {p : Padded} {c d : Char}
    {t s : List Char} (starts : p.text = c :: t) (solid : isWs c = false) (stops : isWs d = false)
    (skips : skip (p.text ++ (p.after ++ d :: s)) = some (p.after ++ d :: s)) :
    padded skip (p.whole ++ d :: s) = some (p.text, d :: s) := by
  have front : skipWs (p.whole ++ d :: s) = p.text ++ (p.after ++ d :: s) := by
    rw [skipWs_whole starts solid, starts, List.cons_append]
  have back : skipWs (p.after ++ d :: s) = d :: s := by
    rw [skipWs_append p.wsAfter, skipWs_cons stops]
  rw [padded, front, skips, Option.map_some, back, List.length_append, Nat.add_sub_cancel,
    List.take_left]

section Sequence

variable {α β : Type} {item : List Char → Option (α × List Char)} {close : Char}
  {text : β → List Char} {out : β → α}

/-- What is written with commas between is read back, part by part. -/
theorem sequence_intercalate (notComma : close ≠ ',') {xs : List β} (nonempty : xs ≠ [])
    (reads : ∀ x ∈ xs, ∀ c s, c = ',' ∨ c = close →
      item (text x ++ c :: s) = some (out x, c :: s))
    {n : Nat} (enough : xs.length ≤ n) (rest : List Char) :
    sequence item close n ([','].intercalate (xs.map text) ++ close :: rest) =
      some (xs.map out, rest) := by
  induction xs generalizing n with
  | nil => exact absurd rfl nonempty
  | cons x xs ih =>
      cases n with
      | zero => cases enough
      | succ n =>
          rw [List.length_cons, Nat.add_le_add_iff_right] at enough
          cases xs with
          | nil =>
              have last := reads x List.mem_cons_self close rest (.inr rfl)
              simp [sequence, last, notComma]
          | cons y ys =>
              have tail := ih (by simp)
                (fun z mem => reads z (List.mem_cons_of_mem _ mem)) enough
              have first := reads x List.mem_cons_self ','
                ([','].intercalate ((y :: ys).map text) ++ close :: rest) (.inl rfl)
              rw [List.map_cons, List.map_cons, List.intercalate_cons_cons, ← List.map_cons,
                List.append_assoc, List.append_assoc, List.singleton_append, sequence, first]
              rw [List.map_cons] at tail
              simp [tail]

theorem bracketed_intercalate (notComma : close ≠ ',') {xs : List β} (nonempty : xs ≠ [])
    (reads : ∀ x ∈ xs, ∀ c s, c = ',' ∨ c = close →
      item (text x ++ c :: s) = some (out x, c :: s))
    (opens : ∀ x ∈ xs, ∀ s, ∃ c t, skipWs (text x ++ s) = c :: t ∧ c ≠ close)
    {n : Nat} (enough : xs.length ≤ n) (rest : List Char) :
    bracketed item close n ([','].intercalate (xs.map text) ++ close :: rest) =
      some (xs.map out, rest) := by
  have read := sequence_intercalate notComma nonempty reads enough rest
  obtain ⟨x, xs, rfl⟩ := List.exists_cons_of_ne_nil nonempty
  obtain ⟨s, front⟩ :
      ∃ s, [','].intercalate ((x :: xs).map text) ++ close :: rest = text x ++ s := by
    cases xs with
    | nil => exact ⟨close :: rest, by simp⟩
    | cons y ys =>
        refine ⟨',' :: ([','].intercalate ((y :: ys).map text) ++ close :: rest), ?_⟩
        simp [List.intercalate_cons_cons]
  obtain ⟨c, t, first, notClose⟩ := opens x List.mem_cons_self s
  rw [front] at read ⊢
  rw [bracketed, first]
  simp only [if_neg notClose, read]

end Sequence

/-- A part is no longer than the whole. -/
theorem length_le_intercalate {t : List Char} {ts : List (List Char)} (mem : t ∈ ts) :
    t.length ≤ ([','].intercalate ts).length := by
  induction ts with
  | nil => cases mem
  | cons u ts ih =>
      cases ts with
      | nil =>
          cases List.mem_singleton.mp mem
          simp
      | cons v ts =>
          rw [List.intercalate_cons_cons, List.length_append, List.length_append]
          rcases List.mem_cons.mp mem with rfl | mem
          · omega
          · have := ih mem
            omega

/-- Between any two parts there is a comma. -/
theorem length_parts_le_intercalate (ts : List (List Char)) :
    ts.length ≤ ([','].intercalate ts).length + 1 := by
  induction ts with
  | nil => exact Nat.zero_le _
  | cons u ts ih =>
      cases ts with
      | nil => simp
      | cons v ts =>
          rw [List.intercalate_cons_cons, List.length_append, List.length_append]
          simp only [List.length_cons, List.length_nil] at ih ⊢
          omega

/-! ## The scanner and the grammar -/

/-- A text that does not continue a number. -/
def Stops (s : List Char) : Prop :=
  ∀ c ∈ s.head?, isNumChar c = false

theorem numChar_false_of_isWs {c : Char} (ws : isWs c) : isNumChar c = false := by
  rw [← Bool.not_eq_true]
  intro num
  rw [(opens_not_numChar num).1] at ws
  cases ws

theorem stops_after (p : Padded) {c : Char} (other : isNumChar c = false) (s : List Char) :
    Stops (p.after ++ c :: s) := by
  intro d first
  cases before : p.after with
  | nil =>
      rw [before] at first
      cases first
      exact other
  | cons e t =>
      rw [before] at first
      cases first
      exact numChar_false_of_isWs (p.wsAfter _ (by rw [before]; exact List.mem_cons_self))

/-- How a value begins. -/
theorem Value.starts {v : List Char} (value : Value v) :
    ∃ c t, v = c :: t ∧ isWs c = false ∧ c ≠ ']' := by
  cases value with
  | number number =>
      cases v with
      | nil => cases number
      | cons c t =>
          have opens := opens_not_numChar (numChar_of_isNumber number c List.mem_cons_self)
          exact ⟨c, t, rfl, opens.1, opens.2.2.2.1⟩
  | _ => exact ⟨_, _, rfl, by decide, by decide⟩

/-- `skipValue n` reads the text `v` to its end, whatever follows. -/
def Skips (n : Nat) (v : List Char) : Prop :=
  ∀ rest, Stops rest → skipValue n (v ++ rest) = some rest

theorem padded_value {n : Nat} {p : Padded} (value : Value p.text) (skips : Skips n p.text)
    {d : Char} (stops : isWs d = false) (other : isNumChar d = false) (s : List Char) :
    padded (skipValue n) (p.whole ++ d :: s) = some (p.text, d :: s) := by
  obtain ⟨c, t, starts, solid, -⟩ := value.starts
  exact padded_whole starts solid stops (skips _ (stops_after p other s))

theorem quoted_starts {v r : List Char} (quoted : skipQuoted v = some r) :
    ∃ t, v = '"' :: t := by
  cases v with
  | nil => cases quoted
  | cons c t =>
      rw [skipQuoted] at quoted
      by_cases quoteMark : c = '"'
      · exact ⟨t, by rw [quoteMark]⟩
      · rw [if_neg quoteMark] at quoted
        cases quoted

theorem member_memberText {n : Nat} {m : Padded × Padded} (key : skipQuoted m.1.text = some [])
    (value : Value m.2.text) (skips : Skips n m.2.text) {d : Char} (stops : isWs d = false)
    (other : isNumChar d = false) (s : List Char) :
    member (skipValue n) (memberText m ++ d :: s) = some ((m.1.text, m.2.text), d :: s) := by
  obtain ⟨t, starts⟩ := quoted_starts key
  have readKey : padded skipQuoted (m.1.whole ++ ':' :: (m.2.whole ++ d :: s)) =
      some (m.1.text, ':' :: (m.2.whole ++ d :: s)) :=
    padded_whole starts (by decide) (by decide) (skipQuoted_append _ key)
  have readValue := padded_value value skips stops other s
  rw [memberText, List.append_assoc, List.cons_append, member, readKey]
  simp [readValue]

/-- What ends a part of an array or an object ends a number too. -/
theorem separator_stops {c close : Char} (closes : close = ']' ∨ close = '}')
    (separator : c = ',' ∨ c = close) : isWs c = false ∧ isNumChar c = false := by
  rcases separator with rfl | rfl
  · decide
  · rcases closes with rfl | rfl <;> decide

theorem array_skips {n : Nat} {items : List Padded} (nonempty : items ≠ [])
    (values : ∀ p ∈ items, Value p.text) (skips : ∀ p ∈ items, Skips n p.text)
    (enough : items.length ≤ n) (rest : List Char) :
    bracketed (padded (skipValue n)) ']' n
        ([','].intercalate (items.map Padded.whole) ++ ']' :: rest) =
      some (items.map Padded.text, rest) := by
  apply bracketed_intercalate (by decide) nonempty _ _ enough
  · intro p mem c s separator
    obtain ⟨stops, other⟩ := separator_stops (.inl rfl) separator
    exact padded_value (values p mem) (skips p mem) stops other s
  · intro p mem s
    obtain ⟨c, t, starts, solid, notClose⟩ := (values p mem).starts
    exact ⟨c, t ++ (p.after ++ s), skipWs_whole starts solid s, notClose⟩

theorem object_skips {n : Nat} {members : List (Padded × Padded)} (nonempty : members ≠ [])
    (keys : ∀ m ∈ members, skipQuoted m.1.text = some []) (values : ∀ m ∈ members, Value m.2.text)
    (skips : ∀ m ∈ members, Skips n m.2.text) (enough : members.length ≤ n) (rest : List Char) :
    bracketed (member (skipValue n)) '}' n
        ([','].intercalate (members.map memberText) ++ '}' :: rest) =
      some (members.map fun m => (m.1.text, m.2.text), rest) := by
  apply bracketed_intercalate (by decide) nonempty _ _ enough
  · intro m mem c s separator
    obtain ⟨stops, other⟩ := separator_stops (.inr rfl) separator
    exact member_memberText (keys m mem) (values m mem) (skips m mem) stops other s
  · intro m mem s
    obtain ⟨t, starts⟩ := quoted_starts (keys m mem)
    refine ⟨'"', t ++ (m.1.after ++ ':' :: (m.2.whole ++ s)), ?_, by decide⟩
    rw [memberText, List.append_assoc, List.cons_append, skipWs_whole starts (by decide)]

/-- The scanner stops at the end of a number. -/
theorem number_skips {v : List Char} (number : isNumber v) (n : Nat) : Skips (n + 1) v := by
  intro rest stops
  have chars := numChar_of_isNumber number
  cases v with
  | nil => cases number
  | cons c t =>
      obtain ⟨-, notQuote, notArray, -, notObject, notNull, notTrue, notFalse⟩ :=
        opens_not_numChar (chars c List.mem_cons_self)
      have front : (c :: t ++ rest).takeWhile isNumChar = c :: t := by
        rw [List.takeWhile_append_of_pos chars]
        cases rest with
        | nil => simp
        | cons d rest => simp [stops d rfl]
      have back : (c :: t ++ rest).dropWhile isNumChar = rest := by
        rw [List.dropWhile_append_of_pos chars]
        cases rest with
        | nil => rfl
        | cons d rest => simp [stops d rfl]
      rw [List.cons_append] at front back ⊢
      rw [skipValue, if_neg notQuote, if_neg notArray, if_neg notObject, if_neg notNull,
        if_neg notTrue, if_neg notFalse, front, back, if_pos number]

/-- The text of a value is scanned to its end, whatever follows it. -/
theorem Value.skips {v : List Char} (value : Value v) {n : Nat} (enough : v.length ≤ n) :
    Skips n v := by
  -- Every value is longer than those inside it, so the length of the text is fuel enough.
  induction value generalizing n with
  | nullLiteral | trueLiteral | falseLiteral =>
      obtain ⟨n, rfl⟩ := Nat.exists_eq_add_of_le' (Nat.le_trans (by decide : 1 ≤ _) enough)
      intro rest stops
      simp [skipValue, literal]
  | number number =>
      cases n with
      | zero =>
          cases List.eq_nil_of_length_eq_zero (Nat.le_zero.mp enough)
          cases number
      | succ n => exact number_skips number n
  | string closed =>
      cases n with
      | zero => cases enough
      | succ n =>
          intro rest stops
          rw [List.cons_append, skipValue, if_pos rfl, skipString_append rest closed]
          rfl
  | emptyArray ws =>
      cases n with
      | zero => cases enough
      | succ n =>
          intro rest stops
          have close : skipWs (']' :: rest) = ']' :: rest := skipWs_cons (by decide) rest
          simp [skipValue, bracketed, skipWs_append ws, close]
  | emptyObject ws =>
      cases n with
      | zero => cases enough
      | succ n =>
          intro rest stops
          have close : skipWs ('}' :: rest) = '}' :: rest := skipWs_cons (by decide) rest
          simp [skipValue, bracketed, skipWs_append ws, close]
  | @array items nonempty values ih =>
      cases n with
      | zero => cases enough
      | succ n =>
          have count := length_parts_le_intercalate (items.map Padded.whole)
          simp only [List.length_cons, List.length_append, List.length_nil, List.length_map]
            at enough count
          intro rest stops
          have read := array_skips nonempty values (n := n) (fun p mem => ih p mem (by
            have := length_le_intercalate (List.mem_map_of_mem (f := Padded.whole) mem)
            simp only [Padded.whole, List.length_append] at this
            omega)) (by omega) rest
          rw [List.cons_append, List.append_assoc, List.singleton_append, skipValue,
            if_neg (by decide), if_pos rfl, read]
          rfl
  | @object members nonempty keys values ih =>
      cases n with
      | zero => cases enough
      | succ n =>
          have count := length_parts_le_intercalate (members.map memberText)
          simp only [List.length_cons, List.length_append, List.length_nil, List.length_map]
            at enough count
          intro rest stops
          have read := object_skips nonempty keys values (n := n) (fun m mem => ih m mem (by
            have := length_le_intercalate (List.mem_map_of_mem (f := memberText) mem)
            simp only [memberText, Padded.whole, List.length_append, List.length_cons] at this
            omega)) (by omega) rest
          rw [List.cons_append, List.append_assoc, List.singleton_append, skipValue,
            if_neg (by decide), if_neg (by decide), if_pos rfl, read]
          rfl

end WsFanout.Lib.Json
