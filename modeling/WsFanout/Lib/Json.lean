import Mathlib.Data.List.Basic
import WsFanout.Lib.JsonString
import WsFanout.Lib.JsonValue

/-!
# JSON texts

A writer for numbers, arrays and objects, and a reader for one level of an array or an object that
leaves every value below as the text it came in.  `items_array` and `fields_object` say that the
reader gives back what the writer was given: no part, however it is spelled inside, reaches into its
neighbours.
-/

namespace WsFanout.Lib.Json

/-! ## Writing a value -/

def decimal (n : Nat) : List Char :=
  Nat.toDigits 10 n

def array (items : List (List Char)) : List Char :=
  '[' :: ([','].intercalate items ++ [']'])

def fieldText (field : List Char × List Char) : List Char :=
  quote field.1 ++ ':' :: field.2

def object (fields : List (List Char × List Char)) : List Char :=
  '{' :: ([','].intercalate (fields.map fieldText) ++ ['}'])

theorem isDigits_decimal (n : Nat) : isDigits (decimal n) := by
  simp only [isDigits, Bool.and_eq_true, Bool.not_eq_true', List.isEmpty_eq_false_iff,
    List.all_eq_true]
  refine ⟨Nat.toDigits_ne_nil, ?_⟩
  intro c mem
  exact Nat.isDigit_of_mem_toDigits (by decide) (by decide) mem

/-- A positive number does not begin with a zero. -/
theorem head?_decimal {n : Nat} (positive : 0 < n) : (decimal n).head? ≠ some '0' := by
  induction n using Nat.strongRecOn with
  | _ n ih =>
      rw [decimal, Nat.toDigits_eq_if (by decide)]
      by_cases small : n < 10
      · have digit : ∀ d < 10, 0 < d → Nat.digitChar d ≠ '0' := by decide
        rw [if_pos small]
        simpa using digit n small positive
      · rw [if_neg small, List.head?_append_of_ne_nil _ Nat.toDigits_ne_nil]
        exact ih (n / 10) (by omega) (by omega)

theorem isInteger_decimal (n : Nat) : isInteger (decimal n) := by
  rw [isInteger, isDigits_decimal, Bool.true_and]
  rcases Nat.eq_zero_or_pos n with rfl | positive
  · decide
  · simp [head?_decimal positive]

theorem isNumber_decimal (n : Nat) : isNumber (decimal n) := by
  have digits := isDigits_decimal n
  have integer := isInteger_decimal n
  generalize decimal n = s at digits integer
  cases s with
  | nil => cases digits
  | cons c s =>
      simp only [isDigits, Bool.and_eq_true, List.all_eq_true] at digits
      have notMinus : c ≠ '-' := by
        rintro rfl
        exact absurd (digits.2 _ List.mem_cons_self) (by decide)
      have front : (c :: s).takeWhile Char.isDigit = c :: s :=
        List.takeWhile_eq_self_iff.mpr digits.2
      have back : (c :: s).dropWhile Char.isDigit = [] :=
        List.dropWhile_eq_nil_iff.mpr digits.2
      rw [isNumber, if_neg notMinus, isUnsigned, front, back, integer]
      rfl

theorem value_decimal (n : Nat) : Value (decimal n) :=
  .number (isNumber_decimal n)

theorem quoted_quote (s : List Char) : skipQuoted (quote s) = some [] := by
  rw [quote, List.cons_append, skipQuoted, if_pos rfl]
  exact skipString_escape s []

theorem value_quote (s : List Char) : Value (quote s) := by
  rw [quote, List.cons_append]
  exact .string (skipString_escape s [])

/-- A field written without space. -/
def bareField (field : List Char × List Char) : Padded × Padded :=
  (.bare (quote field.1), .bare field.2)

theorem memberText_bareField (field : List Char × List Char) :
    memberText (bareField field) = fieldText field := by
  simp [memberText, bareField, fieldText]

theorem value_array {items : List (List Char)} (values : ∀ t ∈ items, Value t) :
    Value (array items) := by
  by_cases empty : items = []
  · subst empty
    exact @Value.emptyArray [] (by simp)
  · have value := @Value.array (items.map Padded.bare) (by simpa using empty) (by simpa)
    simpa [array, Function.comp_def] using value

theorem value_object {fields : List (List Char × List Char)} (values : ∀ f ∈ fields, Value f.2) :
    Value (object fields) := by
  by_cases empty : fields = []
  · subst empty
    exact @Value.emptyObject [] (by simp)
  · have value := @Value.object (fields.map bareField) (by simpa using empty)
      (List.forall_mem_map.mpr fun f _ => quoted_quote f.1) (List.forall_mem_map.mpr values)
    simpa [object, Function.comp_def, memberText_bareField] using value

/-! ## Reading one level -/

/-- What stands between two brackets that enclose the whole text. -/
def level {α : Type}
    (item : (List Char → Option (List Char)) → List Char → Option (α × List Char))
    (opening close : Char) (raw : List Char) : Option (List α) :=
  match skipWs raw with
  | [] => none
  | c :: s =>
    if c = opening then
      match bracketed (item (skipValue raw.length)) close raw.length s with
      | none => none
      | some (as, rest) => if skipWs rest = [] then some as else none
    else none

/-- The texts of an array's items. -/
def items (raw : List Char) : Option (List (List Char)) :=
  level padded '[' ']' raw

/-- The names of an object's fields and the texts of their values. -/
def fields (raw : List Char) : Option (List (List Char × List Char)) := do
  let members ← level member '{' '}' raw
  members.mapM fun m => (string? m.1).map (·, m.2)

/-- A number that is a natural one. -/
def nat? (raw : List Char) : Option Nat :=
  if isInteger raw then some (Nat.ofDigitChars 10 raw 0) else none

/-- A list is read back when each of its members is. -/
theorem mapM_map_of_back {α β : Type} {write : α → β} {read : β → Option α} {as : List α}
    (back : ∀ a ∈ as, read (write a) = some a) : (as.map write).mapM read = some as := by
  induction as with
  | nil => rfl
  | cons a as ih =>
      have tail := ih fun b mem => back b (List.mem_cons_of_mem _ mem)
      simp [back a List.mem_cons_self, tail]

theorem nat?_decimal (n : Nat) : nat? (decimal n) = some n := by
  rw [nat?, if_pos (isInteger_decimal n), decimal, Nat.ofDigitChars_ten_toDigits]

/-- The items of an array are those it was written from. -/
theorem items_array {ts : List (List Char)} (values : ∀ t ∈ ts, Value t) :
    items (array ts) = some ts := by
  by_cases empty : ts = []
  · subst empty
    decide
  · have count := length_parts_le_intercalate ts
    have read := @array_skips (array ts).length (ts.map Padded.bare)
      (by simpa using empty) (by simpa)
      (List.forall_mem_map.mpr fun t mem => (values t mem).skips (by
        have := length_le_intercalate mem
        simp only [array, List.length_cons, List.length_append]
        omega))
      (by
        simp only [array, List.length_map, List.length_cons, List.length_append]
        omega) []
    simp only [List.map_map, Function.comp_def, Padded.whole_bare, Padded.text_bare,
      List.map_id'] at read
    have front : skipWs (array ts) = '[' :: ([','].intercalate ts ++ [']']) :=
      skipWs_cons (by decide) _
    rw [items, level, front]
    simp [read, skipWs]

/-- The fields of an object are those it was written from: no name and no value hides one, adds one
or reaches into another. -/
theorem fields_object {fs : List (List Char × List Char)} (values : ∀ f ∈ fs, Value f.2) :
    fields (object fs) = some fs := by
  have inner : level member '{' '}' (object fs) = some (fs.map fun f => (quote f.1, f.2)) := by
    by_cases empty : fs = []
    · subst empty
      decide
    · have count := length_parts_le_intercalate (fs.map fieldText)
      have read := @object_skips (object fs).length (fs.map bareField)
        (by simpa using empty)
        (List.forall_mem_map.mpr fun f _ => quoted_quote f.1) (List.forall_mem_map.mpr values)
        (List.forall_mem_map.mpr fun f mem => (values f mem).skips (by
          have := length_le_intercalate (List.mem_map_of_mem (f := fieldText) mem)
          simp only [fieldText, List.length_append, List.length_cons] at this
          simp only [object, List.length_cons, List.length_append]
          omega))
        (by
          rw [List.length_map] at count
          simp only [object, List.length_map, List.length_cons, List.length_append]
          omega) []
      simp only [List.map_map, Function.comp_def, memberText_bareField] at read
      have front : skipWs (object fs) = '{' :: ([','].intercalate (fs.map fieldText) ++ ['}']) :=
        skipWs_cons (by decide) _
      rw [level, front]
      simp [read, skipWs, bareField]
  rw [fields, inner]
  exact mapM_map_of_back fun f _ => by simp

end WsFanout.Lib.Json
