/-
PackageOrder.Proofs.Json.Indented — reading what was written with a line for each
member.

A value is read in the form that it was written in, whatever its numbers are
(`readForm?_indented`). Blanks stand wherever the lines are broken; they are passed over
before a value, an item or a key and before a bracket that closes.
-/
import PackageOrder.Proofs.Json.Real
import PackageOrder.Proofs.Json.RoundTrip

namespace PackageOrder.Json

/-! ## Numbers -/

/-- The text that a number is written as. -/
def Number.written : Number → NumberText
  | .natural n => ⟨false, decimalDigits n, none, none⟩
  | .negative n => ⟨true, decimalDigits n, none, none⟩
  | .real minus x => realText minus x

theorem numberChars_eq (n : Number) :
    numberChars n = (if n.written.minus then ['-'] else []) ++ n.written.chars := by
  cases n with
  | natural n => simp [numberChars, Number.written, NumberText.chars, natChars_eq, fractionChars,
      powerChars]
  | negative n => simp [numberChars, Number.written, NumberText.chars, natChars_eq, fractionChars,
      powerChars]
  | real minus x => rw [numberChars, Number.written, minus_realText, realChars_eq]

theorem Number.regular_written (n : Number) : n.written.Regular := by
  have hinteger : ∀ minus n, (NumberText.mk minus (decimalDigits n) none none).Regular := by
    intro minus n
    refine ⟨someDigits_decimalDigits n, fun hhead => ?_, by simp, by simp⟩
    obtain ⟨d, rest, heq, hzero⟩ := decimalDigits_eq_cons n
    have hd : d = 0 := by simpa [heq] using hhead
    rw [hzero hd, decimalDigits, if_pos (by decide)]
  cases n with
  | natural n => exact hinteger false n
  | negative n => exact hinteger true n
  | real minus x => exact regular_realText minus x

/-- What begins with a digit is read as a number. -/
theorem readValue?_digit {d : Nat} (hd : d < 10) (steps : Nat) (rest : List Char) :
    readValue? (steps + 1) (d.digitChar :: rest)
      = (readNumber? false (d.digitChar :: rest)).map fun (n, rest) => (.number n, rest) := by
  match d, hd with
  | 0, _ | 1, _ | 2, _ | 3, _ | 4, _ | 5, _ | 6, _ | 7, _ | 8, _ | 9, _ => rfl

theorem NumberText.Regular.exists_chars {number : NumberText} (h : number.Regular) :
    ∃ d rest, d < 10 ∧ number.chars = d.digitChar :: rest := by
  cases hwhole : number.whole with
  | nil => exact absurd hwhole h.whole.1
  | cons d whole =>
    refine ⟨d, whole.map Nat.digitChar
      ++ (fractionChars number.fraction ++ powerChars number.exponent),
      h.whole.2 d (by simp [hwhole]), ?_⟩
    rw [NumberText.chars, hwhole, List.map_cons, List.cons_append]

/-- **A number is read where a value may stand.** -/
theorem readValue?_numberChars (n : Number) (steps : Nat) {text : List Char}
    (htext : EndsNumber text) :
    readValue? (steps + 1) (numberChars n ++ text) = some (.number n.written, text) := by
  have hread := readNumber?_chars n.regular_written htext
  rw [numberChars_eq]
  cases hminus : n.written.minus with
  | true =>
    rw [hminus] at hread
    change Option.map _ (readNumber? true (n.written.chars ++ text)) = _
    rw [hread]
    rfl
  | false =>
    obtain ⟨d, rest, hd, heq⟩ := n.regular_written.exists_chars
    rw [hminus, heq] at hread
    rw [heq]
    change readValue? (steps + 1) (d.digitChar :: (rest ++ text)) = _
    rw [readValue?_digit hd, ← List.cons_append, hread]
    rfl

/-! ## Forms -/

mutual

/-- The form in which a value is written. -/
def Value.writtenForm : Value → Form
  | .null => .null
  | .bool b => .bool b
  | .number n => .number n.written
  | .string s => .string s
  | .array items => .array (writtenItems items)
  | .object members => .object (writtenMembers members)

def writtenItems : List Value → List Form
  | [] => []
  | item :: items => item.writtenForm :: writtenItems items

def writtenMembers : List (String × Value) → List (String × Form)
  | [] => []
  | (key, value) :: members => (key, value.writtenForm) :: writtenMembers members

end

theorem beginsValue_indentedChars (level : Nat) (value : Value) :
    BeginsValue (value.indentedChars level) := by
  rcases value with _ | b | n | s | items | members
  · exact beginsValue_mark (by decide) _
  · cases b <;> exact beginsValue_mark (by decide) _
  · obtain ⟨d, rest, hd, heq⟩ := n.regular_written.exists_chars
    rw [Value.indentedChars, numberChars_eq, heq]
    cases n.written.minus with
    | true => exact beginsValue_mark (by decide) _
    | false => exact beginsValue_digit hd _
  · exact beginsValue_mark (by decide) _
  · cases items <;> exact beginsValue_mark (by decide) _
  · rcases members with _ | ⟨⟨key, value⟩, members⟩ <;> exact beginsValue_mark (by decide) _

/-! ## Blanks -/

theorem skipBlanks_lineStart (level : Nat) (text : List Char) :
    skipBlanks (lineStart level ++ text) = skipBlanks text := by
  have hspaces : ∀ n, skipBlanks (List.replicate n ' ' ++ text) = skipBlanks text := by
    intro n
    induction n with
    | zero => rfl
    | succ n ih => exact ih
  exact hspaces (2 * level)

theorem skipBlanks_space (text : List Char) : skipBlanks (' ' :: text) = skipBlanks text :=
  rfl

theorem endsNumber_lineStart (level : Nat) (text : List Char) :
    EndsNumber (lineStart level ++ text) := by
  intro c rest h
  cases h
  decide

theorem readValue?_congr {text text' : List Char} (h : skipBlanks text = skipBlanks text')
    (steps : Nat) : readValue? steps text = readValue? steps text' := by
  cases steps with
  | zero => rfl
  | succ steps => rw [readValue?, readValue?, h]

theorem readItems?_congr {text text' : List Char} (h : skipBlanks text = skipBlanks text')
    (steps : Nat) : readItems? steps text = readItems? steps text' := by
  cases steps with
  | zero => rfl
  | succ steps => rw [readItems?, readItems?, readValue?_congr h]

theorem readMembers?_congr {text text' : List Char} (h : skipBlanks text = skipBlanks text')
    (steps : Nat) : readMembers? steps text = readMembers? steps text' := by
  cases steps with
  | zero => rfl
  | succ steps => rw [readMembers?, readMembers?, h]

theorem one_le_length_indentedChars (level : Nat) (value : Value) :
    1 ≤ (value.indentedChars level).length := by
  obtain ⟨c, rest, heq, _⟩ := beginsValue_indentedChars level value
  rw [heq]
  exact Nat.le_add_left 1 _

/-! ## Values -/

mutual

/-- **A value is read in the form that it was written in.** -/
theorem readValue?_indentedChars : ∀ (level : Nat) (value : Value) (steps : Nat)
    (text : List Char), 2 * (value.indentedChars level).length ≤ steps → EndsNumber text →
    readValue? steps (value.indentedChars level ++ text) = some (value.writtenForm, text)
  | level, value, 0, text, hsteps, htext => by
      have := one_le_length_indentedChars level value
      omega
  | _, .null, steps + 1, text, _, _ => rfl
  | _, .bool true, steps + 1, text, _, _ => rfl
  | _, .bool false, steps + 1, text, _, _ => rfl
  | _, .number n, steps + 1, text, _, htext => readValue?_numberChars n steps htext
  | _, .string s, steps + 1, text, _, _ => readValue?_stringChars s steps text
  | _, .array [], steps + 1, text, _, _ => rfl
  | level, .array (item :: items), steps + 1, text, hsteps, htext => by
      simp only [Value.indentedChars, List.length_append, List.length_cons, List.length_nil]
        at hsteps
      have hread := readItems?_indentedChars (level + 1) level item items steps text (by omega)
      simp only [Value.indentedChars, List.cons_append, List.append_assoc, List.nil_append]
      refine readValue?_openArray ?_ ((beginsValue_indentedChars (level + 1) item).append _) hread
      rw [skipBlanks_lineStart, ((beginsValue_indentedChars (level + 1) item).append _).skipBlanks]
  | _, .object [], steps + 1, text, _, _ => rfl
  | level, .object ((key, value) :: members), steps + 1, text, hsteps, htext => by
      simp only [Value.indentedChars, List.length_append, List.length_cons, List.length_nil]
        at hsteps
      have hread := readMembers?_indentedChars (level + 1) level key value members steps text
        (by omega)
      have hbegins : BeginsValue (stringChars key) := beginsValue_mark (by decide) _
      simp only [Value.indentedChars, List.cons_append, List.append_assoc, List.nil_append]
      refine readValue?_openObject ?_ (hbegins.append _) hread
      rw [skipBlanks_lineStart, (hbegins.append _).skipBlanks]
termination_by structural _ _ steps => steps

theorem readItems?_indentedChars : ∀ (level outer : Nat) (item : Value) (items : List Value)
    (steps : Nat) (text : List Char),
    2 * ((item.indentedChars level).length + (moreItemsChars level items).length) < steps →
    readItems? steps (item.indentedChars level
        ++ (moreItemsChars level items ++ (lineStart outer ++ ']' :: text)))
      = some (writtenItems (item :: items), text)
  | level, outer, item, [], steps + 1, text, hsteps => by
      have hread := readValue?_indentedChars level item steps (lineStart outer ++ ']' :: text)
        (by omega) (endsNumber_lineStart outer _)
      exact readItems?_close hread (skipBlanks_lineStart outer _)
  | level, outer, item, next :: items, steps + 1, text, hsteps => by
      simp only [moreItemsChars, List.length_append, List.length_cons] at hsteps
      simp only [moreItemsChars, List.append_assoc, List.cons_append]
      refine readItems?_more
        (readValue?_indentedChars level item steps _ (by omega) (endsNumber_cons (by decide) _)) ?_
      rw [readItems?_congr (skipBlanks_lineStart level _)]
      exact readItems?_indentedChars level outer next items steps text (by omega)
termination_by structural _ _ _ _ steps => steps

theorem readMembers?_indentedChars : ∀ (level outer : Nat) (key : String) (value : Value)
    (members : List (String × Value)) (steps : Nat) (text : List Char),
    2 * ((value.indentedChars level).length + (moreMembersChars level members).length) < steps →
    readMembers? steps (stringChars key ++ ':' :: ' ' :: (value.indentedChars level
        ++ (moreMembersChars level members ++ (lineStart outer ++ '\x7d' :: text))))
      = some ((writtenMembers ((key, value) :: members)).map fun member => (some member.1, member.2),
          text)
  | level, outer, key, value, [], steps + 1, text, hsteps => by
      have hread := readValue?_indentedChars level value steps (lineStart outer ++ '\x7d' :: text)
        (by omega) (endsNumber_lineStart outer _)
      rw [← readValue?_congr (skipBlanks_space _)] at hread
      exact readMembers?_close hread (skipBlanks_lineStart outer _)
  | level, outer, key, value, (key', value') :: members, steps + 1, text, hsteps => by
      simp only [moreMembersChars, List.length_append, List.length_cons] at hsteps
      simp only [moreMembersChars, List.append_assoc, List.cons_append]
      have hmore := readMembers?_indentedChars level outer key' value' members steps text (by omega)
      rw [← readMembers?_congr (skipBlanks_lineStart level _)] at hmore
      refine readMembers?_more ?_ hmore
      rw [readValue?_congr (skipBlanks_space _)]
      exact readValue?_indentedChars level value steps _ (by omega) (endsNumber_cons (by decide) _)
termination_by structural _ _ _ _ _ steps => steps

end

/-- **The text of a value is read in the form that it was written in**, also with a line
break behind it. -/
theorem readForm?_indented (value : Value) :
    readForm? (value.indented ++ "\n").toList = some value.writtenForm := by
  have htext : (value.indented ++ "\n").toList = value.indentedChars 0 ++ ['\n'] := by
    rw [String.toList_append, Value.indented, String.toList_ofList]
    rfl
  have hread := readValue?_indentedChars 0 value
    (2 * (value.indentedChars 0 ++ ['\n']).length + 2) ['\n']
    (by simp only [List.length_append]; omega) (endsNumber_lineStart 0 [])
  rw [readForm?, htext, hread]
  rfl

end PackageOrder.Json
