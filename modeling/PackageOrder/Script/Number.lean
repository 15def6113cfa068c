/-
PackageOrder.Script.Number — numbers in script source.

Digits may be set apart by single underscores. In a decimal number a misplaced
one is reported and the number goes on after it; in the other bases the number
cannot be read. Neither can a number that is followed by a digit or by what
could start a name, except after the exponent of a number that starts with
zero.
-/
import PackageOrder.Script.Escape

namespace PackageOrder.Script

open PackageOrder.Text

/-- How a number is read. -/
inductive NumberKind where
  | number
  /-- One whose exponent has no digits, which has no value. -/
  | valueless
  /-- What cannot be read. -/
  | bad
deriving Repr, DecidableEq

/-- A number as it is read. -/
structure ScannedNumber where
  kind : NumberKind
  /-- Whether its underscores stand between digits. -/
  valid : Bool
  rest : List Char

/-! ## Digits -/

/-- The text after more decimal digits, and whether the underscores in them
stand between digits. -/
def moreDigits : List Char → Bool × List Char
  | '_' :: d :: rest => if isAsciiDigit d then moreDigits rest else (false, d :: rest)
  | ['_'] => (false, [])
  | c :: rest => if isAsciiDigit c then moreDigits rest else (true, c :: rest)
  | [] => (true, [])

/-- The text after more digits of another base; `none` if an underscore does
not stand between digits. -/
def moreDigitsOf? (isDigit : Char → Bool) : List Char → Option (List Char)
  | '_' :: d :: rest => if isDigit d then moreDigitsOf? isDigit rest else none
  | ['_'] => none
  | c :: rest => if isDigit c then moreDigitsOf? isDigit rest else some (c :: rest)
  | [] => some []

/-! ## Ends -/

/-- A number up to its end, which nothing that goes on may follow. -/
def ScannedNumber.close (found : ScannedNumber) : ScannedNumber :=
  match found.rest with
  | c :: _ => if isAsciiDigit c || startsIdentifier c then { found with kind := .bad } else found
  | [] => found

/-- The text after the sign of a big integer. -/
def skipBigSign : List Char → List Char
  | 'n' :: rest => rest
  | rest => rest

/-- The text after the sign of an exponent. -/
def skipSign : List Char → List Char
  | '+' :: rest => rest
  | '-' :: rest => rest
  | rest => rest

/-- The exponent of a number, after its letter. -/
def scanExponent (valid : Bool) (text : List Char) : ScannedNumber :=
  match skipSign text with
  | d :: digits =>
    if isAsciiDigit d then
      let (well, rest) := moreDigits (d :: digits)
      { kind := .number, valid := valid && well, rest }
    else { kind := .valueless, valid := false, rest := d :: digits }
  | [] => { kind := .valueless, valid := false, rest := [] }

/-- The rest of a number after its digits: an exponent, if there is one. -/
def scanAfterDigits (valid : Bool) (text : List Char) : ScannedNumber :=
  match text with
  | 'e' :: rest | 'E' :: rest => (scanExponent valid rest).close
  | rest => ScannedNumber.close { kind := .number, valid, rest }

/-- The rest of a number after its point. -/
def scanFraction (valid : Bool) (text : List Char) : ScannedNumber :=
  match text with
  | d :: _ =>
    if isAsciiDigit d then
      let (well, rest) := moreDigits text
      scanAfterDigits (valid && well) rest
    else scanAfterDigits valid text
  | [] => scanAfterDigits valid []

/-! ## Numbers -/

/-- The text after digits of another base, of which there has to be one. -/
def digitsOf? (isDigit : Char → Bool) : List Char → Option (List Char)
  | d :: rest => if isDigit d then moreDigitsOf? isDigit (d :: rest) else none
  | [] => none

/-- A number in a base of its own, after its two leading characters. -/
def scanBased (isDigit : Char → Bool) (text : List Char) : ScannedNumber :=
  match digitsOf? isDigit text with
  | some rest => ScannedNumber.close { kind := .number, valid := true, rest := skipBigSign rest }
  | none => { kind := .bad, valid := true, rest := text }

/-- A number that starts with a zero and another digit: an octal one, or a
decimal one if a digit of it is eight or nine. -/
def scanPadded (text : List Char) : ScannedNumber :=
  let digits := text.takeWhile isAsciiDigit
  let rest := text.dropWhile isAsciiDigit
  if digits.all fun d => (octalDigit? d).isSome then
    ScannedNumber.close { kind := .number, valid := true, rest }
  else
    match rest with
    | '.' :: rest => scanFraction true rest
    | 'e' :: rest => scanExponent true rest
    | rest => ScannedNumber.close { kind := .number, valid := true, rest }

/-- A number that starts with another digit than zero. -/
def scanDecimal (text : List Char) : ScannedNumber :=
  match moreDigits text with
  | (valid, '.' :: rest) => scanFraction valid rest
  | (valid, 'n' :: rest) => ScannedNumber.close { kind := .number, valid, rest }
  | (valid, rest) => scanAfterDigits valid rest

/-- A number that starts with a digit. -/
def scanNumber (text : List Char) : ScannedNumber :=
  match text with
  | '0' :: c :: rest =>
    if c = 'x' ∨ c = 'X' then scanBased (fun d => (hexDigit? d).isSome) rest
    else if c = 'o' ∨ c = 'O' then scanBased (fun d => (octalDigit? d).isSome) rest
    else if c = 'b' ∨ c = 'B' then scanBased (fun d => d == '0' || d == '1') rest
    else if c = 'e' ∨ c = 'E' then scanExponent true rest
    else if c = '.' then scanFraction true rest
    else if c = 'n' then ScannedNumber.close { kind := .number, valid := true, rest }
    else if isAsciiDigit c then scanPadded (c :: rest)
    else ScannedNumber.close { kind := .number, valid := true, rest := c :: rest }
  | _ => scanDecimal text

/-! ## What is left

A number leaves a rest of the text it is read from. -/

theorem moreDigits_suffix (text : List Char) : (moreDigits text).2 <:+ text := by
  fun_induction moreDigits text with
  | case1 d rest _ ih => exact ih.trans ((List.suffix_cons d rest).trans (List.suffix_cons _ _))
  | case2 => exact List.suffix_cons _ _
  | case3 => exact List.nil_suffix
  | case4 c rest _ _ _ ih => exact ih.trans (List.suffix_cons c rest)
  | case5 | case6 => exact List.suffix_rfl

theorem moreDigitsOf?_suffix {isDigit : Char → Bool} {text rest : List Char}
    (read : moreDigitsOf? isDigit text = some rest) : rest <:+ text := by
  fun_induction moreDigitsOf? isDigit text with
  | case1 d rest _ ih =>
    exact (ih read).trans ((List.suffix_cons d rest).trans (List.suffix_cons _ _))
  | case4 c rest _ _ _ ih => exact (ih read).trans (List.suffix_cons c rest)
  | _ => simp_all

@[simp]
theorem ScannedNumber.rest_close (found : ScannedNumber) : found.close.rest = found.rest := by
  unfold ScannedNumber.close
  split
  · split <;> rfl
  · rfl

theorem skipBigSign_suffix (text : List Char) : skipBigSign text <:+ text := by
  fun_cases skipBigSign text with
  | case1 => exact List.suffix_cons _ _
  | case2 => exact List.suffix_rfl

theorem skipSign_suffix (text : List Char) : skipSign text <:+ text := by
  fun_cases skipSign text with
  | case1 | case2 => exact List.suffix_cons _ _
  | case3 => exact List.suffix_rfl

theorem scanExponent_suffix (valid : Bool) (text : List Char) :
    (scanExponent valid text).rest <:+ text := by
  have digits := skipSign_suffix text
  unfold scanExponent
  split
  · rename_i found
    rw [found] at digits
    split
    · exact (moreDigits_suffix _).trans digits
    · exact digits
  · exact List.nil_suffix

theorem scanAfterDigits_suffix (valid : Bool) (text : List Char) :
    (scanAfterDigits valid text).rest <:+ text := by
  unfold scanAfterDigits
  split
  · rw [ScannedNumber.rest_close]
    exact (scanExponent_suffix valid _).trans (List.suffix_cons _ _)
  · rw [ScannedNumber.rest_close]
    exact (scanExponent_suffix valid _).trans (List.suffix_cons _ _)
  · simpa only [ScannedNumber.rest_close] using List.suffix_rfl

theorem scanFraction_suffix (valid : Bool) (text : List Char) :
    (scanFraction valid text).rest <:+ text := by
  unfold scanFraction
  split
  · split
    · exact (scanAfterDigits_suffix _ _).trans (moreDigits_suffix _)
    · exact scanAfterDigits_suffix _ _
  · exact scanAfterDigits_suffix _ _

theorem digitsOf?_suffix {isDigit : Char → Bool} {text rest : List Char}
    (read : digitsOf? isDigit text = some rest) : rest <:+ text := by
  fun_cases digitsOf? isDigit text with
  | case1 d after isOne => exact moreDigitsOf?_suffix (by simpa [digitsOf?, isOne] using read)
  | case2 | case3 => simp_all [digitsOf?]

theorem scanBased_suffix (isDigit : Char → Bool) (text : List Char) :
    (scanBased isDigit text).rest <:+ text := by
  unfold scanBased
  split
  · rename_i rest found
    rw [ScannedNumber.rest_close]
    exact (skipBigSign_suffix rest).trans (digitsOf?_suffix found)
  · exact List.suffix_rfl

theorem scanPadded_suffix (text : List Char) : (scanPadded text).rest <:+ text := by
  have digits : text.dropWhile isAsciiDigit <:+ text := List.dropWhile_suffix _
  dsimp only [scanPadded]
  split
  · rw [ScannedNumber.rest_close]
    exact digits
  · split
    · rename_i found
      rw [found] at digits
      exact (scanFraction_suffix _ _).trans ((List.suffix_cons _ _).trans digits)
    · rename_i found
      rw [found] at digits
      exact (scanExponent_suffix _ _).trans ((List.suffix_cons _ _).trans digits)
    · rw [ScannedNumber.rest_close]
      exact digits

theorem scanDecimal_suffix (text : List Char) : (scanDecimal text).rest <:+ text := by
  have digits := moreDigits_suffix text
  unfold scanDecimal
  split
  · rename_i read
    rw [read] at digits
    exact (scanFraction_suffix _ _).trans ((List.suffix_cons _ _).trans digits)
  · rename_i read
    rw [read] at digits
    rw [ScannedNumber.rest_close]
    exact (List.suffix_cons _ _).trans digits
  · rename_i read
    rw [read] at digits
    exact (scanAfterDigits_suffix _ _).trans digits

theorem scanNumber_suffix (text : List Char) : (scanNumber text).rest <:+ text := by
  fun_cases scanNumber text with
  | case1 c rest | case2 c rest | case3 c rest =>
    exact (scanBased_suffix _ _).trans ((List.suffix_cons _ _).trans (List.suffix_cons _ _))
  | case4 c rest =>
    exact (scanExponent_suffix _ _).trans ((List.suffix_cons _ _).trans (List.suffix_cons _ _))
  | case5 rest =>
    exact (scanFraction_suffix _ _).trans ((List.suffix_cons _ _).trans (List.suffix_cons _ _))
  | case6 rest =>
    rw [ScannedNumber.rest_close]
    exact (List.suffix_cons _ _).trans (List.suffix_cons _ _)
  | case7 c rest => exact (scanPadded_suffix _).trans (List.suffix_cons _ _)
  | case8 c rest =>
    rw [ScannedNumber.rest_close]
    exact List.suffix_cons _ _
  | case9 => exact scanDecimal_suffix text

end PackageOrder.Script
