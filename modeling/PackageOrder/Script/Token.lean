/-
PackageOrder.Script.Token — the tokens of script source and how they are cut
from the text.

Blanks and comments (`skipTrivia`) separate tokens; whether a line ends in
them matters to the grammar and is reported. A slash is read as an operator
here, and a closing angle bracket always alone: the grammar asks for a regular
expression (`scanRegex?`) or a longer operator (`scanAngles`) where one may
stand. A template is cut at its substitutions; `scanTemplate?` reads one chunk.

What no rule reads is `Token.bad`, which ends a program where a statement may
start and is an error anywhere else. An unterminated block comment ends the
text. A token may also be read in spite of an error in it, such as a malformed
escape (`Scanned.valid`).
-/
import PackageOrder.Script.Number

namespace PackageOrder.Script

open PackageOrder.Text

/-- A token. -/
inductive Token where
  /-- A name or keyword, and whether it is written with escapes. -/
  | word (name : String) (escaped : Bool)
  /-- A name after a hash sign. -/
  | privateName
  | number
  /-- A number without a value, which is an error anywhere. -/
  | valueless
  | string (value : String)
  /-- The first chunk of a template, and whether it is the whole of it. -/
  | template (whole : Bool)
  | sign (text : String)
  | bad
  | ending
deriving Repr, DecidableEq

/-- A token as it is read. -/
structure Scanned where
  token : Token
  /-- The text after the token. -/
  rest : List Char
  /-- Whether it is read without an error. -/
  valid : Bool := true

/-- The token of a number. -/
def ScannedNumber.scanned (found : ScannedNumber) : Scanned :=
  match found.kind with
  | .number => { token := .number, rest := found.rest, valid := found.valid }
  | .valueless => { token := .valueless, rest := found.rest, valid := false }
  | .bad => { token := .bad, rest := found.rest, valid := false }

/-! ## Characters -/

/-- A character that ends a line. -/
def endsLine (c : Char) : Bool :=
  c == '\n' || c == '\r' || c.toNat == 0x2028 || c.toNat == 0x2029

/-- A blank within a line. -/
def isScriptBlank (c : Char) : Bool :=
  c == ' ' || c == '\t' || c == '\x0b' || c == '\x0c' || c.toNat == 0xA0 || c.toNat == 0xFEFF
    || c.toNat == 0x85 || c.toNat == 0x1680 || (0x2000 ≤ c.toNat && c.toNat ≤ 0x200B)
    || c.toNat == 0x202F || c.toNat == 0x205F || c.toNat == 0x3000

/-! ## Trivia -/

/-- What is being skipped. -/
inductive Trivia where
  | blanks
  | lineComment
  | blockComment
deriving DecidableEq

/-- The text after blanks and comments, and whether a line ends in them.
`fresh` says that nothing but trivia stands before on the line. In a script
that is no module `<!--` starts a line comment, and so does `-->` where the
line is fresh. -/
def skipTrivia (isModule : Bool) : Trivia → Bool → List Char → Bool × List Char
  | _, fresh, [] => (fresh, [])
  | .lineComment, fresh, c :: rest =>
    if endsLine c then skipTrivia isModule .blanks true rest
    else skipTrivia isModule .lineComment fresh rest
  | .blockComment, fresh, '*' :: '/' :: rest => skipTrivia isModule .blanks fresh rest
  | .blockComment, fresh, c :: rest =>
    skipTrivia isModule .blockComment (fresh || endsLine c) rest
  | .blanks, fresh, '/' :: '/' :: rest => skipTrivia isModule .lineComment fresh rest
  | .blanks, fresh, '/' :: '*' :: rest => skipTrivia isModule .blockComment fresh rest
  | .blanks, fresh, '<' :: '!' :: '-' :: '-' :: rest =>
    if isModule then (fresh, '<' :: '!' :: '-' :: '-' :: rest)
    else skipTrivia isModule .lineComment fresh rest
  | .blanks, fresh, '-' :: '-' :: '>' :: rest =>
    if isModule || !fresh then (fresh, '-' :: '-' :: '>' :: rest)
    else skipTrivia isModule .lineComment fresh rest
  | .blanks, fresh, c :: rest =>
    if endsLine c then skipTrivia isModule .blanks true rest
    else if isScriptBlank c then skipTrivia isModule .blanks fresh rest
    else (fresh, c :: rest)

/-! ## Strings and templates -/

/-- The body of a string after its opening quote, as it is written; `none` is
one that the line or the text ends before it does. -/
def stringBody? (quote : Char) : List Char → Option (List Char × List Char)
  | [] => none
  | '\\' :: '\r' :: '\n' :: rest => (stringBody? quote rest).map fun (body, rest) =>
    ('\\' :: '\n' :: body, rest)
  | '\\' :: c :: rest => (stringBody? quote rest).map fun (body, rest) =>
    ('\\' :: c :: body, rest)
  | c :: rest =>
    if c = quote then some ([], rest)
    else if c = '\n' ∨ c = '\r' then none
    else (stringBody? quote rest).map fun (body, rest) => (c :: body, rest)

/-- A chunk of a template up to a substitution or the closing quote; whether it
is the last one; `none` is a chunk that the text ends before it does. -/
def scanTemplate? : List Char → Option (Bool × List Char)
  | [] => none
  | '\\' :: _ :: rest => scanTemplate? rest
  | '$' :: '\x7b' :: rest => some (false, rest)
  | '\x60' :: rest => some (true, rest)
  | _ :: rest => scanTemplate? rest

/-! ## Signs -/

/-- The longest sign at the front of a text. -/
def scanSign (c : Char) (rest : List Char) : Token × List Char :=
  match c, rest with
  | '.', '.' :: '.' :: rest => (.sign "...", rest)
  | '=', '=' :: '=' :: rest => (.sign "===", rest)
  | '=', '=' :: rest => (.sign "==", rest)
  | '=', '>' :: rest => (.sign "=>", rest)
  | '!', '=' :: '=' :: rest => (.sign "!==", rest)
  | '!', '=' :: rest => (.sign "!=", rest)
  | '*', '*' :: '=' :: rest => (.sign "**=", rest)
  | '*', '*' :: rest => (.sign "**", rest)
  | '<', '<' :: '=' :: rest => (.sign "<<=", rest)
  | '<', '<' :: rest => (.sign "<<", rest)
  | '&', '&' :: '=' :: rest => (.sign "&&=", rest)
  | '&', '&' :: rest => (.sign "&&", rest)
  | '|', '|' :: '=' :: rest => (.sign "||=", rest)
  | '|', '|' :: rest => (.sign "||", rest)
  | '?', '?' :: '=' :: rest => (.sign "??=", rest)
  | '?', '?' :: rest => (.sign "??", rest)
  | '?', '.' :: d :: rest =>
    if isAsciiDigit d then (.sign "?", '.' :: d :: rest) else (.sign "?.", d :: rest)
  | '?', ['.'] => (.sign "?.", [])
  | '+', '+' :: rest => (.sign "++", rest)
  | '-', '-' :: rest => (.sign "--", rest)
  | '>', rest => (.sign ">", rest)
  | c, '=' :: rest =>
    if c ∈ ['+', '-', '*', '/', '%', '&', '|', '^', '<'] then
      (.sign (.ofList [c, '=']), rest)
    else single c ('=' :: rest)
  | c, rest => single c rest
where
  single (c : Char) (rest : List Char) : Token × List Char :=
    if c ∈ ['\x7b', '\x7d', '(', ')', '[', ']', ';', ',', '<', '+', '-', '*', '/', '%', '&', '|',
        '^', '!', '~', '?', ':', '=', '.', '@'] then
      (.sign (.ofList [c]), rest)
    else (.bad, rest)

/-- The operator that starts with a closing angle bracket, which the text is
read after, and what follows it. -/
def scanAngles : List Char → String × List Char
  | '>' :: '>' :: '=' :: rest => (">>>=", rest)
  | '>' :: '>' :: rest => (">>>", rest)
  | '>' :: '=' :: rest => (">>=", rest)
  | '>' :: rest => (">>", rest)
  | '=' :: rest => (">=", rest)
  | rest => (">", rest)

/-! ## Regular expressions -/

/-- The body of a regular expression after its opening slash. -/
def scanRegexBody? (inClass : Bool) : List Char → Option (List Char)
  | [] => none
  | '\\' :: c :: rest => if endsLine c then none else scanRegexBody? inClass rest
  | c :: rest =>
    if endsLine c then none
    else if c = '[' then scanRegexBody? true rest
    else if c = ']' then scanRegexBody? false rest
    else if c = '/' ∧ ¬inClass then some rest
    else scanRegexBody? inClass rest

/-- A regular expression after its opening slash, its flags included, which are
letters of a fixed set without repetition. -/
def scanRegex? (text : List Char) : Option (List Char) := do
  let rest ← scanRegexBody? false text
  let isFlag (c : Char) : Bool := isAsciiWord c || c == '$'
  let flags := rest.takeWhile isFlag
  if flags.all (· ∈ ['d', 'g', 'i', 'm', 's', 'u', 'v', 'y']) && flags.Nodup then
    some (rest.dropWhile isFlag)
  else none

/-! ## Tokens -/

/-- A string after its opening quote. -/
def scanString (quote : Char) (text : List Char) : Scanned :=
  match stringBody? quote text with
  | some (body, rest) =>
    let (parts, valid) := stringParts body.length body
    { token := .string (.ofList (textOfParts parts)), rest, valid }
  | none => { token := .bad, rest := [], valid := false }

/-- The token at the front of a text without leading trivia. -/
def scanToken (text : List Char) : Scanned :=
  match text with
  | [] => { token := .ending, rest := [] }
  | c :: rest =>
    if startsName text then
      let found := scanName text
      { token := .word (.ofList found.name) found.escaped, rest := found.rest,
        valid := found.valid }
    else if isAsciiDigit c then (scanNumber text).scanned
    else if c = '"' ∨ c = '\x27' then scanString c rest
    else if c = '\x60' then
      match scanTemplate? rest with
      | some (whole, rest) => { token := .template whole, rest }
      | none => { token := .bad, rest := [], valid := false }
    else if c = '#' then
      if startsName rest then
        let found := scanName rest
        { token := .privateName, rest := found.rest, valid := found.valid }
      else { token := .bad, rest, valid := false }
    else
      match c, rest with
      | '.', d :: _ =>
        if isAsciiDigit d then (scanFraction true rest).scanned else ofSign (scanSign c rest)
      | _, _ => ofSign (scanSign c rest)
where
  ofSign : Token × List Char → Scanned
    | (token, rest) => { token, rest, valid := token != .bad }

/-- The text after a first line that names the program to run the file. -/
def skipInterpreterLine : List Char → List Char
  | '#' :: '!' :: rest => rest.dropWhile (!endsLine ·)
  | text => text

/-! ## What is left

A token leaves a rest of the text it is read from. -/

theorem skipTrivia_suffix (isModule : Bool) (trivia : Trivia) (fresh : Bool) (text : List Char) :
    (skipTrivia isModule trivia fresh text).2 <:+ text := by
  fun_induction skipTrivia isModule trivia fresh text
  all_goals first
    | exact List.suffix_rfl
    | exact List.IsSuffix.trans ‹_ <:+ _› (by simp [List.suffix_cons_iff])

theorem stringBody?_suffix {quote : Char} {text body rest : List Char}
    (read : stringBody? quote text = some (body, rest)) : rest <:+ text := by
  fun_induction stringBody? quote text generalizing body rest with
  | case1 | case5 => simp at read
  | case2 after ih | case3 _ after _ ih | case6 _ after _ _ _ _ ih =>
    obtain ⟨⟨inner, left⟩, found, same⟩ := Option.map_eq_some_iff.mp read
    simp only [Prod.mk.injEq] at same
    exact (same.2 ▸ ih found).trans (by simp [List.suffix_cons_iff])
  | case4 after =>
    simp only [Option.some.injEq, Prod.mk.injEq] at read
    exact read.2 ▸ List.suffix_cons _ _

theorem scanTemplate?_suffix {whole : Bool} {text rest : List Char}
    (read : scanTemplate? text = some (whole, rest)) : rest <:+ text := by
  fun_induction scanTemplate? text with
  | case1 => simp at read
  | case2 _ after ih | case5 _ after _ _ _ ih => exact (ih read).trans (by simp [List.suffix_cons_iff])
  | case3 after | case4 after =>
    simp only [Option.some.injEq, Prod.mk.injEq] at read
    exact read.2 ▸ (by simp [List.suffix_cons_iff])

@[simp]
theorem rest_single (c : Char) (rest : List Char) : (scanSign.single c rest).2 = rest := by
  unfold scanSign.single
  split <;> rfl

theorem scanSign_suffix (c : Char) (rest : List Char) : (scanSign c rest).2 <:+ rest := by
  fun_cases scanSign c rest <;> simp [List.suffix_cons_iff]

theorem scanAngles_suffix (text : List Char) : (scanAngles text).2 <:+ text := by
  fun_cases scanAngles text <;> simp [List.suffix_cons_iff]

theorem scanRegexBody?_suffix {inClass : Bool} {text rest : List Char}
    (read : scanRegexBody? inClass text = some rest) : rest <:+ text := by
  fun_induction scanRegexBody? inClass text with
  | case1 | case2 | case4 => simp at read
  | case3 _ _ _ _ ih | case5 _ _ _ _ ih | case6 _ _ _ _ _ ih | case8 _ _ _ _ _ _ _ _ ih =>
    exact (ih read).trans (by simp [List.suffix_cons_iff])
  | case7 =>
    simp only [Option.some.injEq] at read
    exact read ▸ List.suffix_cons _ _

theorem scanRegex?_suffix {text rest : List Char} (read : scanRegex? text = some rest) :
    rest <:+ text := by
  simp only [scanRegex?, Option.bind_eq_bind, Option.bind_eq_some_iff] at read
  obtain ⟨body, found, read⟩ := read
  split at read
  · simp only [Option.some.injEq] at read
    exact (read ▸ List.dropWhile_suffix _).trans (scanRegexBody?_suffix found)
  · simp at read

theorem scanString_suffix (quote : Char) (text : List Char) :
    (scanString quote text).rest <:+ text := by
  unfold scanString
  split
  · rename_i read
    exact stringBody?_suffix read
  · exact List.nil_suffix

@[simp]
theorem ScannedNumber.rest_scanned (found : ScannedNumber) : found.scanned.rest = found.rest := by
  unfold ScannedNumber.scanned
  split <;> rfl

@[simp]
theorem rest_ofSign (found : Token × List Char) : (scanToken.ofSign found).rest = found.2 := rfl

theorem scanToken_suffix (text : List Char) : (scanToken text).rest <:+ text := by
  unfold scanToken
  split
  · exact List.suffix_rfl
  rename_i c rest
  have front : rest <:+ c :: rest := List.suffix_cons c rest
  split
  · exact scanName_suffix _
  split
  · rw [ScannedNumber.rest_scanned]
    exact scanNumber_suffix _
  split
  · exact (scanString_suffix _ _).trans front
  split
  · split
    · rename_i read
      exact (scanTemplate?_suffix read).trans front
    · exact List.nil_suffix
  split
  · split
    · exact (scanName_suffix _).trans front
    · exact front
  split
  · split
    · rw [ScannedNumber.rest_scanned]
      exact (scanFraction_suffix _ _).trans front
    · exact (scanSign_suffix _ _).trans front
  · exact (scanSign_suffix _ _).trans front

theorem skipInterpreterLine_suffix (text : List Char) : skipInterpreterLine text <:+ text := by
  unfold skipInterpreterLine
  split
  · exact (List.dropWhile_suffix _).trans ((List.suffix_cons _ _).trans (List.suffix_cons _ _))
  · exact List.suffix_rfl

end PackageOrder.Script
