/-
PackageOrder.Proofs.Script.Prescan — what the search for words finds.

A text is not read where the words of an import are not found in it as they
usually stand (`canSkip`). What is lost that way is what a program may also say:
a word that is written with escapes or touches another one, and a call with
something other than white space between its word, its bracket and its string.
-/
import PackageOrder.Proofs.Script.Statements
import PackageOrder.Proofs.Text.Split

namespace PackageOrder.Script

open PackageOrder.Text

variable {isModule : Bool} {whole : List Char} {words : List String} {source : String}

/-! ## Tokens in the text -/

/-- What a word without escapes, a string or an opening bracket says about the
text it is read from. -/
def Token.Spells (text rest : List Char) : Token → Prop
  | .word name escaped => escaped = false → text = name.toList ++ rest
  | .string _ => ∃ quote later, text = quote :: later ∧ isQuote quote = true
  | .sign symbol => symbol = "(" → text = '(' :: rest
  | _ => True

theorem escaped_scanEscapedName (steps : Nat) (first valid : Bool) (found text : List Char) :
    (scanEscapedName steps first valid found text).escaped = true := by
  fun_induction scanEscapedName steps first valid found text <;> simp_all

theorem scanName_spells (text : List Char) (plain : (scanName text).escaped = false) :
    text = (scanName text).name ++ (scanName text).rest := by
  unfold scanName at plain ⊢
  simp only at plain ⊢
  split at plain
  · simp [escaped_scanEscapedName] at plain
  · rename_i unescaped
    rw [if_neg unescaped]
    exact List.takeWhile_append_dropWhile.symm

theorem single_spells (c : Char) (rest : List Char) :
    (scanSign.single c rest).1.Spells (c :: rest) (scanSign.single c rest).2 := by
  unfold scanSign.single
  split
  · intro same
    have letters : [c] = ['('] := by simpa using congrArg String.toList same
    rw [List.singleton_inj.mp letters]
  · trivial

theorem scanSign_spells (c : Char) (rest : List Char) :
    (scanSign c rest).1.Spells (c :: rest) (scanSign c rest).2 := by
  fun_cases scanSign c rest
  all_goals first
    | exact fun same => absurd same (by decide)
    | exact single_spells _ _
    | exact fun same => absurd (congrArg String.toList same) (by simp)

theorem scanToken_spells (text : List Char) :
    (scanToken text).token.Spells text (scanToken text).rest := by
  have number (found : ScannedNumber) (text rest : List Char) :
      found.scanned.token.Spells text rest := by
    unfold ScannedNumber.scanned
    split <;> trivial
  unfold scanToken
  split
  · trivial
  rename_i c rest
  split
  · intro plain
    simpa using scanName_spells _ plain
  split
  · exact number _ _ _
  split
  · rename_i quote
    unfold scanString
    split
    · simpa [Token.Spells, isQuote] using quote
    · trivial
  split
  · split <;> trivial
  split
  · split <;> trivial
  split
  · split
    · exact number _ _ _
    · exact scanSign_spells _ _
  · exact scanSign_spells _ _

/-! ## Words -/

theorem textsAfterWord_subset (word : List Char) (inWord : Bool) (c : Char) (rest : List Char) :
    textsAfterWord word (isWord c) rest ⊆ textsAfterWord word inWord (c :: rest) := by
  intro text mem
  rw [textsAfterWord]
  split
  · exact mem
  · split
    · split
      · exact mem
      · exact List.mem_cons_of_mem _ mem
    · exact mem

/-- The text after a word is found wherever the word stands between other
characters. -/
theorem mem_textsAfterWord {word before after : List Char} {inWord : Bool} (isSome : word ≠ [])
    (starts : (before.getLast?.map isWord).getD inWord = false)
    (ends : after.head?.any isWord = false) :
    after ∈ textsAfterWord word inWord (before ++ word ++ after) := by
  induction before generalizing inWord with
  | nil =>
    obtain ⟨c, rest, rfl⟩ := List.exists_cons_of_ne_nil isSome
    have cut : dropHead? (c :: rest) (c :: (rest ++ after)) = some after :=
      dropHead?_append (c :: rest) after
    rw [List.nil_append, List.cons_append, textsAfterWord, if_neg (by simpa using starts), cut]
    simp [ends]
  | cons c before ih =>
    refine textsAfterWord_subset word inWord c _ (ih ?_)
    cases before with
    | nil => simpa using starts
    | cons d before => simpa [List.getLast?_eq_some_getLast (List.cons_ne_nil d before)] using starts

/-- A word is written without escapes between characters that belong to no
word. -/
structure WordPlace.IsPlain (word : WordPlace whole words) : Prop where
  unescaped : word.escaped = false
  starts : ∃ before, whole = before ++ word.text ∧ before.getLast?.any isWord = false
  ends : word.rest.head?.any isWord = false

theorem WordPlace.IsPlain.mem_textsAfterWord {word : WordPlace whole words} (plain : word.IsPlain)
    (isSome : word.name ≠ "") : word.rest ∈ textsAfterWord word.name.toList false whole := by
  obtain ⟨before, split, starts⟩ := plain.starts
  have spells : word.text = word.name.toList ++ word.rest := by
    have spells := scanToken_spells word.text
    rw [word.token] at spells
    exact spells plain.unescaped
  have named : word.name.toList ≠ [] := by simpa using isSome
  have around : whole = before ++ word.name.toList ++ word.rest := by
    rw [List.append_assoc, ← spells]
    exact split
  have touches : (before.getLast?.map isWord).getD false = false := by
    cases last : before.getLast? with
    | none => rfl
    | some c => simpa [last] using starts
  have found := Script.mem_textsAfterWord named touches plain.ends
  rwa [← around] at found

/-! ## Statements -/

theorem mentionsStatement_of_isPlain (place : StatementPlace whole source)
    (plain : place.word.IsPlain) : mentionsStatement whole = true := by
  obtain ⟨quoted, behind, token⟩ := place.quoted
  have quote : place.word.rest.any isQuote = true := by
    have spells := scanToken_spells quoted
    rw [token] at spells
    obtain ⟨quote, later, rfl, isQuote⟩ := spells
    exact List.any_eq_true.mpr ⟨quote, behind.subset List.mem_cons_self, isQuote⟩
  refine List.any_eq_true.mpr ⟨place.word.rest, List.mem_append.mpr ?_, quote⟩
  rcases List.mem_pair.mp place.word.isOne with same | same
  all_goals
    have found := plain.mem_textsAfterWord (by simp [same])
    rw [same] at found
  · exact .inl found
  · exact .inr found

/-! ## Calls -/

/-- One text goes on as another one after white space only. -/
def BlankBetween (text later : List Char) : Prop :=
  ∃ gap : List Char, text = gap ++ later ∧ gap.all isBlank = true

/-- A call whose word is plain and has only white space between itself, the
bracket and the string. -/
structure CallPlace.IsPlain (place : CallPlace isModule whole source) : Prop
    extends place.word.IsPlain where
  beforeBracket : BlankBetween place.word.rest place.bracket
  beforeString : BlankBetween (scanToken place.bracket).rest (afterToken isModule place.bracket)

theorem dropWhile_blankBetween {text later : List Char} (between : BlankBetween text later)
    (starts : later.head?.any isBlank = false) : text.dropWhile isBlank = later := by
  obtain ⟨gap, rfl, blank⟩ := between
  rw [List.dropWhile_append_of_pos (by simpa using blank)]
  cases later with
  | nil => rfl
  | cons c rest => rw [List.dropWhile_cons_of_neg (by simpa using starts)]

theorem mentionsCall_of_isPlain (place : CallPlace isModule whole source)
    (plain : place.IsPlain) : mentionsCall whole = true := by
  have bracket : place.bracket = '(' :: (scanToken place.bracket).rest := by
    have spells := scanToken_spells place.bracket
    rw [place.opens] at spells
    exact spells rfl
  obtain ⟨quote, later, string, isQuote⟩ : ∃ quote later,
      afterToken isModule place.bracket = quote :: later ∧ isQuote quote = true := by
    have spells := scanToken_spells (afterToken isModule place.bracket)
    rw [place.quoted] at spells
    exact spells
  have visible : isBlank quote = false := by
    rcases (by simpa [Script.isQuote] using isQuote : quote = '"' ∨ quote = '\x27') with rfl | rfl <;> rfl
  have isOne : place.word.name = "require" := List.mem_singleton.mp place.word.isOne
  have found := plain.mem_textsAfterWord (by simp [isOne])
  rw [isOne] at found
  refine List.any_eq_true.mpr ⟨place.word.rest, found, ?_⟩
  rw [startsStringCall, dropWhile_blankBetween plain.beforeBracket (by rw [bracket]; rfl), bracket]
  simp only
  rw [dropWhile_blankBetween plain.beforeString (by simpa [string] using visible), string]
  exact isQuote

/-! ## Imports -/

/-- What counts outside functions counts where those are looked into as well. -/
theorem bodyRequired_subset (body : List Stmt) : bodyRequired false body ⊆ bodyRequired true body := by
  rw [← counted_bodyCalls, ← counted_bodyCalls]
  refine List.map_subset _ fun c mem => ?_
  rw [List.mem_filter, Call.counts_false, Bool.and_eq_true] at mem
  rw [List.mem_filter, Call.counts_true]
  exact ⟨mem.1, mem.2.1⟩

/-- A source for values is one for types too. -/
theorem importedSource?_types {types : Bool} {s : Stmt}
    (same : s.importedSource? types = some source) : s.importedSource? true = some source := by
  cases types with
  | true => exact same
  | false => cases s <;> simp_all [Stmt.importedSource?]

/-- Whether an import in a syntax is written somewhere in a file. -/
def ModuleSyntax.Writes (modules : ModuleSyntax) (path text source : String) : Prop :=
  match modules with
  | .esm | .declarations => Nonempty (StatementPlace text.toList source)
  | .umd | .commonJs => Nonempty (CallPlace (modules.dialect path).isModule text.toList source)

/-- Whether an import in a syntax is plainly written somewhere in a file. -/
def ModuleSyntax.WritesPlainly (modules : ModuleSyntax) (path text source : String) : Prop :=
  match modules with
  | .esm | .declarations => ∃ place : StatementPlace text.toList source, place.word.IsPlain
  | .umd | .commonJs =>
    ∃ place : CallPlace (modules.dialect path).isModule text.toList source, place.IsPlain

/-- What a file imports is written in it. -/
theorem writes_of_mem_readImports {modules : ModuleSyntax} {path text source : String}
    (mem : source ∈ readImports modules path text) : modules.Writes path text source := by
  have sound := parseProgram_sound (modules.dialect path) text
  have called (mem : source ∈ bodyRequired true (parseProgram (modules.dialect path) text)) :
      Nonempty (CallPlace (modules.dialect path).isModule text.toList source) :=
    (traced_body _).mpr (fun s inside => (sound s inside).calls) source mem
  have stated {types : Bool} (mem : source ∈ (parseProgram (modules.dialect path) text).filterMap
      (Stmt.importedSource? types)) : Nonempty (StatementPlace text.toList source) := by
    obtain ⟨s, inside, same⟩ := List.mem_filterMap.mp mem
    exact (sound s inside).source source (importedSource?_types same)
  cases modules with
  | esm => exact stated mem
  | umd => exact called mem
  | commonJs => exact called (bodyRequired_subset _ mem)
  | declarations => exact stated mem

/-- What the search for words does not find is not plainly written. -/
theorem canSkip_eq_false {modules : ModuleSyntax} {path text source : String}
    (plainly : modules.WritesPlainly path text source) : canSkip modules text = false := by
  cases modules with
  | esm | declarations =>
    obtain ⟨place, plain⟩ := plainly
    simp [canSkip, mentionsStatement_of_isPlain place plain]
  | umd | commonJs =>
    obtain ⟨place, plain⟩ := plainly
    simp [canSkip, mentionsCall_of_isPlain place plain]

/-- A file imports what it says, but for a file that is not read: it imports
nothing, and all that it says is written somewhere in it, but nowhere
plainly. -/
theorem extractImports_prescan (modules : ModuleSyntax) (path text : String) :
    extractImports modules path text = readImports modules path text ∨
      extractImports modules path text = [] ∧
        ∀ source ∈ readImports modules path text,
          modules.Writes path text source ∧ ¬ modules.WritesPlainly path text source := by
  rw [extractImports]
  split
  · rename_i skipped
    refine .inr ⟨rfl, fun source mem => ⟨writes_of_mem_readImports mem, fun plainly => ?_⟩⟩
    rw [canSkip_eq_false plainly] at skipped
    exact Bool.false_ne_true skipped
  · exact .inl rfl

/-- A script with a comment between a bracket and its string. -/
def commentedScript : String :=
  "const a = require(/* first */ 'a');"

/-- A script that says what it imports is not read for its comment. -/
theorem extractImports_commented :
    canSkip .umd commentedScript = true ∧
      readImports .umd "/lib/index.js" commentedScript = ["a"] ∧
      extractImports .umd "/lib/index.js" commentedScript = [] := by
  decide +kernel

end PackageOrder.Script
