/-
PackageOrder.Proofs.Script.Statements — the sources and calls in a statement
that is read are written in the text.

Most statements count for nothing (`Stmt.IsQuiet`). Those of which a part counts
pass it on from the grammar of parts, and an import or export has its source
behind the word it starts with (`Stmt.Announced`). A grammar of every depth is
sound by induction on the depth.
-/
import PackageOrder.Proofs.Script.Expressions
import PackageOrder.Script.Program

namespace PackageOrder.Script

variable {isModule : Bool} {whole : List Char}

/-! ## Kinds of statements -/

/-- A statement in which nothing counts. -/
structure Stmt.IsQuiet (s : Stmt) : Prop where
  required : s.required true = []
  noSource : s.importedSource? true = none

theorem Stmt.IsQuiet.sound {s : Stmt} (quiet : s.IsQuiet) : s.Sound isModule whole where
  calls := by rw [quiet.required]; exact traced_nil
  source := by simp [quiet.noSource]

/-- A statement without calls that count whose source, if it has one, is
written in some text. -/
structure Stmt.Announced (text : List Char) (s : Stmt) : Prop where
  required : s.required true = []
  source : ∀ source, s.importedSource? true = some source → Quoted text source

theorem Stmt.IsQuiet.announced {text : List Char} {s : Stmt} (quiet : s.IsQuiet) :
    s.Announced text where
  required := quiet.required
  source := by simp [quiet.noSource]

/-- What stands behind the word of an import or export is its source. -/
theorem Stmt.Announced.sound {word : List Char} {name : String} {escaped : Bool} {s : Stmt}
    (announced : s.Announced (scanToken word).rest) (inside : word <:+ whole)
    (token : (scanToken word).token = .word name escaped) (isPort : name ∈ ["import", "export"]) :
    s.Sound isModule whole where
  calls := by rw [announced.required]; exact traced_nil
  source source same :=
    ⟨⟨⟨word, name, escaped, inside, token, isPort⟩, announced.source source same⟩⟩

theorem Stmt.isQuiet_loop (head : List Stmt) (body : Stmt) : (Stmt.loop head body).IsQuiet :=
  ⟨by simp [Stmt.required], rfl⟩

theorem Stmt.isQuiet_declaration (body : List Stmt) : (Stmt.declaration body).IsQuiet :=
  ⟨by simp [Stmt.required], rfl⟩

theorem Stmt.isQuiet_idle : Stmt.idle.IsQuiet :=
  ⟨by simp [Stmt.required], rfl⟩

theorem Stmt.isQuiet_class (value : Expr) : (Stmt.class value).IsQuiet :=
  ⟨by simp [Stmt.required], rfl⟩

theorem Stmt.isQuiet_exportDefault (value : Stmt) : (Stmt.exportDefault value).IsQuiet :=
  ⟨by simp [Stmt.required], rfl⟩

theorem Stmt.isQuiet_exportNamed (typeOnly : Bool) (declared : Option Stmt) :
    (Stmt.exportNamed none typeOnly declared).IsQuiet :=
  ⟨by simp [Stmt.required], by simp [Stmt.importedSource?]⟩

theorem Stmt.sound_expression {e : Expr} (traced : Traced isModule whole (e.required true)) :
    (Stmt.expression e).Sound isModule whole where
  calls := by simpa [Stmt.required] using traced
  source := nofun

namespace Parse

variable {g : Grammar} {pre : Cursor → Prop}

/-! ## Statements in which nothing counts -/

theorem doStatement_quiet : Ensures isModule whole pre (doStatement g) fun s _ => s.IsQuiet :=
  .next fun _ => .next fun _ => .next fun _ => .next fun _ => .next fun _ =>
    .pure fun _ _ => Stmt.isQuiet_loop _ _

theorem countedLoop_quiet (start : List Stmt) :
    Ensures isModule whole pre (countedLoop g start) fun s _ => s.IsQuiet := by
  unfold countedLoop
  repeat' first
    | with_reducible exact .pure fun _ _ => Stmt.isQuiet_loop _ _
    | with_reducible refine .ite (fun _ => ?_) fun _ => ?_
    | with_reducible refine .next fun _ => ?_

theorem itemLoop_quiet (start : Stmt) :
    Ensures isModule whole pre (itemLoop g start) fun s _ => s.IsQuiet := by
  unfold itemLoop
  repeat' first
    | with_reducible exact .pure fun _ _ => Stmt.isQuiet_loop _ _
    | with_reducible refine .ite (fun _ => ?_) fun _ => ?_
    | with_reducible refine .next fun _ => ?_

theorem forStatement_quiet : Ensures isModule whole pre (forStatement g) fun s _ => s.IsQuiet := by
  unfold forStatement
  repeat' first
    | with_reducible exact countedLoop_quiet _
    | with_reducible exact itemLoop_quiet _
    | with_reducible refine .ite (fun _ => ?_) fun _ => ?_
    | with_reducible refine .next fun _ => ?_

theorem jumpStatement_quiet : Ensures isModule whole pre jumpStatement fun s _ => s.IsQuiet := by
  unfold jumpStatement
  repeat' first
    | with_reducible exact .pure fun _ _ => Stmt.isQuiet_idle
    | with_reducible refine .ite (fun _ => ?_) fun _ => ?_
    | with_reducible refine .next fun _ => ?_

theorem switchStatement_quiet :
    Ensures isModule whole pre (switchStatement g) fun s _ => s.IsQuiet :=
  .next fun _ => .next fun _ => .next fun _ => .next fun _ => .next fun _ => .pure fun _ _ =>
    ⟨by simp [Stmt.required], rfl⟩

theorem tryStatement_quiet : Ensures isModule whole pre (tryStatement g) fun s _ => s.IsQuiet := by
  unfold tryStatement
  repeat' first
    | with_reducible exact .pure fun _ _ => ⟨by simp [Stmt.required], rfl⟩
    | with_reducible refine .ite (fun _ => ?_) fun _ => ?_
    | with_reducible refine .next fun _ => ?_

theorem enumeration_quiet : Ensures isModule whole pre (enumeration g) fun s _ => s.IsQuiet :=
  .next fun _ => .next fun _ => .next fun _ => .next fun _ => .pure fun _ _ =>
    Stmt.isQuiet_declaration _

theorem namespaceRest_quiet : Ensures isModule whole pre (namespaceRest g) fun s _ => s.IsQuiet := by
  refine .next fun cursor => ?_
  have braced {pre : Cursor → Prop} : Ensures isModule whole pre
      (do return Stmt.declaration (← bracedStatements g)) fun s _ => s.IsQuiet :=
    .next fun _ => .pure fun _ _ => Stmt.isQuiet_declaration _
  split
  · exact .next fun _ => .next fun _ => .ite (fun _ => braced) fun _ => .next fun _ =>
      .pure fun _ _ => Stmt.isQuiet_declaration _
  · exact .next fun _ => .next fun _ => braced

theorem interfaceRest_quiet : Ensures isModule whole pre (interfaceRest g) fun s _ => s.IsQuiet :=
  .next fun _ => .next fun _ => .next fun _ => .next fun _ => .pure fun _ _ =>
    Stmt.isQuiet_declaration _

/-! ## Statements of which a part counts -/

section
variable (sound : g.Sound isModule whole)
include sound

theorem condition_sound : Ensures isModule whole pre (condition g) fun e _ =>
    Traced isModule whole (e.required true) :=
  .next fun _ => .value (.withIn sound.expression) fun _ traced => .next fun _ =>
    .pure fun _ _ => traced

theorem declarator_sound : Ensures isModule whole pre (declarator g) fun b _ =>
    Traced isModule whole (bindingsRequired true [b]) := by
  refine .next fun ⟨name, parts, _⟩ => ?_
  have given {pre : Cursor → Prop} : Ensures isModule whole pre
      (do
        if ← eatSign "=" then return Binding.mk name parts (some (← g.assignment true))
        return .mk name parts none) fun b _ => Traced isModule whole (bindingsRequired true [b]) := by
    refine .next fun _ => .ite (fun _ => ?_) fun _ => .pure fun _ _ => by simp [bindingsRequired]
    exact .value (sound.assigned true) fun e traced => .pure fun _ _ => by
      simpa [bindingsRequired] using traced
  have stated {pre : Cursor → Prop} : Ensures isModule whole pre
      (do
        let _ ← eatSign "?"
        annotation g
        if ← eatSign "=" then return Binding.mk name parts (some (← g.assignment true))
        return .mk name parts none) fun b _ => Traced isModule whole (bindingsRequired true [b]) :=
    .next fun _ => .next fun _ => given
  exact .next fun _ => .ite (fun _ => .next fun _ => .ite (fun _ => .next fun _ => stated) fun _ => stated)
    fun _ => given

theorem bindingList_sound : Ensures isModule whole pre (bindingList g) fun s _ =>
    s.Sound isModule whole := by
  refine .value (.listed (declarator_sound sound)) fun declared holds => .pure fun _ _ => ⟨?_, nofun⟩
  simpa [Stmt.required] using (traced_bindings declared).mpr holds

theorem variableStatement_sound : Ensures isModule whole pre (variableStatement g) fun s _ =>
    s.Sound isModule whole :=
  .next fun _ => .value (bindingList_sound sound) fun _ holds => .next fun _ => .pure fun _ _ => holds

theorem ifStatement_sound : Ensures isModule whole pre (ifStatement g) fun s _ =>
    s.Sound isModule whole := by
  refine .next fun _ => .value (condition_sound sound) fun test tracedTest =>
    .value (sound.statement true) fun yes soundYes => .next fun _ => .ite (fun _ => ?_) fun _ => ?_
  · refine .value (sound.statement true) fun no soundNo => .pure fun _ _ => ⟨?_, nofun⟩
    simpa [Stmt.required] using ⟨tracedTest, soundYes.calls, soundNo.calls⟩
  · refine .pure fun _ _ => ⟨?_, nofun⟩
    simpa [Stmt.required] using ⟨tracedTest, soundYes.calls⟩

theorem returnStatement_sound : Ensures isModule whole pre (returnStatement g) fun s _ =>
    s.Sound isModule whole := by
  refine .next fun _ => .next fun _ => .ite (fun _ => .next fun _ => .pure fun _ _ => ?_) fun _ => ?_
  · exact Stmt.IsQuiet.sound ⟨by simp [Stmt.required], rfl⟩
  · refine .value (.withIn sound.expression) fun e traced => .next fun _ => .pure fun _ _ => ⟨?_, nofun⟩
    simpa [Stmt.required] using traced

theorem expressionStatement_sound : Ensures isModule whole pre (expressionStatement g) fun s _ =>
    s.Sound isModule whole := by
  refine .value sound.expression fun e traced => ?_
  have ended {pre : Cursor → Prop} : Ensures isModule whole pre
      (do
        endStatement
        return Stmt.expression e) fun s _ => s.Sound isModule whole :=
    .next fun _ => .pure fun _ _ => Stmt.sound_expression traced
  split
  · refine .next fun _ => .ite (fun _ => .next fun s => .pure fun _ _ => ?_) fun _ => ended
    exact Stmt.IsQuiet.sound ⟨by simp [Stmt.required], rfl⟩
  · exact ended

theorem letStatement_sound (single : Bool) : Ensures isModule whole pre (letStatement g single)
    fun s _ => s.Sound isModule whole := by
  refine .next fun (after, _) => .ite (fun _ => ?_) fun _ => .ite (fun _ => ?_) fun _ =>
    .ite (fun _ => ?_) fun _ => variableStatement_sound sound
  · exact .value (sound.assigned true) fun e traced => .next fun _ => .pure fun _ _ =>
      Stmt.sound_expression traced
  · exact .value sound.expression fun e traced => .pure fun _ _ => Stmt.sound_expression traced
  · exact .next fun _ => .next fun _ => .pure fun _ _ =>
      Stmt.sound_expression (by simp [Expr.required])

end

/-! ## Sources -/

theorem stringValue_quoted (text : List Char) :
    Ensures isModule whole (Behind text) stringValue fun value _ => Quoted text value := by
  refine .of_at fun place _ behind => ?_
  refine (?_ : Ensures isModule whole (At place.text) _ _).of (by rintro _ rfl; rfl)
  refine .look fun cursor token => ?_
  split
  · rename_i value found
    exact .next fun _ => .pure fun _ _ => ⟨place.text, behind, by rw [← token, found]⟩
  · exact .failure

theorem sourceRest_quoted (text : List Char) :
    Ensures isModule whole (Behind text) sourceRest fun source _ => Quoted text source :=
  .value (stringValue_quoted text) fun _ quoted => .next fun _ => .next fun _ =>
    .pure fun _ _ => quoted

theorem importSource_quoted (text : List Char) :
    Ensures isModule whole (Behind text) importSource fun source _ => Quoted text source :=
  .value (stringValue_quoted text) fun _ quoted => .next fun _ => .next fun _ =>
    .ite (fun _ => .next fun _ => .pure fun _ _ => quoted) fun _ => .pure fun _ _ => quoted

/-! ## Imports -/

theorem importEqualsRest_announced (text : List Char) :
    Ensures isModule whole (Behind text) importEqualsRest fun s _ => s.Announced text := by
  have named {pre : Cursor → Prop} (source : Parse (Option String))
      (quoted : Ensures isModule whole pre source fun source _ =>
        ∀ value, source = some value → Quoted text value) :
      Ensures isModule whole pre
        (do
          let source ← source
          endStatement
          return Stmt.importEquals source) fun s _ => s.Announced text :=
    .value quoted fun source holds => .next fun _ => .pure fun _ _ =>
      ⟨by simp [Stmt.required], by simpa [Stmt.importedSource?] using holds⟩
  refine .later fun _ => .later fun _ => .ite (fun _ => ?_) fun _ => .next fun _ =>
    named _ (.pure (by simp))
  refine .later fun _ => .value (stringValue_quoted text) fun value quoted => .next fun _ => ?_
  exact named _ (.pure fun _ _ => by simpa using quoted)

theorem imports_announced (text : List Char) (typeOnly : Bool) :
    Ensures isModule whole (Behind text)
      (do return Stmt.imports (← importSource) typeOnly) fun s _ => s.Announced text := by
  refine .value (importSource_quoted text) fun source quoted => .pure fun _ _ =>
    ⟨by simp [Stmt.required], ?_⟩
  simpa [Stmt.importedSource?] using quoted

theorem importRest_announced (text : List Char) (typeOnly named : Bool) :
    Ensures isModule whole (Behind text) (importRest typeOnly named) fun s _ => s.Announced text := by
  unfold importRest
  repeat' first
    | with_reducible exact importEqualsRest_announced text
    | with_reducible exact imports_announced text _
    | with_reducible refine .ite (fun _ => ?_) fun _ => ?_
    | with_reducible refine .later fun _ => ?_
    | split

theorem importAfterType_announced (text : List Char) :
    Ensures isModule whole (Behind text) importAfterType fun s _ => s.Announced text :=
  .later fun _ => .later fun _ => .ite (fun _ => .later fun _ => imports_announced text _) fun _ =>
    imports_announced text _

/-- A statement that starts with a word and has its source behind it. -/
theorem announcedAfter {word : String} {p : Parse Stmt} {text : List Char}
    (isPort : word ∈ ["import", "export"]) (inside : text <:+ whole)
    (rest : Ensures isModule whole (Behind (scanToken text).rest) p fun s _ =>
      s.Announced (scanToken text).rest) :
    Ensures isModule whole (At text) (expectWord word >>= fun _ => p) fun s _ =>
      s.Sound isModule whole := by
  refine .bind (.expectWord word) fun _ => .of_at fun cursor _ ⟨⟨escaped, token⟩, next⟩ => ?_
  refine (rest.of ?_).mono fun s _ announced => announced.sound inside token isPort
  rintro _ rfl
  rw [Behind, next]
  exact afterToken_suffix _ _

theorem importStatement_sound (text : List Char) (inside : text <:+ whole) :
    Ensures isModule whole (At text) importStatement fun s _ => s.Sound isModule whole := by
  unfold importStatement
  refine announcedAfter (by simp) inside ?_
  repeat' first
    | with_reducible exact importRest_announced _ _ _
    | with_reducible exact importAfterType_announced _
    | with_reducible exact imports_announced _ _
    | with_reducible refine .ite (fun _ => ?_) fun _ => ?_
    | with_reducible refine .later fun _ => ?_
    | split

/-! ## Exports -/

theorem exportAll_announced (text : List Char) (typeOnly : Bool) :
    Ensures isModule whole (Behind text) (exportAll typeOnly) fun s _ => s.Announced text := by
  have all : Ensures isModule whole (Behind text)
      (do return Stmt.exportAll (← sourceRest) typeOnly) fun s _ => s.Announced text := by
    refine .value (sourceRest_quoted text) fun source quoted => .pure fun _ _ =>
      ⟨by simp [Stmt.required], ?_⟩
    simpa [Stmt.importedSource?] using quoted
  exact .later fun _ => .later fun _ => .ite (fun _ => .later fun _ => .later fun _ => all) fun _ =>
    .later fun _ => all

theorem exportNamed_announced (text : List Char) (typeOnly : Bool) :
    Ensures isModule whole (Behind text) (exportNamed typeOnly) fun s _ => s.Announced text := by
  have sourced : Ensures isModule whole (Behind text)
      (do return Stmt.exportNamed (some (← sourceRest)) typeOnly none) fun s _ =>
        s.Announced text := by
    refine .value (sourceRest_quoted text) fun source quoted => .pure fun _ _ =>
      ⟨by simp [Stmt.required], ?_⟩
    simpa [Stmt.importedSource?] using quoted
  unfold exportNamed
  repeat' first
    | with_reducible exact sourced
    | with_reducible exact .pure fun _ _ => (Stmt.isQuiet_exportNamed _ _).announced
    | with_reducible refine .ite (fun _ => ?_) fun _ => ?_
    | with_reducible refine .later fun _ => ?_
    | split

theorem exportDefault_quiet : Ensures isModule whole pre (exportDefault g) fun s _ => s.IsQuiet := by
  unfold exportDefault
  repeat' first
    | with_reducible exact .pure fun _ _ => Stmt.isQuiet_exportDefault _
    | with_reducible refine .ite (fun _ => ?_) fun _ => ?_
    | with_reducible refine .next fun _ => ?_

theorem exportStatement_sound (text : List Char) (inside : text <:+ whole) :
    Ensures isModule whole (At text) (exportStatement g) fun s _ => s.Sound isModule whole := by
  unfold exportStatement
  refine announcedAfter (by simp) inside ?_
  repeat' first
    | with_reducible exact exportAll_announced _ _
    | with_reducible exact exportNamed_announced _ _
    | with_reducible exact exportDefault_quiet.mono fun _ _ quiet => quiet.announced
    | with_reducible exact .pure fun _ _ => (Stmt.isQuiet_exportNamed _ _).announced
    | with_reducible exact .pure fun _ _ => (Stmt.isQuiet_declaration _).announced
    | with_reducible exact .pure fun _ _ => Stmt.IsQuiet.announced ⟨by simp [Stmt.required], rfl⟩
    | with_reducible refine .ite (fun _ => ?_) fun _ => ?_
    | with_reducible refine .later fun _ => ?_

/-! ## Declarations -/

theorem atUsing_still : Still atUsing :=
  .bind .peek fun _ => .bind (.atWord "using") fun _ => .pure

theorem typedDeclaration_quiet (word : String) :
    Ensures isModule whole pre (typedDeclaration g word) fun s _ => s.IsQuiet := by
  unfold typedDeclaration
  repeat' first
    | with_reducible exact .failure
    | with_reducible exact interfaceRest_quiet
    | with_reducible exact enumeration_quiet
    | with_reducible exact namespaceRest_quiet
    | with_reducible exact .pure fun _ _ => Stmt.isQuiet_declaration _
    | with_reducible refine .ite (fun _ => ?_) fun _ => ?_
    | with_reducible refine .next fun _ => ?_
    | split

section
variable (sound : g.Sound isModule whole)
include sound

theorem declaration_sound : Ensures isModule whole pre (declaration g) fun s _ =>
    s.Sound isModule whole := by
  refine .next fun marks => .of_places fun text inside => .bind .word? fun found => ?_
  split
  · refine .value (functionFrom_sound sound _ _ _) fun f traced => .pure fun _ _ => ⟨?_, nofun⟩
    simpa [Stmt.required] using traced
  · exact .next fun _ => .pure fun _ _ => (Stmt.isQuiet_class _).sound
  iterate 3
    exact variableStatement_sound sound
  · rename_i word _ _ _ _ _
    refine .of_at fun place _ ⟨stays, named⟩ => ?_
    refine (?_ : Ensures isModule whole (At text) _ _).of (by rintro _ rfl; exact stays)
    refine .still atUsing_still fun _ => .ite (fun _ => variableStatement_sound sound) fun _ => ?_
    refine .ite (fun isImport => ?_) fun _ => (typedDeclaration_quiet word).mono fun _ _ quiet =>
      quiet.sound
    obtain ⟨escaped, token⟩ := named word rfl
    refine .mono ?_ fun s _ (announced : s.Announced (scanToken text).rest) =>
      announced.sound inside token (by simpa using Or.inl (by simpa using isImport))
    refine .bind Ensures.movedBehind fun _ => .later fun _ => .later fun _ => .ite (fun _ => ?_) fun _ => ?_
    · exact .later fun _ => .later fun _ => importEqualsRest_announced _
    · exact .later fun _ => importEqualsRest_announced _
  · exact .failure

/-! ## Statements -/

theorem wordStatement_sound (single : Bool) (word : String) :
    Ensures isModule whole pre (wordStatement g single word) fun s _ => s.Sound isModule whole := by
  have quiet {s : Stmt} (isQuiet : s.IsQuiet) {pre : Cursor → Prop} :
      Ensures isModule whole pre (pure s) fun s _ => s.Sound isModule whole :=
    .pure fun _ _ => isQuiet.sound
  unfold wordStatement
  split
  · exact ifStatement_sound sound
  · exact doStatement_quiet.mono fun _ _ quiet => quiet.sound
  · exact .next fun _ => .next fun _ => .next fun _ => quiet (Stmt.isQuiet_loop _ _)
  · exact forStatement_quiet.mono fun _ _ quiet => quiet.sound
  iterate 2
    exact jumpStatement_quiet.mono fun _ _ quiet => quiet.sound
  · exact .next fun _ => .next fun _ => .next fun _ => quiet ⟨by simp [Stmt.required], rfl⟩
  · exact switchStatement_quiet.mono fun _ _ quiet => quiet.sound
  · exact .next fun _ => .next fun _ => .next fun _ => quiet ⟨by simp [Stmt.required], rfl⟩
  · exact tryStatement_quiet.mono fun _ _ quiet => quiet.sound
  · exact .next fun _ => .next fun _ => quiet Stmt.isQuiet_idle
  · exact returnStatement_sound sound
  iterate 2
    exact declaration_sound sound
  · exact variableStatement_sound sound
  · exact .next fun _ => .next fun _ => .ite (fun _ => declaration_sound sound) fun _ =>
      variableStatement_sound sound
  · exact .next fun _ => .ite (fun _ => letStatement_sound sound single) fun _ =>
      expressionStatement_sound sound
  · refine .next fun _ => .ite (fun _ => declaration_sound sound) fun _ => ?_
    refine .next fun _ => .ite (fun _ => variableStatement_sound sound) fun _ => ?_
    refine .next fun _ => .ite (fun _ => .next fun _ => variableStatement_sound sound) fun _ => ?_
    exact .next fun _ => .next fun _ => .ite (fun _ => declaration_sound sound) fun _ =>
      expressionStatement_sound sound

theorem statement_sound (single : Bool) (text : List Char) (inside : text <:+ whole) :
    Ensures isModule whole (At text) (statement g single) fun s _ => s.Sound isModule whole := by
  refine .look fun cursor token => ?_
  split
  · refine .value (bracedStatements_sound sound) fun body holds => .pure fun _ _ => ⟨?_, nofun⟩
    simpa [Stmt.required] using (traced_body body).mpr fun s mem => (holds s mem).calls
  · exact .next fun _ => .pure fun _ _ => Stmt.IsQuiet.sound ⟨by simp [Stmt.required], rfl⟩
  · refine .next fun _ => .next fun _ => .ite (fun _ => ?_) fun _ => ?_
    · exact .of_places fun text inside => exportStatement_sound text inside
    · exact .next fun _ => .pure fun _ _ => (Stmt.isQuiet_class _).sound
  · exact .still .peek fun _ => .ite (fun _ => expressionStatement_sound sound) fun _ =>
      importStatement_sound text inside
  · exact exportStatement_sound text inside
  · exact wordStatement_sound sound single _
  · exact expressionStatement_sound sound

end

/-! ## Markup -/

theorem anyMarkup_markup (beforeToken : Bool) :
    Ensures isModule whole pre (anyMarkup g beforeToken) fun e _ => ∃ parts, e = .markup parts := by
  unfold anyMarkup
  repeat' first
    | with_reducible exact .pure fun _ _ => ⟨_, rfl⟩
    | with_reducible refine .ite (fun _ => ?_) fun _ => ?_
    | with_reducible refine .next fun _ => ?_

end Parse

/-! ## Programs -/

open Parse in
theorem grammar_sound : ∀ depth, (grammar depth).Sound isModule whole
  | 0 =>
    { expression := .failure
      assignment _ _ := .failure
      binary _ := .failure
      unary := .failure
      statement _ := .failure
      markup _ := .failure }
  | depth + 1 =>
    have sound := grammar_sound depth
    { expression := (expression_sound sound).deferred
      assignment types text := by
        refine .deferred (.of_at fun cursor inside same => ?_)
        exact (assignment_sound sound text (same ▸ inside) types).of fun _ here => here ▸ same
      binary least := .deferred <| .of_places fun text inside =>
        (binary_sound sound text inside least).mono fun _ _ read => read.calls
      unary := .deferred <| .of_places fun text inside =>
        (unary_sound sound text inside).mono fun _ _ read => read.calls
      statement single := .deferred <| .of_places fun text inside =>
        statement_sound sound single text inside
      markup before := (anyMarkup_markup before).deferred }

/-- What counts in a program that is read is written in its text. -/
theorem parseProgram_sound (dialect : Dialect) (text : String) :
    ∀ s ∈ parseProgram dialect text, s.Sound dialect.isModule text.toList := by
  intro s mem
  cases found : parseProgram? dialect text.toList with
  | none => simp [parseProgram, found] at mem
  | some program =>
    replace mem : s ∈ program := by simpa [parseProgram, found] using mem
    obtain ⟨statements, ran, rfl⟩ := Option.map_eq_some_iff.mp found
    have each (depth : Nat) : Parse.Ensures dialect.isModule text.toList Parse.Anywhere
        (allStatements (grammar depth)) fun body _ => ∀ s ∈ body, s.Sound dialect.isModule text.toList := by
      refine .repeated (.next fun _ => .next fun _ => .ite (fun _ => .pure (by simp)) fun _ => ?_)
      refine .value ((grammar_sound depth).statement false) fun s holds => .pure ?_
      rintro _ _ _ ⟨rfl⟩
      exact holds
    refine each _ _ _ _ _ rfl ?_ trivial (Prod.ext ran rfl) s ((List.dropWhile_suffix _).subset mem)
    exact (skipTrivia_suffix _ _ _ _).trans (skipInterpreterLine_suffix _)

end PackageOrder.Script
