/-
PackageOrder.Proofs.Script.Expressions — the calls in an expression that is
read are written in the text.

The rules follow the grammar of functions and expressions, one for each of its
steps, over a grammar of parts that is sound already. A call is made of what
stands to its left (`Standing`): while members and calls are added to an
expression it is known where its word was read, and so whether the brackets
that come next are those of a call of `require`.
-/
import PackageOrder.Proofs.Script.Traces
import PackageOrder.Script.Parse.Expression

namespace PackageOrder.Script.Parse

variable {isModule : Bool} {whole : List Char} {g : Grammar} {pre : Cursor → Prop}

/-! ## Functions -/

theorem traced_withoutDirectives {body : List Stmt} (holds : ∀ s ∈ body, s.Sound isModule whole) :
    Traced isModule whole (bodyRequired true (withoutDirectives body)) :=
  (traced_body _).mpr fun s mem => (holds s ((List.dropWhile_suffix _).subset mem)).calls

/-! ## What stands to the left

A call is made of an expression and the brackets after it. -/

variable (isModule whole) in
/-- An expression that members and calls may be added to, with some text left:
where it is the word `require`, alone or with type arguments, the brackets of a
call of it may open there. -/
structure Standing (start : List Char) (e : Expr) (text : List Char) : Prop where
  read : e.ReadAt isModule whole start
  callee : Traced isModule whole ((plainCallee e).required true)
  opens : plainCallee e = .name "require" → OpensCall isModule whole text

/-- An expression that is no word, no string and has no type arguments. -/
structure IsCompound (e : Expr) : Prop where
  noName : ∀ name, e ≠ .name name
  noString : ∀ value, e ≠ .string value
  plain : plainCallee e = e

theorem IsCompound.standing {start text : List Char} {e : Expr} (compound : IsCompound e)
    (calls : Traced isModule whole (e.required true)) : Standing isModule whole start e text where
  read := ⟨calls, fun value same => (compound.noString value same).elim⟩
  callee := compound.plain.symm ▸ calls
  opens same := (compound.noName "require" (compound.plain ▸ same)).elim

theorem IsCompound.readAt {start : List Char} {e : Expr} (compound : IsCompound e)
    (calls : Traced isModule whole (e.required true)) : e.ReadAt isModule whole start :=
  (compound.standing calls : Standing isModule whole start e []).read

/-- An expression in which nothing counts. -/
structure IsSilent (e : Expr) : Prop extends IsCompound e where
  required : e.required true = []

theorem IsSilent.standing {start text : List Char} {e : Expr} (silent : IsSilent e) :
    Standing isModule whole start e text :=
  silent.toIsCompound.standing (by rw [silent.required]; exact traced_nil)

theorem IsSilent.readAt {start : List Char} {e : Expr} (silent : IsSilent e) :
    e.ReadAt isModule whole start :=
  (silent.standing : Standing isModule whole start e []).read

/-! ## Expressions in which nothing counts -/

theorem construction_silent : Ensures isModule whole pre (construction g) fun e _ => IsSilent e := by
  unfold construction
  repeat' first
    | exact .pure fun _ _ => ⟨⟨nofun, nofun, rfl⟩, by simp [Expr.required]⟩
    | refine .ite (fun _ => ?_) fun _ => ?_
    | refine .next fun _ => ?_

theorem importExpression_silent :
    Ensures isModule whole pre (importExpression g) fun e _ => IsSilent e := by
  unfold importExpression
  repeat' first
    | exact .failure
    | exact .pure fun _ _ => ⟨⟨nofun, nofun, rfl⟩, by simp [Expr.required]⟩
    | refine .ite (fun _ => ?_) fun _ => ?_
    | refine .next fun _ => ?_

theorem classFrom_silent (decorations : List Expr) :
    Ensures isModule whole pre (classFrom g decorations) fun e _ => IsSilent e := by
  unfold classFrom
  repeat' first
    | exact .pure fun _ _ => ⟨⟨nofun, nofun, rfl⟩, by simp [Expr.required]⟩
    | refine .ite (fun _ => ?_) fun _ => ?_
    | refine .next fun _ => ?_

theorem yieldExpression_silent :
    Ensures isModule whole pre (yieldExpression g) fun e _ => IsSilent e := by
  have silent (operand : Option Expr) {pre : Cursor → Prop} :
      Ensures isModule whole pre (pure (Expr.suspend operand)) fun e _ => IsSilent e :=
    .pure fun _ _ => ⟨⟨nofun, nofun, rfl⟩, by simp [Expr.required]⟩
  refine .next fun _ => .next fun _ => .ite (fun _ => silent _) fun _ => ?_
  refine .next fun _ => .next fun _ => ?_
  refine .next fun _ => .ite (fun _ => silent _) fun _ => .next fun _ => silent _

/-! ## Names -/

theorem atAsyncFunction_still : Still atAsyncFunction :=
  .bind (.atWord "async") fun _ => .bind (.bind .peek fun _ => .pure) fun _ => .pure

/-- A name is read with the text after it left. -/
theorem identifier_sound (text : List Char) : Ensures isModule whole (At text) identifier
    fun name after => (∃ escaped, (scanToken text).token = .word name escaped) ∧
      after.text = afterToken isModule text := by
  refine .look fun cursor token => ?_
  split
  · rename_i name escaped word
    refine .ite (fun _ => .failure) fun _ => .bind .moved fun _ => .pure fun after next => ?_
    exact ⟨⟨escaped, by rw [← token, word]⟩, next⟩
  · exact .failure

section
variable (sound : g.Sound isModule whole)
include sound

theorem bracedStatements_sound :
    Ensures isModule whole pre (bracedStatements g) fun body _ =>
      ∀ s ∈ body, s.Sound isModule whole := by
  refine .next fun _ => .value (.repeated ?_) fun body holds => .next fun _ => .pure fun _ _ => holds
  refine .next fun closed => .ite (fun _ => .pure (by simp)) fun _ => ?_
  refine .value (sound.statement false) fun s holds => .pure ?_
  rintro _ _ _ ⟨rfl⟩
  exact holds

theorem functionRest_sound (isAsync isGenerator elsewhere : Bool) :
    Ensures isModule whole pre (functionRest g isAsync isGenerator elsewhere) fun f _ =>
      Traced isModule whole (f.required true) := by
  refine .within (fun _ => rfl) ?_
  refine .next fun _ => .next fun given => .next fun _ => .next fun braced => .ite (fun _ => ?_) fun _ => ?_
  · refine .value (bracedStatements_sound sound) fun body holds => ?_
    have traced : Traced isModule whole
        ((Function.mk given (withoutDirectives body)).required true) := by
      simpa [Function.required] using traced_withoutDirectives holds
    exact .ite (fun _ => .next fun _ => .pure fun _ _ => traced) fun _ => .pure fun _ _ => traced
  · refine .next fun scope => .ite (fun _ => .next fun _ => .pure fun _ _ => ?_) fun _ => .failure
    simp [Function.required, bodyRequired]

theorem functionFrom_sound (isAsync needsName elsewhere : Bool) :
    Ensures isModule whole pre (functionFrom g isAsync needsName elsewhere) fun f _ =>
      Traced isModule whole (f.required true) := by
  refine .next fun _ => .next fun isGenerator => .next fun named => ?_
  have rest {pre : Cursor → Prop} : Ensures isModule whole pre
      (functionRest g isAsync isGenerator elsewhere) fun f _ =>
        Traced isModule whole (f.required true) :=
    functionRest_sound sound isAsync isGenerator elsewhere
  exact .ite (fun _ => .next fun _ => rest) fun _ => .next fun word =>
    .ite (fun _ => .next fun _ => rest) fun _ => rest

/-! ## Arrow functions -/

theorem arrowBody_sound (isAsync types : Bool) :
    Ensures isModule whole pre (arrowBody g isAsync types) fun body _ =>
      Traced isModule whole (bodyRequired true body) := by
  refine .within (fun _ => rfl) (.next fun braced => .ite (fun _ => ?_) fun _ => ?_)
  · exact .value (bracedStatements_sound sound) fun body holds => .pure fun _ _ =>
      traced_withoutDirectives holds
  · refine .value (sound.assigned types) fun e traced => .pure fun _ _ => ?_
    simpa [bodyRequired, Stmt.required] using traced

theorem bracketArrow_sound (types : Bool) :
    Ensures isModule whole pre (bracketArrow g types) fun e _ =>
      ∃ f, e = .arrow f ∧ Traced isModule whole (f.required true) := by
  refine .next fun isAsync => .next fun (given, stated) => .next fun _ => ?_
  refine .value (arrowBody_sound sound isAsync types) fun body traced => .next fun more => ?_
  have arrow : ∃ f, Expr.arrow (.mk given body) = .arrow f ∧
      Traced isModule whole (f.required true) :=
    ⟨_, rfl, by simpa [Function.required] using traced⟩
  exact .ite (fun _ => .next fun _ => .pure fun _ _ => arrow) fun _ => .pure fun _ _ => arrow

/-- Where no arrow function is found all is as it was. -/
theorem bracketArrow?_sound (types : Bool) (text : List Char) :
    Ensures isModule whole (At text) (bracketArrow? g types) fun found after =>
      (∀ e, found = some e → ∃ f, e = .arrow f ∧ Traced isModule whole (f.required true)) ∧
        (found = none → after.text = text) := by
  refine .still .ahead fun guess => ?_
  have none {start : List Char} : Ensures isModule whole (At start) (pure (Option.none : Option Expr))
      fun found after => (∀ e, found = some e → ∃ f, e = .arrow f ∧
        Traced isModule whole (f.required true)) ∧ (found = Option.none → after.text = start) :=
    .pure fun _ same => ⟨nofun, fun _ => same⟩
  cases guess with
  | no => exact none
  | yes =>
    refine .value (bracketArrow_sound sound true) fun e arrow => .pure fun _ _ => ⟨?_, nofun⟩
    rintro _ ⟨rfl⟩
    exact arrow
  | maybe =>
    refine .still .here fun place => .still .here fun cursor => .ite (fun _ => none) fun _ => ?_
    refine .bind (.attempt (bracketArrow_sound sound types)) fun found => ?_
    cases found with
    | some e => exact .pure fun _ holds => ⟨holds.1, nofun⟩
    | none => exact (Ensures.still .refute fun _ => none).of fun _ holds => holds.2 rfl

theorem arrowRest_sound (name : String) (isAsync types : Bool) :
    Ensures isModule whole pre (arrowRest g name isAsync types) fun e _ =>
      ∃ f, e = .arrow f ∧ Traced isModule whole (f.required true) := by
  refine .next fun _ => .value (arrowBody_sound sound isAsync types) fun body traced => ?_
  exact .pure fun _ _ => ⟨_, rfl, by simpa [Function.required] using traced⟩

/-! ## Objects -/

theorem objectMember_sound :
    Ensures isModule whole pre (objectMember g) fun m _ =>
      Traced isModule whole (membersRequired true [m]) := by
  have method (parts : List Expr) (isAsync isGenerator : Bool) {pre : Cursor → Prop} :
      Ensures isModule whole pre (do
        let value ← functionRest g isAsync isGenerator
        return .entry parts false (.function value)) fun m _ =>
          Traced isModule whole (membersRequired true [m]) :=
    .value (functionRest_sound sound isAsync isGenerator false) fun f traced =>
      .pure fun _ _ => by simpa [membersRequired, Expr.required] using traced
  have plain (parts : List Expr) {pre : Cursor → Prop} : Ensures isModule whole pre (do
        expectSign ":"
        return .entry parts false (← withIn (g.assignment true))) fun m _ =>
          Traced isModule whole (membersRequired true [m]) :=
    .next fun _ => .value (.withIn (sound.assigned true)) fun e traced =>
      .pure fun _ _ => by simpa [membersRequired] using traced
  refine .next fun spread => .ite (fun _ => ?_) fun _ => ?_
  · exact .next fun e => .pure fun _ _ => by simp [membersRequired]
  refine .next fun marks => .next fun gets => .next fun sets => .ite (fun _ => ?_) fun _ => ?_
  · exact .next fun key => method key.parts false false
  refine .next fun isGenerator => .next fun cursor => .next fun named => .next fun key =>
    .next fun opens => .ite (fun _ => method _ _ _) fun _ => ?_
  cases key with
  | word name =>
    refine .next fun stated => .ite (fun _ => ?_) fun _ => plain _
    exact .next fun value => .pure fun _ _ => by simp [membersRequired, Expr.required]
  | literal | computed => exact plain _

theorem object_sound : Ensures isModule whole pre (object g) fun e _ =>
    ∃ members, e = .object members ∧ Traced isModule whole (e.required true) := by
  refine .next fun _ => .value (.separated (objectMember_sound sound)) fun members holds => ?_
  refine .next fun _ => .pure fun _ _ => ⟨members, rfl, ?_⟩
  simpa [Expr.required] using (traced_members members).mpr holds

/-! ## Primary expressions -/

theorem bracketed_sound : Ensures isModule whole pre (bracketed g) fun e _ =>
    ∃ inner, e = .paren inner ∧ Traced isModule whole (e.required true) := by
  refine .next fun _ => .value (.withIn sound.expression) fun inner traced => ?_
  exact .next fun _ => .pure fun _ _ => ⟨inner, rfl, by simpa [Expr.required] using traced⟩

/-- The arguments of a call whose brackets open here: the first one is a string
only if that comes next. -/
theorem callArguments_sound (text : List Char) :
    Ensures isModule whole (At text) (callArguments g) fun given _ =>
      (scanToken text).token = .sign "(" ∧
        Traced isModule whole (argumentsRequired true given) ∧
          ∀ value rest, given = .string value :: rest →
            (scanToken (afterToken isModule text)).token = .string value := by
  have item (start : List Char) : Ensures isModule whole (At start)
      (do if ← eatSign "..." then return .spread (← g.assignment true) else g.assignment true)
      fun e _ => e.ReadAt isModule whole start := by
    refine .bind (.eatSign "...") fun spread => .ite (fun _ => ?_) fun no => ?_
    · exact .next fun e => .pure fun _ _ => ⟨by simp [Expr.required], nofun⟩
    · exact (sound.assignment true start).of fun _ holds => holds.2 (by simpa using no)
  refine .bind (.expectSign "(") fun _ => .of_at fun cursor _ ⟨opens, after⟩ => ?_
  have start : ∀ place : Cursor, place = cursor → At cursor.text place := by
    rintro _ rfl
    rfl
  refine .value (.within (fun _ => rfl) ((Ensures.separatedFrom item).of start)) fun given holds => ?_
  refine .next fun _ => .pure fun _ _ => ⟨opens, ?_, fun value rest same => ?_⟩
  · rw [argumentsRequired_eq, traced_items]
    exact fun e mem => (holds.1 e mem).choose_spec.calls
  · rw [← after]
    exact (holds.2 _ rest same).string value rfl

theorem wordExpression_sound (text : List Char) (word : String)
    (inside : text <:+ whole) (escaped : Bool) (token : (scanToken text).token = .word word escaped) :
    Ensures isModule whole (At text) (wordExpression g word) fun e after =>
      Standing isModule whole text e after.text := by
  have functionOf (isAsync : Bool) {pre : Cursor → Prop} : Ensures isModule whole pre
      (do return Expr.function (← functionFrom g isAsync false)) fun e after =>
        Standing isModule whole text e after.text :=
    .value (functionFrom_sound sound isAsync false false) fun f traced => .pure fun _ _ =>
      IsCompound.standing ⟨nofun, nofun, rfl⟩ (by simpa [Expr.required] using traced)
  unfold wordExpression
  split
  iterate 5
    exact .next fun _ => .pure fun _ _ =>
      IsCompound.standing ⟨nofun, nofun, rfl⟩ (by simp [Expr.required])
  · exact construction_silent.mono fun _ _ silent => silent.standing
  · exact importExpression_silent.mono fun _ _ silent => silent.standing
  · exact functionOf false
  · exact (classFrom_silent []).mono fun _ _ silent => silent.standing
  · refine .still atAsyncFunction_still fun isAsync =>
      .ite (fun _ => .next fun _ => functionOf true) fun _ => ?_
    refine .bind (identifier_sound text) fun name => .pure fun after ⟨_, next⟩ => ?_
    refine ⟨⟨by simp [Expr.required], nofun⟩, by simp [plainCallee, Expr.required], ?_⟩
    rintro ⟨rfl⟩
    refine ⟨⟨text, _, escaped, inside, token, List.mem_singleton_self _⟩, ?_, .inl next⟩
    rw [next]
    exact afterToken_suffix _ _

theorem primary_sound (text : List Char) (inside : text <:+ whole) :
    Ensures isModule whole (At text) (primary g) fun e after =>
      Standing isModule whole text e after.text := by
  refine .look fun cursor token => ?_
  have silent (e : Expr) (isSilent : IsSilent e) {pre : Cursor → Prop} :
      Ensures isModule whole pre (pure e) fun e after =>
        Standing isModule whole text e after.text :=
    .pure fun _ _ => isSilent.standing
  have atom : IsSilent .atom := ⟨⟨nofun, nofun, rfl⟩, by simp [Expr.required]⟩
  have slash {pre : Cursor → Prop} : Ensures isModule whole pre
      (do
        if !cursor.valid then Parse.failure
        regularExpression
        return .atom) fun e after => Standing isModule whole text e after.text :=
    .ite (fun _ => .next fun _ => .next fun _ => silent .atom atom) fun _ => .next fun _ => silent .atom atom
  split
  · rename_i word escaped found
    exact wordExpression_sound sound text word inside escaped (token ▸ found)
  · rename_i value found
    refine .next fun _ => .pure fun _ _ => ⟨⟨by simp [Expr.required], ?_⟩, ?_, nofun⟩
    · rintro _ ⟨rfl⟩
      rw [← token, found]
    · simp [plainCallee, Expr.required]
  · exact .next fun _ => silent .atom atom
  · exact .next fun parts => silent (.template parts) ⟨⟨nofun, nofun, rfl⟩, by simp [Expr.required]⟩
  · exact slash
  · exact slash
  · exact .next fun _ => .next fun items => .next fun _ =>
      silent (.array items) ⟨⟨nofun, nofun, rfl⟩, by simp [Expr.required]⟩
  · refine (object_sound sound).mono fun e _ ⟨members, same, traced⟩ => ?_
    exact IsCompound.standing (same ▸ ⟨nofun, nofun, rfl⟩) traced
  · refine (bracketed_sound sound).mono fun e _ ⟨inner, same, traced⟩ => ?_
    exact IsCompound.standing (same ▸ ⟨nofun, nofun, rfl⟩) traced
  · refine .next fun decorations => .next fun _ => ?_
    exact (classFrom_silent decorations).mono fun _ _ silent => silent.standing
  · exact .failure

end

/-! ## Members and calls -/

variable (isModule whole) in
/-- A state of the walk over members and calls: an expression with a part that
may be missing, in which nothing will count, or one that more may be added
to. -/
def Ready (start : List Char) (state : Expr × Bool) (text : List Char) : Prop :=
  state.2 = true ∨ Standing isModule whole start state.1 text

theorem Ready.compound {start text left : List Char} {e added : Expr} {chained : Bool}
    (ready : Ready isModule whole start (e, chained) text) (compound : IsCompound added)
    (calls : Traced isModule whole (e.required true) → Traced isModule whole (added.required true)) :
    Ready isModule whole start (added, chained) left :=
  ready.imp id fun standing => compound.standing (calls standing.read.calls)

/-- Type arguments after the word `require` leave the brackets of its call
open. -/
theorem Ready.instantiated {start text left : List Char} {e : Expr} {chained : Bool}
    (ready : Ready isModule whole start (e, chained) text) (later : left <:+ text)
    (angle : (scanToken text).token ∈ [Token.sign "<", .sign "<<"]) :
    Ready isModule whole start (.instantiated e, chained) left := by
  refine ready.imp id fun standing => ⟨⟨by simp [Expr.required], nofun⟩, standing.read.calls, ?_⟩
  rintro (rfl : e = .name "require")
  obtain ⟨word, behind, next⟩ := standing.opens rfl
  refine ⟨word, later.trans behind, .inr ?_⟩
  exact next.elim (fun same => same ▸ angle) id

theorem eatTypeArguments_sound (text : List Char) :
    Ensures isModule whole (At text) (eatTypeArguments g) fun found after =>
      after.text <:+ text ∧ (found = false → after.text = text) := by
  refine .still .read fun scope => .ite (fun _ => ?_) fun _ => ?_
  · exact .pure fun _ same => ⟨same ▸ List.suffix_rfl, fun _ => same⟩
  refine .bind (.attempt .onward) fun found => .pure fun after ⟨taken, missed⟩ => ?_
  cases found with
  | some => exact ⟨taken _ rfl, nofun⟩
  | none => exact ⟨missed rfl ▸ List.suffix_rfl, fun _ => missed rfl⟩

theorem memberStep_ready {start text : List Char} (mayChain : Bool) {e : Expr} {chained : Bool}
    (ready : Ready isModule whole start (e, chained) text) :
    Ensures isModule whole (At text) (memberStep g mayChain (e, chained)) fun found after =>
      Ready isModule whole start (found.getD (e, chained)) after.text := by
  refine .look fun cursor token => ?_
  -- the ways in which a step may end
  have stop : Ensures isModule whole (At text) (pure none) fun found after =>
      Ready isModule whole start (found.getD (e, chained)) after.text :=
    .pure fun after same => by rw [Option.getD_none, same]; exact ready
  have add (added : Expr) (compound : IsCompound added)
      (calls : Traced isModule whole (e.required true) →
        Traced isModule whole (added.required true)) {pre : Cursor → Prop} :
      Ensures isModule whole pre (pure (some (added, chained))) fun found after =>
        Ready isModule whole start (found.getD (e, chained)) after.text :=
    .pure fun _ _ => ready.compound compound calls
  have chain (added : Parse Expr) {pre : Cursor → Prop} : Ensures isModule whole pre
      (do return some (← added, true)) fun found after =>
        Ready isModule whole start (found.getD (e, chained)) after.text :=
    .next fun _ => .pure fun _ _ => .inl rfl
  have named {pre : Cursor → Prop} : Ensures isModule whole pre (memberStep.named e) fun added _ =>
      added = .privateMember e ∨ added = .member e :=
    .next fun place => .ite (fun _ => .next fun _ => .pure fun _ _ => .inl rfl) fun _ =>
      .next fun _ => .pure fun _ _ => .inr rfl
  have computed {pre : Cursor → Prop} : Ensures isModule whole pre (memberStep.computed g e)
      fun added _ => ∃ key, added = .index e key :=
    .next fun _ => .next fun key => .next fun _ => .pure fun _ _ => ⟨key, rfl⟩
  have angle (taken : (scanToken text).token ∈ [Token.sign "<", .sign "<<"]) :
      Ensures isModule whole (At text)
        (do
          if ← eatTypeArguments g then return some (.instantiated e, chained)
          return none) fun found after =>
            Ready isModule whole start (found.getD (e, chained)) after.text := by
    refine .bind (eatTypeArguments_sound text) fun found => .ite (fun _ => ?_) fun no => ?_
    · exact .pure fun after holds => ready.instantiated holds.1 taken
    · exact stop.of fun after holds => holds.2 (by simpa using no)
  split
  · refine .next fun _ => .value named fun added which => ?_
    rcases which with rfl | rfl
    · exact add (.privateMember e) ⟨nofun, nofun, rfl⟩ fun _ => by simp [Expr.required]
    · exact add (.member e) ⟨nofun, nofun, rfl⟩ fun calls => by simpa [Expr.required] using calls
  · refine .ite (fun _ => stop) fun _ => .still .peek fun (after, _) => ?_
    refine .ite (fun _ => .next fun _ => chain _) fun _ => ?_
    exact .ite (fun _ => .next fun _ => chain _) fun _ => stop
  · refine .still .read fun scope => .ite (fun _ => stop) fun _ => ?_
    refine .value computed fun added ⟨key, same⟩ => ?_
    subst same
    exact add (.index e key) ⟨nofun, nofun, rfl⟩ fun _ => by simp [Expr.required]
  · refine .still .read fun scope => .ite (fun _ => .next fun _ => ?_) fun _ => stop
    exact add (.typed e) ⟨nofun, nofun, rfl⟩ fun _ => by simp [Expr.required]
  · exact .next fun parts => add (.tagged (plainCallee e) parts) ⟨nofun, nofun, rfl⟩ fun _ => by
      simp [Expr.required]
  · rename_i found
    exact angle (by rw [← token, found]; simp)
  · rename_i found
    exact angle (by rw [← token, found]; simp)
  · exact stop

/-- However many members are added, more may be. -/
theorem members_ready {start : List Char} (mayChain : Bool) (state : Expr × Bool) :
    Ensures isModule whole (fun cursor => Ready isModule whole start state cursor.text)
      (extended state (memberStep g mayChain)) fun state after =>
        Ready isModule whole start state after.text :=
  .extended _ fun _ _ ready => memberStep_ready mayChain ready

theorem traced_call {callee : Expr} {given : List Expr}
    (left : Traced isModule whole (callee.required true))
    (right : Traced isModule whole (argumentsRequired true given))
    (own : callee = .name "require" → ∀ value rest, given = .string value :: rest →
      Nonempty (CallPlace isModule whole value)) :
    Traced isModule whole ((Expr.call callee given).required true) := by
  unfold Expr.required
  split
  · split
    · rename_i source rest
      intro value mem
      rw [List.mem_singleton] at mem
      exact mem ▸ own rfl source rest rfl
    · exact traced_nil
  · exact (traced_append _ _).mpr ⟨left, right⟩

section
variable (sound : g.Sound isModule whole)
include sound

theorem callStep_ready {start text : List Char} {e : Expr} {chained : Bool}
    (ready : Ready isModule whole start (e, chained) text) :
    Ensures isModule whole (At text) (callStep g (e, chained)) fun found after =>
      Ready isModule whole start (found.getD (e, chained)) after.text := by
  have more (state : Expr × Bool) : Ensures isModule whole
      (fun cursor => Ready isModule whole start state cursor.text)
      (do return some (← extended state (memberStep g true))) fun found after =>
        Ready isModule whole start (found.getD (e, chained)) after.text :=
    .bind (members_ready true state) fun _ => .pure fun _ => id
  refine .bind (.eatSign "?.") fun chains => .ite (fun _ => ?_) fun no => ?_
  · refine .next fun _ => .next fun cursor => ?_
    split
    · exact .next fun parts => (more _).of fun _ _ => .inl rfl
    · exact .next fun given => (more _).of fun _ _ => .inl rfl
  refine (?_ : Ensures isModule whole (At text) _ _).of fun _ holds => holds.2 (by simpa using no)
  refine .bind (.atSign "(") fun opens => .ite (fun _ => ?_) fun _ => ?_
  · refine .of (.bind (callArguments_sound sound text) fun given => .of (more _) ?_) fun _ same => same.1
    rintro after ⟨bracket, traced, first⟩
    refine ready.imp id fun standing => IsCompound.standing ⟨nofun, nofun, rfl⟩ ?_
    refine traced_call standing.callee traced fun isWord value rest same => ?_
    obtain ⟨word, behind, next⟩ := standing.opens isWord
    exact ⟨⟨word, text, behind, next, bracket, first value rest same⟩⟩
  · exact .pure fun after same => by rw [Option.getD_none, same.1]; exact ready

theorem leftHand_sound (text : List Char) (inside : text <:+ whole) :
    Ensures isModule whole (At text) (leftHand g) fun e _ => e.ReadAt isModule whole text := by
  have membered : Ensures isModule whole (At text) (membered g true) fun state after =>
      Ready isModule whole text state after.text :=
    .bind (primary_sound sound text inside) fun e => (members_ready true (e, false)).of
      fun _ standing => .inr standing
  have called (state : Expr × Bool) : Ensures isModule whole
      (fun cursor => Ready isModule whole text state cursor.text)
      (extended state (callStep g)) fun state after => Ready isModule whole text state after.text :=
    .extended _ fun _ _ ready => callStep_ready sound ready
  refine .bind membered fun state => .bind (called state) fun (e, chained) => .pure fun after ready => ?_
  split
  · exact ⟨by simp [Expr.required], nofun⟩
  · rename_i unchained
    exact (ready.resolve_left unchained).read

end

/-! ## Operators -/

theorem beforeOperand_still : Still beforeOperand := by
  refine .bind .peek fun (after, newline) => ?_
  cases after <;> exact .pure

theorem atAwait_still : Still atAwait :=
  .bind (.atWord "await") fun _ => .ite .pure <| .bind .peek fun _ => .ite .pure <|
    .bind .read fun _ => .ite .pure <| .ite .pure beforeOperand_still

theorem atYield_still : Still atYield :=
  .bind (.atWord "yield") fun _ => .ite .pure <| .bind .read fun _ => .ite .pure beforeOperand_still

section
variable (sound : g.Sound isModule whole)
include sound

theorem unary_sound (text : List Char) (inside : text <:+ whole) :
    Ensures isModule whole (At text) (unary g) fun e _ => e.ReadAt isModule whole text := by
  have silent (e : Expr) (isSilent : IsSilent e) {pre : Cursor → Prop} :
      Ensures isModule whole pre (pure e) fun e _ => e.ReadAt isModule whole text :=
    .pure fun _ _ => isSilent.readAt
  have update (e : Expr) : IsSilent (.update e) := ⟨⟨nofun, nofun, rfl⟩, by simp [Expr.required]⟩
  refine .still (.atSignOf _) fun _ => .still (.atWordOf _) fun _ => .ite (fun _ => ?_) fun _ => ?_
  · refine .next fun _ => .value sound.unary fun operand traced => .pure fun _ _ => ?_
    exact IsCompound.readAt ⟨nofun, nofun, rfl⟩ (by simpa [Expr.required] using traced)
  refine .still (.atSignOf _) fun _ => .ite (fun _ => ?_) fun _ => ?_
  · exact .next fun _ => .next fun e => .ite (fun _ => .next fun _ => silent _ (update e)) fun _ =>
      silent _ (update e)
  refine .still (.atSign "<") fun _ => .ite (fun _ => ?_) fun _ => ?_
  · refine .next fun scope => .ite (fun _ => ?_) fun _ => ?_
    · refine (sound.markup true).mono fun e _ ⟨parts, same⟩ => ?_
      exact IsSilent.readAt ⟨same ▸ ⟨nofun, nofun, rfl⟩, by rw [same, Expr.required]; all_goals nofun⟩
    have typed {pre : Cursor → Prop} : Ensures isModule whole pre
        (do
          next
          closedType g
          expectSign ">"
          return Expr.typed (← g.unary)) fun e _ => e.ReadAt isModule whole text :=
      .next fun _ => .next fun _ => .next fun _ => .next fun e =>
        silent (.typed e) ⟨⟨nofun, nofun, rfl⟩, by simp [Expr.required]⟩
    exact .ite (fun _ => .next fun _ => typed) fun _ => typed
  refine .still atAwait_still fun _ => .ite (fun _ => ?_) fun _ => ?_
  · exact .next fun _ => .next fun operand =>
      silent (.suspend (some operand)) ⟨⟨nofun, nofun, rfl⟩, by simp [Expr.required]⟩
  refine .value (leftHand_sound sound text inside) fun e read => .next fun _ => .next fun _ =>
    .ite (fun _ => ?_) fun _ => .pure fun _ _ => read
  exact .next fun _ => .ite (fun _ => .next fun _ => silent _ (update e)) fun _ =>
    silent _ (update e)

/-- What an operator makes of an expression is no string. -/
theorem binaryStep_sound (least : Nat) (left : Expr) (calls : Traced isModule whole (left.required true)) :
    Ensures isModule whole pre (binaryStep g least left) fun found _ =>
      ∀ e, found = some e → IsCompound e ∧ Traced isModule whole (e.required true) := by
  have none {pre : Cursor → Prop} : Ensures isModule whole pre (pure (Option.none : Option Expr))
      fun found _ => ∀ e, found = some e → IsCompound e ∧ Traced isModule whole (e.required true) :=
    .pure fun _ _ => nofun
  have typed {pre : Cursor → Prop} : Ensures isModule whole pre
      (do
        eatInfix
        closedType g
        return some (.typed left))
      fun found _ => ∀ e, found = some e → IsCompound e ∧ Traced isModule whole (e.required true) := by
    refine .next fun _ => .next fun _ => .pure fun _ _ => ?_
    rintro _ ⟨rfl⟩
    exact ⟨⟨nofun, nofun, rfl⟩, by simp [Expr.required]⟩
  refine .next fun found => ?_
  split
  · rename_i operator strength
    refine .next fun scope => .ite (fun _ => none) fun _ => .ite (fun _ => none) fun _ =>
      .ite (fun _ => .next fun _ => .ite (fun _ => none) fun _ => typed) fun _ => ?_
    refine .next fun _ => .value (sound.binary strength) fun right traced => .ite (fun _ => ?_) fun _ => ?_
    · refine .pure fun _ _ => ?_
      rintro _ ⟨rfl⟩
      exact ⟨⟨nofun, nofun, rfl⟩, by simpa [Expr.required] using ⟨calls, traced⟩⟩
    · refine .pure fun _ _ => ?_
      rintro _ ⟨rfl⟩
      exact ⟨⟨nofun, nofun, rfl⟩, by simp [Expr.required]⟩
  · exact none

theorem binary_sound (text : List Char) (inside : text <:+ whole) (least : Nat) :
    Ensures isModule whole (At text) (binary g least) fun e _ => e.ReadAt isModule whole text := by
  have step (left : Expr) {pre : Cursor → Prop}
      (begun : ∀ cursor, pre cursor → left.ReadAt isModule whole text) :
      Ensures isModule whole pre (extended left (binaryStep g least)) fun (e : Expr) _ =>
        e.ReadAt isModule whole text := by
    refine (Ensures.extended (fun (e : Expr) _ => e.ReadAt isModule whole text)
      fun e _ read => ?_).of begun
    refine (binaryStep_sound sound least e read.calls).mono fun found _ holds => ?_
    cases found with
    | none => exact read
    | some added => exact (holds added rfl).1.readAt (holds added rfl).2
  have named {pre : Cursor → Prop} : Ensures isModule whole pre
      (do
        let left ← pure Expr.atom
        extended left (binaryStep g least)) fun e _ => e.ReadAt isModule whole text := by
    refine .value (.pure fun _ _ => IsSilent.readAt ?_) fun left read => step left fun _ _ => read
    exact ⟨⟨nofun, nofun, rfl⟩, by simp [Expr.required]⟩
  refine .still .here fun _ => .ite (fun _ => ?_) fun _ => ?_
  · exact .next fun _ => .next fun _ => .next fun _ => .next fun _ =>
      .ite (fun _ => .next fun _ => named) fun _ => named
  · exact .bind (unary_sound sound text inside) fun e => step e fun _ read => read

/-! ## Assignments -/

theorem assignmentRest_sound {text : List Char} {left : Expr} (types : Bool)
    (read : left.ReadAt isModule whole text) :
    Ensures isModule whole pre (assignmentRest g left types) fun e _ =>
      e.ReadAt isModule whole text := by
  have conditional {pre : Cursor → Prop} : Ensures isModule whole pre
      (do
        if ← eatSign "?" then
          let yes ← withIn (g.assignment false)
          expectSign ":"
          return Expr.conditional left yes (← g.assignment types)
        return left) fun e _ => e.ReadAt isModule whole text := by
    refine .next fun _ => .ite (fun _ => ?_) fun _ => .pure fun _ _ => read
    refine .value (.withIn (sound.assigned false)) fun yes tracedYes => .next fun _ =>
      .value (sound.assigned types) fun no tracedNo => .pure fun _ _ => ?_
    exact IsCompound.readAt ⟨nofun, nofun, rfl⟩
      (by simpa [Expr.required] using ⟨read.calls, tracedYes, tracedNo⟩)
  have assigned (operator : String) {pre : Cursor → Prop} : Ensures isModule whole pre
      (do
        let _ ← eatOperator
        return Expr.assign (operator == "=") left (← g.assignment types)) fun e _ =>
          e.ReadAt isModule whole text :=
    .next fun _ => .value (sound.assigned types) fun value traced => .pure fun _ _ =>
      IsCompound.readAt ⟨nofun, nofun, rfl⟩ (by simpa [Expr.required] using traced)
  refine .next fun found => ?_
  cases found with
  | none => exact conditional
  | some operator =>
    exact .ite (fun _ => .ite (fun _ => .next fun _ => assigned operator) fun _ =>
      assigned operator) fun _ => conditional

theorem assignment_sound (text : List Char) (inside : text <:+ whole) (types : Bool) :
    Ensures isModule whole (At text) (assignment g types) fun e _ =>
      e.ReadAt isModule whole text := by
  have arrow (e : Expr) (isArrow : ∃ f, e = .arrow f ∧ Traced isModule whole (f.required true)) :
      e.ReadAt isModule whole text := by
    obtain ⟨f, rfl, traced⟩ := isArrow
    exact IsCompound.readAt ⟨nofun, nofun, rfl⟩ (by simpa [Expr.required] using traced)
  refine .still atYield_still fun _ => .ite (fun _ => ?_) fun _ => ?_
  · exact yieldExpression_silent.mono fun _ _ silent => silent.readAt
  refine .bind (bracketArrow?_sound sound types text) fun found => ?_
  cases found with
  | some e => exact .pure fun _ holds => arrow e (holds.1 e rfl)
  | none =>
    refine .of (?_ : Ensures isModule whole (At text) _ _) fun _ holds => holds.2 rfl
    refine .still .ahead fun _ => .ite (fun _ => ?_) fun _ => ?_
    · exact .next fun _ => .next fun name => (arrowRest_sound sound name true types).mono
        fun e _ isArrow => arrow e isArrow
    refine .value (binary_sound sound text inside 0) fun left read => .next fun _ =>
      .ite (fun _ => ?_) fun _ => assignmentRest_sound sound types read
    split
    · exact (arrowRest_sound sound _ false types).mono fun e _ isArrow => arrow e isArrow
    · exact assignmentRest_sound sound types read

theorem expression_sound :
    Ensures isModule whole pre (expression g) fun e _ => Traced isModule whole (e.required true) := by
  refine .within (fun _ => rfl) (.value (.listed (sound.assigned true)) fun items holds => ?_)
  split
  · exact .pure fun _ _ => holds _ (List.mem_singleton_self _)
  · exact .pure fun _ _ => by simpa [Expr.required] using (traced_items items).mpr holds

end

end PackageOrder.Script.Parse
