/-
PackageOrder.Proofs.Script.Steps — what parsing steps ensure.

`Ensures pre p post` says what a step yields and where it ends, `post`, if it
starts at a place with `pre` and does not fail. The places are those of one
text, `whole`, read in a scope that says as `isModule` does whether it is a
module: both stay as they are over a whole program, so they are parameters and
no condition of their own. There is one rule for each way in which steps are
put together.
-/
import PackageOrder.Script.Parse

namespace PackageOrder.Script

/-- The text from the token on that comes after the one at its front. -/
def afterToken (isModule : Bool) (text : List Char) : List Char :=
  (skipTrivia isModule .blanks false (scanToken text).rest).2

theorem afterToken_suffix (isModule : Bool) (text : List Char) :
    afterToken isModule text <:+ (scanToken text).rest :=
  skipTrivia_suffix _ _ _ _

namespace Parse

variable (isModule : Bool) (whole : List Char)

/-- What a step that starts at a place with `pre` yields, and where it ends. -/
def Ensures {α : Type} (pre : Cursor → Prop) (p : Parse α) (post : α → Cursor → Prop) : Prop :=
  ∀ scope cursor a after, scope.isModule = isModule → cursor.text <:+ whole → pre cursor →
    p.run scope cursor = (some a, after) → post a after

/-- A place with some text left. -/
def At (text : List Char) (cursor : Cursor) : Prop :=
  cursor.text = text

/-- A place in some text. -/
def Behind (text : List Char) (cursor : Cursor) : Prop :=
  cursor.text <:+ text

/-- Any place. -/
def Anywhere (_ : Cursor) : Prop :=
  True

variable {isModule whole} {α β : Type} {pre : Cursor → Prop}

namespace Ensures

/-! ## Conditions -/

theorem anything {p : Parse α} : Ensures isModule whole pre p fun _ _ => True :=
  fun _ _ _ _ _ _ _ _ => trivial

theorem mono {p : Parse α} {post other : α → Cursor → Prop}
    (ensures : Ensures isModule whole pre p post) (imp : ∀ a after, post a after → other a after) :
    Ensures isModule whole pre p other :=
  fun scope cursor a after same inside holds ran =>
    imp a after (ensures scope cursor a after same inside holds ran)

theorem of {p : Parse α} {weaker : Cursor → Prop} {post : α → Cursor → Prop}
    (ensures : Ensures isModule whole weaker p post) (imp : ∀ cursor, pre cursor → weaker cursor) :
    Ensures isModule whole pre p post :=
  fun scope cursor a after same inside holds ran =>
    ensures scope cursor a after same inside (imp cursor holds) ran

/-- A step may be looked at from each place on its own. -/
theorem of_at {p : Parse α} {post : α → Cursor → Prop}
    (ensures : ∀ cursor : Cursor, cursor.text <:+ whole → pre cursor →
      Ensures isModule whole (· = cursor) p post) : Ensures isModule whole pre p post :=
  fun scope cursor a after same inside holds ran =>
    ensures cursor inside holds scope cursor a after same inside rfl ran

theorem of_places {p : Parse α} {post : α → Cursor → Prop}
    (ensures : ∀ text, text <:+ whole → Ensures isModule whole (At text) p post) :
    Ensures isModule whole pre p post :=
  of_at fun cursor inside _ => (ensures cursor.text inside).of fun _ same => same ▸ rfl

/-! ## Steps and sequences -/

theorem pure {a : α} {post : α → Cursor → Prop} (holds : ∀ cursor, pre cursor → post a cursor) :
    Ensures isModule whole pre (pure a) post := by
  intro scope cursor b after _ _ start ran
  simp only [Pure.pure, Prod.mk.injEq, Option.some.injEq] at ran
  obtain ⟨rfl, rfl⟩ := ran
  exact holds cursor start

theorem failure {post : α → Cursor → Prop} :
    Ensures isModule whole pre Parse.failure post := by
  intro scope cursor a after _ _ _ ran
  simp [Parse.failure] at ran

/-- One step and another after it. -/
theorem bind {p : Parse α} {f : α → Parse β} {mid : α → Cursor → Prop}
    {post : β → Cursor → Prop} (first : Ensures isModule whole pre p mid)
    (second : ∀ a, Ensures isModule whole (mid a) (f a) post) :
    Ensures isModule whole pre (p >>= f) post := by
  intro scope cursor b after same inside holds ran
  have onward := p.onward scope cursor
  simp only [Bind.bind, andThen] at ran
  split at ran
  · rename_i a place ranFirst
    rw [ranFirst] at onward
    exact second a scope place b after same (onward.trans inside)
      (first scope cursor a place same inside holds ranFirst) ran
  · simp at ran

/-- One step of which nothing need be known and another after it. -/
theorem next {p : Parse α} {f : α → Parse β} {post : β → Cursor → Prop}
    (second : ∀ a, Ensures isModule whole Anywhere (f a) post) :
    Ensures isModule whole pre (p >>= f) post :=
  bind anything fun a => (second a).of fun _ _ => trivial

/-- One step whose value has a property and another after it. -/
theorem value {p : Parse α} {f : α → Parse β} {holds : α → Prop} {post : β → Cursor → Prop}
    (first : Ensures isModule whole pre p fun a _ => holds a)
    (second : ∀ a, holds a → Ensures isModule whole Anywhere (f a) post) :
    Ensures isModule whole pre (p >>= f) post :=
  bind first fun a => of_at fun _ _ holdsA => (second a holdsA).of fun _ _ => trivial

theorem ite {b : Prop} [Decidable b] {p q : Parse α} {post : α → Cursor → Prop}
    (yes : b → Ensures isModule whole pre p post) (no : ¬b → Ensures isModule whole pre q post) :
    Ensures isModule whole pre (if b then p else q) post := by
  split
  · exact yes ‹_›
  · exact no ‹_›

/-! ## Surroundings and trials -/

theorem within {p : Parse α} {change : Scope → Scope} {post : α → Cursor → Prop}
    (keeps : ∀ scope, (change scope).isModule = scope.isModule)
    (ensures : Ensures isModule whole pre p post) :
    Ensures isModule whole pre (Parse.within change p) post :=
  fun scope cursor a after same inside holds ran =>
    ensures (change scope) cursor a after ((keeps scope).trans same) inside holds ran

theorem withIn {p : Parse α} {post : α → Cursor → Prop}
    (ensures : Ensures isModule whole pre p post) :
    Ensures isModule whole pre (Parse.withIn p) post :=
  within (fun _ => rfl) ensures

theorem deferred {p : Parse α} {post : α → Cursor → Prop}
    (ensures : Ensures isModule whole pre p post) :
    Ensures isModule whole pre (Parse.deferred fun _ => p) post :=
  ensures

/-- A trial yields what its step does, or nothing at the place where it
starts. -/
theorem attempt {p : Parse α} {post : α → Cursor → Prop} {missed : List Char}
    (ensures : Ensures isModule whole (At missed) p post) :
    Ensures isModule whole (At missed) (Parse.attempt p) fun found after =>
      (∀ a, found = some a → post a after) ∧ (found = none → after.text = missed) := by
  intro scope cursor found after same inside holds ran
  simp only [Parse.attempt] at ran
  split at ran
  · rename_i a place tried
    simp only [Prod.mk.injEq, Option.some.injEq] at ran
    obtain ⟨rfl, rfl⟩ := ran
    refine ⟨?_, by simp⟩
    rintro b ⟨rfl⟩
    exact ensures scope cursor a place same inside holds tried
  · simp only [Prod.mk.injEq, Option.some.injEq] at ran
    obtain ⟨rfl, rfl⟩ := ran
    exact ⟨by simp, fun _ => holds⟩

end Ensures

/-! ## Steps that stay -/

/-- A step that ends with as much text left as it starts with. -/
def Still (p : Parse α) : Prop :=
  ∀ scope cursor a after, p.run scope cursor = (some a, after) → after.text = cursor.text

namespace Still

theorem pure {a : α} : Still (Pure.pure a : Parse α) := by
  intro scope cursor b after ran
  simp only [Pure.pure, Prod.mk.injEq] at ran
  rw [ran.2]

theorem bind {p : Parse α} {f : α → Parse β} (first : Still p) (second : ∀ a, Still (f a)) :
    Still (p >>= f) := by
  intro scope cursor b after ran
  simp only [Bind.bind, andThen] at ran
  split at ran
  · rename_i a mid ranFirst
    exact (second a scope mid b after ran).trans (first scope cursor a mid ranFirst)
  · simp at ran

theorem ite {b : Prop} [Decidable b] {p q : Parse α} (yes : Still p) (no : Still q) :
    Still (if b then p else q) := by
  split
  · exact yes
  · exact no

theorem here : Still Parse.here := by
  intro scope cursor b after ran
  simp only [Parse.here, Prod.mk.injEq] at ran
  rw [ran.2]

theorem read : Still (MonadReader.read : Parse Scope) := by
  intro scope cursor b after ran
  have same : (some scope, cursor) = (some b, after) := ran
  rw [(Prod.mk.inj same).2]

theorem ahead {otherwise : α} {p : Parse α} : Still (Parse.ahead otherwise p) := by
  intro scope cursor b after ran
  simp only [Parse.ahead, Prod.mk.injEq] at ran
  rw [ran.2]

theorem refute : Still Parse.refute := by
  intro scope cursor b after ran
  simp only [Parse.refute, Prod.mk.injEq] at ran
  rw [← ran.2]

theorem atSign (sign : String) : Still (Parse.atSign sign) :=
  bind here fun _ => pure

theorem atSignOf (signs : List String) : Still (Parse.atSignOf signs) := by
  refine bind here fun cursor => ?_
  split <;> exact pure

theorem word? : Still Parse.word? := by
  refine bind here fun cursor => ?_
  split <;> exact pure

theorem atWord (word : String) : Still (Parse.atWord word) :=
  bind word? fun _ => pure

theorem atWordOf (words : List String) : Still (Parse.atWordOf words) :=
  bind word? fun _ => pure

theorem peek : Still Parse.peek :=
  bind read fun _ => bind here fun _ => pure

end Still

namespace Ensures

variable {text : List Char} {post : β → Cursor → Prop}

/-- A step that stays and another after it. -/
theorem still {p : Parse α} {f : α → Parse β} (stays : Still p)
    (second : ∀ a, Ensures isModule whole (At text) (f a) post) :
    Ensures isModule whole (At text) (p >>= f) post := by
  refine bind (?_ : Ensures isModule whole (At text) p fun _ => At text) second
  intro scope cursor a after _ _ holds ran
  exact (stays scope cursor a after ran).trans holds

/-! ## Tokens -/

theorem onward {p : Parse α} : Ensures isModule whole (At text) p fun _ after =>
    after.text <:+ text := by
  intro scope cursor a after _ _ holds ran
  have moved := p.onward scope cursor
  rw [ran, holds] at moved
  exact moved

/-- A step of which nothing need be known and another after it, behind a
place. -/
theorem later {p : Parse α} {f : α → Parse β}
    (second : ∀ a, Ensures isModule whole (Behind text) (f a) post) :
    Ensures isModule whole (Behind text) (p >>= f) post := by
  refine bind (?_ : Ensures isModule whole (Behind text) p fun _ => Behind text) second
  refine of_at fun cursor _ behind => (onward.of ?_).mono fun _ _ moved => moved.trans behind
  rintro _ rfl
  exact rfl

theorem here : Ensures isModule whole (At text) Parse.here fun cursor after =>
    cursor.text = text ∧ after.text = text := by
  intro scope cursor a after _ _ holds ran
  simp only [Parse.here, Prod.mk.injEq, Option.some.injEq] at ran
  obtain ⟨rfl, rfl⟩ := ran
  exact ⟨holds, holds⟩

/-- A look at the token at hand and another step after it. -/
theorem look {f : Cursor → Parse β} (second : ∀ cursor, cursor.token = (scanToken text).token →
    Ensures isModule whole (At text) (f cursor) post) :
    Ensures isModule whole (At text) (Parse.here >>= f) post := by
  refine bind here fun cursor => of_at fun place _ ⟨same, stays⟩ => (second cursor ?_).of ?_
  · rw [Cursor.token, cursor.found_eq, same]
  · rintro _ rfl
    exact stays

theorem moved : Ensures isModule whole (At text) Parse.next fun _ after =>
    after.text = afterToken isModule text := by
  intro scope cursor a after same _ holds ran
  simp only [Parse.next, moveOver, Prod.mk.injEq] at ran
  rw [← ran.2, Cursor.text_moved, same, Cursor.rest, cursor.found_eq, holds, afterToken]

theorem movedBehind : Ensures isModule whole (At text) Parse.next fun _ =>
    Behind (scanToken text).rest :=
  moved.mono fun _ after next => by
    rw [Behind, next]
    exact afterToken_suffix _ _

theorem atSign (sign : String) : Ensures isModule whole (At text) (Parse.atSign sign)
    fun found after => after.text = text ∧ (found = true → (scanToken text).token = .sign sign) := by
  refine bind here fun cursor => pure ?_
  rintro after ⟨rfl, stays⟩
  refine ⟨stays, fun found => ?_⟩
  rw [← cursor.found_eq]
  exact of_decide_eq_true found

theorem eatSign (sign : String) : Ensures isModule whole (At text) (Parse.eatSign sign)
    fun found after => (found = true → (scanToken text).token = .sign sign ∧
      after.text = afterToken isModule text) ∧ (found = false → after.text = text) := by
  refine bind (atSign sign) fun found => ite (fun yes => ?_) fun no => pure ?_
  · refine of_at fun cursor _ ⟨stays, token⟩ => ?_
    refine bind (moved.of fun _ same => same ▸ stays) fun _ => pure fun after next => ?_
    exact ⟨fun _ => ⟨token yes, next⟩, nofun⟩
  · exact fun after holds => ⟨nofun, fun _ => holds.1⟩

theorem expectSign (sign : String) : Ensures isModule whole (At text) (Parse.expectSign sign)
    fun _ after => (scanToken text).token = .sign sign ∧ after.text = afterToken isModule text := by
  refine bind (eatSign sign) fun found => ite (fun _ => failure) fun yes => pure ?_
  exact fun after holds => holds.1 (by simpa using yes)

theorem word? : Ensures isModule whole (At text) Parse.word? fun found after =>
    after.text = text ∧
      ∀ name, found = some name → ∃ escaped, (scanToken text).token = .word name escaped := by
  refine bind here fun cursor => ?_
  split
  · rename_i name escaped token
    refine pure fun after ⟨same, stays⟩ => ⟨stays, ?_⟩
    rintro _ ⟨rfl⟩
    exact ⟨escaped, by rw [← token, Cursor.token, cursor.found_eq, same]⟩
  · exact pure fun after holds => ⟨holds.2, nofun⟩

theorem atWord (word : String) : Ensures isModule whole (At text) (Parse.atWord word)
    fun found after => after.text = text ∧
      (found = true → ∃ escaped, (scanToken text).token = .word word escaped) :=
  bind word? fun _ => pure fun _ holds => ⟨holds.1, fun same => holds.2 word (by simpa using same)⟩

theorem expectWord (word : String) : Ensures isModule whole (At text) (Parse.expectWord word)
    fun _ after => (∃ escaped, (scanToken text).token = .word word escaped) ∧
      after.text = afterToken isModule text := by
  have eaten : Ensures isModule whole (At text) (Parse.eatWord word) fun found after =>
      found = true → (∃ escaped, (scanToken text).token = .word word escaped) ∧
        after.text = afterToken isModule text := by
    refine bind (atWord word) fun found => ite (fun yes => ?_) fun _ => pure (by simp)
    refine of_at fun cursor _ ⟨stays, token⟩ => ?_
    refine bind (moved.of fun _ same => same ▸ stays) fun _ => pure fun after next _ => ?_
    exact ⟨token yes, next⟩
  refine bind eaten fun found => ite (fun _ => failure) fun yes => pure fun after holds => ?_
  exact holds (by simpa using yes)

/-! ## Repetition -/

/-- The values of the rounds come after those found before. -/
theorem repeatFrom {p : Parse (Option α)} {holds : α → Prop}
    (each : Ensures isModule whole Anywhere p fun found _ => ∀ a, found = some a → holds a) :
    ∀ steps found, Ensures isModule whole Anywhere (Parse.repeatFrom p steps found) fun all _ =>
      ∃ others, all = found.reverse ++ others ∧ ∀ a ∈ others, holds a
  | 0, _ => failure
  | steps + 1, found => by
    refine value each fun latest holdsLatest => ?_
    cases latest with
    | some a =>
      refine (repeatFrom each steps (a :: found)).mono fun all _ ⟨others, same, holdsOthers⟩ => ?_
      refine ⟨a :: others, by simpa using same, ?_⟩
      exact List.forall_mem_cons.mpr ⟨holdsLatest a rfl, holdsOthers⟩
    | none => exact pure fun _ _ => ⟨[], by simp, by simp⟩

theorem repeated {p : Parse (Option α)} {holds : α → Prop}
    (each : Ensures isModule whole Anywhere p fun found _ => ∀ a, found = some a → holds a) :
    Ensures isModule whole pre (Parse.repeated p) fun all _ => ∀ a ∈ all, holds a := by
  refine next fun scope => (repeatFrom each scope.steps []).mono fun all _ ⟨others, same, holds⟩ => ?_
  rw [same]
  exact holds

theorem listed {item : Parse α} {holds : α → Prop}
    (each : Ensures isModule whole Anywhere item fun a _ => holds a) :
    Ensures isModule whole pre (Parse.listed item) fun all _ => ∀ a ∈ all, holds a := by
  refine value (each.of fun _ _ => trivial) fun first holdsFirst => ?_
  refine value (repeated ?_) fun others (holdsOthers : ∀ a ∈ others, holds a) => ?_
  · refine next fun more => ite (fun _ => ?_) fun _ => pure (by simp)
    refine value each fun a holdsA => pure ?_
    rintro _ _ b ⟨rfl⟩
    exact holdsA
  · exact pure fun _ _ => List.forall_mem_cons.mpr ⟨holdsFirst, holdsOthers⟩

/-- What holds at each round of a repetition holds at its end. -/
theorem extendFrom {p : α → Parse (Option α)} (holds : α → Cursor → Prop)
    (each : ∀ a, Ensures isModule whole (holds a) (p a) fun found after =>
      holds (found.getD a) after) :
    ∀ steps a, Ensures isModule whole (holds a) (Parse.extendFrom p steps a) holds
  | 0, _ => failure
  | steps + 1, a => by
    refine bind (each a) fun found => ?_
    cases found with
    | some b => exact extendFrom holds each steps b
    | none => exact pure fun _ => id

theorem extended {start : α} {p : α → Parse (Option α)} (holds : α → List Char → Prop)
    (each : ∀ a left, holds a left → Ensures isModule whole (At left) (p a) fun found after =>
      holds (found.getD a) after.text) :
    Ensures isModule whole (fun cursor => holds start cursor.text) (Parse.extended start p)
      fun a after => holds a after.text := by
  intro scope cursor a after same inside begun ran
  refine extendFrom (fun a cursor => holds a cursor.text) (fun a => ?_) scope.steps start
    scope cursor a after same inside begun ran
  exact of_at fun place _ kept => (each a place.text kept).of fun _ same => same ▸ rfl

/-- The first of several items with commas between them is read where they
start. -/
theorem separatedFrom {close : String} {item : Parse α} {holds : List Char → α → Prop}
    (each : ∀ start, Ensures isModule whole (At start) item fun a _ => holds start a) :
    Ensures isModule whole (At text) (Parse.separated close item) fun all _ =>
      (∀ a ∈ all, ∃ start, holds start a) ∧ ∀ a rest, all = a :: rest → holds text a := by
  have round (start : List Char) : Ensures isModule whole (At start)
      (do
        if ← Parse.atSign close then return none
        let a ← item
        if !(← Parse.atSign close) then Parse.expectSign ","
        return some a) fun found _ => ∀ a, found = some a → holds start a := by
    refine still (.atSign close) fun closed => ite (fun _ => pure (by simp)) fun _ => ?_
    refine value (each start) fun a holdsA => next fun more => ?_
    have yields {pre : Cursor → Prop} : Ensures isModule whole pre (Pure.pure (some a))
        fun found _ => ∀ a, found = some a → holds start a := by
      refine pure fun _ _ => ?_
      rintro _ ⟨rfl⟩
      exact holdsA
    exact ite (fun _ => next fun _ => yields) fun _ => yields
  have later := repeatFrom (of_places fun start _ => (round start).mono
    fun found _ holdsFound a same => (⟨start, holdsFound a same⟩ : ∃ start, holds start a))
  refine still .read fun scope => ?_
  cases scope.steps with
  | zero => exact failure
  | succ steps =>
    refine value (round text) fun first holdsFirst => ?_
    cases first with
    | none => exact pure fun _ _ => by simp
    | some a =>
      refine (later steps [a]).mono fun all _ ⟨others, same, holdsOthers⟩ => ?_
      rw [same]
      exact ⟨List.forall_mem_cons.mpr ⟨⟨text, holdsFirst a rfl⟩, holdsOthers⟩,
        by simpa using holdsFirst a rfl⟩

theorem separated {close : String} {item : Parse α} {holds : α → Prop}
    (each : Ensures isModule whole Anywhere item fun a _ => holds a) :
    Ensures isModule whole pre (Parse.separated close item) fun all _ => ∀ a ∈ all, holds a := by
  refine of_places fun text _ => ?_
  have all : Ensures isModule whole (At text) (Parse.separated close item) fun all _ =>
      (∀ a ∈ all, ∃ _ : List Char, holds a) ∧ ∀ a rest, all = a :: rest → holds a :=
    separatedFrom fun _ => each.of fun _ _ => trivial
  exact all.mono fun _ _ holdsAll a mem => (holdsAll.1 a mem).choose_spec

end Ensures

end Parse

end PackageOrder.Script
