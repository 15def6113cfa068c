/-
PackageOrder.Proofs.Json.Layout — texts that differ in their line breaks.

A line may end with or without a carriage return, and the last line may lack its end
(`Relaid`). None of this is inside a string or a number, where there are no line breaks, so
the same is read in both layouts (`parse?_relaid`). And what is read has no line that starts
with a slash or a star (`Reads.unmarked`): a line break is followed by a part of the text,
behind blanks, and no part starts so.
-/
import PackageOrder.Proofs.Json.Grammar
import PackageOrder.Text.Blank

namespace PackageOrder.Json

open PackageOrder.Text (isBlank trimStart)

/-! ## Line breaks written otherwise -/

/-- The same text with fewer carriage returns before line breaks, and perhaps with a line
break at its end. -/
inductive Relaid : List Char → List Char → Prop
  | nil : Relaid [] []
  | ended : Relaid [] ['\n']
  | returned : Relaid ['\r'] ['\n']
  | char {a b : List Char} (c : Char) : Relaid a b → Relaid (c :: a) (c :: b)
  | lineBreak {a b : List Char} : Relaid a b → Relaid ('\r' :: '\n' :: a) ('\n' :: b)

theorem Relaid.append {a b : List Char} (h : Relaid a b) (front : List Char) :
    Relaid (front ++ a) (front ++ b) := by
  induction front with
  | nil => exact h
  | cons c front ih => exact .char c ih

/-- A character other than a carriage return stays at the front. -/
theorem Relaid.exists_cons {a b : List Char} {c : Char} (h : Relaid (c :: a) b) (hc : c ≠ '\r') :
    ∃ b', b = c :: b' ∧ Relaid a b' := by
  cases h with
  | char _ h => exact ⟨_, rfl, h⟩
  | returned | lineBreak _ => exact absurd rfl hc

theorem Relaid.exists_append {front a b : List Char} (h : Relaid (front ++ a) b)
    (hfront : '\r' ∉ front) : ∃ b', b = front ++ b' ∧ Relaid a b' := by
  induction front generalizing b with
  | nil => exact ⟨b, rfl, h⟩
  | cons c front ih =>
    rw [List.mem_cons, not_or] at hfront
    obtain ⟨rest, rfl, hrest⟩ := h.exists_cons (Ne.symm hfront.1)
    obtain ⟨b', rfl, hb⟩ := ih hrest hfront.2
    exact ⟨b', rfl, hb⟩

theorem relaid_skipBlanks {a b : List Char} (h : Relaid a b) :
    Relaid (skipBlanks a) (skipBlanks b) := by
  induction h with
  | nil | ended | returned => exact .nil
  | char c h ih =>
    rw [skipBlanks, skipBlanks]
    split
    · exact ih
    · exact .char c h
  | lineBreak _ ih => exact ih

theorem isJsonBlank_carriageReturn : isJsonBlank '\r' = true := rfl

theorem skipBlanks_ne_blank {text inner : List Char} {c : Char} (h : skipBlanks text = c :: inner) :
    isJsonBlank c = false := by
  induction text with
  | nil => cases h
  | cons d rest ih =>
    rw [skipBlanks] at h
    split at h
    · exact ih h
    · rename_i hblank
      cases h
      exact Bool.eq_false_iff.mpr hblank

/-- What stands behind the blanks is the same in both layouts. -/
theorem Relaid.skipBlanks_cons {a b inner : List Char} {c : Char} (h : Relaid a b)
    (hskip : skipBlanks a = c :: inner) : ∃ inner', skipBlanks b = c :: inner' ∧ Relaid inner inner' := by
  refine (hskip ▸ relaid_skipBlanks h).exists_cons ?_
  rintro rfl
  exact Bool.noConfusion (isJsonBlank_carriageReturn.symm.trans (skipBlanks_ne_blank hskip))

theorem Relaid.skipBlanks_nil {a b : List Char} (h : Relaid a b) (hskip : skipBlanks a = []) :
    skipBlanks b = [] := by
  have hrelaid := hskip ▸ relaid_skipBlanks h
  generalize hb : skipBlanks b = behind at hrelaid
  cases hrelaid with
  | nil => rfl
  | ended => exact absurd (skipBlanks_ne_blank hb) (by decide)

/-! ## Parts without line breaks -/

/-- Two ways of reading that come to the same, each in its layout. -/
inductive SameReading {α : Type} : Option (α × List Char) → Option (α × List Char) → Prop
  | none : SameReading none none
  | some {a b : List Char} (found : α) : Relaid a b → SameReading (some (found, a)) (some (found, b))

namespace SameReading

variable {α β : Type} {one other : Option (α × List Char)}

theorem bind (h : SameReading one other) {next next' : α × List Char → Option (β × List Char)}
    (hnext : ∀ found a b, Relaid a b → SameReading (next (found, a)) (next' (found, b))) :
    SameReading (one.bind next) (other.bind next') := by
  cases h with
  | none => exact .none
  | some found hrelaid => exact hnext found _ _ hrelaid

/-- What does not depend on the layout may come first. -/
theorem bind_left {γ : Type} (found : Option γ) {next next' : γ → Option (β × List Char)}
    (hnext : ∀ value, SameReading (next value) (next' value)) :
    SameReading (found.bind next) (found.bind next') := by
  cases found with
  | none => exact .none
  | some value => exact hnext value

theorem map (h : SameReading one other) (f : α → β) :
    SameReading (one.map fun (found, rest) => (f found, rest))
      (other.map fun (found, rest) => (f found, rest)) := by
  cases h with
  | none => exact .none
  | some found hrelaid => exact .some (f found) hrelaid

theorem exists_some (h : SameReading one other) {found : α} {a : List Char}
    (hone : one = .some (found, a)) : ∃ b, other = .some (found, b) ∧ Relaid a b := by
  subst hone
  cases h with
  | some _ hrelaid => exact ⟨_, rfl, hrelaid⟩

end SameReading

variable {a b : List Char}

theorem relaid_readDigits (h : Relaid a b) :
    (readDigits a).1 = (readDigits b).1 ∧ Relaid (readDigits a).2 (readDigits b).2 := by
  induction h with
  | nil => exact ⟨rfl, .nil⟩
  | ended => exact ⟨rfl, .ended⟩
  | returned => exact ⟨rfl, .returned⟩
  | char c h ih =>
    rw [readDigits, readDigits]
    cases digit? c with
    | none => exact ⟨rfl, .char c h⟩
    | some d => exact ⟨congrArg (d :: ·) ih.1, ih.2⟩
  | lineBreak h => exact ⟨rfl, .lineBreak h⟩

theorem exists_readDigits (h : Relaid a b) :
    ∃ digits rest rest', readDigits a = (digits, rest) ∧ readDigits b = (digits, rest')
      ∧ Relaid rest rest' := by
  obtain ⟨hdigits, hrest⟩ := relaid_readDigits h
  exact ⟨_, _, (readDigits b).2, rfl, Prod.ext hdigits.symm rfl, hrest⟩

theorem sameReading_readSomeDigits? (h : Relaid a b) :
    SameReading (readSomeDigits? a) (readSomeDigits? b) := by
  obtain ⟨digits, rest, rest', hone, hother, hrest⟩ := exists_readDigits h
  rw [readSomeDigits?, readSomeDigits?, hone, hother]
  cases digits with
  | nil => exact .none
  | cons d digits => exact .some _ hrest

theorem sameReading_readWhole? (h : Relaid a b) :
    SameReading (readWhole? a) (readWhole? b) := by
  obtain ⟨digits, rest, rest', hone, hother, hrest⟩ := exists_readDigits h
  rw [readWhole?, readWhole?, hone, hother]
  cases digits with
  | nil => exact .none
  | cons d digits =>
    cases d with
    | succ d => exact .some _ hrest
    | zero =>
      cases digits with
      | nil => exact .some _ hrest
      | cons second digits => exact .none

theorem sameReading_readFraction? (h : Relaid a b) :
    SameReading (readFraction? a) (readFraction? b) := by
  cases h with
  | nil => exact .some none .nil
  | ended => exact .some none .ended
  | returned => exact .some none .returned
  | char c h =>
    by_cases hc : c = '.'
    · subst hc
      exact (sameReading_readSomeDigits? h).map some
    · have hnone : ∀ rest, readFraction? (c :: rest) = some (none, c :: rest) := by
        intro rest
        rw [readFraction?]
        rintro inner heq
        exact hc (List.cons.inj heq).1
      rw [hnone, hnone]
      exact .some none (.char c h)
  | lineBreak h => exact .some none (.lineBreak h)

theorem relaid_readSign (h : Relaid a b) :
    (readSign a).1 = (readSign b).1 ∧ Relaid (readSign a).2 (readSign b).2 := by
  cases h with
  | nil => exact ⟨rfl, .nil⟩
  | ended => exact ⟨rfl, .ended⟩
  | returned => exact ⟨rfl, .returned⟩
  | char c h =>
    by_cases hplus : c = '+'
    · subst hplus
      exact ⟨rfl, h⟩
    by_cases hminus : c = '-'
    · subst hminus
      exact ⟨rfl, h⟩
    have hnone : ∀ rest, readSign (c :: rest) = (false, c :: rest) := by
      intro rest
      rw [readSign]
      · rintro inner heq
        exact hplus (List.cons.inj heq).1
      · rintro inner heq
        exact hminus (List.cons.inj heq).1
    rw [hnone, hnone]
    exact ⟨rfl, .char c h⟩
  | lineBreak h => exact ⟨rfl, .lineBreak h⟩

theorem sameReading_readExponent? (h : Relaid a b) :
    SameReading (readExponent? a) (readExponent? b) := by
  cases h with
  | nil => exact .some none .nil
  | ended => exact .some none .ended
  | returned => exact .some none .returned
  | char c h =>
    rw [readExponent?, readExponent?]
    split
    · obtain ⟨hsign, hrest⟩ := relaid_readSign h
      dsimp only
      rw [hsign]
      exact (sameReading_readSomeDigits? hrest).map fun digits => some (_, digits)
    · exact .some none (.char c h)
  | lineBreak h => exact .some none (.lineBreak h)

theorem sameReading_readNumber? (h : Relaid a b) (minus : Bool) :
    SameReading (readNumber? minus a) (readNumber? minus b) :=
  (sameReading_readWhole? h).bind fun _ _ _ h => (sameReading_readFraction? h).bind
    fun _ _ _ h => (sameReading_readExponent? h).bind fun _ _ _ h => .some _ h

/-- The end of a line, or of the text. -/
def AtBreak (text : List Char) : Prop :=
  ∀ c ∈ text.head?, c = '\r' ∨ c = '\n'

/-- Both layouts start with as many characters as one likes, or with fewer up to the end of
a line. -/
theorem Relaid.cut (h : Relaid a b) (n : Nat) :
    ∃ front a' b', a = front ++ a' ∧ b = front ++ b'
      ∧ (front.length = n ∧ Relaid a' b' ∨ front.length < n ∧ AtBreak a' ∧ AtBreak b') := by
  induction n generalizing a b with
  | zero => exact ⟨[], a, b, rfl, rfl, Or.inl ⟨rfl, h⟩⟩
  | succ n ih =>
    cases h with
    | char c h =>
      obtain ⟨front, a', b', rfl, rfl, hfront⟩ := ih h
      refine ⟨c :: front, a', b', rfl, rfl, ?_⟩
      rw [List.length_cons]
      exact hfront.imp (And.imp_left (congrArg (· + 1))) (And.imp_left Nat.succ_lt_succ)
    | nil | ended | returned | lineBreak _ =>
      exact ⟨[], _, _, rfl, rfl, Or.inr ⟨Nat.succ_pos n, by simp [AtBreak], by simp [AtBreak]⟩⟩

/-- A line does not end among hexadecimal digits. -/
theorem readUnit?_atBreak {front rest : List Char} (hfront : front.length < 4)
    (hrest : AtBreak rest) : readUnit? (front ++ rest) = none := by
  have hbad : ∀ c ∈ rest.head?, Text.hexDigit? c = none := fun c hc => by
    rcases hrest c hc with rfl | rfl <;> decide
  unfold readUnit?
  split
  · rename_i w x y z behind heq
    match front, heq with
    | [], heq => simp_all
    | [_], heq => simp_all
    | [_, _], heq => simp_all
    | [_, _, _], heq => simp_all
    | _ :: _ :: _ :: _ :: _, _ =>
      simp only [List.length_cons] at hfront
      omega
  · rfl

theorem sameReading_readUnit? (h : Relaid a b) : SameReading (readUnit? a) (readUnit? b) := by
  obtain ⟨front, a', b', rfl, rfl, ⟨hfront, hrelaid⟩ | ⟨hfront, ha, hb⟩⟩ := h.cut 4
  · match front, hfront with
    | [w, x, y, z], _ =>
      exact .bind_left _ fun _ => .bind_left _ fun _ => .bind_left _ fun _ => .bind_left _ fun _ =>
        .some _ hrelaid
  · rw [readUnit?_atBreak hfront ha, readUnit?_atBreak hfront hb]
    exact .none

theorem sameReading_readLowHalf? (h : Relaid a b) :
    SameReading (readLowHalf? a) (readLowHalf? b) := by
  have hother : ∀ {text : List Char}, (∀ inner, text ≠ '\\' :: 'u' :: inner) →
      readLowHalf? text = none := by
    intro text hne
    unfold readLowHalf?
    split
    · exact absurd rfl (hne _)
    · rfl
  by_cases hescape : ∃ inner, a = '\\' :: 'u' :: inner
  · obtain ⟨inner, rfl⟩ := hescape
    obtain ⟨inner', rfl, hinner⟩ :=
      (show Relaid (['\\', 'u'] ++ inner) b from h).exists_append (by decide)
    have hunit := sameReading_readUnit? hinner
    simp only [readLowHalf?, List.cons_append, List.nil_append]
    generalize readUnit? inner = one at hunit
    generalize readUnit? inner' = other at hunit
    cases hunit with
    | none => exact .none
    | some unit hrelaid =>
      dsimp only
      split
      · exact .some unit hrelaid
      · exact .none
  · have hescape' : ¬ ∃ inner, b = '\\' :: 'u' :: inner := by
      rintro ⟨inner, rfl⟩
      cases h with
      | char _ h => cases h with
        | char _ _ => exact hescape ⟨_, rfl⟩
    rw [hother fun inner heq => hescape ⟨inner, heq⟩, hother fun inner heq => hescape' ⟨inner, heq⟩]
    exact .none

theorem sameReading_readCodePoint? (h : Relaid a b) :
    SameReading (readCodePoint? a) (readCodePoint? b) := by
  refine (sameReading_readUnit? h).bind fun unit a b h => ?_
  dsimp only
  split
  · have hlow := sameReading_readLowHalf? h
    generalize readLowHalf? a = one at hlow
    generalize readLowHalf? b = other at hlow
    cases hlow with
    | none => exact .some _ h
    | some low hrelaid => exact .some _ hrelaid
  · split <;> exact .some _ h

theorem sameReading_startsWith {one other : Option (List (Option Char) × List Char)}
    (h : SameReading one other) (found : Option Char) :
    SameReading (startsWith found one) (startsWith found other) :=
  h.map (found :: ·)

theorem sameReading_readStringBody? (steps : Nat) (h : Relaid a b) :
    SameReading (readStringBody? steps a) (readStringBody? steps b) := by
  induction steps generalizing a b with
  | zero => exact .none
  | succ steps ih =>
    cases h with
    | nil | ended | returned | lineBreak _ => exact .none
    | @char a b c h =>
      by_cases hquote : c = '"'
      · subst hquote
        exact .some [] h
      by_cases hslash : c = '\\'
      · subst hslash
        cases h with
        | nil | ended | returned | lineBreak _ => exact .none
        | @char a b e h =>
          by_cases hu : e = 'u'
          · subst hu
            rw [readStringBody?_unit, readStringBody?_unit]
            exact (sameReading_readCodePoint? h).bind
              fun found _ _ h => sameReading_startsWith (ih h) found
          · rw [readStringBody?_escape hu, readStringBody?_escape hu]
            exact .bind_left _ fun found => sameReading_startsWith (ih h) (some found)
      by_cases hcontrol : c.toNat < 0x20
      · simp only [readStringBody?, if_neg hquote, if_neg hslash, if_pos hcontrol]
        exact .none
      · rw [readStringBody?_plain hquote hslash hcontrol, readStringBody?_plain hquote hslash hcontrol]
        exact sameReading_startsWith (ih h) (some c)

theorem exists_readString? (h : Relaid a b) {s : Option String} {rest : List Char}
    (hread : readString? a = some (s, rest)) :
    ∃ rest', readString? b = some (s, rest') ∧ Relaid rest rest' := by
  obtain ⟨⟨body, _⟩, hbody, heq⟩ := Option.map_eq_some_iff.mp hread
  cases heq
  obtain ⟨rest', hbody', hrelaid⟩ := (sameReading_readStringBody? _ h).exists_some hbody
  refine ⟨rest', ?_, hrelaid⟩
  -- the other text may be shorter, but it has as many steps as characters
  rw [readString?, readStringBody?_of_length hbody' (Nat.lt_succ_self _), Option.map_some]

/-! ## Forms -/

theorem notMem_literals {word : List Char} {form : Form} (h : (word, form) ∈ literals) :
    '\r' ∉ word ∧ '\n' ∉ word := by
  rcases literals_cases h with ⟨rfl, _⟩ | ⟨rfl, _⟩ | ⟨rfl, _⟩ <;> decide

/-- **The same is read in both layouts.** -/
theorem Reads.relaid {rest : List Char} {reading : Reading} (h : Reads a reading rest)
    (hrelaid : Relaid a b) : ∃ rest', Reads b reading rest' ∧ Relaid rest rest' := by
  induction h generalizing b with
  | literal hword hskip =>
    have hbehind := relaid_skipBlanks hrelaid
    rw [hskip] at hbehind
    obtain ⟨rest', hskip', hrest⟩ := hbehind.exists_append (notMem_literals hword).1
    exact ⟨rest', .literal hword hskip', hrest⟩
  | string hskip hread =>
    obtain ⟨inner', hskip', hinner⟩ := hrelaid.skipBlanks_cons hskip
    obtain ⟨rest', hread', hrest⟩ := exists_readString? hinner hread
    exact ⟨rest', .string hskip' hread', hrest⟩
  | negative hskip hread =>
    obtain ⟨inner', hskip', hinner⟩ := hrelaid.skipBlanks_cons hskip
    obtain ⟨rest', hread', hrest⟩ := (sameReading_readNumber? hinner true).exists_some hread
    exact ⟨rest', .negative hskip' hread', hrest⟩
  | number hread =>
    obtain ⟨rest', hread', hrest⟩ :=
      (sameReading_readNumber? (relaid_skipBlanks hrelaid) false).exists_some hread
    exact ⟨rest', .number hread', hrest⟩
  | noItems hskip hclose =>
    obtain ⟨inner', hskip', hinner⟩ := hrelaid.skipBlanks_cons hskip
    obtain ⟨rest', hclose', hrest⟩ := hinner.skipBlanks_cons hclose
    exact ⟨rest', .noItems hskip' hclose', hrest⟩
  | array hskip _ ih =>
    obtain ⟨inner', hskip', hinner⟩ := hrelaid.skipBlanks_cons hskip
    obtain ⟨rest', hitems', hrest⟩ := ih hinner
    exact ⟨rest', .array hskip' hitems', hrest⟩
  | noMembers hskip hclose =>
    obtain ⟨inner', hskip', hinner⟩ := hrelaid.skipBlanks_cons hskip
    obtain ⟨rest', hclose', hrest⟩ := hinner.skipBlanks_cons hclose
    exact ⟨rest', .noMembers hskip' hclose', hrest⟩
  | object hskip _ ih =>
    obtain ⟨inner', hskip', hinner⟩ := hrelaid.skipBlanks_cons hskip
    obtain ⟨rest', hmembers', hrest⟩ := ih hinner
    exact ⟨rest', .object hskip' hmembers', hrest⟩
  | lastItem _ hclose ih =>
    obtain ⟨middle', hvalue', hmiddle⟩ := ih hrelaid
    obtain ⟨rest', hclose', hrest⟩ := hmiddle.skipBlanks_cons hclose
    exact ⟨rest', .lastItem hvalue' hclose', hrest⟩
  | moreItems _ hcomma _ ih ihMore =>
    obtain ⟨middle', hvalue', hmiddle⟩ := ih hrelaid
    obtain ⟨inner', hcomma', hinner⟩ := hmiddle.skipBlanks_cons hcomma
    obtain ⟨rest', hmore', hrest⟩ := ihMore hinner
    exact ⟨rest', .moreItems hvalue' hcomma' hmore', hrest⟩
  | lastMember hskip hkey hcolon _ hclose ih =>
    obtain ⟨inner', hskip', hinner⟩ := hrelaid.skipBlanks_cons hskip
    obtain ⟨colon', hkey', hkeyRest⟩ := exists_readString? hinner hkey
    obtain ⟨behind', hcolon', hbehind⟩ := hkeyRest.skipBlanks_cons hcolon
    obtain ⟨middle', hvalue', hmiddle⟩ := ih hbehind
    obtain ⟨rest', hclose', hrest⟩ := hmiddle.skipBlanks_cons hclose
    exact ⟨rest', .lastMember hskip' hkey' hcolon' hvalue' hclose', hrest⟩
  | moreMembers hskip hkey hcolon _ hcomma _ ih ihMore =>
    obtain ⟨inner', hskip', hinner⟩ := hrelaid.skipBlanks_cons hskip
    obtain ⟨colon', hkey', hkeyRest⟩ := exists_readString? hinner hkey
    obtain ⟨behind', hcolon', hbehind⟩ := hkeyRest.skipBlanks_cons hcolon
    obtain ⟨middle', hvalue', hmiddle⟩ := ih hbehind
    obtain ⟨next', hcomma', hnext⟩ := hmiddle.skipBlanks_cons hcomma
    obtain ⟨rest', hmore', hrest⟩ := ihMore hnext
    exact ⟨rest', .moreMembers hskip' hkey' hcolon' hvalue' hcomma' hmore', hrest⟩

/-- **A text has the same value in both layouts.** -/
theorem parse?_relaid {text other : String} (h : Relaid text.toList other.toList) {value : Value}
    (hread : parse? text = some value) : parse? other = some value := by
  obtain ⟨form, hform, hvalue⟩ := Option.bind_eq_some_iff.mp hread
  obtain ⟨rest, hreads, hrest⟩ := readForm?_eq_some_iff.mp hform
  obtain ⟨rest', hreads', hrelaid⟩ := hreads.relaid h
  rw [parse?, readForm?_eq_some_iff.mpr ⟨rest', hreads', hrelaid.skipBlanks_nil hrest⟩,
    Option.bind_some, hvalue]

/-! ## How lines start -/

/-- A text that does not start with a slash or a star, white space before it set aside. -/
def Unmarked (text : List Char) : Prop :=
  ∀ c ∈ (trimStart text).head?, c ≠ '/' ∧ c ≠ '*'

/-- A text that goes on with `rest`, and no line that starts before that starts with a slash
or a star. -/
inductive UnmarkedUntil : List Char → List Char → Prop
  | refl (text : List Char) : UnmarkedUntil text text
  | char {text rest : List Char} (c : Char) : (c = '\n' → Unmarked text) →
      UnmarkedUntil text rest → UnmarkedUntil (c :: text) rest

theorem UnmarkedUntil.trans {text middle rest : List Char} (h : UnmarkedUntil text middle)
    (h' : UnmarkedUntil middle rest) : UnmarkedUntil text rest := by
  induction h with
  | refl _ => exact h'
  | char c hc _ ih => exact .char c hc (ih h')

/-- What stands behind a line break in an unmarked text is unmarked. -/
theorem UnmarkedUntil.behind {line text : List Char}
    (h : UnmarkedUntil (line ++ '\n' :: text) []) : Unmarked text ∧ UnmarkedUntil text [] := by
  induction line with
  | nil => cases h with
    | char _ hc h => exact ⟨hc rfl, h⟩
  | cons c line ih => cases h with
    | char _ _ h => exact ih h

theorem InLine.unmarked {text rest : List Char} (h : InLine text rest) :
    UnmarkedUntil text rest := by
  obtain ⟨front, rfl, hfront⟩ := h
  induction front with
  | nil => exact .refl _
  | cons c front ih =>
    rw [List.mem_cons, not_or] at hfront
    exact .char c (fun hc => absurd hc.symm hfront.1) (ih hfront.2)

theorem isBlank_of_isJsonBlank {c : Char} (h : isJsonBlank c = true) : isBlank c = true := by
  simp only [isJsonBlank, Bool.or_eq_true, beq_iff_eq] at h
  rcases h with ((rfl | rfl) | rfl) | rfl <;> decide

/-- The blanks at the front are white space. -/
theorem trimStart_skipBlanks (text : List Char) : trimStart (skipBlanks text) = trimStart text := by
  induction text with
  | nil => rfl
  | cons c rest ih =>
    rw [skipBlanks]
    split
    · rename_i hblank
      rw [ih, trimStart, trimStart, List.dropWhile_cons_of_pos (isBlank_of_isJsonBlank hblank)]
    · rfl

theorem Unmarked.of_skipBlanks {text : List Char} (h : Unmarked (skipBlanks text)) :
    Unmarked text := by
  rwa [Unmarked, trimStart_skipBlanks] at h

theorem UnmarkedUntil.skipBlanks {text : List Char} (h : Unmarked (skipBlanks text)) :
    UnmarkedUntil text (skipBlanks text) := by
  induction text with
  | nil => exact .refl _
  | cons c rest ih =>
    rw [Json.skipBlanks] at h ⊢
    split
    · rename_i hblank
      rw [if_pos hblank] at h
      exact .char c (fun _ => h.of_skipBlanks) (ih h)
    · exact .refl _

/-- The characters with which parts of a text start or end. -/
def marks : List Char :=
  [',', ':', ']', '\x7d'] ++ valueStarts

theorem unmarked_of_mem_marks {c : Char} (h : c ∈ marks) (inner : List Char) :
    Unmarked (c :: inner) := by
  have hall : marks.all (fun c => !isBlank c && (c != '/' && c != '*')) = true := by decide
  have hc : isBlank c = false ∧ c ≠ '/' ∧ c ≠ '*' := by
    simpa using List.all_eq_true.mp hall c h
  intro d hd
  rw [trimStart, List.dropWhile_cons_of_neg (by simp [hc.1]), List.head?_cons] at hd
  cases hd
  exact hc.2

theorem lineBreak_notMem_marks : '\n' ∉ marks := by
  decide

/-- Up to a mark, and past it. -/
theorem unmarkedUntil_mark {text inner : List Char} {c : Char} (hskip : skipBlanks text = c :: inner)
    (hc : c ∈ marks) : UnmarkedUntil text inner := by
  have hunmarked := unmarked_of_mem_marks hc inner
  rw [← hskip] at hunmarked
  have huntil := UnmarkedUntil.skipBlanks hunmarked
  rw [hskip] at huntil
  exact huntil.trans (.char c (fun heq => absurd (heq ▸ hc) lineBreak_notMem_marks) (.refl _))

/-- What is read starts with no slash and no star. -/
theorem Reads.unmarked_start {text rest : List Char} {reading : Reading}
    (h : Reads text reading rest) : Unmarked (skipBlanks text) := by
  obtain ⟨c, inner, hskip, hc⟩ := h.starts
  rw [hskip]
  exact unmarked_of_mem_marks (List.mem_append_right _ hc) inner

/-- **No line of what is read starts with a slash or a star.** -/
theorem Reads.unmarked {text rest : List Char} {reading : Reading} (h : Reads text reading rest) :
    UnmarkedUntil text rest := by
  have hstart := UnmarkedUntil.skipBlanks h.unmarked_start
  induction h with
  | @literal _ word rest _ hword hskip =>
    rw [hskip] at hstart
    exact hstart.trans (InLine.append (notMem_literals hword).2 rest).unmarked
  | string hskip hread =>
    exact (unmarkedUntil_mark hskip (by decide)).trans (inLine_readString? hread).unmarked
  | negative hskip hread =>
    exact (unmarkedUntil_mark hskip (by decide)).trans (inLine_readNumber? hread).unmarked
  | number hread => exact hstart.trans (inLine_readNumber? hread).unmarked
  | noItems hskip hclose =>
    exact (unmarkedUntil_mark hskip (by decide)).trans (unmarkedUntil_mark hclose (by decide))
  | array hskip hitems ih =>
    exact (unmarkedUntil_mark hskip (by decide)).trans (ih (.skipBlanks hitems.unmarked_start))
  | noMembers hskip hclose =>
    exact (unmarkedUntil_mark hskip (by decide)).trans (unmarkedUntil_mark hclose (by decide))
  | object hskip hmembers ih =>
    exact (unmarkedUntil_mark hskip (by decide)).trans (ih (.skipBlanks hmembers.unmarked_start))
  | lastItem _ hclose ih => exact (ih hstart).trans (unmarkedUntil_mark hclose (by decide))
  | moreItems _ hcomma hmore ih ihMore =>
    exact ((ih hstart).trans (unmarkedUntil_mark hcomma (by decide))).trans
      (ihMore (.skipBlanks hmore.unmarked_start))
  | lastMember hskip hkey hcolon hvalue hclose ih =>
    have hmember := ((unmarkedUntil_mark hskip (by decide)).trans
      (inLine_readString? hkey).unmarked).trans (unmarkedUntil_mark hcolon (by decide))
    exact (hmember.trans (ih (.skipBlanks hvalue.unmarked_start))).trans
      (unmarkedUntil_mark hclose (by decide))
  | moreMembers hskip hkey hcolon hvalue hcomma hmore ih ihMore =>
    have hmember := ((unmarkedUntil_mark hskip (by decide)).trans
      (inLine_readString? hkey).unmarked).trans (unmarkedUntil_mark hcolon (by decide))
    exact ((hmember.trans (ih (.skipBlanks hvalue.unmarked_start))).trans
      (unmarkedUntil_mark hcomma (by decide))).trans (ihMore (.skipBlanks hmore.unmarked_start))

/-- **No line of a text that has a value starts with a slash or a star.** -/
theorem unmarked_of_parse? {text : String} {value : Value} (h : parse? text = some value) :
    Unmarked text.toList ∧ UnmarkedUntil text.toList [] := by
  obtain ⟨form, hform, _⟩ := Option.bind_eq_some_iff.mp h
  obtain ⟨rest, hreads, hrest⟩ := readForm?_eq_some_iff.mp hform
  have hbehind : UnmarkedUntil rest (skipBlanks rest) := .skipBlanks (by simp [hrest, Unmarked, trimStart])
  rw [hrest] at hbehind
  exact ⟨hreads.unmarked_start.of_skipBlanks, hreads.unmarked.trans hbehind⟩

end PackageOrder.Json
