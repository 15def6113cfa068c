/-
PackageOrder.Proofs.Json.Grammar — what a text reads as, without counting steps.

`Reads` says it by rules, one for each way in which a value, the items of an array or the
members of an object may go on. The reader follows these rules (`reads_of_readIn`), and
twice as many steps as characters are enough for it (`Reads.readSoon`), so a whole text
has the form that the rules give it (`readForm?_eq_some_iff`). What is proved about texts by
induction on the rules needs no count of steps.
-/
import PackageOrder.Proofs.Json.Indented

namespace PackageOrder.Json

/-! ## Parts without line breaks -/

/-- A text that goes on with `rest` behind some characters, none of them a line break. -/
def InLine (text rest : List Char) : Prop :=
  ∃ front, text = front ++ rest ∧ '\n' ∉ front

theorem InLine.refl (text : List Char) : InLine text text :=
  ⟨[], rfl, List.not_mem_nil⟩

theorem InLine.cons {text rest : List Char} (h : InLine text rest) {c : Char} (hc : c ≠ '\n') :
    InLine (c :: text) rest := by
  obtain ⟨front, rfl, hfront⟩ := h
  exact ⟨c :: front, rfl, by simp [Ne.symm hc, hfront]⟩

theorem InLine.trans {text middle rest : List Char} (h : InLine text middle)
    (h' : InLine middle rest) : InLine text rest := by
  obtain ⟨front, rfl, hfront⟩ := h
  obtain ⟨back, rfl, hback⟩ := h'
  exact ⟨front ++ back, (List.append_assoc _ _ _).symm, by simp [hfront, hback]⟩

theorem InLine.length_le {text rest : List Char} (h : InLine text rest) :
    rest.length ≤ text.length := by
  obtain ⟨front, rfl, _⟩ := h
  rw [List.length_append]
  omega

theorem InLine.append {front : List Char} (h : '\n' ∉ front) (rest : List Char) :
    InLine (front ++ rest) rest :=
  ⟨front, rfl, h⟩

/-! ## Numbers -/

theorem digit?_eq_some {c : Char} {d : Nat} (h : digit? c = some d) :
    d < 10 ∧ c = d.digitChar := by
  rw [digit?] at h
  split at h
  · rename_i hc
    have hlow : 48 ≤ c.toNat := hc.1
    have hhigh : c.toNat ≤ 57 := hc.2
    have hd : c.toNat - 48 = d := Option.some.inj h
    have hcode : c.toNat = 48 + d := by omega
    have hlt : d < 10 := by omega
    refine ⟨hlt, ?_⟩
    rw [← Char.ofNat_toNat c, hcode]
    exact (by decide : ∀ d < 10, Char.ofNat (48 + d) = d.digitChar) d hlt
  · cases h

theorem digitChar_ne_lineBreak : ∀ d < 10, d.digitChar ≠ '\n' := by
  decide

theorem inLine_readDigits (text : List Char) : InLine text (readDigits text).2 := by
  induction text with
  | nil => exact .refl _
  | cons c rest ih =>
    rw [readDigits]
    split
    · rename_i d hd
      obtain ⟨hlt, rfl⟩ := digit?_eq_some hd
      exact ih.cons (digitChar_ne_lineBreak d hlt)
    · exact .refl _

theorem inLine_readSomeDigits? {text rest : List Char} {digits : List Nat}
    (h : readSomeDigits? text = some (digits, rest)) : InLine text rest := by
  have hdigits := inLine_readDigits text
  rw [readSomeDigits?] at h
  split at h
  · cases h
  · rw [Option.some.inj h] at hdigits
    exact hdigits

/-- A number starts with a digit. -/
theorem exists_digit_of_readWhole? {text rest : List Char} {digits : List Nat}
    (h : readWhole? text = some (digits, rest)) :
    ∃ d inner, d < 10 ∧ text = d.digitChar :: inner ∧ InLine inner rest := by
  have hfound : readDigits text = (digits, rest) ∧ digits ≠ [] := by
    rw [readWhole?] at h
    split at h
    · cases h
    · cases h
    · rename_i found hnil _
      have heq := Option.some.inj h
      refine ⟨heq, fun hempty => hnil rest ?_⟩
      rw [heq, hempty]
  cases text with
  | nil => exact absurd (congrArg Prod.fst hfound.1).symm hfound.2
  | cons c inner =>
    rw [readDigits] at hfound
    split at hfound
    · rename_i d hd
      obtain ⟨hlt, rfl⟩ := digit?_eq_some hd
      have hrest : (readDigits inner).2 = rest := congrArg Prod.snd hfound.1
      exact ⟨d, inner, hlt, rfl, hrest ▸ inLine_readDigits inner⟩
    · exact absurd (congrArg Prod.fst hfound.1).symm hfound.2

theorem inLine_readFraction? {text rest : List Char} {fraction : Option (List Nat)}
    (h : readFraction? text = some (fraction, rest)) : InLine text rest := by
  unfold readFraction? at h
  split at h
  · obtain ⟨⟨digits, rest'⟩, hdigits, heq⟩ := Option.map_eq_some_iff.mp h
    cases heq
    exact (inLine_readSomeDigits? hdigits).cons (by decide)
  · cases h
    exact .refl _

theorem inLine_readSign (text : List Char) : InLine text (readSign text).2 := by
  unfold readSign
  split
  · exact (InLine.refl _).cons (by decide)
  · exact (InLine.refl _).cons (by decide)
  · exact .refl _

theorem inLine_readExponent? {text rest : List Char} {exponent : Option (Bool × List Nat)}
    (h : readExponent? text = some (exponent, rest)) : InLine text rest := by
  cases text with
  | nil =>
    cases h
    exact .refl _
  | cons c text =>
    rw [readExponent?] at h
    split at h
    · rename_i hc
      obtain ⟨⟨digits, rest'⟩, hdigits, heq⟩ := Option.map_eq_some_iff.mp h
      cases heq
      refine ((inLine_readSign text).trans (inLine_readSomeDigits? hdigits)).cons ?_
      rcases hc with rfl | rfl <;> decide
    · cases h
      exact .refl _

theorem exists_digit_of_readNumber? {text rest : List Char} {minus : Bool} {number : NumberText}
    (h : readNumber? minus text = some (number, rest)) :
    ∃ d inner, d < 10 ∧ text = d.digitChar :: inner ∧ InLine inner rest := by
  obtain ⟨⟨whole, one⟩, hwhole, h⟩ := Option.bind_eq_some_iff.mp h
  obtain ⟨⟨fraction, two⟩, hfraction, h⟩ := Option.bind_eq_some_iff.mp h
  obtain ⟨⟨exponent, three⟩, hexponent, h⟩ := Option.bind_eq_some_iff.mp h
  cases h
  obtain ⟨d, inner, hlt, rfl, hinner⟩ := exists_digit_of_readWhole? hwhole
  exact ⟨d, inner, hlt, rfl,
    (hinner.trans (inLine_readFraction? hfraction)).trans (inLine_readExponent? hexponent)⟩

theorem inLine_readNumber? {text rest : List Char} {minus : Bool} {number : NumberText}
    (h : readNumber? minus text = some (number, rest)) : InLine text rest := by
  obtain ⟨d, inner, hlt, rfl, hinner⟩ := exists_digit_of_readNumber? h
  exact hinner.cons (digitChar_ne_lineBreak d hlt)

/-! ## Strings -/

theorem hexDigit?_lineBreak : Text.hexDigit? '\n' = none := by
  decide

theorem inLine_readUnit? {text rest : List Char} {unit : Nat}
    (h : readUnit? text = some (unit, rest)) : InLine text rest := by
  unfold readUnit? at h
  split at h
  · rename_i a b c d inner
    obtain ⟨one, ha, h⟩ := Option.bind_eq_some_iff.mp h
    obtain ⟨two, hb, h⟩ := Option.bind_eq_some_iff.mp h
    obtain ⟨three, hc, h⟩ := Option.bind_eq_some_iff.mp h
    obtain ⟨four, hd, h⟩ := Option.bind_eq_some_iff.mp h
    cases h
    have hne : ∀ {digit : Char} {value : Nat}, Text.hexDigit? digit = some value →
        digit ≠ '\n' := by
      rintro digit value hdigit rfl
      rw [hexDigit?_lineBreak] at hdigit
      cases hdigit
    exact ((((InLine.refl _).cons (hne hd)).cons (hne hc)).cons (hne hb)).cons (hne ha)
  · cases h

theorem inLine_readLowHalf? {text rest : List Char} {unit : Nat}
    (h : readLowHalf? text = some (unit, rest)) : InLine text rest := by
  unfold readLowHalf? at h
  split at h
  · split at h
    · rename_i hunit
      split at h
      · cases h
        exact ((inLine_readUnit? hunit).cons (by decide)).cons (by decide)
      · cases h
    · cases h
  · cases h

theorem inLine_readCodePoint? {text rest : List Char} {found : Option Char}
    (h : readCodePoint? text = some (found, rest)) : InLine text rest := by
  obtain ⟨⟨unit, middle⟩, hunit, h⟩ := Option.bind_eq_some_iff.mp h
  have hmiddle := inLine_readUnit? hunit
  dsimp only at h
  split at h
  · split at h
    · rename_i hlow
      cases h
      exact hmiddle.trans (inLine_readLowHalf? hlow)
    · cases h
      exact hmiddle
  · split at h <;> cases h <;> exact hmiddle

theorem unescape?_lineBreak : unescape? '\n' = none := rfl

/-- What has been read of a string before the rest of it. -/
def startsWith (found : Option Char) (body : Option (List (Option Char) × List Char)) :
    Option (List (Option Char) × List Char) :=
  body.map fun (body, rest) => (found :: body, rest)

theorem startsWith_eq_bind (found : Option Char) (body : Option (List (Option Char) × List Char)) :
    startsWith found body = body.bind fun x => some (found :: x.1, x.2) := by
  cases body <;> rfl

theorem readStringBody?_unit (steps : Nat) (text : List Char) :
    readStringBody? (steps + 1) ('\\' :: 'u' :: text)
      = (readCodePoint? text).bind fun x => startsWith x.1 (readStringBody? steps x.2) := by
  have hquote : ('\\' : Char) ≠ '"' := by decide
  simp only [readStringBody?, if_neg hquote, if_pos, startsWith_eq_bind, Option.bind_eq_bind]

theorem readStringBody?_escape {e : Char} (hu : e ≠ 'u') (steps : Nat) (rest : List Char) :
    readStringBody? (steps + 1) ('\\' :: e :: rest)
      = (unescape? e).bind fun found => startsWith (some found) (readStringBody? steps rest) := by
  have hquote : ('\\' : Char) ≠ '"' := by decide
  simp only [readStringBody?, if_neg hquote, if_pos, startsWith_eq_bind, Option.bind_eq_bind]

theorem readStringBody?_plain {c : Char} (hquote : c ≠ '"') (hslash : c ≠ '\\')
    (hcontrol : ¬ c.toNat < 0x20) (steps : Nat) (rest : List Char) :
    readStringBody? (steps + 1) (c :: rest) = startsWith (some c) (readStringBody? steps rest) := by
  rw [startsWith_eq_bind]
  simp only [readStringBody?, if_neg hquote, if_neg hslash, if_neg hcontrol, Option.bind_eq_bind]

/-- The ways in which a string may go on. -/
theorem readStringBody?_cases {steps : Nat} {text rest : List Char} {body : List (Option Char)}
    (h : readStringBody? (steps + 1) text = some (body, rest)) :
    (text = '"' :: rest ∧ body = [])
      ∨ ∃ middle found more, InLine text middle ∧ middle.length < text.length
        ∧ body = found :: more ∧ readStringBody? steps middle = some (more, rest)
        ∧ ∀ other, readStringBody? (other + 1) text
          = startsWith found (readStringBody? other middle) := by
  cases text with
  | nil => cases h
  | cons c inner =>
    unfold readStringBody? at h
    split at h
    · rename_i hquote
      cases h
      exact Or.inl ⟨by rw [hquote], rfl⟩
    rename_i hquote
    split at h
    · rename_i hslash
      subst hslash
      split at h
      · rename_i behind
        obtain ⟨⟨found, middle⟩, hpoint, h⟩ := Option.bind_eq_some_iff.mp h
        obtain ⟨⟨more, rest'⟩, hmore, h⟩ := Option.bind_eq_some_iff.mp h
        cases h
        have hline := inLine_readCodePoint? hpoint
        have hlength := hline.length_le
        exact Or.inr ⟨middle, found, more, (hline.cons (by decide)).cons (by decide),
          by rw [List.length_cons, List.length_cons]; omega, rfl, hmore,
          fun other => by rw [readStringBody?_unit, hpoint, Option.bind_some]⟩
      · rename_i e behind hu
        obtain ⟨found, hescape, h⟩ := Option.bind_eq_some_iff.mp h
        obtain ⟨⟨more, rest'⟩, hmore, h⟩ := Option.bind_eq_some_iff.mp h
        cases h
        have he : e ≠ '\n' := by
          rintro rfl
          rw [unescape?_lineBreak] at hescape
          cases hescape
        exact Or.inr ⟨behind, some found, more, ((InLine.refl _).cons he).cons (by decide),
          by rw [List.length_cons, List.length_cons]; omega, rfl, hmore,
          fun other => by rw [readStringBody?_escape hu, hescape, Option.bind_some]⟩
      · cases h
    rename_i hslash
    split at h
    · cases h
    rename_i hcontrol
    obtain ⟨⟨more, rest'⟩, hmore, h⟩ := Option.bind_eq_some_iff.mp h
    cases h
    have hc : c ≠ '\n' := by
      rintro rfl
      exact hcontrol (by decide)
    exact Or.inr ⟨inner, some c, more, (InLine.refl _).cons hc,
      by rw [List.length_cons]; omega, rfl, hmore,
      fun other => readStringBody?_plain hquote hslash hcontrol other inner⟩

theorem inLine_readStringBody? {steps : Nat} {text rest : List Char} {body : List (Option Char)}
    (h : readStringBody? steps text = some (body, rest)) : InLine text rest := by
  induction steps generalizing text body with
  | zero => cases h
  | succ steps ih =>
    rcases readStringBody?_cases h with ⟨rfl, _⟩ | ⟨middle, found, more, hline, _, _, hmore, _⟩
    · exact (InLine.refl _).cons (by decide)
    · exact hline.trans (ih hmore)

/-- As many steps as there are characters are enough for a string. -/
theorem readStringBody?_of_length {steps other : Nat} {text rest : List Char}
    {body : List (Option Char)} (h : readStringBody? steps text = some (body, rest))
    (hother : text.length < other) : readStringBody? other text = some (body, rest) := by
  induction steps generalizing text body other with
  | zero => cases h
  | succ steps ih =>
    obtain ⟨other, rfl⟩ := Nat.exists_eq_succ_of_ne_zero (Nat.ne_of_gt (Nat.zero_lt_of_lt hother))
    rcases readStringBody?_cases h with ⟨rfl, rfl⟩ | ⟨middle, found, more, _, hlt, rfl, hmore, hgo⟩
    · rfl
    · rw [hgo, ih hmore (by omega)]
      rfl

theorem inLine_readString? {text rest : List Char} {s : Option String}
    (h : readString? text = some (s, rest)) : InLine text rest := by
  obtain ⟨⟨body, rest'⟩, hbody, heq⟩ := Option.map_eq_some_iff.mp h
  cases heq
  exact inLine_readStringBody? hbody

/-! ## Rules -/

/-- What is read: a value, the items of an array or the members of an object up to the mark
that ends them. -/
inductive Reading where
  | value (form : Form)
  | items (forms : List Form)
  | members (members : List (Option String × Form))

/-- The words that are values. -/
def literals : List (List Char × Form) :=
  [("null".toList, .null), ("true".toList, .bool true), ("false".toList, .bool false)]

theorem literals_cases {word : List Char} {form : Form} (h : (word, form) ∈ literals) :
    word = "null".toList ∧ form = .null ∨ word = "true".toList ∧ form = .bool true
      ∨ word = "false".toList ∧ form = .bool false := by
  simpa only [literals, List.mem_cons, List.not_mem_nil, or_false, Prod.mk.injEq] using h

/-- What a text reads as, and what follows. -/
inductive Reads : List Char → Reading → List Char → Prop
  | literal {text word rest : List Char} {form : Form} : (word, form) ∈ literals →
      skipBlanks text = word ++ rest → Reads text (.value form) rest
  | string {text inner rest : List Char} {s : Option String} : skipBlanks text = '"' :: inner →
      readString? inner = some (s, rest) → Reads text (.value (.ofString s)) rest
  | negative {text inner rest : List Char} {number : NumberText} :
      skipBlanks text = '-' :: inner → readNumber? true inner = some (number, rest) →
      Reads text (.value (.number number)) rest
  | number {text rest : List Char} {number : NumberText} :
      readNumber? false (skipBlanks text) = some (number, rest) →
      Reads text (.value (.number number)) rest
  | noItems {text inner rest : List Char} : skipBlanks text = '[' :: inner →
      skipBlanks inner = ']' :: rest → Reads text (.value (.array [])) rest
  | array {text inner rest : List Char} {forms : List Form} : skipBlanks text = '[' :: inner →
      Reads inner (.items forms) rest → Reads text (.value (.array forms)) rest
  | noMembers {text inner rest : List Char} : skipBlanks text = '\x7b' :: inner →
      skipBlanks inner = '\x7d' :: rest → Reads text (.value (.object [])) rest
  | object {text inner rest : List Char} {members : List (Option String × Form)} :
      skipBlanks text = '\x7b' :: inner → Reads inner (.members members) rest →
      Reads text (.value (.ofMembers members)) rest
  | lastItem {text middle rest : List Char} {form : Form} : Reads text (.value form) middle →
      skipBlanks middle = ']' :: rest → Reads text (.items [form]) rest
  | moreItems {text middle inner rest : List Char} {form : Form} {forms : List Form} :
      Reads text (.value form) middle → skipBlanks middle = ',' :: inner →
      Reads inner (.items forms) rest → Reads text (.items (form :: forms)) rest
  | lastMember {text inner colon behind middle rest : List Char} {key : Option String}
      {form : Form} : skipBlanks text = '"' :: inner → readString? inner = some (key, colon) →
      skipBlanks colon = ':' :: behind → Reads behind (.value form) middle →
      skipBlanks middle = '\x7d' :: rest → Reads text (.members [(key, form)]) rest
  | moreMembers {text inner colon behind middle next rest : List Char} {key : Option String}
      {form : Form} {members : List (Option String × Form)} : skipBlanks text = '"' :: inner →
      readString? inner = some (key, colon) → skipBlanks colon = ':' :: behind →
      Reads behind (.value form) middle → skipBlanks middle = ',' :: next →
      Reads next (.members members) rest → Reads text (.members ((key, form) :: members)) rest

/-! ## The reader follows the rules -/

theorem skipBlanks_skipBlanks (text : List Char) : skipBlanks (skipBlanks text) = skipBlanks text := by
  induction text with
  | nil => rfl
  | cons c rest ih =>
    rw [skipBlanks]
    split
    · exact ih
    · rename_i hblank
      rw [skipBlanks, if_neg hblank]

/-- What a text reads as does not depend on the blanks before it. -/
theorem Reads.congr {text other rest : List Char} {reading : Reading} (h : Reads text reading rest)
    (hskip : skipBlanks other = skipBlanks text) : Reads other reading rest := by
  induction h generalizing other with
  | literal hword hstart => exact .literal hword (hskip.trans hstart)
  | string hstart hread => exact .string (hskip.trans hstart) hread
  | negative hstart hread => exact .negative (hskip.trans hstart) hread
  | number hread => exact .number (hskip ▸ hread)
  | noItems hstart hclose => exact .noItems (hskip.trans hstart) hclose
  | array hstart hitems => exact .array (hskip.trans hstart) hitems
  | noMembers hstart hclose => exact .noMembers (hskip.trans hstart) hclose
  | object hstart hmembers => exact .object (hskip.trans hstart) hmembers
  | lastItem _ hclose ih => exact .lastItem (ih hskip) hclose
  | moreItems _ hcomma hmore ih _ => exact .moreItems (ih hskip) hcomma hmore
  | lastMember hstart hkey hcolon hvalue hclose =>
    exact .lastMember (hskip.trans hstart) hkey hcolon hvalue hclose
  | moreMembers hstart hkey hcolon hvalue hcomma hmore =>
    exact .moreMembers (hskip.trans hstart) hkey hcolon hvalue hcomma hmore

/-- What is read in some steps. -/
def ReadIn (steps : Nat) (text : List Char) (rest : List Char) : Reading → Prop
  | .value form => readValue? steps text = some (form, rest)
  | .items forms => readItems? steps text = some (forms, rest)
  | .members members => readMembers? steps text = some (members, rest)

section

variable {steps : Nat} {text rest : List Char}
  (ih : ∀ {text rest : List Char} {reading : Reading}, ReadIn steps text rest reading →
    Reads text reading rest)
include ih

/-- A value is read by the rules, if what stands in it is. -/
theorem reads_of_readValue? {form : Form} (h : readValue? (steps + 1) text = some (form, rest)) :
    Reads text (.value form) rest := by
  rw [readValue?] at h
  split at h
  · rename_i hskip
    cases h
    exact .literal (by simp [literals] : ("null".toList, _) ∈ literals) hskip
  · rename_i hskip
    cases h
    exact .literal (by simp [literals] : ("true".toList, _) ∈ literals) hskip
  · rename_i hskip
    cases h
    exact .literal (by simp [literals] : ("false".toList, _) ∈ literals) hskip
  · rename_i hskip
    obtain ⟨⟨s, rest'⟩, hread, heq⟩ := Option.map_eq_some_iff.mp h
    cases heq
    exact .string hskip hread
  · rename_i hskip
    obtain ⟨⟨n, rest'⟩, hread, heq⟩ := Option.map_eq_some_iff.mp h
    cases heq
    exact .negative hskip hread
  · rename_i inner hskip
    split at h
    · rename_i hclose
      cases h
      exact .noItems hskip hclose
    · obtain ⟨⟨forms, rest'⟩, hread, heq⟩ := Option.map_eq_some_iff.mp h
      cases heq
      have hitems : Reads (skipBlanks inner) (.items forms) rest := ih hread
      exact .array hskip (hitems.congr (skipBlanks_skipBlanks _).symm)
  · rename_i inner hskip
    split at h
    · rename_i hclose
      cases h
      exact .noMembers hskip hclose
    · obtain ⟨⟨members, rest'⟩, hread, heq⟩ := Option.map_eq_some_iff.mp h
      cases heq
      have hmembers : Reads (skipBlanks inner) (.members members) rest := ih hread
      exact .object hskip (hmembers.congr (skipBlanks_skipBlanks _).symm)
  · obtain ⟨⟨n, rest'⟩, hread, heq⟩ := Option.map_eq_some_iff.mp h
    cases heq
    exact .number hread

theorem reads_of_readItems? {forms : List Form}
    (h : readItems? (steps + 1) text = some (forms, rest)) : Reads text (.items forms) rest := by
  rw [readItems?] at h
  obtain ⟨⟨form, middle⟩, hread, h⟩ := Option.bind_eq_some_iff.mp h
  have hvalue : Reads text (.value form) middle := ih hread
  dsimp only at h
  split at h
  · rename_i inner hcomma
    obtain ⟨⟨more, rest'⟩, hmore, h⟩ := Option.bind_eq_some_iff.mp h
    cases h
    exact .moreItems hvalue hcomma (ih hmore)
  · rename_i hclose
    cases h
    exact .lastItem hvalue hclose
  · cases h

theorem reads_of_readMembers? {members : List (Option String × Form)}
    (h : readMembers? (steps + 1) text = some (members, rest)) :
    Reads text (.members members) rest := by
  rw [readMembers?] at h
  split at h
  · rename_i inner hskip
    obtain ⟨⟨key, colon⟩, hkey, h⟩ := Option.bind_eq_some_iff.mp h
    dsimp only at h
    split at h
    · rename_i behind hcolon
      obtain ⟨⟨form, middle⟩, hread, h⟩ := Option.bind_eq_some_iff.mp h
      have hvalue : Reads behind (.value form) middle := ih hread
      dsimp only at h
      split at h
      · rename_i next hcomma
        obtain ⟨⟨more, rest'⟩, hmore, h⟩ := Option.bind_eq_some_iff.mp h
        cases h
        exact .moreMembers hskip hkey hcolon hvalue hcomma (ih hmore)
      · rename_i hclose
        cases h
        exact .lastMember hskip hkey hcolon hvalue hclose
      · cases h
    · cases h
  · cases h

end

/-- **What is read is read by the rules.** -/
theorem reads_of_readIn {steps : Nat} {text rest : List Char} {reading : Reading}
    (h : ReadIn steps text rest reading) : Reads text reading rest := by
  -- a call of the reader has one step less, whatever it reads
  induction steps generalizing text rest reading with
  | zero => cases reading <;> cases h
  | succ steps ih =>
    cases reading with
    | value form => exact reads_of_readValue? ih h
    | items forms => exact reads_of_readItems? ih h
    | members members => exact reads_of_readMembers? ih h

/-! ## The rules are followed to the end -/

/-- The characters that a value or a member may start with. -/
def valueStarts : List Char :=
  ['n', 't', 'f', '"', '-', '[', '\x7b', '0', '1', '2', '3', '4', '5', '6', '7', '8', '9']

theorem Reads.starts {text rest : List Char} {reading : Reading} (h : Reads text reading rest) :
    ∃ c inner, skipBlanks text = c :: inner ∧ c ∈ valueStarts := by
  induction h with
  | @literal text word rest form hword hskip =>
    rcases literals_cases hword with ⟨rfl, _⟩ | ⟨rfl, _⟩ | ⟨rfl, _⟩ <;> exact ⟨_, _, hskip, by decide⟩
  | string hskip => exact ⟨_, _, hskip, by decide⟩
  | negative hskip => exact ⟨_, _, hskip, by decide⟩
  | number hread =>
    obtain ⟨d, inner, hd, hskip, _⟩ := exists_digit_of_readNumber? hread
    exact ⟨_, _, hskip, (by decide : ∀ d < 10, d.digitChar ∈ valueStarts) d hd⟩
  | noItems hskip => exact ⟨_, _, hskip, by decide⟩
  | array hskip => exact ⟨_, _, hskip, by decide⟩
  | noMembers hskip => exact ⟨_, _, hskip, by decide⟩
  | object hskip => exact ⟨_, _, hskip, by decide⟩
  | lastItem _ _ ih => exact ih
  | moreItems _ _ _ ih _ => exact ih
  | lastMember hskip => exact ⟨_, _, hskip, by decide⟩
  | moreMembers hskip => exact ⟨_, _, hskip, by decide⟩

theorem Reads.beginsValue {text rest : List Char} {reading : Reading}
    (h : Reads text reading rest) : BeginsValue (skipBlanks text) := by
  obtain ⟨c, inner, hskip, hc⟩ := h.starts
  have hall : valueStarts.all (fun c => !isJsonBlank c && (c != ']' && c != '\x7d')) = true := by
    decide
  exact ⟨c, inner, hskip, by simpa using List.all_eq_true.mp hall c hc⟩

theorem length_skipBlanks_le (text : List Char) : (skipBlanks text).length ≤ text.length := by
  induction text with
  | nil => exact Nat.le_refl _
  | cons c rest ih =>
    rw [skipBlanks, List.length_cons]
    split
    · omega
    · exact Nat.le_refl _

theorem length_lt_of_skipBlanks {text inner : List Char} {c : Char}
    (h : skipBlanks text = c :: inner) : inner.length < text.length := by
  have hle := length_skipBlanks_le text
  rw [h, List.length_cons] at hle
  exact hle

/-- Something is read, and two steps for each of its characters are enough. -/
structure ReadSoon (text rest : List Char) (reading : Reading) : Prop where
  shorter : rest.length < text.length
  soon : ∀ steps, 2 * text.length ≤ steps + 2 * rest.length → ReadIn steps text rest reading

/-- As something is read, there is at least one step. -/
theorem readSoon_of_succ {text rest : List Char} {reading : Reading}
    (hlt : rest.length < text.length)
    (h : ∀ steps, 2 * text.length ≤ steps + 1 + 2 * rest.length →
      ReadIn (steps + 1) text rest reading) : ReadSoon text rest reading := by
  refine ⟨hlt, fun steps hle => ?_⟩
  cases steps with
  | zero => omega
  | succ steps => exact h steps hle

/-- **Two steps for each character that is read are enough.** -/
theorem Reads.readSoon {text rest : List Char} {reading : Reading} (h : Reads text reading rest) :
    ReadSoon text rest reading := by
  -- a value spends one step, and so does each item or member, before which a mark stands:
  -- the two steps for that mark pay for the item and for the value in it
  induction h with
  | @literal text word rest form hword hskip =>
    have hle := length_skipBlanks_le text
    rw [hskip, List.length_append] at hle
    refine readSoon_of_succ ?_ fun steps _ => ?_
    · rcases literals_cases hword with ⟨rfl, _⟩ | ⟨rfl, _⟩ | ⟨rfl, _⟩
        <;> exact Nat.lt_of_lt_of_le (by simp) hle
    · rcases literals_cases hword with ⟨rfl, rfl⟩ | ⟨rfl, rfl⟩ | ⟨rfl, rfl⟩
        <;> rw [ReadIn, readValue?, hskip] <;> rfl
  | string hskip hread =>
    have hlength := length_lt_of_skipBlanks hskip
    have hline := (inLine_readString? hread).length_le
    refine readSoon_of_succ (by omega) fun steps _ => ?_
    simp only [ReadIn, readValue?, hskip, hread, Option.map_some]
  | negative hskip hread =>
    have hlength := length_lt_of_skipBlanks hskip
    have hline := (inLine_readNumber? hread).length_le
    refine readSoon_of_succ (by omega) fun steps _ => ?_
    simp only [ReadIn, readValue?, hskip, hread, Option.map_some]
  | @number text rest number hread =>
    obtain ⟨d, inner, hd, hskip, hline⟩ := exists_digit_of_readNumber? hread
    have hlength := length_lt_of_skipBlanks hskip
    have hle := hline.length_le
    refine readSoon_of_succ (by omega) fun steps _ => ?_
    rw [ReadIn, ← readValue?_congr (skipBlanks_skipBlanks text), hskip, readValue?_digit hd, ← hskip,
      hread, Option.map_some]
  | noItems hskip hclose =>
    have hlength := length_lt_of_skipBlanks hskip
    have hrest := length_lt_of_skipBlanks hclose
    refine readSoon_of_succ (by omega) fun steps _ => ?_
    simp only [ReadIn, readValue?, hskip, hclose]
  | @array text inner rest forms hskip hitems ih =>
    have hlength := length_lt_of_skipBlanks hskip
    have hshorter := ih.shorter
    refine readSoon_of_succ (by omega) fun steps hle => ?_
    have hread : readItems? steps inner = some (forms, rest) := ih.soon steps (by omega)
    rw [ReadIn, readValue?_congr (show skipBlanks text = skipBlanks ('[' :: inner) from hskip)]
    exact readValue?_openArray rfl hitems.beginsValue
      ((readItems?_congr (skipBlanks_skipBlanks inner) steps).trans hread)
  | noMembers hskip hclose =>
    have hlength := length_lt_of_skipBlanks hskip
    have hrest := length_lt_of_skipBlanks hclose
    refine readSoon_of_succ (by omega) fun steps _ => ?_
    simp only [ReadIn, readValue?, hskip, hclose]
  | @object text inner rest members hskip hmembers ih =>
    have hlength := length_lt_of_skipBlanks hskip
    have hshorter := ih.shorter
    refine readSoon_of_succ (by omega) fun steps hle => ?_
    have hread : readMembers? steps inner = some (members, rest) := ih.soon steps (by omega)
    rw [ReadIn, readValue?_congr (show skipBlanks text = skipBlanks ('\x7b' :: inner) from hskip)]
    exact readValue?_openMembers rfl hmembers.beginsValue
      ((readMembers?_congr (skipBlanks_skipBlanks inner) steps).trans hread)
  | @lastItem text middle rest form _ hclose ih =>
    have hlength := length_lt_of_skipBlanks hclose
    have hshorter := ih.shorter
    refine readSoon_of_succ (by omega) fun steps hle => ?_
    have hread : readValue? steps text = some (form, middle) := ih.soon steps (by omega)
    exact readItems?_close hread hclose
  | @moreItems text middle inner rest form forms _ hcomma _ ih ihMore =>
    have hlength := length_lt_of_skipBlanks hcomma
    have hshorter := ih.shorter
    have hmoreShorter := ihMore.shorter
    refine readSoon_of_succ (by omega) fun steps hle => ?_
    have hread : readValue? steps text = some (form, middle) := ih.soon steps (by omega)
    have hmore : readItems? steps inner = some (forms, rest) := ihMore.soon steps (by omega)
    simp only [ReadIn, readItems?, hread, hcomma, hmore, Option.bind_eq_bind, Option.bind_some]
  | @lastMember text inner colon behind middle rest key form hskip hkey hcolon _ hclose ih =>
    have hlength := length_lt_of_skipBlanks hskip
    have hline := (inLine_readString? hkey).length_le
    have hbehind := length_lt_of_skipBlanks hcolon
    have hrest := length_lt_of_skipBlanks hclose
    have hshorter := ih.shorter
    refine readSoon_of_succ (by omega) fun steps hle => ?_
    have hread : readValue? steps behind = some (form, middle) := ih.soon steps (by omega)
    simp only [ReadIn, readMembers?, hskip, hkey, hcolon, hread, hclose, Option.bind_eq_bind,
      Option.bind_some]
  | @moreMembers text inner colon behind middle next rest key form members hskip hkey hcolon _
      hcomma _ ih ihMore =>
    have hlength := length_lt_of_skipBlanks hskip
    have hline := (inLine_readString? hkey).length_le
    have hbehind := length_lt_of_skipBlanks hcolon
    have hnext := length_lt_of_skipBlanks hcomma
    have hshorter := ih.shorter
    have hmoreShorter := ihMore.shorter
    refine readSoon_of_succ (by omega) fun steps hle => ?_
    have hread : readValue? steps behind = some (form, middle) := ih.soon steps (by omega)
    have hmore : readMembers? steps next = some (members, rest) := ihMore.soon steps (by omega)
    simp only [ReadIn, readMembers?, hskip, hkey, hcolon, hread, hcomma, hmore, Option.bind_eq_bind,
      Option.bind_some]

/-- **The form of a whole text is what the rules give**, with blanks behind it at most. -/
theorem readForm?_eq_some_iff {text : List Char} {form : Form} :
    readForm? text = some form
      ↔ ∃ rest, Reads text (.value form) rest ∧ skipBlanks rest = [] := by
  constructor
  · intro h
    rw [readForm?] at h
    split at h
    · rename_i found rest hread
      split at h
      · rename_i hrest
        cases h
        exact ⟨rest, reads_of_readIn hread, hrest⟩
      · cases h
    · cases h
  · rintro ⟨rest, hreads, hrest⟩
    have hread : readValue? (2 * text.length + 2) text = some (form, rest) :=
      hreads.readSoon.soon _ (by omega)
    rw [readForm?, hread]
    exact if_pos hrest

end PackageOrder.Json
