/-
PackageOrder.Proofs.Json.Real — floating-point numbers are read after they were
written.

The text of a number with a point or an exponent is read as it stands
(`readNumber?_chars`), and `realText` is the text that a magnitude is written as
(`realChars_eq`). What is read from it is not always the same magnitude, because a
reader rounds more than once; but it is a magnitude (`exists_toNumber_realText`): a
number that was read can be written and read as often as one likes.
-/
import PackageOrder.Proofs.Decimal.Shortest
import PackageOrder.Proofs.Json.Scalar

namespace PackageOrder.Json

open PackageOrder.Decimal (Canonical Digits Magnitude)

/-! ## Texts of numbers -/

/-- A point with the digits after it. -/
def fractionChars : Option (List Nat) → List Char
  | none => []
  | some digits => '.' :: digits.map Nat.digitChar

/-- An exponent with its sign. -/
def powerChars : Option (Bool × List Nat) → List Char
  | none => []
  | some (minus, digits) => 'e' :: (if minus then '-' else '+') :: digits.map Nat.digitChar

/-- The characters of a number after its sign. -/
def NumberText.chars (text : NumberText) : List Char :=
  text.whole.map Nat.digitChar ++ (fractionChars text.fraction ++ powerChars text.exponent)

/-- Digits where some have to stand. -/
def SomeDigits (digits : List Nat) : Prop :=
  digits ≠ [] ∧ ∀ d ∈ digits, d < 10

/-- A number that can be read: there are digits in all of its parts, and none of those
before the point stands behind a zero. -/
structure NumberText.Regular (text : NumberText) : Prop where
  whole : SomeDigits text.whole
  zero : text.whole.head? = some 0 → text.whole = [0]
  fraction : ∀ digits ∈ text.fraction, SomeDigits digits
  exponent : ∀ part ∈ text.exponent, SomeDigits part.2

theorem readSomeDigits?_append {digits : List Nat} (hdigits : SomeDigits digits)
    {text : List Char} (htext : EndsDigits text) :
    readSomeDigits? (digits.map Nat.digitChar ++ text) = some (digits, text) := by
  rw [readSomeDigits?, readDigits_append hdigits.2 htext]
  split
  · rename_i h
    cases h
    exact absurd rfl hdigits.1
  · rfl

theorem readExponent?_chars {part : Option (Bool × List Nat)}
    (hpart : ∀ found ∈ part, SomeDigits found.2) {text : List Char} (htext : EndsNumber text) :
    readExponent? (powerChars part ++ text) = some (part, text) := by
  cases part with
  | none =>
    cases text with
    | nil => rfl
    | cons c rest =>
      rw [powerChars, List.nil_append, readExponent?, if_neg]
      rintro (h | h)
      · exact (htext c rest rfl).2.2.1 h
      · exact (htext c rest rfl).2.2.2 h
  | some found =>
    obtain ⟨minus, digits⟩ := found
    have hread : readSomeDigits? (digits.map Nat.digitChar ++ text) = some (digits, text) :=
      readSomeDigits?_append (hpart _ rfl) htext.endsDigits
    rw [powerChars, List.cons_append, List.cons_append, readExponent?, if_pos (Or.inl rfl)]
    cases minus
    · change Option.map _ (readSomeDigits? (digits.map Nat.digitChar ++ text)) = _
      rw [hread]
      rfl
    · change Option.map _ (readSomeDigits? (digits.map Nat.digitChar ++ text)) = _
      rw [hread]
      rfl

theorem endsDigits_powerChars (part : Option (Bool × List Nat)) {text : List Char}
    (htext : EndsNumber text) : EndsDigits (powerChars part ++ text) := by
  cases part with
  | none => exact htext.endsDigits
  | some found =>
    intro c rest h
    cases h
    decide

theorem readFraction?_chars {part : Option (List Nat)}
    (hpart : ∀ digits ∈ part, SomeDigits digits) (power : Option (Bool × List Nat))
    {text : List Char} (htext : EndsNumber text) :
    readFraction? (fractionChars part ++ (powerChars power ++ text))
      = some (part, powerChars power ++ text) := by
  cases part with
  | none =>
    have hpoint : ∀ rest, powerChars power ++ text ≠ '.' :: rest := by
      intro rest h
      cases power with
      | none => exact (htext _ _ h).2.1 rfl
      | some found => cases h
    rw [fractionChars, List.nil_append]
    generalize powerChars power ++ text = behind at hpoint
    rw [readFraction?]
    exact fun rest => hpoint rest
  | some digits =>
    rw [fractionChars, List.cons_append, readFraction?,
      readSomeDigits?_append (hpart _ rfl) (endsDigits_powerChars power htext)]
    rfl

theorem endsDigits_fractionChars (part : Option (List Nat)) (power : Option (Bool × List Nat))
    {text : List Char} (htext : EndsNumber text) :
    EndsDigits (fractionChars part ++ (powerChars power ++ text)) := by
  cases part with
  | none => exact endsDigits_powerChars power htext
  | some digits =>
    intro c rest h
    cases h
    decide

/-- **A number is read as it was written.** -/
theorem readNumber?_chars {number : NumberText} (hnumber : number.Regular) {text : List Char}
    (htext : EndsNumber text) :
    readNumber? number.minus (number.chars ++ text) = some (number, text) := by
  obtain ⟨minus, whole, fraction, exponent⟩ := number
  obtain ⟨⟨hwhole, hdigits⟩, hzero, hfraction, hexponent⟩ := hnumber
  have hread := readDigits_append hdigits (endsDigits_fractionChars fraction exponent htext)
  have hreadWhole : readWhole? (whole.map Nat.digitChar
      ++ (fractionChars fraction ++ (powerChars exponent ++ text)))
        = some (whole, fractionChars fraction ++ (powerChars exponent ++ text)) := by
    rw [readWhole?, hread]
    split
    · rename_i h
      cases h
      exact absurd rfl hwhole
    · rename_i h
      cases h
      exact absurd (hzero rfl) (by simp)
    · rfl
  simp only [readNumber?, NumberText.chars, List.append_assoc, hreadWhole,
    readFraction?_chars hfraction exponent htext, readExponent?_chars hexponent htext,
    Option.bind_eq_bind, Option.bind_some]

/-! ## Texts of magnitudes -/

/-- The text of `n · 10^e` without an exponent. -/
def plainText (minus : Bool) (n : Nat) (e : Int) : NumberText :=
  let digits := decimalDigits n
  if 0 ≤ e then ⟨minus, digits ++ List.replicate e.toNat 0, some [0], none⟩
  else
    let places := (-e).toNat
    if places < digits.length then
      ⟨minus, digits.take (digits.length - places), some (digits.drop (digits.length - places)),
        none⟩
    else ⟨minus, [0], some (List.replicate (places - digits.length) 0 ++ digits), none⟩

/-- The text of `n · 10^e` with an exponent. -/
def scientificText (minus : Bool) (n : Nat) (e : Int) : NumberText :=
  let digits := decimalDigits n
  let power := e + (digits.length : Int) - 1
  ⟨minus, digits.take 1, if digits.tail = [] then none else some digits.tail,
    some (power < 0, decimalDigits power.natAbs)⟩

/-- Whether a decimal is written without an exponent. -/
def IsPlain (x : Digits) : Prop :=
  let power := x.exponent + ((decimalDigits x.digits).length : Int) - 1
  floatLayout.plainFrom ≤ power ∧ power < floatLayout.plainBelow

instance (x : Digits) : Decidable (IsPlain x) :=
  inferInstanceAs (Decidable (_ ∧ _))

/-- The text of a magnitude. -/
def realText (minus : Bool) (x : Magnitude) : NumberText :=
  if x.mantissa = 0 then ⟨minus, [0], some [0], none⟩
  else if IsPlain x.shortest then plainText minus x.shortest.digits x.shortest.exponent
  else scientificText minus x.shortest.digits x.shortest.exponent

theorem length_natChars (n : Nat) : (natChars n).length = (decimalDigits n).length := by
  rw [natChars_eq, List.length_map]

theorem plainChars_eq (minus : Bool) (n : Nat) (e : Int) :
    plainChars n e = (plainText minus n e).chars := by
  have hzero : Nat.digitChar 0 = '0' := rfl
  rw [plainChars, plainText, length_natChars]
  dsimp only
  split
  · simp only [NumberText.chars, natChars_eq, fractionChars, powerChars, List.map_append,
      List.map_replicate, List.map_cons, List.map_nil, List.append_nil, hzero]
  split
  · simp only [NumberText.chars, natChars_eq, fractionChars, powerChars, List.map_take,
      List.map_drop, List.append_nil]
  · simp only [NumberText.chars, natChars_eq, fractionChars, powerChars, List.map_append,
      List.map_replicate, List.map_cons, List.map_nil, List.append_nil, List.cons_append,
      List.nil_append, hzero]

theorem exponentChars_eq (power : Int) :
    'e' :: exponentChars power
      = powerChars (some (decide (power < 0), decimalDigits power.natAbs)) := by
  rw [exponentChars, powerChars]
  split
  · rename_i h
    have habs : power.toNat = power.natAbs := by omega
    rw [natChars_eq, decide_eq_false (not_lt.mpr h), habs]
    rfl
  · rename_i h
    have habs : (-power).toNat = power.natAbs := by omega
    rw [natChars_eq, decide_eq_true (not_le.mp h), habs]
    rfl

theorem scientificChars_eq (minus : Bool) (n : Nat) (e : Int) :
    scientificChars n e = (scientificText minus n e).chars := by
  rw [scientificChars, scientificText, length_natChars, natChars_eq]
  simp only [NumberText.chars, exponentChars_eq]
  obtain ⟨d, rest, heq, _⟩ := decimalDigits_eq_cons n
  rw [heq]
  cases rest with
  | nil => rfl
  | cons next rest =>
    simp only [List.map_cons, List.take_succ_cons, List.take_zero, List.map_nil, List.tail_cons,
      reduceCtorEq, if_false, fractionChars, List.cons_append, List.nil_append]

/-- A magnitude is written as its text. -/
theorem realChars_eq (minus : Bool) (x : Magnitude) :
    realChars floatLayout minus x = (if minus then ['-'] else []) ++ (realText minus x).chars := by
  rw [realChars, realText]
  split
  · rfl
  · simp only [length_natChars]
    by_cases hplain : IsPlain x.shortest
    · rw [if_pos hplain, ← plainChars_eq]
      exact if_pos hplain
    · rw [if_neg hplain, ← scientificChars_eq]
      exact if_neg hplain

/-! ## The texts are read -/

theorem someDigits_decimalDigits (n : Nat) : SomeDigits (decimalDigits n) := by
  obtain ⟨d, rest, heq, _⟩ := decimalDigits_eq_cons n
  exact ⟨by rw [heq]; exact List.cons_ne_nil d rest, decimalDigits_lt n⟩

theorem someDigits_zeros_append (k : Nat) {digits : List Nat} (h : SomeDigits digits) :
    SomeDigits (List.replicate k 0 ++ digits) := by
  refine ⟨fun hnil => h.1 (List.append_eq_nil_iff.mp hnil).2, fun d hd => ?_⟩
  rcases List.mem_append.mp hd with hd | hd
  · rw [List.eq_of_mem_replicate hd]
    decide
  · exact h.2 d hd

theorem minus_realText (minus : Bool) (x : Magnitude) : (realText minus x).minus = minus := by
  rw [realText]
  split
  · rfl
  split
  · rw [plainText]
    dsimp only
    split
    · rfl
    · split <;> rfl
  · rfl

theorem isReal_realText (minus : Bool) (x : Magnitude) :
    (realText minus x).fraction.isSome ∨ (realText minus x).exponent.isSome := by
  rw [realText]
  split
  · exact Or.inl rfl
  split
  · rw [plainText]
    dsimp only
    split
    · exact Or.inl rfl
    · split <;> exact Or.inl rfl
  · exact Or.inr rfl

theorem regular_plainText (minus : Bool) {n : Nat} {e : Int} (h : n = 0 → e = 0) :
    (plainText minus n e).Regular := by
  obtain ⟨d, rest, heq, hzero⟩ := decimalDigits_eq_cons n
  have hdigits := decimalDigits_lt n
  rw [plainText]
  dsimp only
  split
  · refine ⟨⟨by simp [heq], fun d hd => ?_⟩, fun hhead => ?_, ?_, by simp⟩
    · rcases List.mem_append.mp hd with hd | hd
      · exact hdigits d hd
      · rw [List.eq_of_mem_replicate hd]
        decide
    · -- a zero in front is the number zero, which has no power of ten
      rw [heq] at hhead
      have hd : d = 0 := by simpa using hhead
      have hn := hzero hd
      have hnone : decimalDigits 0 = [0] := by rw [decimalDigits, if_pos (by decide)]
      rw [hn, h hn, hnone]
      rfl
    · rintro digits ⟨⟩
      exact ⟨by simp, by simp⟩
  · rename_i hneg
    have hn : n ≠ 0 := fun hn => by
      rw [h hn] at hneg
      exact hneg (le_refl 0)
    split
    · rename_i hplaces
      refine ⟨⟨?_, fun d hd => hdigits d (List.mem_of_mem_take hd)⟩, fun hhead => ?_, ?_, by simp⟩
      · rw [Ne, List.take_eq_nil_iff, not_or]
        exact ⟨by omega, by simp [heq]⟩
      · rw [heq, List.head?_take, if_neg (by rw [← heq]; omega)] at hhead
        exact absurd (hzero (by simpa using hhead)) hn
      · rintro digits ⟨⟩
        refine ⟨?_, fun d hd => hdigits d (List.mem_of_mem_drop hd)⟩
        rw [Ne, List.drop_eq_nil_iff]
        omega
    · refine ⟨⟨by simp, by simp⟩, fun _ => rfl, ?_, by simp⟩
      rintro digits ⟨⟩
      exact someDigits_zeros_append _ (someDigits_decimalDigits n)

theorem regular_scientificText (minus : Bool) (n : Nat) (e : Int) :
    (scientificText minus n e).Regular := by
  obtain ⟨d, rest, heq, _⟩ := decimalDigits_eq_cons n
  have hdigits := decimalDigits_lt n
  rw [scientificText, heq]
  rw [heq] at hdigits
  refine ⟨⟨by simp, by simpa using hdigits d List.mem_cons_self⟩, fun hhead => ?_, ?_, ?_⟩
  · have hd : d = 0 := by simpa using hhead
    rw [hd]
    rfl
  · dsimp only
    split
    · rintro digits ⟨⟩
    · rename_i hrest
      rintro digits ⟨⟩
      exact ⟨hrest, fun d hd => hdigits d (List.mem_cons_of_mem _ hd)⟩
  · rintro part ⟨⟩
    exact someDigits_decimalDigits _

theorem regular_realText (minus : Bool) (x : Magnitude) : (realText minus x).Regular := by
  rw [realText]
  split
  · refine ⟨⟨by simp, by simp⟩, fun _ => rfl, ?_, by simp⟩
    rintro digits ⟨⟩
    exact ⟨by simp, by simp⟩
  split
  · exact regular_plainText minus Decimal.exponent_shortest_eq_zero
  · exact regular_scientificText minus _ _

/-! ## Digits that fit 64 bits -/

/-- The number that digits behind a number write. -/
def appendDigits (n : Nat) (digits : List Nat) : Nat :=
  digits.foldl (fun n d => 10 * n + d) n

theorem le_appendDigits (n : Nat) (digits : List Nat) :
    n * 10 ^ digits.length ≤ appendDigits n digits := by
  induction digits generalizing n with
  | nil => simp [appendDigits]
  | cons d digits ih =>
    refine le_trans ?_ (ih (10 * n + d))
    rw [List.length_cons, pow_succ', ← mul_assoc]
    exact Nat.mul_le_mul_right _ (by omega)

theorem appendDigits_lt {n : Nat} {digits : List Nat} (hdigits : ∀ d ∈ digits, d < 10) :
    appendDigits n digits < (n + 1) * 10 ^ digits.length := by
  induction digits generalizing n with
  | nil => simp [appendDigits]
  | cons d digits ih =>
    have hd := hdigits d List.mem_cons_self
    have hrest := ih (n := 10 * n + d) fun later hl => hdigits later (List.mem_cons_of_mem _ hl)
    refine lt_of_lt_of_le hrest ?_
    rw [List.length_cons, pow_succ', ← mul_assoc]
    exact Nat.mul_le_mul_right _ (by omega)

/-- The digits that are left out count as zeros. -/
theorem takeWord_spec {n : Nat} (hn : n < 2 ^ 64) (digits : List Nat) :
    (takeWord n digits).1 < 2 ^ 64 ∧ (takeWord n digits).2 ≤ digits.length
      ∧ (takeWord n digits).1 * 10 ^ (takeWord n digits).2 ≤ appendDigits n digits := by
  induction digits generalizing n with
  | nil => exact ⟨hn, le_refl 0, by simp [takeWord, appendDigits]⟩
  | cons d digits ih =>
    rw [takeWord]
    split
    · rename_i hfits
      obtain ⟨hword, hleft, hle⟩ := ih hfits
      exact ⟨hword, Nat.le_succ_of_le hleft, hle⟩
    · exact ⟨hn, le_refl _, le_appendDigits n (d :: digits)⟩

theorem takeWord_of_lt {n : Nat} {digits : List Nat} (h : appendDigits n digits < 2 ^ 64) :
    takeWord n digits = (appendDigits n digits, 0) := by
  induction digits generalizing n with
  | nil => rfl
  | cons d digits ih =>
    have hfits : 10 * n + d < Nat.pow 2 64 := by
      refine lt_of_le_of_lt ?_ h
      refine le_trans ?_ (le_appendDigits (10 * n + d) digits)
      exact Nat.le_mul_of_pos_right _ (Nat.pow_pos (by decide))
    rw [takeWord, if_pos hfits]
    exact ih h

/-! ## What is read -/

theorem takeWord_short {digits : List Nat} (hdigits : ∀ d ∈ digits, d < 10)
    (hlength : digits.length ≤ 16) : (takeWord 0 digits).1 < 2 ^ 64 ∧ (takeWord 0 digits).2 = 0 := by
  have hlt := appendDigits_lt (n := 0) hdigits
  have hpow : 10 ^ digits.length ≤ 10 ^ 16 := Nat.pow_le_pow_right (by decide) hlength
  have hfits : appendDigits 0 digits < 2 ^ 64 := by omega
  rw [takeWord_of_lt hfits]
  exact ⟨hfits, rfl⟩

/-- A plain text has no power of ten above zero. -/
theorem toDecimal_plainText (minus : Bool) {x : Digits} (hplain : IsPlain x) :
    (plainText minus x.digits x.exponent).toDecimal.1 < 2 ^ 64
      ∧ (plainText minus x.digits x.exponent).toDecimal.2 ≤ 0 := by
  have hdigits := decimalDigits_lt x.digits
  have hpower : x.exponent + ((decimalDigits x.digits).length : Int) - 1 < 16 := hplain.2
  have hread : ∀ whole fraction, (∀ d ∈ whole, d < 10) → whole.length ≤ 16 →
      (NumberText.mk minus whole (some fraction) none).toDecimal.1 < 2 ^ 64
        ∧ (NumberText.mk minus whole (some fraction) none).toDecimal.2 ≤ 0 := by
    intro whole fraction hwhole hlength
    obtain ⟨hword, hleft⟩ := takeWord_short hwhole hlength
    refine ⟨(takeWord_spec hword fraction).1, ?_⟩
    simp only [NumberText.toDecimal, hleft, Option.getD_some]
    omega
  rw [plainText]
  dsimp only
  split
  · refine hread _ _ (fun d hd => ?_) ?_
    · rcases List.mem_append.mp hd with hd | hd
      · exact hdigits d hd
      · rw [List.eq_of_mem_replicate hd]
        decide
    · rw [List.length_append, List.length_replicate]
      omega
  split
  · refine hread _ _ (fun d hd => hdigits d (List.mem_of_mem_take hd)) ?_
    rw [List.length_take]
    omega
  · exact hread _ _ (by simp) (by simp)

/-- The decimal of a scientific text by what its fraction gives. -/
theorem toDecimal_scientificText (minus : Bool) (n : Nat) (e : Int) :
    ∃ m left : Nat, (scientificText minus n e).toDecimal = (m, e + (left : Int))
      ∧ m < 2 ^ 64 ∧ m * 10 ^ left ≤ n ∧ (n < 2 ^ 64 → m = n ∧ left = 0) := by
  obtain ⟨d, rest, heq, _⟩ := decimalDigits_eq_cons n
  have hd : d < 10 := decimalDigits_lt n d (by simp [heq])
  have hn : appendDigits d rest = n := by
    have h := ofDigits_decimalDigits n
    rw [heq, ofDigits, List.foldl_cons, Nat.mul_zero, Nat.zero_add] at h
    exact h
  have hword : d < 2 ^ 64 := by omega
  have hfirst : takeWord 0 [d] = (d, 0) := by
    have hfits : 10 * 0 + d < Nat.pow 2 64 := by
      rw [Nat.mul_zero, Nat.zero_add]
      exact hword
    rw [takeWord, if_pos hfits, takeWord, Nat.mul_zero, Nat.zero_add]
  obtain ⟨hlt, hleft, hle⟩ := takeWord_spec hword rest
  refine ⟨(takeWord d rest).1, (takeWord d rest).2, ?_, hlt, hn ▸ hle, fun hfits => ?_⟩
  · have hfraction : (if rest = [] then none else some rest).getD [] = rest := by
      split
      · rename_i h
        rw [h]
        rfl
      · rfl
    simp only [scientificText, NumberText.toDecimal, heq, List.take_succ_cons, List.take_zero,
      List.tail_cons, hfirst, hfraction, ofDigits_decimalDigits, List.length_cons,
      decide_eq_true_eq]
    refine Prod.ext rfl ?_
    dsimp only
    split <;> omega
  · rw [takeWord_of_lt (hn.symm ▸ hfits), hn]
    exact ⟨rfl, rfl⟩

/-- **A magnitude is read after it was written**, though it may be another one. -/
theorem exists_toNumber_realText {x : Magnitude} (hx : Canonical x) (minus : Bool) :
    ∃ y, (realText minus x).toNumber = some (.real minus y) ∧ Canonical y := by
  have hnumber : ∀ text : NumberText, text.minus = minus →
      (text.fraction.isSome ∨ text.exponent.isSome) →
      (∃ y, Decimal.ofDecimal text.toDecimal.1 text.toDecimal.2 = some y ∧ Canonical y) →
      ∃ y, text.toNumber = some (.real minus y) ∧ Canonical y := by
    rintro text rfl hreal ⟨y, hy, hcanonical⟩
    have hinteger : (text.fraction.isNone && text.exponent.isNone) = false := by
      rcases hreal with h | h
      · rw [Option.isNone_eq_false_iff.mpr h, Bool.false_and]
      · rw [Option.isNone_eq_false_iff.mpr h, Bool.and_false]
    refine ⟨y, ?_, hcanonical⟩
    simp only [NumberText.toNumber, hinteger, Bool.false_and, Bool.false_eq_true, if_false, hy,
      Option.map_some]
  refine hnumber _ (minus_realText minus x) (isReal_realText minus x) ?_
  rw [realText]
  split
  · have hzero : (NumberText.mk minus [0] (some [0]) none).toDecimal = (0, -1) := rfl
    rw [hzero]
    exact Decimal.exists_ofDecimal (by decide) (Or.inl (by decide))
  split
  · rename_i hplain
    obtain ⟨hword, hexp⟩ := toDecimal_plainText minus hplain
    exact Decimal.exists_ofDecimal hword (Or.inl hexp)
  obtain ⟨m, left, heq, hword, hle, hexact⟩ :=
    toDecimal_scientificText minus x.shortest.digits x.shortest.exponent
  rw [heq]
  by_cases hlargest : x = .largest
  · rw [hlargest, Decimal.shortest_largest] at hexact ⊢
    obtain ⟨rfl, rfl⟩ := hexact (by decide)
    exact Decimal.exists_ofDecimal_shortest_largest
  · refine Decimal.exists_ofDecimal_of_le hword ?_
    refine le_trans ?_ (Decimal.value_shortest_le_largestDecimal hx hlargest)
    have hcast : (m : ℚ) * 10 ^ left ≤ x.shortest.digits := by exact_mod_cast hle
    rw [Digits.value, add_comm, zpow_add₀ (by norm_num), zpow_natCast, ← mul_assoc]
    exact mul_le_mul_of_nonneg_right hcast (by positivity)

end PackageOrder.Json
