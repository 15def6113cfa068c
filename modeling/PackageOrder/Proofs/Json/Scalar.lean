/-
PackageOrder.Proofs.Json.Scalar — strings and integers are read as they were
written.

Each lemma says it with more text behind: a string ends at its quote, and an
integer where no digit, point or exponent follows (`EndsNumber`).
-/
import PackageOrder.Json.Reader
import PackageOrder.Json.Writer

namespace PackageOrder.Json

open PackageOrder.Text (hexDigit?)

/-! ## Strings -/

theorem hexDigit?_hexChar : ∀ d < 16, hexDigit? (hexChar d) = some d := by
  decide

/-- The escape of a control character is read as that character. -/
theorem readCodePoint?_control {c : Char} (hc : c.toNat < 0x20) (rest : List Char) :
    readCodePoint? ('0' :: '0' :: hexChar (c.toNat / 16) :: hexChar (c.toNat % 16) :: rest)
      = some (some c, rest) := by
  have hzero : hexDigit? '0' = some 0 := by decide
  have hhigh := hexDigit?_hexChar (c.toNat / 16) (by omega)
  have hlow := hexDigit?_hexChar (c.toNat % 16) (by omega)
  have hunit : ((0 * 16 + 0) * 16 + c.toNat / 16) * 16 + c.toNat % 16 = c.toNat := by omega
  have hread : readUnit? ('0' :: '0' :: hexChar (c.toNat / 16) :: hexChar (c.toNat % 16) :: rest)
      = some (c.toNat, rest) := by
    simp only [readUnit?, hzero, hhigh, hlow, Option.bind_eq_bind, Option.bind_some, hunit]
  have hhalf : isHighHalf c.toNat = false ∧ isLowHalf c.toNat = false := by
    simp only [isHighHalf, isLowHalf, Bool.and_eq_false_iff, decide_eq_false_iff_not]
    omega
  simp [readCodePoint?, hread, hhalf.1, hhalf.2]

/-- A character of a string is read as it was written. -/
theorem readStringBody?_escapeChar (c : Char) (steps : Nat) (text : List Char) :
    readStringBody? (steps + 1) (escapeChar c ++ text)
      = (readStringBody? steps text).map fun (body, rest) => (some c :: body, rest) := by
  have hmap : ∀ (found : Option (List (Option Char) × List Char)),
      (found.bind fun x => some (some c :: x.1, x.2))
        = found.map fun (body, rest) => (some c :: body, rest) := by
    intro found
    cases found <;> rfl
  unfold escapeChar
  split
  · subst_vars
    exact hmap _
  split
  · subst_vars
    exact hmap _
  split
  · subst_vars
    exact hmap _
  split
  · subst_vars
    exact hmap _
  split
  · subst_vars
    exact hmap _
  split
  · subst_vars
    exact hmap _
  split
  · subst_vars
    exact hmap _
  split
  · rename_i hcontrol
    have hread := readCodePoint?_control hcontrol text
    simp only [List.cons_append, List.nil_append, readStringBody?, hread]
    exact hmap _
  · rename_i hquote hslash _ _ _ _ _ hcontrol
    simp only [List.cons_append, List.nil_append, readStringBody?, if_neg hquote, if_neg hslash,
      if_neg hcontrol]
    exact hmap _

theorem readStringBody?_flatMap (text : List Char) (rest : List Char) :
    ∀ steps, text.length < steps →
      readStringBody? steps (text.flatMap escapeChar ++ '"' :: rest) = some (text.map some, rest) := by
  induction text with
  | nil =>
    intro steps hsteps
    obtain ⟨steps, rfl⟩ := Nat.exists_eq_succ_of_ne_zero (Nat.ne_of_gt hsteps)
    rfl
  | cons c text ih =>
    intro steps hsteps
    obtain ⟨steps, rfl⟩ := Nat.exists_eq_succ_of_ne_zero (Nat.ne_of_gt (Nat.zero_lt_of_lt hsteps))
    rw [List.flatMap_cons, List.append_assoc, readStringBody?_escapeChar,
      ih steps (Nat.lt_of_succ_lt_succ hsteps)]
    rfl

theorem length_le_flatMap_escapeChar (text : List Char) :
    text.length ≤ (text.flatMap escapeChar).length := by
  have hone : ∀ c, 1 ≤ (escapeChar c).length := by
    intro c
    unfold escapeChar
    repeat' split
    all_goals exact Nat.le_add_left 1 _
  induction text with
  | nil => exact Nat.le_refl _
  | cons c text ih =>
    have := hone c
    rw [List.flatMap_cons, List.length_append, List.length_cons]
    omega

theorem mapM_id_map_some {α : Type} (items : List α) : (items.map some).mapM id = some items := by
  induction items with
  | nil => rfl
  | cons item items ih =>
    rw [List.map_cons, List.mapM_cons, ih]
    rfl

/-- A string is read as it was written. -/
theorem readString?_escaped (s : String) (rest : List Char) :
    readString? (s.toList.flatMap escapeChar ++ '"' :: rest) = some (some s, rest) := by
  have hlength := length_le_flatMap_escapeChar s.toList
  rw [readString?, readStringBody?_flatMap]
  · rw [Option.map_some]
    dsimp only
    rw [mapM_id_map_some, Option.map_some, String.ofList_toList]
  · simp only [List.length_append, List.length_cons]
    omega

/-! ## Integers -/

/-- The decimal digits of a number. -/
def decimalDigits (n : Nat) : List Nat :=
  if n < 10 then [n] else decimalDigits (n / 10) ++ [n % 10]

theorem natChars_eq (n : Nat) : natChars n = (decimalDigits n).map Nat.digitChar := by
  induction n using Nat.strongRecOn with
  | ind n ih =>
    rw [natChars, Nat.toDigits_eq_if (by decide), decimalDigits]
    split
    · rfl
    · rw [← natChars, ih (n / 10) (by omega), List.map_append]
      rfl

theorem decimalDigits_lt (n : Nat) : ∀ d ∈ decimalDigits n, d < 10 := by
  induction n using Nat.strongRecOn with
  | ind n ih =>
    rw [decimalDigits]
    split
    · simpa
    · intro d hd
      rcases List.mem_append.mp hd with hd | hd
      · exact ih (n / 10) (by omega) d hd
      · rw [List.mem_singleton.mp hd]
        omega

theorem ofDigits_decimalDigits (n : Nat) : ofDigits (decimalDigits n) = n := by
  induction n using Nat.strongRecOn with
  | ind n ih =>
    rw [decimalDigits]
    split
    · simp [ofDigits]
    · have hfront := ih (n / 10) (by omega)
      rw [ofDigits] at hfront ⊢
      rw [List.foldl_append, hfront]
      simp only [List.foldl_cons, List.foldl_nil]
      omega

/-- Only the number zero has a zero for its first digit. -/
theorem decimalDigits_eq_cons (n : Nat) :
    ∃ d rest, decimalDigits n = d :: rest ∧ (d = 0 → n = 0) := by
  induction n using Nat.strongRecOn with
  | ind n ih =>
    rw [decimalDigits]
    split
    · exact ⟨n, [], rfl, id⟩
    · obtain ⟨d, rest, heq, hzero⟩ := ih (n / 10) (by omega)
      refine ⟨d, rest ++ [n % 10], by rw [heq]; rfl, ?_⟩
      intro hd
      have := hzero hd
      omega

/-- What may stand behind digits: no digit. -/
def EndsDigits (text : List Char) : Prop :=
  ∀ c rest, text = c :: rest → digit? c = none

/-- What may stand behind an integer: nothing that goes on with a number. -/
def EndsNumber (text : List Char) : Prop :=
  ∀ c rest, text = c :: rest → digit? c = none ∧ c ≠ '.' ∧ c ≠ 'e' ∧ c ≠ 'E'

theorem EndsNumber.endsDigits {text : List Char} (h : EndsNumber text) : EndsDigits text :=
  fun c rest heq => (h c rest heq).1

theorem endsNumber_nil : EndsNumber [] := by
  intro c rest h
  cases h

theorem endsNumber_cons {c : Char} (hc : c = ',' ∨ c = ']' ∨ c = '\x7d') (rest : List Char) :
    EndsNumber (c :: rest) := by
  intro c' rest' h
  cases h
  rcases hc with rfl | rfl | rfl <;> decide

theorem digit?_digitChar : ∀ d < 10, digit? d.digitChar = some d := by
  decide

theorem readDigits_append {digits : List Nat} (hdigits : ∀ d ∈ digits, d < 10) {text : List Char}
    (htext : EndsDigits text) :
    readDigits (digits.map Nat.digitChar ++ text) = (digits, text) := by
  induction digits with
  | nil =>
    cases text with
    | nil => rfl
    | cons c rest =>
      rw [List.map_nil, List.nil_append, readDigits, htext c rest rfl]
  | cons d digits ih =>
    rw [List.map_cons, List.cons_append, readDigits,
      digit?_digitChar d (hdigits d List.mem_cons_self),
      ih fun later hl => hdigits later (List.mem_cons_of_mem _ hl)]

/-- An integer is read as it was written. -/
theorem readNumber?_natChars (minus : Bool) (n : Nat) {text : List Char}
    (htext : EndsNumber text) :
    readNumber? minus (natChars n ++ text) = some (⟨minus, decimalDigits n, none, none⟩, text) := by
  have hdigits := readDigits_append (decimalDigits_lt n) htext.endsDigits
  rw [← natChars_eq] at hdigits
  have hwhole : readWhole? (natChars n ++ text) = some (decimalDigits n, text) := by
    obtain ⟨d, rest, heq, hzero⟩ := decimalDigits_eq_cons n
    rw [readWhole?, hdigits, heq]
    split
    · rename_i h
      cases h
    · rename_i h
      cases h
      rw [hzero rfl, decimalDigits, if_pos (by decide)] at heq
      cases heq
    · rfl
  have hfraction : readFraction? text = some (none, text) := by
    cases text with
    | nil => rfl
    | cons c rest =>
      rw [readFraction?]
      intro rest' h
      cases h
      exact (htext '.' rest rfl).2.1 rfl
  have hexponent : readExponent? text = some (none, text) := by
    cases text with
    | nil => rfl
    | cons c rest =>
      rw [readExponent?, if_neg]
      rintro (h | h)
      · exact (htext c rest rfl).2.2.1 h
      · exact (htext c rest rfl).2.2.2 h
  simp only [readNumber?, hwhole, hfraction, hexponent, Option.bind_eq_bind, Option.bind_some]

end PackageOrder.Json
