/-
PackageOrder.Proofs.Text.Count — how many texts there are up to a length.

A text is read as a number whose digits are its characters, each counted from one,
so that different texts are different numbers.
-/
import Mathlib.Algebra.GroupWithZero.Nat
import Mathlib.Data.Finset.Card
import Mathlib.Data.Finset.Range

namespace PackageOrder.Text

/-- How many values a character can have. -/
def charCount : Nat := 0x110000

theorem toNat_lt_charCount (c : Char) : c.toNat < charCount := by
  have hvalid : c.toNat < 0xD800 ∨ 0xDFFF < c.toNat ∧ c.toNat < 0x110000 := c.valid
  unfold charCount
  omega

/-- A text as a number. -/
def number : List Char → Nat
  | [] => 0
  | c :: rest => c.toNat + 1 + charCount * number rest

theorem number_injective : Function.Injective number := by
  intro one
  induction one with
  | nil =>
    intro other h
    cases other with
    | nil => rfl
    | cons d rest =>
      rw [number, number] at h
      omega
  | cons c one ih =>
    intro other h
    cases other with
    | nil =>
      rw [number, number] at h
      omega
    | cons d other =>
      have hc := toNat_lt_charCount c
      have hd := toNat_lt_charCount d
      rw [number, number] at h
      have hdigit : c.toNat = d.toNat := by
        have := congrArg (· % charCount) (show charCount * number one + c.toNat
          = charCount * number other + d.toNat by omega)
        simpa only [Nat.mul_add_mod, Nat.mod_eq_of_lt hc, Nat.mod_eq_of_lt hd] using this
      have hrest : number one = number other := by
        refine Nat.eq_of_mul_eq_mul_left (show 0 < charCount by decide) ?_
        omega
      rw [Char.toNat_inj.mp hdigit, ih hrest]

theorem number_add_two_le (text : List Char) : number text + 2 ≤ charCount ^ (text.length + 1) := by
  induction text with
  | nil => decide
  | cons c rest ih =>
    have hc := toNat_lt_charCount c
    have hmul := Nat.mul_le_mul_left charCount ih
    have htwo : 2 ≤ charCount := by decide
    rw [number, List.length_cons, Nat.pow_succ, Nat.mul_comm (charCount ^ _)]
    rw [Nat.mul_add] at hmul
    omega

/-- **Different texts up to a length are at most so many.** -/
theorem length_le_of_nodup {texts : List String} (hnodup : texts.Nodup) {length : Nat}
    (h : ∀ text ∈ texts, text.length ≤ length) : texts.length ≤ charCount ^ (length + 1) := by
  have hlt : ∀ text ∈ texts.toFinset,
      number text.toList ∈ Finset.range (charCount ^ (length + 1)) := by
    intro text htext
    have hle := h text (List.mem_toFinset.mp htext)
    have hnumber := number_add_two_le text.toList
    have hpow : charCount ^ (text.toList.length + 1) ≤ charCount ^ (length + 1) :=
      Nat.pow_le_pow_right (by decide) (by rw [String.length_toList]; omega)
    exact Finset.mem_range.mpr (by omega)
  have hinjective : Set.InjOn (fun text : String => number text.toList) texts.toFinset :=
    fun one _ other _ heq => String.toList_inj.mp (number_injective heq)
  calc texts.length = texts.toFinset.card := (List.toFinset_card_of_nodup hnodup).symm
    _ ≤ (Finset.range (charCount ^ (length + 1))).card :=
      Finset.card_le_card_of_injOn _ hlt hinjective
    _ = charCount ^ (length + 1) := Finset.card_range _

end PackageOrder.Text
