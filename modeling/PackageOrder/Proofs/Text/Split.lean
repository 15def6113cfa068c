/-
PackageOrder.Proofs.Text.Split — texts between separators.

Cutting and joining undo each other: `joinWith_splitOn` is one half, and
`splitOn_joinWith` the other, for pieces without the separator. A text is cut at its
first separator (`cutAt?`) as it is written around it, and in no other way.

A text is one line, or it is its first line, a line break and the text behind it
(`byLines`), and its lines are found in this order (`splitLines_append`). A line counts
without the carriage return before its break, which is white space like any other at the
end of a line.
-/
import Mathlib.Algebra.GroupWithZero.Nat
import Mathlib.Data.List.Basic
import PackageOrder.Text.Blank

namespace PackageOrder.Text

variable {sep : Char}

theorem splitOn_of_notMem {text : List Char} (h : sep ∉ text) : splitOn sep text = [text] := by
  induction text with
  | nil => rfl
  | cons c rest ih =>
    rw [List.mem_cons, not_or] at h
    rw [splitOn, if_neg (Ne.symm h.1), ih h.2]

/-- A text with a separator in it is cut there. -/
theorem splitOn_append (before after : List Char) :
    splitOn sep (before ++ sep :: after) = splitOn sep before ++ splitOn sep after := by
  induction before with
  | nil => simp [splitOn]
  | cons c rest ih =>
    rw [List.cons_append, splitOn, splitOn, ih]
    split
    · rfl
    · cases hs : splitOn sep rest with
      | nil => exact absurd hs (splitOn_ne_nil sep rest)
      | cons piece pieces => rfl

theorem splitOn_joinWith {pieces : List (List Char)} (hne : pieces ≠ [])
    (hpieces : ∀ piece ∈ pieces, sep ∉ piece) : splitOn sep (joinWith sep pieces) = pieces := by
  induction pieces with
  | nil => exact absurd rfl hne
  | cons piece rest ih =>
    have hpiece := hpieces piece List.mem_cons_self
    cases rest with
    | nil => rw [joinWith, splitOn_of_notMem hpiece]
    | cons next rest =>
      rw [joinWith, splitOn_append, splitOn_of_notMem hpiece,
        ih (List.cons_ne_nil _ _) fun other ho => hpieces other (List.mem_cons_of_mem _ ho)]
      rfl

/-- The characters of the pieces are those of the text, without the separator. -/
theorem mem_splitOn {text piece : List Char} (h : piece ∈ splitOn sep text) {c : Char}
    (hc : c ∈ piece) : c ∈ text ∧ c ≠ sep := by
  induction text generalizing piece with
  | nil =>
    rw [splitOn, List.mem_singleton] at h
    rw [h] at hc
    cases hc
  | cons d rest ih =>
    rw [splitOn] at h
    split at h
    · rcases List.mem_cons.mp h with rfl | h
      · cases hc
      · exact (ih h hc).imp_left (List.mem_cons_of_mem _)
    · rename_i hd
      cases hs : splitOn sep rest with
      | nil => exact absurd hs (splitOn_ne_nil sep rest)
      | cons first others =>
        rw [hs] at h ih
        rcases List.mem_cons.mp h with rfl | h
        · rcases List.mem_cons.mp hc with rfl | hc
          · exact ⟨List.mem_cons_self, hd⟩
          · exact (ih List.mem_cons_self hc).imp_left (List.mem_cons_of_mem _)
        · exact (ih (List.mem_cons_of_mem _ h) hc).imp_left (List.mem_cons_of_mem _)

/-! ## Cutting at the first separator -/

theorem cutAt?_of_notMem {text : List Char} (h : sep ∉ text) (rest : List Char) :
    cutAt? sep (text ++ sep :: rest) = some (text, rest) := by
  induction text with
  | nil => exact if_pos rfl
  | cons c text ih =>
    rw [List.mem_cons, not_or] at h
    rw [List.cons_append, cutAt?, if_neg (Ne.symm h.1), ih h.2]
    rfl

theorem cutAt?_eq_none {text : List Char} (h : cutAt? sep text = none) :
    sep ∉ text := by
  induction text with
  | nil => exact List.not_mem_nil
  | cons c rest ih =>
    rw [cutAt?] at h
    split at h
    · cases h
    · rename_i hne
      rw [List.mem_cons, not_or]
      exact ⟨Ne.symm hne, ih (Option.map_eq_none_iff.mp h)⟩

theorem cutAt?_eq_some {text before after : List Char}
    (h : cutAt? sep text = some (before, after)) :
    text = before ++ sep :: after ∧ sep ∉ before := by
  induction text generalizing before with
  | nil => cases h
  | cons c rest ih =>
    rw [cutAt?] at h
    split at h
    · rename_i heq
      cases h
      exact ⟨by rw [heq]; rfl, List.not_mem_nil⟩
    · rename_i hne
      obtain ⟨⟨first, last⟩, hcut, heq⟩ := Option.map_eq_some_iff.mp h
      cases heq
      obtain ⟨hrest, hnot⟩ := ih hcut
      refine ⟨by rw [hrest]; rfl, ?_⟩
      rw [List.mem_cons, not_or]
      exact ⟨Ne.symm hne, hnot⟩

/-- What stands before the first separator is the first piece. -/
theorem head?_splitOn (text : List Char) :
    (splitOn sep text).head? = some (((cutAt? sep text).map Prod.fst).getD text) := by
  cases h : cutAt? sep text with
  | none =>
    rw [splitOn_of_notMem (cutAt?_eq_none h)]
    rfl
  | some parts =>
    obtain ⟨before, after⟩ := parts
    obtain ⟨rfl, hnot⟩ := cutAt?_eq_some h
    rw [splitOn_append, splitOn_of_notMem hnot]
    rfl

/-- A text without the separator goes before the first piece. -/
theorem splitOn_append_of_notMem {front : List Char} (h : sep ∉ front)
    (text : List Char) :
    ∃ first rest, splitOn sep text = first :: rest
      ∧ splitOn sep (front ++ text) = (front ++ first) :: rest := by
  induction front with
  | nil =>
    obtain ⟨first, rest, hsplit⟩ := List.exists_cons_of_ne_nil (splitOn_ne_nil sep text)
    exact ⟨first, rest, hsplit, hsplit⟩
  | cons c front ih =>
    rw [List.mem_cons, not_or] at h
    obtain ⟨first, rest, hsplit, hfront⟩ := ih h.2
    refine ⟨first, rest, hsplit, ?_⟩
    rw [List.cons_append, splitOn, if_neg (Ne.symm h.1), hfront]
    rfl

/-! ## Joined pieces -/

theorem mem_joinWith {pieces : List (List Char)} {c : Char} (h : c ∈ joinWith sep pieces) :
    c = sep ∨ ∃ piece ∈ pieces, c ∈ piece := by
  induction pieces with
  | nil => cases h
  | cons piece rest ih =>
    cases rest with
    | nil => exact Or.inr ⟨piece, List.mem_cons_self, h⟩
    | cons next rest =>
      rw [joinWith, List.mem_append, List.mem_cons] at h
      rcases h with h | h | h
      · exact Or.inr ⟨piece, List.mem_cons_self, h⟩
      · exact Or.inl h
      · refine (ih h).imp_right ?_
        rintro ⟨other, hother, hc⟩
        exact ⟨other, List.mem_cons_of_mem _ hother, hc⟩

theorem joinWith_cons_cons (c : Char) (piece : List Char) (rest : List (List Char)) :
    joinWith sep ((c :: piece) :: rest) = c :: joinWith sep (piece :: rest) := by
  cases rest <;> rfl

theorem joinWith_append {before after : List (List Char)} (hbefore : before ≠ [])
    (hafter : after ≠ []) :
    joinWith sep (before ++ after) = joinWith sep before ++ sep :: joinWith sep after := by
  induction before with
  | nil => exact absurd rfl hbefore
  | cons piece rest ih =>
    cases rest with
    | nil =>
      obtain ⟨first, others, rfl⟩ := List.exists_cons_of_ne_nil hafter
      rfl
    | cons next rest =>
      rw [List.cons_append, List.cons_append, joinWith, joinWith, ← List.cons_append,
        ih (List.cons_ne_nil _ _), List.append_assoc, List.cons_append]

/-- What is added to a joined text is added to its last piece. -/
theorem joinWith_concat_append (before : List (List Char)) (last ending : List Char) :
    joinWith sep (before ++ [last]) ++ ending = joinWith sep (before ++ [last ++ ending]) := by
  by_cases hbefore : before = []
  · rw [hbefore]
    rfl
  · rw [joinWith_append hbefore (List.cons_ne_nil _ _),
      joinWith_append hbefore (List.cons_ne_nil _ _), List.append_assoc]
    rfl

/-- A joined text with a separator behind it is as long as the pieces with one
behind each. -/
theorem length_joinWith {pieces : List (List Char)} (hne : pieces ≠ []) :
    (joinWith sep pieces).length + 1 = (pieces.map (·.length + 1)).sum := by
  induction pieces with
  | nil => exact absurd rfl hne
  | cons piece rest ih =>
    cases rest with
    | nil => rfl
    | cons next rest =>
      rw [joinWith, List.map_cons, List.sum_cons, ← ih (List.cons_ne_nil _ _), List.length_append,
        List.length_cons]
      omega

/-! ## Cutting a text off another one -/

/-- What a head is cut from starts with it. -/
theorem dropHead?_eq_some {head text rest : List Char} (h : dropHead? head text = some rest) :
    text = head ++ rest := by
  induction head generalizing text with
  | nil => exact Option.some.inj (by rw [dropHead?] at h; exact h)
  | cons c head ih =>
    cases text with
    | nil => cases h
    | cons d text =>
      rw [dropHead?] at h
      split at h
      · rename_i heq
        rw [heq, ih h, List.cons_append]
      · cases h

theorem dropHead?_append (front rest : List Char) : dropHead? front (front ++ rest) = some rest := by
  induction front with
  | nil => rw [List.nil_append, dropHead?]
  | cons c front ih => rw [List.cons_append, dropHead?, if_pos rfl, ih]

/-- What a tail is cut from ends with it. -/
theorem dropTail?_append (front tail : List Char) : dropTail? tail (front ++ tail) = some front := by
  rw [dropTail?, List.reverse_append, dropHead?_append, Option.map_some, List.reverse_reverse]

theorem dropTail?_eq_some {tail text front : List Char} (h : dropTail? tail text = some front) :
    text = front ++ tail := by
  rw [dropTail?, Option.map_eq_some_iff] at h
  obtain ⟨rest, hrest, rfl⟩ := h
  rw [← List.reverse_reverse text, dropHead?_eq_some hrest, List.reverse_append,
    List.reverse_reverse]

/-- Joining texts is joining their characters. -/
theorem toList_intercalate (pieces : List String) :
    (intercalate "/" pieces).toList = joinWith '/' (pieces.map String.toList) := by
  induction pieces with
  | nil => rfl
  | cons piece rest ih =>
    cases rest with
    | nil => rfl
    | cons next rest =>
      rw [intercalate, String.toList_append, String.toList_append, ih, List.append_assoc]
      rfl

/-! ## Lines -/

/-- What holds of every single line, and of a line before a text of which it holds, holds
of every text. -/
@[elab_as_elim]
theorem byLines {motive : List Char → Prop} (text : List Char)
    (last : ∀ line, '\n' ∉ line → motive line)
    (ended : ∀ line rest, '\n' ∉ line → motive rest → motive (line ++ '\n' :: rest)) :
    motive text := by
  cases h : cutAt? '\n' text with
  | none => exact last text (cutAt?_eq_none h)
  | some parts =>
    obtain ⟨line, rest⟩ := parts
    obtain ⟨htext, hline⟩ := cutAt?_eq_some h
    have hshorter : rest.length < text.length := by
      rw [htext, List.length_append, List.length_cons]
      omega
    exact htext ▸ ended line rest hline (byLines rest last ended)
termination_by text.length

theorem splitLines_of_notMem {line : List Char} (h : '\n' ∉ line) (hne : line ≠ []) :
    splitLines line = [line] := by
  simp only [splitLines, splitOn_of_notMem h, List.reverse_singleton, if_neg hne, List.map_nil,
    List.reverse_nil, List.nil_append]

/-- The first line comes first. -/
theorem splitLines_append {line : List Char} (h : '\n' ∉ line) (rest : List Char) :
    splitLines (line ++ '\n' :: rest) = withoutCarriageReturn line :: splitLines rest := by
  rw [splitLines, splitLines, splitOn_append, splitOn_of_notMem h, List.reverse_append,
    List.reverse_singleton]
  cases hpieces : (splitOn '\n' rest).reverse with
  | nil => exact absurd (List.reverse_eq_nil_iff.mp hpieces) (splitOn_ne_nil _ _)
  | cons last ended =>
    simp only [List.cons_append, List.map_append, List.map_cons, List.map_nil, List.reverse_append,
      List.reverse_singleton]
    split <;> rfl

/-- A line is what counts of it, with a carriage return behind it at most. -/
theorem withoutCarriageReturn_cases (line : List Char) :
    line = withoutCarriageReturn line ++ ['\r'] ∨ line = withoutCarriageReturn line := by
  unfold withoutCarriageReturn
  split
  · rename_i rest heq
    exact Or.inl (by rw [← List.reverse_reverse line, heq, List.reverse_cons])
  · exact Or.inr rfl

theorem withoutCarriageReturn_concat (line : List Char) :
    withoutCarriageReturn (line ++ ['\r']) = line := by
  rw [withoutCarriageReturn, List.reverse_append, List.reverse_singleton]
  exact List.reverse_reverse line

/-! ## White space around a line -/

theorem trimStart_append {text : List Char} (h : trimStart text ≠ []) (rest : List Char) :
    trimStart (text ++ rest) = trimStart text ++ rest := by
  have hempty : ¬ (text.dropWhile isBlank).isEmpty := fun hnil => h (List.isEmpty_iff.mp hnil)
  rw [trimStart, List.dropWhile_append, if_neg hempty, trimStart]

/-- White space at the end does not count. -/
theorem trim_concat {c : Char} (hc : isBlank c = true) (text : List Char) :
    trim (text ++ [c]) = trim text := by
  by_cases h : trimStart text = []
  · have hblank : trimStart (text ++ [c]) = [] := by
      rw [trimStart, List.dropWhile_append, ← trimStart, h]
      simp [hc]
    rw [trim, trim, hblank, h]
  · rw [trim, trimStart_append h, trimEnd, List.reverse_append, List.reverse_singleton,
      List.singleton_append, List.dropWhile_cons_of_pos hc]
    rfl

theorem trim_withoutCarriageReturn (line : List Char) :
    trim (withoutCarriageReturn line) = trim line := by
  rcases withoutCarriageReturn_cases line with h | h
  · rw [h, withoutCarriageReturn_concat]
    exact (trim_concat (by decide) _).symm
  · rw [← h]

/-- What a text starts with is not lost with the white space at its end. -/
theorem isPrefix_trimEnd_iff {front : List Char} (hfront : ∀ c ∈ front, isBlank c = false)
    (text : List Char) : front <+: trimEnd text ↔ front <+: text := by
  have hkept : (front.reverse).dropWhile isBlank = front.reverse := by
    cases h : front.reverse with
    | nil => rfl
    | cons c rest =>
      have hc : c ∈ front := List.mem_reverse.mp (h ▸ List.mem_cons_self)
      rw [List.dropWhile_cons_of_neg (by simp [hfront c hc])]
  constructor
  · intro h
    have htrim : trimEnd text <+: text := by
      rw [trimEnd, ← List.reverse_suffix, List.reverse_reverse]
      exact List.dropWhile_suffix _
    exact h.trans htrim
  · rintro ⟨back, rfl⟩
    rw [trimEnd, List.reverse_append, List.dropWhile_append]
    split
    · exact ⟨[], by rw [hkept, List.reverse_reverse, List.append_nil]⟩
    · rw [List.reverse_append, List.reverse_reverse]
      exact List.prefix_append _ _

end PackageOrder.Text
