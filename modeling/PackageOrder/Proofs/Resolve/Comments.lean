/-
PackageOrder.Proofs.Resolve.Comments — lines of comments leave no trace in a value.

`Commented` puts lines of comments between the lines of a text. They are dropped again
(`StartsComment` is what `isCommentLine` looks for), and the lines that are left make up the
text, with its line breaks written in one way (`relaid_stripComments`): no line of a text
with a value looks like one of a comment. So the value is what it was
(`parse?_stripComments`).
-/
import PackageOrder.Resolve.TsConfig
import PackageOrder.Proofs.Json.Layout
import PackageOrder.Proofs.Text.Split

namespace PackageOrder

open PackageOrder.Text
open PackageOrder.Json (Relaid Unmarked UnmarkedUntil Value)

/-! ## Lines of comments -/

/-- The ways in which a line of a comment starts. -/
def commentMarks : List (List Char) :=
  ["//".toList, "/*".toList, "*".toList]

/-- A line that starts as one of a comment, white space before it set aside. -/
def StartsComment (line : List Char) : Prop :=
  ∃ mark ∈ commentMarks, mark <+: trimStart line

theorem isCommentLine_iff_trim {line : List Char} :
    isCommentLine line = true ↔ ∃ mark ∈ commentMarks, mark <+: trim line := by
  constructor
  · intro h
    rw [isCommentLine] at h
    split at h
    · rename_i rest heq
      exact ⟨"//".toList, by decide, rest, heq.symm⟩
    · rename_i rest heq
      exact ⟨"/*".toList, by decide, rest, heq.symm⟩
    · rename_i rest heq
      exact ⟨"*".toList, by decide, rest, heq.symm⟩
    · cases h
  · rintro ⟨mark, hmark, rest, heq⟩
    simp only [commentMarks, List.mem_cons, List.not_mem_nil, or_false] at hmark
    rw [isCommentLine, ← heq]
    rcases hmark with rfl | rfl | rfl <;> rfl

theorem isBlank_of_mem_commentMarks {mark : List Char} (h : mark ∈ commentMarks) :
    ∀ c ∈ mark, isBlank c = false := by
  have hall : commentMarks.all (·.all (!isBlank ·)) = true := by decide
  simpa using List.all_eq_true.mp hall mark h

/-- White space behind a line does not matter for how it starts. -/
theorem isCommentLine_iff {line : List Char} : isCommentLine line = true ↔ StartsComment line :=
  isCommentLine_iff_trim.trans <| exists_congr fun _ => and_congr_right fun hmark =>
    isPrefix_trimEnd_iff (isBlank_of_mem_commentMarks hmark) _

theorem isCommentLine_withoutCarriageReturn (line : List Char) :
    isCommentLine (withoutCarriageReturn line) = isCommentLine line := by
  rw [isCommentLine, isCommentLine, trim_withoutCarriageReturn]

/-- An unmarked text starts with no line of a comment. -/
theorem isCommentLine_of_unmarked {line rest : List Char} (h : Unmarked (line ++ rest)) :
    isCommentLine line = false := by
  rw [Bool.eq_false_iff]
  intro hcomment
  obtain ⟨mark, hmark, back, hstart⟩ := isCommentLine_iff.mp hcomment
  have hfirst : ∃ c ∈ mark.head?, c = '/' ∨ c = '*' := by
    simp only [commentMarks, List.mem_cons, List.not_mem_nil, or_false] at hmark
    rcases hmark with rfl | rfl | rfl
    · exact ⟨'/', rfl, Or.inl rfl⟩
    · exact ⟨'/', rfl, Or.inl rfl⟩
    · exact ⟨'*', rfl, Or.inr rfl⟩
  obtain ⟨c, hc, hslash⟩ := hfirst
  have hne : trimStart line ≠ [] := by
    rintro hnil
    rw [hnil, List.append_eq_nil_iff] at hstart
    rw [hstart.1] at hc
    cases hc
  have hhead : c ∈ (trimStart (line ++ rest)).head? := by
    rw [trimStart_append hne, ← hstart, List.append_assoc, List.head?_append, hc]
    rfl
  rcases hslash with rfl | rfl
  · exact (h _ hhead).1 rfl
  · exact (h _ hhead).2 rfl

/-! ## Texts with lines of comments -/

/-- A text, and the same with any number of lines of comments between its lines, before the
first and behind the last one. A line ends at a line break, which a carriage return may
precede; the last line may lack its end, and gets one where a comment follows. -/
inductive Commented : List Char → List Char → Prop
  | last {line : List Char} : '\n' ∉ line → Commented line line
  | line {line text commented : List Char} : '\n' ∉ line → Commented text commented →
      Commented (line ++ '\n' :: text) (line ++ '\n' :: commented)
  | ended {line ending commented : List Char} : '\n' ∉ line → line ≠ [] →
      ending ∈ ["\n".toList, "\r\n".toList] → Commented [] commented →
      Commented line (line ++ ending ++ commented)
  | comment {line text commented : List Char} : '\n' ∉ line → StartsComment line →
      Commented text commented → Commented text (line ++ '\n' :: commented)
  | lastComment {line : List Char} : '\n' ∉ line → StartsComment line → Commented [] line

/-- A text has no comments put in it, if none are wanted. -/
theorem Commented.refl (text : List Char) : Commented text text := by
  induction text using byLines with
  | last line hline => exact .last hline
  | ended line rest hline ih => exact .line hline ih

/-- What is left without lines of comments. -/
def uncommented (text : List Char) : List Char :=
  ((splitLines text).filter (!isCommentLine ·)).flatMap (· ++ ['\n'])

theorem toList_stripComments (text : String) :
    (stripComments text).toList = uncommented text.toList :=
  String.toList_ofList

theorem uncommented_comment {line : List Char} (hline : '\n' ∉ line) (h : StartsComment line)
    (rest : List Char) : uncommented (line ++ '\n' :: rest) = uncommented rest := by
  have hcomment : isCommentLine (withoutCarriageReturn line) = true := by
    rw [isCommentLine_withoutCarriageReturn]
    exact isCommentLine_iff.mpr h
  rw [uncommented, splitLines_append hline, List.filter_cons_of_neg (by simp [hcomment]), uncommented]

theorem uncommented_lastComment {line : List Char} (hline : '\n' ∉ line) (h : StartsComment line) :
    uncommented line = [] := by
  by_cases hne : line = []
  · rw [hne]
    rfl
  · rw [uncommented, splitLines_of_notMem hline hne,
      List.filter_cons_of_neg (by simp [isCommentLine_iff.mpr h])]
    rfl

theorem uncommented_line {line : List Char} (hline : '\n' ∉ line)
    (h : isCommentLine line = false) (rest : List Char) :
    uncommented (line ++ '\n' :: rest) = withoutCarriageReturn line ++ '\n' :: uncommented rest := by
  have hkeep : isCommentLine (withoutCarriageReturn line) = false := by
    rw [isCommentLine_withoutCarriageReturn, h]
  rw [uncommented, splitLines_append hline, List.filter_cons_of_pos (by simp [hkeep]),
    List.flatMap_cons, List.append_assoc, List.singleton_append, uncommented]

theorem uncommented_lastLine {line : List Char} (hline : '\n' ∉ line)
    (h : isCommentLine line = false) (hne : line ≠ []) : uncommented line = line ++ ['\n'] := by
  rw [uncommented, splitLines_of_notMem hline hne, List.filter_cons_of_pos (by simp [h])]
  exact List.append_nil _

/-- Nothing but lines of comments is nothing. -/
theorem Commented.uncommented_nil {commented : List Char} (h : Commented [] commented) :
    uncommented commented = [] := by
  generalize htext : ([] : List Char) = text at h
  induction h with
  | last _ =>
    rw [← htext]
    rfl
  | line _ _ _ => exact absurd htext.symm (by simp)
  | ended _ hne _ _ _ => exact absurd htext.symm hne
  | comment hline hstarts _ ih => rw [uncommented_comment hline hstarts, ih htext]
  | lastComment hline hstarts => exact uncommented_lastComment hline hstarts

theorem relaid_line (line : List Char) {rest behind : List Char} (h : Relaid rest behind) :
    Relaid (line ++ '\n' :: rest) (withoutCarriageReturn line ++ '\n' :: behind) := by
  rcases withoutCarriageReturn_cases line with heq | heq
  · have hline : line ++ '\n' :: rest = withoutCarriageReturn line ++ '\r' :: '\n' :: rest := by
      conv_lhs => rw [heq, List.append_assoc, List.singleton_append]
    rw [hline]
    exact (Relaid.lineBreak h).append _
  · rw [← heq]
    exact (Relaid.char '\n' h).append _

theorem relaid_ended (line : List Char) : Relaid line (line ++ ['\n']) := by
  have h := Relaid.ended.append line
  rwa [List.append_nil] at h

theorem relaid_lastLine (line : List Char) :
    Relaid line (withoutCarriageReturn line ++ ['\n']) := by
  rcases withoutCarriageReturn_cases line with heq | heq
  · have h := Relaid.returned.append (withoutCarriageReturn line)
    rwa [← heq] at h
  · rw [← heq]
    exact relaid_ended line

/-- **Without its lines of comments a text is what it was before**, but for the way in which
its lines end, if no line of it looks like one of a comment. -/
theorem Commented.relaid {text commented : List Char} (h : Commented text commented)
    (hstart : Unmarked text) (hlines : UnmarkedUntil text []) :
    Relaid text (uncommented commented) := by
  induction h with
  | @last line hline =>
    by_cases hne : line = []
    · rw [hne]
      exact .nil
    · have hkeep := isCommentLine_of_unmarked ((List.append_nil line).symm ▸ hstart)
      rw [uncommented_lastLine hline hkeep hne]
      exact relaid_ended line
  | @line line text commented hline _ ih =>
    rw [uncommented_line hline (isCommentLine_of_unmarked hstart)]
    obtain ⟨hstart', hlines'⟩ := hlines.behind
    exact relaid_line line (ih hstart' hlines')
  | @ended line ending commented hline hne hending hcomments _ =>
    have hkeep := isCommentLine_of_unmarked ((List.append_nil line).symm ▸ hstart)
    simp only [List.mem_cons, List.not_mem_nil, or_false] at hending
    rcases hending with rfl | rfl
    · have htext : line ++ "\n".toList ++ commented = line ++ '\n' :: commented :=
        List.append_assoc _ _ _
      rw [htext, uncommented_line hline hkeep, hcomments.uncommented_nil]
      exact relaid_lastLine line
    · have htext : line ++ "\r\n".toList ++ commented = line ++ ['\r'] ++ '\n' :: commented := by
        rw [List.append_assoc, List.append_assoc]
        rfl
      have hkeep' : isCommentLine (line ++ ['\r']) = false := by
        rw [← isCommentLine_withoutCarriageReturn, withoutCarriageReturn_concat, hkeep]
      rw [htext, uncommented_line (by simp [hline]) hkeep', hcomments.uncommented_nil,
        withoutCarriageReturn_concat]
      exact relaid_ended line
  | comment hline hstarts _ ih =>
    rw [uncommented_comment hline hstarts]
    exact ih hstart hlines
  | lastComment hline hstarts =>
    rw [uncommented_lastComment hline hstarts]
    exact .nil

/-- **Dropping lines of comments does not change the value of a text**, neither of one
without them nor of one into which they have been put. -/
theorem parse?_stripComments {text : String} {value : Value}
    (hvalue : Json.parse? text = some value) :
    Json.parse? (stripComments text) = some value
      ∧ ∀ commented : String, Commented text.toList commented.toList →
        Json.parse? (stripComments commented) = some value := by
  have hall : ∀ commented : String, Commented text.toList commented.toList →
      Json.parse? (stripComments commented) = some value := by
    intro commented h
    obtain ⟨hstart, hlines⟩ := Json.unmarked_of_parse? hvalue
    refine Json.parse?_relaid ?_ hvalue
    rw [toList_stripComments]
    exact h.relaid hstart hlines
  exact ⟨hall text (.refl _), hall⟩

theorem parse?_stripComments_object :
    Json.parse? "\x7b\"a\":\r\n \"// b\"\x7d" = some (.object [("a", .string "// b")])
      ∧ Json.parse? (stripComments "/* one\n\x7b\"a\":\r\n\t// two\r\n \"// b\"\x7d\n * three")
        = some (.object [("a", .string "// b")]) := by
  have hkey : Json.readString? "a\":\r\n \"// b\"\x7d".toList
      = some (some "a", ":\r\n \"// b\"\x7d".toList) := by
    decide +kernel
  have hstring : Json.readString? "// b\"\x7d".toList = some (some "// b", "\x7d".toList) := by
    decide +kernel
  have hmembers : Json.Reads "\"a\":\r\n \"// b\"\x7d".toList
      (.members [(some "a", .string "// b")]) [] :=
    .lastMember (by decide +kernel : _ = '"' :: "a\":\r\n \"// b\"\x7d".toList) hkey
      (by decide +kernel : _ = ':' :: "\r\n \"// b\"\x7d".toList)
      (.string (by decide +kernel : _ = '"' :: "// b\"\x7d".toList) hstring) (by decide +kernel)
  have hobject : Json.Reads "\x7b\"a\":\r\n \"// b\"\x7d".toList
      (.value (.object [("a", .string "// b")])) [] :=
    .object (by decide +kernel : _ = '\x7b' :: "\"a\":\r\n \"// b\"\x7d".toList) hmembers
  have hvalue : Json.parse? "\x7b\"a\":\r\n \"// b\"\x7d"
      = some (.object [("a", .string "// b")]) := by
    rw [Json.parse?, Json.readForm?_eq_some_iff.mpr ⟨[], hobject, rfl⟩]
    rfl
  have hplain : "\x7b\"a\":\r\n \"// b\"\x7d".toList
      = "\x7b\"a\":\r".toList ++ '\n' :: " \"// b\"\x7d".toList := by
    decide +kernel
  have hall : "/* one\n\x7b\"a\":\r\n\t// two\r\n \"// b\"\x7d\n * three".toList
      = "/* one".toList ++ '\n' :: ("\x7b\"a\":\r".toList ++ '\n' :: ("\t// two\r".toList
        ++ '\n' :: (" \"// b\"\x7d".toList ++ "\n".toList ++ " * three".toList))) := by
    decide +kernel
  refine ⟨hvalue, (parse?_stripComments hvalue).2 _ ?_⟩
  rw [hplain, hall]
  refine .comment (by decide) ⟨"/*".toList, by decide, by decide⟩ (.line (by decide) ?_)
  refine .comment (by decide) ⟨"//".toList, by decide, by decide⟩ ?_
  refine .ended (by decide) (by decide) (by decide) ?_
  exact .lastComment (by decide) ⟨"*".toList, by decide, by decide⟩

end PackageOrder
