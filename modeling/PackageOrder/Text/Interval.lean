/-
PackageOrder.Text.Interval — sets of code points as intervals in increasing
order that neither overlap nor touch, and a character set in this form.
-/
import PackageOrder.Text.CharSet

namespace PackageOrder.Text

/-- Intervals of code points, each by its first and its last. -/
abbrev Intervals := List (Nat × Nat)

/-- The last code point. -/
def lastCode : Nat := 0x10FFFF

namespace Intervals

/-- The intervals with those that overlap or touch joined, the first one going
on from `first` to `last`; they are in order of their first code points. -/
def joinFrom (first last : Nat) : Intervals → Intervals
  | [] => [(first, last)]
  | (a, b) :: rest =>
    if a ≤ last + 1 then joinFrom first (max last b) rest else (first, last) :: joinFrom a b rest

/-- The code points of intervals in any order. -/
def ofList (intervals : List (Nat × Nat)) : Intervals :=
  match intervals.mergeSort fun i j => i.1 ≤ j.1 with
  | [] => []
  | (first, last) :: rest => joinFrom first last rest

/-- The code points from `next` on that are in none of the intervals. -/
def gapsFrom (next : Nat) : Intervals → Intervals
  | [] => if next ≤ lastCode then [(next, lastCode)] else []
  | (a, b) :: rest =>
    if next < a then (next, a - 1) :: gapsFrom (b + 1) rest else gapsFrom (b + 1) rest

/-- Every other code point. -/
def complement (s : Intervals) : Intervals :=
  gapsFrom 0 s

/-- The code points of both. -/
def union (s t : Intervals) : Intervals :=
  ofList (s ++ t)

/-- The code points that both have. -/
def intersection (s t : Intervals) : Intervals :=
  complement (union (complement s) (complement t))

/-- Whether a code point is in an interval. -/
def has (s : Intervals) (code : Nat) : Bool :=
  s.any fun (a, b) => a ≤ code && code ≤ b

theorem has_append (s t : Intervals) (code : Nat) :
    has (s ++ t) code = (has s code || has t code) := by
  simp [has, List.any_append]

theorem has_joinFrom (first last : Nat) (s : Intervals) (code : Nat) (h : first ≤ last)
    (hs : s.Pairwise fun i j => i.1 ≤ j.1) (hlow : ∀ i ∈ s, first ≤ i.1 ∧ i.1 ≤ i.2) :
    has (joinFrom first last s) code = has ((first, last) :: s) code := by
  induction s generalizing first last with
  | nil => rfl
  | cons i rest ih =>
    obtain ⟨a, b⟩ := i
    have ⟨ha, hab⟩ := hlow (a, b) List.mem_cons_self
    have hrest := (List.pairwise_cons.mp hs).2
    have hfirst := (List.pairwise_cons.mp hs).1
    simp only [joinFrom]
    split
    · rw [ih first (max last b) (by omega) hrest fun j hj =>
        hlow j (List.mem_cons_of_mem _ hj)]
      simp only [has, List.any_cons, ← Bool.or_assoc]
      congr 1
      rw [Bool.eq_iff_iff]
      simp only [Bool.or_eq_true, Bool.and_eq_true, decide_eq_true_eq]
      simp only at ha hab
      omega
    · have := ih a b hab hrest fun j hj =>
        ⟨hfirst j hj, (hlow j (List.mem_cons_of_mem _ hj)).2⟩
      simp only [has, List.any_cons] at this ⊢
      rw [this]

/-! ## Case variants -/

/-- Every code point that folds, with what it folds to. -/
def foldPairs : List (Nat × Nat) :=
  foldSpans.flatMap fun span =>
    (List.range ((span.last - span.first) / span.step + 1)).map fun i =>
      let code := span.first + i * span.step
      (code, code + span.up - span.down)

/-- The intervals with the case variants of their code points. -/
def folded (s : Intervals) : Intervals :=
  let targets := foldPairs.filterMap fun (code, target) =>
    if has s code || has s target then some target else none
  let variants := foldPairs.filterMap fun (code, target) =>
    if targets.contains target then some code else none
  ofList (s ++ (targets ++ variants).map fun code => (code, code))

/-- The intervals with the other case of their ASCII letters. -/
def asciiFolded (s : Intervals) : Intervals :=
  ofList (s ++ (intersection s [(0x41, 0x5A)]).map (fun (a, b) => (a + 32, b + 32))
    ++ (intersection s [(0x61, 0x7A)]).map fun (a, b) => (a - 32, b - 32))

end Intervals

/-- The code points of a span. -/
def Span.intervals (span : Span) : Intervals :=
  if span.step = 1 then [(span.first, span.last)]
  else
    (List.range ((span.last - span.first) / span.step + 1)).map fun i =>
      (span.first + i * span.step, span.first + i * span.step)

/-- The code points of a set. -/
def CharSet.intervals : CharSet → Intervals
  | nothing => []
  | range first last => if first ≤ last then [(first.toNat, last.toNat)] else []
  | table spans => .ofList (spans.flatMap Span.intervals)
  | blank => .ofList (blankSpans.flatMap Span.intervals)
  | word => .ofList (wordSpans.flatMap Span.intervals)
  | union a b => .union a.intervals b.intervals
  | intersection a b => .intersection a.intervals b.intervals
  | difference a b => .intersection a.intervals (.complement b.intervals)
  | complement a => .complement a.intervals
  | folded a => .folded a.intervals
  | asciiFolded a => .asciiFolded a.intervals

end PackageOrder.Text
