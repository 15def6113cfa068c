/-
PackageOrder.Proofs.Json.Reread — what is read after a value was written.

It is the value itself but for its floating-point numbers (`Value.reread`), because a
reader rounds more than once.

* `parse?_indented` — a value that can be read at all (`Value.Readable`) is read so.
* `Value.reread_of_integral` — without such numbers it is the value itself.
* `readable_of_parse?` — whatever was read can be written and read again.
-/
import PackageOrder.Proofs.Json.Indented
import PackageOrder.Proofs.Json.Nesting

namespace PackageOrder.Json

open PackageOrder.Decimal (Canonical)

/-! ## Numbers -/

/-- What is read after a number was written. -/
def Number.reread (n : Number) : Number :=
  n.written.toNumber.getD n

/-- A number that can be read: an integer that fits 64 bits, or a magnitude. -/
def Number.Readable : Number → Prop
  | .natural n => n < Nat.pow 2 64
  | .negative n => 0 < n ∧ n ≤ Nat.pow 2 63
  | .real _ x => Canonical x

theorem NumberText.toDecimal_lt (text : NumberText) : text.toDecimal.1 < 2 ^ 64 := by
  have hwhole := (takeWord_spec (n := 0) (by decide) text.whole).1
  have hfraction := (takeWord_spec hwhole (text.fraction.getD [])).1
  rw [NumberText.toDecimal]
  dsimp only
  split <;> exact hfraction

/-- A number that was read can be read. -/
theorem NumberText.readable_of_toNumber {text : NumberText} {n : Number}
    (h : text.toNumber = some n) : n.Readable := by
  by_cases hintegral : (Value.number n).Integral
  · have hrange := NumberText.inRange_of_toNumber h hintegral
    cases n with
    | natural n => exact hrange
    | negative n => exact hrange
    | real minus x => exact hrange.elim
  · cases n with
    | natural n => exact absurd trivial hintegral
    | negative n => exact absurd trivial hintegral
    | real minus x =>
      rw [NumberText.toNumber] at h
      dsimp only at h
      split at h
      · cases h
      split at h
      · cases h
      · obtain ⟨magnitude, hread, heq⟩ := Option.map_eq_some_iff.mp h
        cases heq
        exact Decimal.canonical_ofDecimal text.toDecimal_lt hread

theorem Number.toNumber_written {n : Number} (h : n.Readable) :
    n.written.toNumber = some n.reread := by
  have hsome : ∃ read, n.written.toNumber = some read := by
    cases n with
    | natural n => exact ⟨_, Number.toNumber_text (n := .natural n) h⟩
    | negative n => exact ⟨_, Number.toNumber_text (n := .negative n) h⟩
    | real minus x =>
      obtain ⟨y, hy, _⟩ := exists_toNumber_realText h minus
      exact ⟨_, hy⟩
  obtain ⟨read, hread⟩ := hsome
  rw [Number.reread, hread, Option.getD_some]

/-! ## Values -/

mutual

/-- What is read after a value was written. -/
def Value.reread : Value → Value
  | .null => .null
  | .bool b => .bool b
  | .number n => .number n.reread
  | .string s => .string s
  | .array items => .array (rereadItems items)
  | .object members => .object (rereadMembers members)

def rereadItems : List Value → List Value
  | [] => []
  | item :: items => item.reread :: rereadItems items

def rereadMembers : List (String × Value) → List (String × Value)
  | [] => []
  | (key, value) :: members => (key, value.reread) :: rereadMembers members

end

mutual

/-- A value that can be read: its numbers can, its keys are distinct, and it is nested
at most `room` levels. -/
def Value.Readable : Nat → Value → Prop
  | _, .null => True
  | _, .bool _ => True
  | _, .string _ => True
  | _, .number n => n.Readable
  | 0, .array _ => False
  | 0, .object _ => False
  | room + 1, .array items => ItemsReadable room items
  | room + 1, .object members => (members.map Prod.fst).Nodup ∧ MembersReadable room members

def ItemsReadable : Nat → List Value → Prop
  | _, [] => True
  | room, item :: items => item.Readable room ∧ ItemsReadable room items

def MembersReadable : Nat → List (String × Value) → Prop
  | _, [] => True
  | room, (_, value) :: members => value.Readable room ∧ MembersReadable room members

end

mutual

/-- The form that a value was written in has what is read for its value. -/
theorem Value.toValue_writtenForm : ∀ {room : Nat} {value : Value}, value.Readable room →
    value.writtenForm.toValue room = some value.reread
  | _, .null, _ => rfl
  | _, .bool _, _ => rfl
  | _, .string _, _ => rfl
  | _, .number n, h => by
      rw [Value.Readable] at h
      rw [Value.writtenForm, Form.toValue, Number.toNumber_written h]
      rfl
  | 0, .array _, h => h.elim
  | 0, .object _, h => h.elim
  | room + 1, .array items, h => by
      rw [Value.writtenForm, Form.toValue, valuesOf_writtenItems h]
      rfl
  | room + 1, .object members, h => by
      rw [Value.writtenForm, Form.toValue, membersOf_writtenMembers [] h.1 h.2]
      rfl

theorem valuesOf_writtenItems : ∀ {room : Nat} {items : List Value}, ItemsReadable room items →
    valuesOf room (writtenItems items) = some (rereadItems items)
  | _, [], _ => rfl
  | room, item :: items, h => by
      rw [writtenItems, valuesOf, Value.toValue_writtenForm h.1, valuesOf_writtenItems h.2]
      rfl

theorem membersOf_writtenMembers : ∀ {room : Nat} {members : List (String × Value)}
    (found : Members), ((found ++ members).map Prod.fst).Nodup → MembersReadable room members →
    membersOf room found (writtenMembers members) = some (found ++ rereadMembers members)
  | _, [], found, _, _ => by
      rw [writtenMembers, membersOf, rereadMembers, List.append_nil]
  | room, (key, value) :: members, found, hnodup, h => by
      have hnew := Members.notMem_of_nodup hnodup
      have hkeys : ((found ++ [(key, value.reread)] ++ members).map Prod.fst).Nodup := by
        simpa using hnodup
      rw [writtenMembers, membersOf, Value.toValue_writtenForm h.1]
      change membersOf room (found.insert key value.reread) (writtenMembers members) = _
      rw [Members.insert_of_notMem value.reread hnew, membersOf_writtenMembers _ hkeys h.2,
        List.append_assoc, List.singleton_append]
      rfl

end

/-- **What was written is read again**, but for its floating-point numbers. -/
theorem parse?_indented {value : Value} (h : value.Readable nestingLimit) :
    parse? (value.indented ++ "\n") = some value.reread := by
  rw [parse?, readForm?_indented]
  exact Value.toValue_writtenForm h

/-- An integer is read as it was written. -/
theorem Number.reread_of_integral {n : Number} (h : n.Readable)
    (hintegral : (Value.number n).Integral) : n.reread = n := by
  have hread : n.written.toNumber = some n := by
    cases n with
    | natural n => exact Number.toNumber_text (n := .natural n) h
    | negative n => exact Number.toNumber_text (n := .negative n) h
    | real minus x => exact hintegral.elim
  rw [Number.reread, hread, Option.getD_some]

mutual

/-- **A value without floating-point numbers is read as it was written.** -/
theorem Value.reread_of_integral : ∀ {room : Nat} {value : Value}, value.Readable room →
    value.Integral → value.reread = value
  | _, .null, _, _ => rfl
  | _, .bool _, _, _ => rfl
  | _, .string _, _, _ => rfl
  | _, .number n, h, hintegral => by
      rw [Value.Readable] at h
      rw [Value.reread, Number.reread_of_integral h hintegral]
  | 0, .array _, h, _ => h.elim
  | 0, .object _, h, _ => h.elim
  | _ + 1, .array _, h, hintegral => congrArg Value.array (rereadItems_of_integral h hintegral)
  | _ + 1, .object _, h, hintegral =>
      congrArg Value.object (rereadMembers_of_integral h.2 hintegral)

theorem rereadItems_of_integral : ∀ {room : Nat} {items : List Value}, ItemsReadable room items →
    IntegralItems items → rereadItems items = items
  | _, [], _, _ => rfl
  | _, _ :: _, h, hintegral => by
      rw [rereadItems, Value.reread_of_integral h.1 hintegral.1,
        rereadItems_of_integral h.2 hintegral.2]

theorem rereadMembers_of_integral : ∀ {room : Nat} {members : List (String × Value)},
    MembersReadable room members → IntegralMembers members → rereadMembers members = members
  | _, [], _, _ => rfl
  | _, (_, _) :: _, h, hintegral => by
      rw [rereadMembers, Value.reread_of_integral h.1 hintegral.1,
        rereadMembers_of_integral h.2 hintegral.2]

end

/-! ## What was read -/

theorem membersReadable_iff {room : Nat} {members : List (String × Value)} :
    MembersReadable room members ↔ ∀ member ∈ members, member.2.Readable room := by
  induction members with
  | nil => simp [MembersReadable]
  | cons member members ih =>
    obtain ⟨key, value⟩ := member
    rw [MembersReadable, ih, List.forall_mem_cons]

mutual

/-- **A value that was read can be read again.** -/
theorem Form.readable_of_toValue : ∀ {room : Nat} {form : Form} {value : Value},
    form.toValue room = some value → value.Readable room
  | _, .null, _, h => by
      rw [Form.toValue] at h
      cases h
      rw [Value.Readable]
      trivial
  | _, .bool _, _, h => by
      rw [Form.toValue] at h
      cases h
      rw [Value.Readable]
      trivial
  | _, .string _, _, h => by
      rw [Form.toValue] at h
      cases h
      rw [Value.Readable]
      trivial
  | _, .number text, _, h => by
      rw [Form.toValue] at h
      obtain ⟨n, hn, rfl⟩ := Option.map_eq_some_iff.mp h
      rw [Value.Readable]
      exact NumberText.readable_of_toNumber hn
  | _, .broken, _, h => by
      rw [Form.toValue] at h
      cases h
  | 0, .array _, _, h => by
      rw [Form.toValue] at h
      cases h
  | 0, .object _, _, h => by
      rw [Form.toValue] at h
      cases h
  | room + 1, .array items, _, h => by
      rw [Form.toValue] at h
      obtain ⟨values, hvalues, rfl⟩ := Option.map_eq_some_iff.mp h
      exact itemsReadable_of_valuesOf hvalues
  | room + 1, .object members, _, h => by
      rw [Form.toValue] at h
      obtain ⟨read, hread, rfl⟩ := Option.map_eq_some_iff.mp h
      exact ⟨nodup_membersOf hread List.nodup_nil, membersReadable_iff.mpr
        (readable_of_membersOf hread fun _ hmem => absurd hmem List.not_mem_nil)⟩

theorem itemsReadable_of_valuesOf : ∀ {room : Nat} {items : List Form} {values : List Value},
    valuesOf room items = some values → ItemsReadable room values
  | _, [], _, h => by
      rw [valuesOf] at h
      cases h
      trivial
  | _, item :: items, _, h => by
      rw [valuesOf] at h
      obtain ⟨value, hvalue, h⟩ := Option.bind_eq_some_iff.mp h
      obtain ⟨values, hvalues, heq⟩ := Option.bind_eq_some_iff.mp h
      cases heq
      exact ⟨Form.readable_of_toValue hvalue, itemsReadable_of_valuesOf hvalues⟩

theorem readable_of_membersOf : ∀ {room : Nat} {members : List (String × Form)}
    {found read : Members}, membersOf room found members = some read →
    (∀ member ∈ found, member.2.Readable room) → ∀ member ∈ read, member.2.Readable room
  | _, [], _, _, h, hfound => by
      rw [membersOf] at h
      cases h
      exact hfound
  | _, (key, form) :: members, found, _, h, hfound => by
      rw [membersOf] at h
      obtain ⟨value, hvalue, h⟩ := Option.bind_eq_some_iff.mp h
      refine readable_of_membersOf h ?_
      intro member hmember
      rcases Members.mem_insert hmember with rfl | hmember
      · exact Form.readable_of_toValue hvalue
      · exact hfound member hmember

end

theorem readable_of_parse? {text : String} {value : Value} (h : parse? text = some value) :
    value.Readable nestingLimit := by
  obtain ⟨form, _, hform⟩ := Option.bind_eq_some_iff.mp h
  exact Form.readable_of_toValue hform

/-! ## Members -/

/-- The value of a key is read like any other. -/
theorem Members.get?_reread (members : Members) (key : String) :
    Members.get? (rereadMembers members) key = (members.get? key).map Value.reread := by
  induction members with
  | nil => rfl
  | cons member members ih =>
    obtain ⟨name, value⟩ := member
    unfold Members.get? at ih ⊢
    rw [rereadMembers, List.lookup_cons, List.lookup_cons, ih]
    cases key == name <;> rfl

@[simp] theorem Value.string?_reread (value : Value) : value.reread.string? = value.string? := by
  cases value <;> rfl

theorem Value.object?_reread (value : Value) :
    value.reread.object? = value.object?.map rereadMembers := by
  cases value <;> rfl

theorem Value.get?_reread (value : Value) (key : String) :
    value.reread.get? key = (value.get? key).map Value.reread := by
  rw [Value.get?, Value.get?, Value.object?_reread]
  cases value.object? with
  | none => rfl
  | some members => exact Members.get?_reread members key

/-- An object stays without floating-point numbers if it is given a value without. -/
theorem Value.integral_insert {members : Members} (h : (Value.object members).Integral)
    (key : String) {value : Value} (hvalue : value.Integral) :
    (Value.object (members.insert key value)).Integral := by
  refine integralMembers_iff.mpr fun member hmember => ?_
  rcases Members.mem_insert hmember with rfl | hmember
  · exact hvalue
  · exact integralMembers_iff.mp h member hmember

theorem Value.integral_of_get? {members : Members} (h : (Value.object members).Integral)
    {key : String} {value : Value} (hvalue : members.get? key = some value) : value.Integral := by
  obtain ⟨before, after, rfl, _⟩ := List.lookup_eq_some_iff.mp hvalue
  exact integralMembers_iff.mp h (key, value) (List.mem_append_right _ List.mem_cons_self)

/-- A member that can be read keeps an object so. -/
theorem Value.readable_insert {room : Nat} {members : Members}
    (h : (Value.object members).Readable (room + 1)) (key : String) {value : Value}
    (hvalue : value.Readable room) : (Value.object (members.insert key value)).Readable (room + 1) := by
  refine ⟨Members.nodup_insert h.1 key value, membersReadable_iff.mpr fun member hmember => ?_⟩
  rcases Members.mem_insert hmember with rfl | hmember
  · exact hvalue
  · exact membersReadable_iff.mp h.2 member hmember

theorem Value.readable_of_get? {room : Nat} {members : Members}
    (h : (Value.object members).Readable (room + 1)) {key : String} {value : Value}
    (hvalue : members.get? key = some value) : value.Readable room := by
  obtain ⟨before, after, rfl, _⟩ := List.lookup_eq_some_iff.mp hvalue
  exact membersReadable_iff.mp h.2 (key, value)
    (List.mem_append_right _ List.mem_cons_self)

end PackageOrder.Json
