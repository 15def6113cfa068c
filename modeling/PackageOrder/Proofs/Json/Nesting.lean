/-
PackageOrder.Proofs.Json.Nesting — how deep values are nested, and what is
known of a value that was read from a text.

* `Form.within_of_toValue` — a value that was read within a limit, and has no
  numbers but integers, is within that limit in every respect: its integers fit
  64 bits, its keys are distinct and it is not nested deeper.
* `Value.within_of_nesting_le`, `Value.toValue_form_eq_none` — of such a value the
  nesting alone decides whether it is read back within another limit.
-/
import PackageOrder.Proofs.Json.RoundTrip
import PackageOrder.Proofs.Lookup

namespace PackageOrder.Json

/-! ## Nesting -/

mutual

/-- How many arrays and objects stand one inside the other in a value. -/
def Value.nesting : Value → Nat
  | .null | .bool _ | .number _ | .string _ => 0
  | .array items => nestingOfItems items + 1
  | .object members => nestingOfMembers members + 1

def nestingOfItems : List Value → Nat
  | [] => 0
  | item :: items => max item.nesting (nestingOfItems items)

def nestingOfMembers : List (String × Value) → Nat
  | [] => 0
  | (_, value) :: members => max value.nesting (nestingOfMembers members)

end

mutual

/-- A value that is within some limit is within any that its nesting keeps. -/
theorem Value.within_of_nesting_le : ∀ {room limit : Nat} {value : Value}, value.Within room →
    value.nesting ≤ limit → value.Within limit
  | _, _, .null, _, _ => by rw [Value.Within]; trivial
  | _, _, .bool _, _, _ => by rw [Value.Within]; trivial
  | _, _, .string _, _, _ => by rw [Value.Within]; trivial
  | _, _, .number _, h, _ => by rw [Value.Within] at h ⊢; exact h
  | 0, _, .array _, h, _ => h.elim
  | 0, _, .object _, h, _ => h.elim
  | _ + 1, 0, .array items, _, hlimit => by
      rw [Value.nesting] at hlimit
      omega
  | _ + 1, 0, .object members, _, hlimit => by
      rw [Value.nesting] at hlimit
      omega
  | _ + 1, _ + 1, .array _, h, hlimit =>
      itemsWithin_of_nesting_le h (Nat.le_of_succ_le_succ hlimit)
  | _ + 1, _ + 1, .object _, h, hlimit =>
      ⟨h.1, membersWithin_of_nesting_le h.2 (Nat.le_of_succ_le_succ hlimit)⟩

theorem itemsWithin_of_nesting_le : ∀ {room limit : Nat} {items : List Value},
    ItemsWithin room items → nestingOfItems items ≤ limit → ItemsWithin limit items
  | _, _, [], _, _ => trivial
  | _, _, _ :: _, h, hlimit =>
      ⟨Value.within_of_nesting_le h.1 (Nat.le_trans (Nat.le_max_left ..) hlimit),
        itemsWithin_of_nesting_le h.2 (Nat.le_trans (Nat.le_max_right ..) hlimit)⟩

theorem membersWithin_of_nesting_le : ∀ {room limit : Nat} {members : List (String × Value)},
    MembersWithin room members → nestingOfMembers members ≤ limit → MembersWithin limit members
  | _, _, [], _, _ => trivial
  | _, _, (_, _) :: _, h, hlimit =>
      ⟨Value.within_of_nesting_le h.1 (Nat.le_trans (Nat.le_max_left ..) hlimit),
        membersWithin_of_nesting_le h.2 (Nat.le_trans (Nat.le_max_right ..) hlimit)⟩

end

mutual

/-- The form of a value is not read within less than its nesting. -/
theorem Value.nesting_le_of_toValue : ∀ {room : Nat} {value read : Value},
    value.form.toValue room = some read → value.nesting ≤ room
  | _, .null, _, _ => Nat.zero_le _
  | _, .bool _, _, _ => Nat.zero_le _
  | _, .number _, _, _ => Nat.zero_le _
  | _, .string _, _, _ => Nat.zero_le _
  | 0, .array items, _, h => by
      rw [Value.form, Form.toValue] at h
      cases h
  | 0, .object members, _, h => by
      rw [Value.form, Form.toValue] at h
      cases h
  | room + 1, .array items, _, h => by
      rw [Value.form, Form.toValue, Option.map_eq_some_iff] at h
      obtain ⟨values, hvalues, _⟩ := h
      exact Nat.succ_le_succ (nestingOfItems_le hvalues)
  | room + 1, .object members, _, h => by
      rw [Value.form, Form.toValue, Option.map_eq_some_iff] at h
      obtain ⟨found, hfound, _⟩ := h
      exact Nat.succ_le_succ (nestingOfMembers_le hfound)

theorem nestingOfItems_le : ∀ {room : Nat} {items values : List Value},
    valuesOf room (itemForms items) = some values → nestingOfItems items ≤ room
  | _, [], _, _ => Nat.zero_le _
  | room, item :: items, _, h => by
      rw [itemForms, valuesOf] at h
      obtain ⟨value, hvalue, h⟩ := Option.bind_eq_some_iff.mp h
      obtain ⟨values, hvalues, _⟩ := Option.bind_eq_some_iff.mp h
      exact Nat.max_le.mpr ⟨Value.nesting_le_of_toValue hvalue, nestingOfItems_le hvalues⟩

theorem nestingOfMembers_le : ∀ {room : Nat} {members : List (String × Value)}
    {found read : Members}, membersOf room found (memberForms members) = some read →
    nestingOfMembers members ≤ room
  | _, [], _, _, _ => Nat.zero_le _
  | room, (key, value) :: members, found, _, h => by
      rw [memberForms, membersOf] at h
      obtain ⟨read, hread, h⟩ := Option.bind_eq_some_iff.mp h
      exact Nat.max_le.mpr ⟨Value.nesting_le_of_toValue hread, nestingOfMembers_le h⟩

end

theorem Value.toValue_form_eq_none {room : Nat} {value : Value} (h : room < value.nesting) :
    value.form.toValue room = none :=
  Option.eq_none_iff_forall_ne_some.mpr fun _ hread =>
    Nat.not_le.mpr h (Value.nesting_le_of_toValue hread)

/-! ## What was read -/

theorem membersWithin_iff {room : Nat} {members : List (String × Value)} :
    MembersWithin room members ↔ ∀ member ∈ members, member.2.Within room := by
  induction members with
  | nil => simp [MembersWithin]
  | cons member members ih =>
    obtain ⟨key, value⟩ := member
    rw [MembersWithin, ih, List.forall_mem_cons]

theorem integralMembers_iff {members : List (String × Value)} :
    IntegralMembers members ↔ ∀ member ∈ members, member.2.Integral := by
  induction members with
  | nil => simp [IntegralMembers]
  | cons member members ih =>
    obtain ⟨key, value⟩ := member
    rw [IntegralMembers, ih, List.forall_mem_cons]

theorem Members.insert_eq_insertPair (members : Members) (key : String) (value : Value) :
    members.insert key value = Decoder.insertPair key value members := by
  induction members with
  | nil => rfl
  | cons entry rest ih => rw [Members.insert, Decoder.insertPair, ih]

theorem Members.mem_insert {members : Members} {key : String} {value : Value}
    {member : String × Value} (h : member ∈ members.insert key value) :
    member = (key, value) ∨ member ∈ members :=
  mem_of_mem_insertPair (members.insert_eq_insertPair key value ▸ h)

theorem Members.nodup_insert {members : Members} (hnodup : (members.map Prod.fst).Nodup)
    (key : String) (value : Value) : ((members.insert key value).map Prod.fst).Nodup := by
  induction members with
  | nil => exact List.nodup_singleton key
  | cons first rest ih =>
    obtain ⟨hnew, hrest⟩ := List.nodup_cons.mp hnodup
    rw [Members.insert]
    split
    · exact List.nodup_cons.mpr ⟨hnew, hrest⟩
    · rename_i hkey
      refine List.nodup_cons.mpr ⟨?_, ih hrest⟩
      intro hmem
      obtain ⟨member, hmember, heq⟩ := List.mem_map.mp hmem
      rcases Members.mem_insert hmember with rfl | hmember
      · exact hkey heq.symm
      · exact hnew (heq ▸ List.mem_map_of_mem hmember)

theorem nodup_membersOf : ∀ {room : Nat} {members : List (String × Form)} {found read : Members},
    membersOf room found members = some read → (found.map Prod.fst).Nodup →
    (read.map Prod.fst).Nodup
  | _, [], _, _, h, hnodup => by
      rw [membersOf] at h
      cases h
      exact hnodup
  | _, (key, _) :: _, _, _, h, hnodup => by
      rw [membersOf] at h
      obtain ⟨value, _, h⟩ := Option.bind_eq_some_iff.mp h
      exact nodup_membersOf h (Members.nodup_insert hnodup key value)

/-- A number that is read as an integer fits 64 bits. -/
theorem NumberText.inRange_of_toNumber {text : NumberText} {n : Number}
    (h : text.toNumber = some n) (hintegral : (Value.number n).Integral) : n.InRange := by
  rw [NumberText.toNumber] at h
  split at h
  · rename_i hnatural
    cases h
    simp only [Bool.and_eq_true, decide_eq_true_eq] at hnatural
    exact hnatural.2
  · split at h
    · rename_i hnegative
      cases h
      simp only [Bool.and_eq_true, decide_eq_true_eq] at hnegative
      exact ⟨hnegative.1.2, hnegative.2⟩
    · obtain ⟨magnitude, _, rfl⟩ := Option.map_eq_some_iff.mp h
      exact hintegral.elim

mutual

/-- **A value that was read within a limit is within it**, if its numbers are
integers. Members that later ones took the place of do not count. -/
theorem Form.within_of_toValue : ∀ {room : Nat} {form : Form} {value : Value},
    form.toValue room = some value → value.Integral → value.Within room
  | _, .null, _, h, _ => by
      rw [Form.toValue] at h
      cases h
      rw [Value.Within]
      trivial
  | _, .bool _, _, h, _ => by
      rw [Form.toValue] at h
      cases h
      rw [Value.Within]
      trivial
  | _, .string _, _, h, _ => by
      rw [Form.toValue] at h
      cases h
      rw [Value.Within]
      trivial
  | _, .number text, _, h, hintegral => by
      rw [Form.toValue] at h
      obtain ⟨n, hn, rfl⟩ := Option.map_eq_some_iff.mp h
      rw [Value.Within]
      exact NumberText.inRange_of_toNumber hn hintegral
  | _, .broken, _, h, _ => by
      rw [Form.toValue] at h
      cases h
  | 0, .array _, _, h, _ => by
      rw [Form.toValue] at h
      cases h
  | 0, .object _, _, h, _ => by
      rw [Form.toValue] at h
      cases h
  | room + 1, .array items, _, h, hintegral => by
      rw [Form.toValue] at h
      obtain ⟨values, hvalues, rfl⟩ := Option.map_eq_some_iff.mp h
      exact itemsWithin_of_valuesOf hvalues hintegral
  | room + 1, .object members, _, h, hintegral => by
      rw [Form.toValue] at h
      obtain ⟨read, hread, rfl⟩ := Option.map_eq_some_iff.mp h
      have hwithin := within_of_membersOf hread fun _ hmem => absurd hmem List.not_mem_nil
      exact ⟨nodup_membersOf hread List.nodup_nil, membersWithin_iff.mpr fun member hmember =>
        hwithin member hmember (integralMembers_iff.mp hintegral member hmember)⟩

theorem itemsWithin_of_valuesOf : ∀ {room : Nat} {items : List Form} {values : List Value},
    valuesOf room items = some values → IntegralItems values → ItemsWithin room values
  | _, [], _, h, _ => by
      rw [valuesOf] at h
      cases h
      trivial
  | _, item :: items, _, h, hintegral => by
      rw [valuesOf] at h
      obtain ⟨value, hvalue, h⟩ := Option.bind_eq_some_iff.mp h
      obtain ⟨values, hvalues, heq⟩ := Option.bind_eq_some_iff.mp h
      cases heq
      exact ⟨Form.within_of_toValue hvalue hintegral.1,
        itemsWithin_of_valuesOf hvalues hintegral.2⟩

theorem within_of_membersOf : ∀ {room : Nat} {members : List (String × Form)}
    {found read : Members}, membersOf room found members = some read →
    (∀ member ∈ found, member.2.Integral → member.2.Within room) →
    ∀ member ∈ read, member.2.Integral → member.2.Within room
  | _, [], _, _, h, hfound => by
      rw [membersOf] at h
      cases h
      exact hfound
  | _, (key, form) :: members, found, _, h, hfound => by
      rw [membersOf] at h
      obtain ⟨value, hvalue, h⟩ := Option.bind_eq_some_iff.mp h
      refine within_of_membersOf h ?_
      intro member hmember
      rcases Members.mem_insert hmember with rfl | hmember
      · exact Form.within_of_toValue hvalue
      · exact hfound member hmember

end

/-- A value that was read from a text is within the limits. -/
theorem within_of_parse? {text : String} {value : Value} (h : parse? text = some value)
    (hintegral : value.Integral) : value.Within nestingLimit := by
  obtain ⟨form, _, hform⟩ := Option.bind_eq_some_iff.mp h
  exact Form.within_of_toValue hform hintegral

end PackageOrder.Json
