/-
PackageOrder.Proofs.Json.RoundTrip — reading undoes writing without blanks.

* `readForm?_compact` — a value whose numbers are integers (`Value.Integral`) is
  read in the form that it was written in. The reader is given two steps for each
  character, which is what it has for a whole text.
* `parse?_compact` — within the limits (`Value.Within`) it is read as that value.
* `fields?_form`, `Fields.required_form` — written with all of its fields, the object of
  a record gives each of them in its own form, one level further down.
-/
import Mathlib.Data.List.Nodup
import PackageOrder.Json.Decode
import PackageOrder.Proofs.Json.Scalar

namespace PackageOrder.Json

/-- The text of a number that is an integer. -/
def Number.text : Number → NumberText
  | .natural n => ⟨false, decimalDigits n, none, none⟩
  | .negative n => ⟨true, decimalDigits n, none, none⟩
  | .real minus _ => ⟨minus, [], none, none⟩

mutual

/-- Every number of a value is an integer. -/
def Value.Integral : Value → Prop
  | .null | .bool _ | .string _ => True
  | .number (.real _ _) => False
  | .number _ => True
  | .array items => IntegralItems items
  | .object members => IntegralMembers members

def IntegralItems : List Value → Prop
  | [] => True
  | item :: items => item.Integral ∧ IntegralItems items

def IntegralMembers : List (String × Value) → Prop
  | [] => True
  | (_, value) :: members => value.Integral ∧ IntegralMembers members

end

mutual

/-- The form in which a value is written. -/
def Value.form : Value → Form
  | .null => .null
  | .bool b => .bool b
  | .number n => .number n.text
  | .string s => .string s
  | .array items => .array (itemForms items)
  | .object members => .object (memberForms members)

def itemForms : List Value → List Form
  | [] => []
  | item :: items => item.form :: itemForms items

def memberForms : List (String × Value) → List (String × Form)
  | [] => []
  | (key, value) :: members => (key, value.form) :: memberForms members

end

/-- What a value may begin with: neither a blank nor a mark that ends or parts
values. -/
def BeginsValue (text : List Char) : Prop :=
  ∃ c rest, text = c :: rest ∧ isJsonBlank c = false ∧ c ≠ ']' ∧ c ≠ '\x7d'

theorem beginsValue_mark {c : Char} (h : isJsonBlank c = false ∧ c ≠ ']' ∧ c ≠ '\x7d')
    (rest : List Char) : BeginsValue (c :: rest) :=
  ⟨c, rest, rfl, h⟩

theorem beginsValue_digit {d : Nat} (hd : d < 10) (rest : List Char) :
    BeginsValue (d.digitChar :: rest) := by
  have hmarks : ∀ d < 10, isJsonBlank d.digitChar = false ∧ d.digitChar ≠ ']'
      ∧ d.digitChar ≠ '\x7d' := by decide
  exact beginsValue_mark (hmarks d hd) rest

theorem BeginsValue.append {text : List Char} (h : BeginsValue text) (rest : List Char) :
    BeginsValue (text ++ rest) := by
  obtain ⟨c, front, rfl, hc⟩ := h
  exact ⟨c, front ++ rest, rfl, hc⟩

theorem BeginsValue.skipBlanks {text : List Char} (h : BeginsValue text) :
    skipBlanks text = text := by
  obtain ⟨c, front, rfl, hblank, _⟩ := h
  rw [Json.skipBlanks, hblank]
  rfl

theorem beginsValue_natChars (n : Nat) : BeginsValue (natChars n) := by
  obtain ⟨d, rest, heq, _⟩ := decimalDigits_eq_cons n
  rw [natChars_eq, heq]
  exact beginsValue_digit (decimalDigits_lt n d (by simp [heq])) _

theorem beginsValue_compactChars (value : Value) (h : value.Integral) :
    BeginsValue value.compactChars := by
  rcases value with _ | b | n | s | items | members
  · exact beginsValue_mark (by decide) _
  · cases b <;> exact beginsValue_mark (by decide) _
  · cases n with
    | natural n => exact beginsValue_natChars n
    | negative n => exact beginsValue_mark (by decide) _
    | real minus magnitude => exact h.elim
  · exact beginsValue_mark (by decide) _
  · exact beginsValue_mark (by decide) _
  · exact beginsValue_mark (by decide) _

theorem readValue?_natChars (n : Nat) (steps : Nat) {text : List Char} (htext : EndsNumber text) :
    readValue? (steps + 1) (natChars n ++ text)
      = some (.number ⟨false, decimalDigits n, none, none⟩, text) := by
  have hnumber := readNumber?_natChars false n htext
  rw [readValue?, ((beginsValue_natChars n).append text).skipBlanks]
  obtain ⟨d, rest, heq, _⟩ := decimalDigits_eq_cons n
  have hd : d < 10 := decimalDigits_lt n d (by simp [heq])
  have hmarks : ∀ d < 10, d.digitChar ≠ 'n' ∧ d.digitChar ≠ 't' ∧ d.digitChar ≠ 'f'
      ∧ d.digitChar ≠ '"' ∧ d.digitChar ≠ '-' ∧ d.digitChar ≠ '[' ∧ d.digitChar ≠ '\x7b' := by
    decide
  obtain ⟨h1, h2, h3, h4, h5, h6, h7⟩ := hmarks d hd
  rw [natChars_eq, heq, List.map_cons, List.cons_append] at hnumber ⊢
  generalize d.digitChar = c at h1 h2 h3 h4 h5 h6 h7 hnumber ⊢
  split
  · rename_i h
    exact absurd (List.cons.inj h).1 h1
  · rename_i h
    exact absurd (List.cons.inj h).1 h2
  · rename_i h
    exact absurd (List.cons.inj h).1 h3
  · rename_i h
    exact absurd (List.cons.inj h).1 h4
  · rename_i h
    exact absurd (List.cons.inj h).1 h5
  · rename_i h
    exact absurd (List.cons.inj h).1 h6
  · rename_i h
    exact absurd (List.cons.inj h).1 h7
  · rw [hnumber]
    rfl

theorem beginsValue_itemsChars (item : Value) (items : List Value) (h : item.Integral) :
    BeginsValue (itemsChars (item :: items)) := by
  cases items with
  | nil => exact beginsValue_compactChars item h
  | cons next items => exact (beginsValue_compactChars item h).append _

theorem beginsValue_membersChars (key : String) (value : Value)
    (members : List (String × Value)) : BeginsValue (membersChars ((key, value) :: members)) := by
  cases members with
  | nil => exact ⟨'"', _, rfl, by decide⟩
  | cons next members => exact ⟨'"', _, rfl, by decide⟩

/-- A string is read where a value may stand. -/
theorem readValue?_stringChars (s : String) (steps : Nat) (text : List Char) :
    readValue? (steps + 1) (stringChars s ++ text) = some (.string s, text) := by
  have hread := readString?_escaped s text
  rw [stringChars, List.cons_append, List.cons_append, List.append_assoc, List.singleton_append,
    readValue?]
  change Option.map _ (readString? _) = _
  rw [hread]
  rfl

theorem readItems?_close {steps : Nat} {text behind rest : List Char} {form : Form}
    (h : readValue? steps text = some (form, behind)) (hclose : skipBlanks behind = ']' :: rest) :
    readItems? (steps + 1) text = some ([form], rest) := by
  rw [readItems?, h, Option.bind_eq_bind, Option.bind_some]
  dsimp only
  rw [hclose]
  rfl

theorem readItems?_more {steps : Nat} {text middle rest : List Char} {form : Form}
    {forms : List Form} (h : readValue? steps text = some (form, ',' :: middle))
    (hmore : readItems? steps middle = some (forms, rest)) :
    readItems? (steps + 1) text = some (form :: forms, rest) := by
  rw [readItems?, h]
  change Option.bind (readItems? steps middle) _ = _
  rw [hmore]
  rfl

/-- Behind a key and its colon a value is read, and what separates it from the next member or
ends the object. -/
theorem readMembers?_behindKey (steps : Nat) (key : String) (text : List Char) :
    readMembers? (steps + 1) (stringChars key ++ ':' :: text) = (do
      let (form, behind) ← readValue? steps text
      match skipBlanks behind with
      | ',' :: middle =>
        let (members, rest) ← readMembers? steps middle
        some ((some key, form) :: members, rest)
      | '\x7d' :: rest => some ([(some key, form)], rest)
      | _ => none) := by
  have hread := readString?_escaped key (':' :: text)
  rw [stringChars, List.cons_append, List.cons_append, List.append_assoc, List.singleton_append,
    readMembers?]
  change Option.bind (readString? _) _ = _
  rw [hread]
  rfl

theorem readMembers?_close {steps : Nat} {key : String} {text behind rest : List Char}
    {form : Form} (h : readValue? steps text = some (form, behind))
    (hclose : skipBlanks behind = '\x7d' :: rest) :
    readMembers? (steps + 1) (stringChars key ++ ':' :: text)
      = some ([(some key, form)], rest) := by
  rw [readMembers?_behindKey, h, Option.bind_eq_bind, Option.bind_some]
  dsimp only
  rw [hclose]
  rfl

theorem readMembers?_more {steps : Nat} {key : String} {text middle rest : List Char}
    {form : Form} {members : List (Option String × Form)}
    (h : readValue? steps text = some (form, ',' :: middle))
    (hmore : readMembers? steps middle = some (members, rest)) :
    readMembers? (steps + 1) (stringChars key ++ ':' :: text)
      = some ((some key, form) :: members, rest) := by
  rw [readMembers?_behindKey, h]
  change Option.bind (readMembers? steps middle) _ = _
  rw [hmore]
  rfl

theorem ofMembers_map_some (members : List (String × Form)) :
    Form.ofMembers (members.map fun member => (some member.1, member.2)) = .object members := by
  have hmap : (members.map fun member => (some member.1, member.2)).mapM
      (fun (member : Option String × Form) => member.1.map fun key => (key, member.2))
        = some members := by
    induction members with
    | nil => rfl
    | cons member members ih =>
      rw [List.map_cons, List.mapM_cons, ih]
      rfl
  rw [Form.ofMembers, hmap]

theorem readValue?_openArray {steps : Nat} {text inner rest : List Char} {forms : List Form}
    (hskip : skipBlanks text = inner) (hbegins : BeginsValue inner)
    (h : readItems? steps inner = some (forms, rest)) :
    readValue? (steps + 1) ('[' :: text) = some (.array forms, rest) := by
  have hopen : skipBlanks ('[' :: text) = '[' :: text := rfl
  simp only [readValue?, hopen, hskip]
  split
  · obtain ⟨c, front, heq, _, hbracket, _⟩ := hbegins
    exact absurd (List.cons.inj heq).1.symm hbracket
  · rw [h]
    rfl

/-- The members behind an opening brace are read as an object. -/
theorem readValue?_openMembers {steps : Nat} {text inner rest : List Char}
    {members : List (Option String × Form)} (hskip : skipBlanks text = inner)
    (hbegins : BeginsValue inner) (h : readMembers? steps inner = some (members, rest)) :
    readValue? (steps + 1) ('\x7b' :: text) = some (.ofMembers members, rest) := by
  have hopen : skipBlanks ('\x7b' :: text) = '\x7b' :: text := rfl
  simp only [readValue?, hopen, hskip]
  split
  · obtain ⟨c, front, heq, _, _, hbrace⟩ := hbegins
    exact absurd (List.cons.inj heq).1.symm hbrace
  · rw [h]
    rfl

theorem readValue?_openObject {steps : Nat} {text inner rest : List Char}
    {members : List (String × Form)} (hskip : skipBlanks text = inner)
    (hbegins : BeginsValue inner)
    (h : readMembers? steps inner
      = some (members.map fun member => (some member.1, member.2), rest)) :
    readValue? (steps + 1) ('\x7b' :: text) = some (.object members, rest) := by
  rw [readValue?_openMembers hskip hbegins h, ofMembers_map_some]

theorem one_le_length_compactChars (value : Value) (h : value.Integral) :
    1 ≤ value.compactChars.length := by
  obtain ⟨c, rest, heq, _⟩ := beginsValue_compactChars value h
  rw [heq]
  exact Nat.le_add_left 1 _

mutual

/-- **A value is read in the form that it was written in.** -/
theorem readValue?_compactChars : ∀ (value : Value), value.Integral → ∀ (steps : Nat)
    (text : List Char), 2 * value.compactChars.length ≤ steps → EndsNumber text →
    readValue? steps (value.compactChars ++ text) = some (value.form, text)
  | value, hvalue, 0, text, hsteps, htext => by
      have := one_le_length_compactChars value hvalue
      omega
  | .null, _, steps + 1, text, _, _ => rfl
  | .bool true, _, steps + 1, text, _, _ => rfl
  | .bool false, _, steps + 1, text, _, _ => rfl
  | .number (.natural n), _, steps + 1, text, _, htext => readValue?_natChars n steps htext
  | .number (.negative n), _, steps + 1, text, _, htext => by
      have hnumber := readNumber?_natChars true n htext
      rw [readValue?]
      change Option.map _ (readNumber? true (natChars n ++ text)) = _
      rw [hnumber]
      rfl
  | .string s, _, steps + 1, text, _, _ => readValue?_stringChars s steps text
  | .array [], _, steps + 1, text, _, _ => rfl
  | .array (item :: items), hvalue, steps + 1, text, hsteps, htext => by
      have hbegins := (beginsValue_itemsChars item items hvalue.1).append (']' :: text)
      simp only [Value.compactChars, List.length_append, List.length_cons, List.length_nil]
        at hsteps
      have hread := readItems?_itemsChars item items hvalue steps text (by omega)
      rw [Value.compactChars, List.cons_append, List.cons_append, List.append_assoc]
      exact readValue?_openArray hbegins.skipBlanks hbegins hread
  | .object [], _, steps + 1, text, _, _ => rfl
  | .object ((key, value) :: members), hvalue, steps + 1, text, hsteps, htext => by
      have hbegins := (beginsValue_membersChars key value members).append ('\x7d' :: text)
      simp only [Value.compactChars, List.length_append, List.length_cons, List.length_nil]
        at hsteps
      have hread := readMembers?_membersChars key value members hvalue steps text (by omega)
      rw [Value.compactChars, List.cons_append, List.cons_append, List.append_assoc]
      exact readValue?_openObject hbegins.skipBlanks hbegins hread

theorem readItems?_itemsChars : ∀ (item : Value) (items : List Value),
    IntegralItems (item :: items) → ∀ (steps : Nat) (text : List Char),
    2 * (itemsChars (item :: items)).length < steps →
    readItems? steps (itemsChars (item :: items) ++ ']' :: text)
      = some (itemForms (item :: items), text)
  | item, [], hitems, steps + 1, text, hsteps => by
      exact readItems?_close (readValue?_compactChars item hitems.1 steps _
        (Nat.le_of_lt_succ hsteps) (endsNumber_cons (by decide) text)) rfl
  | item, next :: items, hitems, steps + 1, text, hsteps => by
      simp only [itemsChars, List.length_append, List.length_cons] at hsteps
      rw [itemsChars, List.append_assoc, List.cons_append]
      apply readItems?_more
      · exact readValue?_compactChars item hitems.1 steps _ (by omega)
          (endsNumber_cons (by decide) _)
      · exact readItems?_itemsChars next items hitems.2 steps text (by omega)

theorem readMembers?_membersChars : ∀ (key : String) (value : Value)
    (members : List (String × Value)), IntegralMembers ((key, value) :: members) →
    ∀ (steps : Nat) (text : List Char),
    2 * (membersChars ((key, value) :: members)).length < steps →
    readMembers? steps (membersChars ((key, value) :: members) ++ '\x7d' :: text)
      = some ((memberForms ((key, value) :: members)).map fun member => (some member.1, member.2),
          text)
  | key, value, [], hmembers, steps + 1, text, hsteps => by
      simp only [membersChars, List.length_append, List.length_cons] at hsteps
      rw [membersChars, List.append_assoc, List.cons_append]
      exact readMembers?_close (readValue?_compactChars value hmembers.1 steps _ (by omega)
        (endsNumber_cons (by decide) text)) rfl
  | key, value, (key', value') :: members, hmembers, steps + 1, text, hsteps => by
      simp only [membersChars, List.length_append, List.length_cons] at hsteps
      rw [membersChars]
      simp only [List.append_assoc, List.cons_append]
      apply readMembers?_more
      · exact readValue?_compactChars value hmembers.1 steps _ (by omega)
          (endsNumber_cons (by decide) _)
      · exact readMembers?_membersChars key' value' members hmembers.2 steps text (by omega)

end

/-- **The text of a value is read in the form that it was written in.** -/
theorem readForm?_compact (value : Value) (hvalue : value.Integral) :
    readForm? value.compact.toList = some value.form := by
  have hread := readValue?_compactChars value hvalue (2 * value.compactChars.length + 2) []
    (by omega) endsNumber_nil
  rw [List.append_nil] at hread
  rw [readForm?, Value.compact, String.toList_ofList, hread]
  rfl

/-! ## Values within the limits -/

/-- An integer that fits 64 bits. -/
def Number.InRange : Number → Prop
  | .natural n => n < Nat.pow 2 64
  | .negative n => 0 < n ∧ n ≤ Nat.pow 2 63
  | .real _ _ => False

theorem Number.toNumber_text {n : Number} (h : n.InRange) : n.text.toNumber = some n := by
  cases n with
  | natural n =>
    have hlt : n < Nat.pow 2 64 := h
    simp [Number.text, NumberText.toNumber, ofDigits_decimalDigits, hlt]
  | negative n =>
    have hin : 0 < n ∧ n ≤ Nat.pow 2 63 := h
    simp [Number.text, NumberText.toNumber, ofDigits_decimalDigits, hin.1, hin.2]
  | real minus magnitude => exact h.elim

mutual

/-- A value has integers that fit 64 bits and distinct keys, and is nested at most
`room` levels. -/
def Value.Within : Nat → Value → Prop
  | _, .null => True
  | _, .bool _ => True
  | _, .string _ => True
  | _, .number n => n.InRange
  | 0, .array _ => False
  | 0, .object _ => False
  | room + 1, .array items => ItemsWithin room items
  | room + 1, .object members => (members.map Prod.fst).Nodup ∧ MembersWithin room members

def ItemsWithin : Nat → List Value → Prop
  | _, [] => True
  | room, item :: items => item.Within room ∧ ItemsWithin room items

def MembersWithin : Nat → List (String × Value) → Prop
  | _, [] => True
  | room, (_, value) :: members => value.Within room ∧ MembersWithin room members

end

mutual

theorem Value.Within.integral : ∀ {room : Nat} {value : Value}, value.Within room → value.Integral
  | _, .null, _ => trivial
  | _, .bool _, _ => trivial
  | _, .string _, _ => trivial
  | _, .number (.natural _), _ => trivial
  | _, .number (.negative _), _ => trivial
  | _, .number (.real _ _), h => h
  | 0, .array _, h => h.elim
  | 0, .object _, h => h.elim
  | _ + 1, .array _, h => ItemsWithin.integral h
  | _ + 1, .object _, h => MembersWithin.integral h.2

theorem ItemsWithin.integral : ∀ {room : Nat} {items : List Value}, ItemsWithin room items →
    IntegralItems items
  | _, [], _ => trivial
  | _, _ :: _, h => ⟨h.1.integral, ItemsWithin.integral h.2⟩

theorem MembersWithin.integral : ∀ {room : Nat} {members : List (String × Value)},
    MembersWithin room members → IntegralMembers members
  | _, [], _ => trivial
  | _, (_, _) :: _, h => ⟨h.1.integral, MembersWithin.integral h.2⟩

end

theorem Members.insert_of_notMem {members : Members} {key : String} (value : Value)
    (h : key ∉ members.map Prod.fst) : members.insert key value = members ++ [(key, value)] := by
  induction members with
  | nil => rfl
  | cons entry members ih =>
    rw [List.map_cons, List.mem_cons, not_or] at h
    rw [Members.insert, if_neg (Ne.symm h.1), ih h.2]
    rfl

/-- The next member is none of those before it. -/
theorem Members.notMem_of_nodup {found members : Members} {key : String} {value : Value}
    (h : ((found ++ (key, value) :: members).map Prod.fst).Nodup) : key ∉ found.map Prod.fst := by
  rw [List.map_append, List.map_cons, List.nodup_middle, List.nodup_cons] at h
  exact fun hmem => h.1 (List.mem_append_left _ hmem)

mutual

/-- Its form has the value that it was written from. -/
theorem Value.toValue_form : ∀ {room : Nat} {value : Value}, value.Within room →
    value.form.toValue room = some value
  | _, .null, _ => rfl
  | _, .bool _, _ => rfl
  | _, .string _, _ => rfl
  | _, .number n, h => by
      rw [Value.form, Form.toValue, Number.toNumber_text h]
      rfl
  | 0, .array _, h => h.elim
  | 0, .object _, h => h.elim
  | room + 1, .array items, h => by
      rw [Value.form, Form.toValue, valuesOf_itemForms h]
      rfl
  | room + 1, .object members, h => by
      rw [Value.form, Form.toValue, membersOf_memberForms [] h.1 h.2]
      rfl

theorem valuesOf_itemForms : ∀ {room : Nat} {items : List Value}, ItemsWithin room items →
    valuesOf room (itemForms items) = some items
  | _, [], _ => rfl
  | room, item :: items, h => by
      rw [itemForms, valuesOf, Value.toValue_form h.1, valuesOf_itemForms h.2]
      rfl

theorem membersOf_memberForms : ∀ {room : Nat} {members : List (String × Value)}
    (found : Members), ((found ++ members).map Prod.fst).Nodup → MembersWithin room members →
    membersOf room found (memberForms members) = some (found ++ members)
  | _, [], found, _, _ => by
      rw [memberForms, membersOf, List.append_nil]
  | room, (key, value) :: members, found, hnodup, h => by
      have hnew := Members.notMem_of_nodup hnodup
      have hsplit : found ++ (key, value) :: members = found ++ [(key, value)] ++ members := by
        simp
      rw [hsplit] at hnodup ⊢
      rw [memberForms, membersOf, Value.toValue_form h.1]
      change membersOf room (found.insert key value) (memberForms members) = _
      rw [Members.insert_of_notMem value hnew]
      exact membersOf_memberForms _ hnodup h.2

end

/-- **Reading undoes writing**, within the limits. -/
theorem parse?_compact {value : Value} (h : value.Within nestingLimit) :
    parse? value.compact = some value := by
  rw [parse?, readForm?_compact value h.integral]
  exact Value.toValue_form h

/-! ## Records -/

theorem keys_memberForms (members : Members) :
    (memberForms members).map Prod.fst = members.map Prod.fst := by
  induction members with
  | nil => rfl
  | cons member members ih => rw [memberForms, List.map_cons, List.map_cons, ih]

theorem lookup_memberForms (key : String) (members : Members) :
    (memberForms members).lookup key = (members.lookup key).map Value.form := by
  induction members with
  | nil => rfl
  | cons member members ih =>
    obtain ⟨name, value⟩ := member
    rw [memberForms, List.lookup_cons, List.lookup_cons, ih]
    cases key == name <;> rfl

/-- An object with exactly the names of a record gives all of its fields. -/
theorem fields?_form {names : List String} {mayLack : Bool} {room : Nat} {members : Members}
    (hnames : members.map Prod.fst = names) (hnodup : names.Nodup) :
    fields? names mayLack (room + 1) (Value.object members).form
      = some ⟨memberForms members, room⟩ := by
  have hkeys : (memberForms members).map Prod.fst = names := by rw [keys_memberForms, hnames]
  have hall : (memberForms members).filter (fun entry => names.contains entry.1)
      = memberForms members := by
    refine List.filter_eq_self.mpr fun entry hentry => ?_
    exact List.contains_iff_mem.mpr (hkeys ▸ List.mem_map_of_mem hentry)
  rw [Value.form, fields?, hall]
  exact if_pos (hkeys ▸ hnodup)

/-! ## Fields -/

variable {α : Type}

@[simp] theorem Fields.required_form (members : Members) (room : Nat) (name : String)
    (decode : Decoder α) : (Fields.mk (memberForms members) room).required name decode
      = (members.lookup name).bind fun value => decode room value.form := by
  rw [Fields.required, lookup_memberForms, Option.bind_map]
  rfl

@[simp] theorem Fields.withDefault_form (members : Members) (room : Nat) (name : String)
    (decode : Decoder α) (default : α) :
    (Fields.mk (memberForms members) room).withDefault name decode default
      = ((members.lookup name).map fun value => decode room value.form).getD (some default) := by
  rw [Fields.withDefault, lookup_memberForms]
  cases members.lookup name <;> rfl

/-! ## Values of fields -/

@[simp] theorem Decoder.bool_form (room : Nat) (b : Bool) :
    Decoder.bool room (Value.bool b).form = some b := rfl

@[simp] theorem Decoder.text_form (room : Nat) (s : String) :
    Decoder.text room (Value.string s).form = some s := rfl

@[simp] theorem Decoder.choice_form (ofName? : String → Option α) (room : Nat) (name : String) :
    Decoder.choice ofName? room (Value.string name).form = ofName? name := rfl

theorem Decoder.optional_form (room : Nat) (text : Option String) :
    Decoder.optional Decoder.text room ((text.map Value.string).getD .null).form = some text := by
  cases text <;> rfl

theorem Decoder.members_form {room : Nat} {members : Members}
    (h : (Value.object members).Within room) :
    Decoder.members room (Value.object members).form = some members := by
  rw [Decoder.members, Value.toValue_form h]
  rfl

/-- A list is read item by item. -/
theorem Decoder.list_form {β : Type} (decode : Decoder β) (write : β → Value) (room : Nat)
    (h : ∀ item, decode room (write item).form = some item) (items : List β) :
    Decoder.list decode (room + 1) (Value.array (items.map write)).form = some items := by
  rw [Value.form, Decoder.list]
  induction items with
  | nil => rfl
  | cons item items ih =>
    rw [List.map_cons, itemForms, List.mapM_cons, h, ih]
    rfl

end PackageOrder.Json
