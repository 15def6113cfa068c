/-
PackageOrder.Proofs.FileTree.Reach — how long a path can be that leads somewhere.

A pass of a lookup uses up names of the path only as it goes down, so no more of
them than folders are nested, each no longer than the longest name there is. What
is left of the path stands behind the target of a link in the next pass, so all
passes together use up so much as many times (`size_le_of_lookupWithin`).

The names that count are those that the path came with, not those that links put
in front of them; the invariant is about a path whose last names are the ones that
are left. A reader that ignores case finds what stands at the first name that is
the same to it (`Folder.child?_eq`), which has the length of the one it looks for.
-/
import PackageOrder.FileTree.Lookup
import PackageOrder.Proofs.Path.Clean

namespace PackageOrder

open PackageOrder.Text
open PackageOrder.Path (Plain)

/-! ## Names that are the same to readers -/

namespace Folder

variable {folder : Folder} {caseSensitive : Bool} {name other : String}

/-- Whether two names are the same name to readers. -/
def sameName (caseSensitive : Bool) (key name : String) : Bool :=
  if caseSensitive then key == name else child?.sameAsciiCaseless key.toList name.toList

theorem sameAsciiCaseless_iff : ∀ one other : List Char,
    child?.sameAsciiCaseless one other = true ↔ one.map Char.toLower = other.map Char.toLower
  | [], [] => by simp [child?.sameAsciiCaseless]
  | a :: one, b :: other => by
      rw [child?.sameAsciiCaseless, Bool.and_eq_true, beq_iff_eq, sameAsciiCaseless_iff one other,
        List.map_cons, List.map_cons, List.cons.injEq]
  | [], _ :: _ => by simp [child?.sameAsciiCaseless]
  | _ :: _, [] => by simp [child?.sameAsciiCaseless]

/-- A name as readers take it. -/
def folded (caseSensitive : Bool) (name : String) : List Char :=
  if caseSensitive then name.toList else name.toList.map Char.toLower

theorem length_folded (caseSensitive : Bool) (name : String) :
    (folded caseSensitive name).length = name.length := by
  cases caseSensitive with
  | true => exact String.length_toList
  | false => exact List.length_map _ |>.trans String.length_toList

theorem sameName_iff : sameName caseSensitive other name = true
    ↔ folded caseSensitive other = folded caseSensitive name := by
  cases caseSensitive with
  | true => exact beq_iff_eq.trans String.toList_inj.symm
  | false => exact sameAsciiCaseless_iff _ _

theorem sameName_self : sameName caseSensitive name name = true :=
  sameName_iff.mpr rfl

/-- The same name may stand in the place of a name that is looked for. -/
theorem sameName_congr (h : sameName caseSensitive other name = true) (key : String) :
    sameName caseSensitive key other = sameName caseSensitive key name := by
  rw [Bool.eq_iff_iff, sameName_iff, sameName_iff, sameName_iff.mp h]

/-- The first name in a folder that is the same as a name to readers. -/
def found? (folder : Folder) (caseSensitive : Bool) (name : String) : Option String :=
  (names folder).find? (sameName caseSensitive · name)

theorem sameName_of_found? {key : String} (h : folder.found? caseSensitive name = some key) :
    sameName caseSensitive key name = true := by
  rw [found?] at h
  have hsame := List.find?_some h
  exact hsame

theorem found?_cons (key : String) (held : Entity) (rest : Folder) :
    found? ((key, held) :: rest) caseSensitive name
      = if sameName caseSensitive key name then some key else found? rest caseSensitive name := by
  rw [found?, names, List.map_cons, List.find?_cons]
  cases sameName caseSensitive key name <;> rfl

theorem child?_cons (key : String) (held : Entity) (rest : Folder) :
    child? ((key, held) :: rest) caseSensitive name
      = if sameName caseSensitive key name then some held else child? rest caseSensitive name := by
  cases caseSensitive with
  | true =>
    rw [child?, if_pos rfl, child?, if_pos rfl, List.lookup_cons, sameName, if_pos rfl]
    by_cases hkey : key = name
    · rw [hkey, beq_self_eq_true, if_pos rfl]
    · rw [beq_eq_false_iff_ne.mpr (Ne.symm hkey), beq_eq_false_iff_ne.mpr hkey,
        if_neg Bool.false_ne_true]
  | false =>
    rw [child?, if_neg Bool.false_ne_true, child?, if_neg Bool.false_ne_true, List.find?_cons,
      sameName, if_neg Bool.false_ne_true]
    dsimp only
    cases child?.sameAsciiCaseless key.toList name.toList <;> rfl

/-- **Readers find what stands at the first name that is the same to them.** -/
theorem child?_eq (folder : Folder) (caseSensitive : Bool) (name : String) :
    folder.child? caseSensitive name
      = (folder.found? caseSensitive name).bind fun key => folder.lookup key := by
  induction folder with
  | nil => cases caseSensitive <;> rfl
  | cons entry rest ih =>
    obtain ⟨key, held⟩ := entry
    rw [child?_cons, found?_cons]
    split
    · rw [Option.bind_some, List.lookup_cons_self]
    · rename_i hkey
      rw [ih]
      refine Option.bind_congr fun other hother => ?_
      have hne : (other == key) = false := by
        rw [beq_eq_false_iff_ne]
        rintro rfl
        exact hkey (sameName_of_found? hother)
      rw [List.lookup_cons, hne]

theorem child?_of_found? (h : folder.found? caseSensitive name = some name) :
    folder.child? caseSensitive name = folder.lookup name := by
  rw [child?_eq, h, Option.bind_some]

/-- What is found first is the first one that is the same as itself. -/
theorem found?_self {key : String} (h : folder.found? caseSensitive name = some key) :
    folder.found? caseSensitive key = some key := by
  rw [← h, found?, found?]
  exact congrArg (List.find? · (names folder))
    (funext (sameName_congr (sameName_of_found? h)))

/-- What stands under a name stands under one of the same length. -/
theorem exists_mem_of_child? {entity : Entity} (h : folder.child? caseSensitive name = some entity) :
    ∃ key : String, (key, entity) ∈ folder ∧ key.length = name.length := by
  rw [child?_eq] at h
  obtain ⟨key, hfound, hlookup⟩ := Option.bind_eq_some_iff.mp h
  obtain ⟨before, after, rfl, _⟩ := List.lookup_eq_some_iff.mp hlookup
  refine ⟨key, List.mem_append_right _ List.mem_cons_self, ?_⟩
  have hlength := congrArg List.length (sameName_iff.mp (sameName_of_found? hfound))
  rwa [length_folded, length_folded] at hlength

end Folder

/-! ## Going down -/

theorem depth_le_of_mem {folder : Folder} {name : String} {entity : Entity}
    (h : (name, entity) ∈ folder) : entity.depth + 1 ≤ depthOf folder := by
  induction folder with
  | nil => cases h
  | cons entry rest ih =>
    obtain ⟨key, held⟩ := entry
    rw [depthOf]
    rcases List.mem_cons.mp h with heq | h
    · cases heq
      exact Nat.le_max_left _ _
    · exact Nat.le_trans (ih h) (Nat.le_max_right _ _)

theorem longestName_le_of_mem {folder : Folder} {name : String} {entity : Entity}
    (h : (name, entity) ∈ folder) :
    name.length ≤ longestNameOf folder ∧ entity.longestName ≤ longestNameOf folder := by
  induction folder with
  | nil => cases h
  | cons entry rest ih =>
    obtain ⟨key, held⟩ := entry
    rw [longestNameOf]
    rcases List.mem_cons.mp h with heq | h
    · cases heq
      omega
    · have := ih h
      omega

/-- Names that lead down from a folder, all but perhaps the last to a folder. -/
inductive Descends (caseSensitive : Bool) : Folder → List String → Prop where
  | none (folder : Folder) : Descends caseSensitive folder []
  | last {folder : Folder} {name : String} {entity : Entity} :
      folder.child? caseSensitive name = some entity → Descends caseSensitive folder [name]
  | into {folder entries : Folder} {name : String} {names : List String} :
      folder.child? caseSensitive name = some (.folder entries) →
      Descends caseSensitive entries names → Descends caseSensitive folder (name :: names)

/-- The length of some names with a slash each. -/
def nameSize (names : List String) : Nat :=
  Path.size (names.map String.toList)

@[simp] theorem nameSize_nil : nameSize [] = 0 := rfl

@[simp] theorem nameSize_cons (name : String) (names : List String) :
    nameSize (name :: names) = name.length + 1 + nameSize names := by
  rw [nameSize, List.map_cons, Path.size_cons, String.length_toList, nameSize]

@[simp] theorem nameSize_append (before after : List String) :
    nameSize (before ++ after) = nameSize before + nameSize after := by
  rw [nameSize, List.map_append, Path.size_append, nameSize, nameSize]

namespace Descends

variable {caseSensitive : Bool} {folder : Folder} {name : String} {names : List String}

theorem length_le (h : Descends caseSensitive folder names) :
    ∀ name ∈ names, name.length ≤ longestNameOf folder := by
  induction h with
  | none folder => exact fun name hname => absurd hname List.not_mem_nil
  | last hchild =>
    intro name hname
    obtain ⟨key, hmem, hlength⟩ := Folder.exists_mem_of_child? hchild
    rw [List.mem_singleton.mp hname, ← hlength]
    exact (longestName_le_of_mem hmem).1
  | into hchild _ ih =>
    intro name hname
    obtain ⟨key, hmem, hlength⟩ := Folder.exists_mem_of_child? hchild
    rcases List.mem_cons.mp hname with rfl | hname
    · exact hlength ▸ (longestName_le_of_mem hmem).1
    · exact Nat.le_trans (ih name hname) (longestName_le_of_mem hmem).2

/-- The names behind the first take up the room that one folder less leaves, where no
name is longer than `longest`. -/
theorem size_tail_le (h : Descends caseSensitive folder (name :: names)) {longest : Nat}
    (hlongest : longestNameOf folder ≤ longest) :
    nameSize names + (longest + 1) ≤ depthOf folder * (longest + 1) := by
  generalize hall : name :: names = all at h
  induction h generalizing name names with
  | none folder => cases hall
  | @last folder other entity hchild =>
    cases hall
    obtain ⟨key, hmem, _⟩ := Folder.exists_mem_of_child? hchild
    have hdepth := Nat.le_trans (Nat.le_add_left 1 _) (depth_le_of_mem hmem)
    calc nameSize [] + (longest + 1)
        = 1 * (longest + 1) := by simp
      _ ≤ depthOf folder * (longest + 1) := Nat.mul_le_mul_right _ hdepth
  | @into folder entries other others hchild hrest ih =>
    cases hall
    obtain ⟨key, hmem, _⟩ := Folder.exists_mem_of_child? hchild
    have hdepth : depthOf entries + 1 ≤ depthOf folder := depth_le_of_mem hmem
    have hentries : longestNameOf entries ≤ longest :=
      Nat.le_trans (longestName_le_of_mem hmem).2 hlongest
    have hbelow : nameSize others ≤ depthOf entries * (longest + 1) := by
      cases others with
      | nil => exact Nat.zero_le _
      | cons next others =>
        have hnext := Nat.le_trans (hrest.length_le next List.mem_cons_self) hentries
        have htail := ih hentries rfl
        rw [nameSize_cons]
        omega
    calc nameSize others + (longest + 1)
        ≤ depthOf entries * (longest + 1) + 1 * (longest + 1) := by omega
      _ = (depthOf entries + 1) * (longest + 1) := (Nat.add_mul _ _ _).symm
      _ ≤ depthOf folder * (longest + 1) := Nat.mul_le_mul_right _ hdepth

theorem size_le (h : Descends caseSensitive folder names) {longest : Nat}
    (hlongest : longestNameOf folder ≤ longest) :
    nameSize names ≤ depthOf folder * (longest + 1) := by
  cases names with
  | nil => exact Nat.zero_le _
  | cons name names =>
    have hname := Nat.le_trans (h.length_le name List.mem_cons_self) hlongest
    have htail := h.size_tail_le hlongest
    rw [nameSize_cons]
    omega

end Descends

namespace FileTree

/-! ## One pass -/

/-- A pass that finds something has gone down all names. -/
theorem descends_of_walk {caseSensitive followLast : Bool} {folder : Folder} {way : String}
    {names : List String} {found : Entity × String}
    (h : walk caseSensitive followLast folder way names = .done (some found)) :
    Descends caseSensitive folder names := by
  induction names generalizing folder way with
  | nil => exact .none folder
  | cons name names ih =>
    unfold walk at h
    split at h
    · cases h
    · rename_i entries hchild
      exact .into hchild (ih h)
    · rename_i contents hchild
      split at h
      · rename_i hnames
        exact hnames ▸ .last hchild
      · cases h
    · rename_i target hchild
      split at h
      · rename_i hnames
        exact hnames ▸ .last hchild
      · cases h

/-- A pass that stops at a link has gone down the names to it. The others stand
behind its target in the next pass. -/
theorem descends_of_walk_again {caseSensitive followLast : Bool} {folder : Folder} {way : String}
    {names : List String} {next : String}
    (h : walk caseSensitive followLast folder way names = .again next) :
    ∃ front back target, names = front ++ back ∧ front ≠ []
      ∧ Descends caseSensitive folder front
      ∧ next = if back = [] then target else Path.join target [intercalate "/" back] := by
  induction names generalizing folder way with
  | nil => cases h
  | cons name names ih =>
    unfold walk at h
    split at h
    · cases h
    · rename_i entries hchild
      obtain ⟨front, back, target, rfl, _, hdescends, hnext⟩ := ih h
      exact ⟨name :: front, back, target, rfl, List.cons_ne_nil _ _, .into hchild hdescends, hnext⟩
    · cases h
    · rename_i target hchild
      refine ⟨[name], names, target, rfl, List.cons_ne_nil _ _, .last hchild, ?_⟩
      split at h
      · rename_i hnames
        split at h
        · cases h
          rw [if_pos hnames]
        · cases h
      · rename_i hnames
        cases h
        rw [if_neg hnames]

/-! ## From pass to pass -/

/-- Names that are plain. -/
def PlainNames (names : List String) : Prop :=
  ∀ name ∈ names, Plain name.toList

theorem map_ofList_toList (names : List String) :
    (names.map String.toList).map String.ofList = names := by
  rw [List.map_map]
  exact (List.map_congr_left fun _ _ => String.ofList_toList).trans (List.map_id _)

theorem map_toList_ofList (pieces : List (List Char)) :
    (pieces.map String.ofList).map String.toList = pieces := by
  rw [List.map_map]
  exact (List.map_congr_left fun _ _ => String.toList_ofList).trans (List.map_id _)

theorem map_toList_namesOf (path : String) :
    (namesOf path).map String.toList = Path.segments path.toList := by
  rw [namesOf, map_toList_ofList]

theorem namesOf_join (target : String) (names : List String) :
    namesOf (Path.join target [intercalate "/" names])
      = (Path.segments (Path.cleanChars
          (target.toList ++ '/' :: joinWith '/' (names.map String.toList)))).map String.ofList := by
  rw [namesOf, Path.join, String.toList_ofList, List.map_singleton, toList_intercalate]
  rfl

/-- **Plain names stay behind the target of a link**, unless that is empty and a colon
at the very front makes a drive; then they are two characters shorter at most and
stand behind a name of one character. -/
theorem namesOf_behind (target : String) (before : List String) {rest : List String}
    (hne : rest ≠ []) (hplain : PlainNames rest) :
    (∃ front, namesOf (Path.join target [intercalate "/" (before ++ rest)]) = front ++ rest)
      ∨ target.toList = [] ∧ (rest.head?.bind (·.toList.head?)) = some ':'
        ∧ ∃ tail, namesOf (Path.join target [intercalate "/" (before ++ rest)]) = ":" :: tail
          ∧ PlainNames (":" :: tail) ∧ nameSize rest ≤ nameSize (":" :: tail) + 2 := by
  have hpieces : ∀ piece ∈ rest.map String.toList, Plain piece := by
    intro piece hpiece
    obtain ⟨name, hname, rfl⟩ := List.mem_map.mp hpiece
    exact hplain name hname
  -- the other names belong to what is stood behind, which is empty only with the target
  have hjoined : ∃ base, (base = [] → target.toList = [])
      ∧ target.toList ++ '/' :: joinWith '/' ((before ++ rest).map String.toList)
        = base ++ '/' :: joinWith '/' (rest.map String.toList) := by
    by_cases hbefore : before = []
    · exact ⟨target.toList, id, by rw [hbefore, List.nil_append]⟩
    · rw [List.map_append, joinWith_append (by simpa using hbefore) (by simpa using hne)]
      exact ⟨target.toList ++ '/' :: joinWith '/' (before.map String.toList),
        fun h => (List.append_eq_nil_iff.mp h).1, by simp⟩
  obtain ⟨base, hnil, hbase⟩ := hjoined
  rw [namesOf_join, hbase]
  rcases Path.segments_clean_behind base (by simpa using hne) hpieces with
    ⟨front, heq⟩ | ⟨hempty, name, tail, hrest, heq⟩
  · refine Or.inl ⟨front.map String.ofList, ?_⟩
    rw [heq, List.map_append, map_ofList_toList]
  · have hfirst := hpieces (':' :: name) (hrest ▸ List.mem_cons_self)
    have hslash : '/' ∉ name := fun hc => hfirst.no_slash (List.mem_cons_of_mem _ hc)
    have hbackslash : '\\' ∉ name := fun hc => hfirst.no_backslash (List.mem_cons_of_mem _ hc)
    have hkept : ∀ piece ∈ [':'] :: (Path.collapse true [name] ++ tail), Plain piece := by
      intro piece hpiece
      rcases List.mem_cons.mp hpiece with rfl | hpiece
      · decide
      · rcases List.mem_append.mp hpiece with hpiece | hpiece
        · refine (Path.kept_collapse ?_ piece hpiece).plain
          exact fun piece hp => List.mem_singleton.mp hp ▸ ⟨hslash, hbackslash⟩
        · exact hpieces piece (hrest ▸ List.mem_cons_of_mem _ hpiece)
    have hlists : (([':'] :: (Path.collapse true [name] ++ tail)).map String.ofList).map
        String.toList = [':'] :: (Path.collapse true [name] ++ tail) := map_toList_ofList _
    have hsize := Path.length_le_size_collapse hslash hbackslash
    refine Or.inr ⟨hnil hempty, ?_, (Path.collapse true [name] ++ tail).map String.ofList,
      by rw [heq]; rfl, ?_, ?_⟩
    · cases rest with
      | nil => exact absurd rfl hne
      | cons first rest =>
        rw [List.map_cons, List.cons.injEq] at hrest
        rw [List.head?_cons, Option.bind_some, hrest.1, List.head?_cons]
    · intro other hother
      refine hkept other.toList ?_
      rw [← hlists]
      exact List.mem_map_of_mem hother
    · change Path.size (rest.map String.toList) ≤ Path.size
        ((([':'] :: (Path.collapse true [name] ++ tail)).map String.ofList).map String.toList) + 2
      rw [hlists, hrest, Path.size_cons, Path.size_cons, Path.size_append, List.length_cons,
        List.length_singleton]
      omega

/-- What one pass does to the last names of a path: it finds what they lead to, or
it goes down some of them, and those that are left stand behind a link in the next
pass. -/
theorem pass_cases {tree : FileTree} {followLast : Bool} {path : String} {passes : Nat}
    {found : Entity × String} (h : lookupWithin tree followLast (passes + 1) path = some found)
    {front rest : List String} (hne : rest ≠ []) (hnames : namesOf path = front ++ rest) :
    Descends tree.caseSensitive tree.root (front ++ rest)
      ∨ ∃ start gone left before target, rest = gone ++ left ∧ left ≠ []
        ∧ Descends tree.caseSensitive tree.root (start ++ gone)
        ∧ (front = [] → start = [] ∧ gone ≠ [])
        ∧ lookupWithin tree followLast passes
            (Path.join target [intercalate "/" (before ++ left)]) = some found := by
  rw [lookupWithin] at h
  split at h
  · rename_i result hwalk
    rw [h, hnames] at hwalk
    exact Or.inl (descends_of_walk hwalk)
  · rename_i next hwalk
    rw [hnames] at hwalk
    obtain ⟨down, back, target, heq, hdown, hdescends, hnext⟩ := descends_of_walk_again hwalk
    by_cases hback : back = []
    · rw [hback, List.append_nil] at heq
      exact Or.inl (heq ▸ hdescends)
    · rw [if_neg hback] at hnext
      rw [hnext] at h
      rcases List.append_eq_append_iff.mp heq with ⟨gone, rfl, rfl⟩ | ⟨before, rfl, rfl⟩
      · refine Or.inr ⟨front, gone, back, [], target, rfl, hback, hdescends, ?_, h⟩
        rintro rfl
        exact ⟨rfl, hdown⟩
      · refine Or.inr ⟨down, [], rest, before, target, rfl, hne, ?_, ?_, h⟩
        · rw [List.append_nil]
          exact hdescends
        · exact fun hnil => absurd (List.append_eq_nil_iff.mp hnil).1 hdown

/-- The last name of a path that leads somewhere is not longer than any name in the
tree. -/
theorem length_le_of_lookupWithin {tree : FileTree} {followLast : Bool} {passes : Nat}
    {path : String} {found : Entity × String}
    (h : lookupWithin tree followLast passes path = some found) {front : List String}
    {name : String} (hplain : Plain name.toList) (hcolon : name.toList.head? ≠ some ':')
    (hnames : namesOf path = front ++ [name]) : name.length ≤ longestNameOf tree.root := by
  induction passes generalizing path front with
  | zero => cases h
  | succ passes ih =>
    have hplains : PlainNames [name] := fun other ho => List.mem_singleton.mp ho ▸ hplain
    rcases pass_cases h (List.cons_ne_nil _ _) hnames with
      hdescends | ⟨start, gone, left, before, target, hrest, hleft, _, _, hnext⟩
    · exact hdescends.length_le name (List.mem_append_right _ (List.mem_singleton_self _))
    · have hall : left = [name] := by
        cases gone with
        | nil => exact hrest.symm
        | cons first gone =>
          have := (List.append_eq_nil_iff.mp (List.cons.inj hrest).2.symm).2
          exact absurd this hleft
      subst hall
      rcases namesOf_behind target before hleft hplains with ⟨front, hbehind⟩ | ⟨_, hdrive, _⟩
      · exact ih hnext hbehind
      · exact absurd hdrive hcolon

/-- **The passes of a lookup use up names only as they go down**, so what leads somewhere
is not longer than that many names of the length `longest`. -/
theorem size_le_of_lookupWithin {tree : FileTree} {followLast : Bool} {passes : Nat}
    {path : String} {found : Entity × String} {longest : Nat} (hlong : 3 ≤ longest)
    (hlongest : longestNameOf tree.root ≤ longest)
    (h : lookupWithin tree followLast passes path = some found) {front rest : List String}
    (hplain : PlainNames rest) (hnames : namesOf path = front ++ rest) :
    nameSize rest ≤ passes * (depthOf tree.root * (longest + 1))
      ∧ ∀ first tail, front = [] → rest = first :: tail →
        nameSize rest + longest ≤ passes * (depthOf tree.root * (longest + 1)) + first.length := by
  induction passes generalizing path front rest with
  | zero => cases h
  | succ passes ih =>
    by_cases hne : rest = []
    · subst hne
      exact ⟨Nat.zero_le _, fun first tail _ hnil => absurd hnil.symm (List.cons_ne_nil _ _)⟩
    rw [Nat.succ_mul]
    rcases pass_cases h hne hnames with
      hdescends | ⟨start, gone, left, before, target, hrest, hleft, hdescends, hfront, hnext⟩
    · have hsize := hdescends.size_le hlongest
      rw [nameSize_append] at hsize
      refine ⟨by omega, ?_⟩
      rintro first tail rfl rfl
      have htail := hdescends.size_tail_le hlongest
      rw [nameSize_cons]
      omega
    · have hsize := hdescends.size_le hlongest
      rw [nameSize_append] at hsize
      have hplains : PlainNames left := fun name hname =>
        hplain name (hrest ▸ List.mem_append_right _ hname)
      -- what is left fits the other passes, also where it lost its first characters
      have hbehind : nameSize left
          ≤ passes * (depthOf tree.root * (longest + 1)) := by
        rcases namesOf_behind target before hleft hplains with
          ⟨front', hbehind⟩ | ⟨_, _, tail, hbehind, hplain', hle⟩
        · exact (ih hnext hplains hbehind).1
        · have hdrive := (ih hnext hplain' (hbehind.trans (List.nil_append _).symm)).2 ":" tail rfl rfl
          have hone : (":" : String).length = 1 := rfl
          omega
      rw [hrest, nameSize_append]
      refine ⟨by omega, ?_⟩
      intro first tail hnil hcons
      obtain ⟨rfl, hgone⟩ := hfront hnil
      obtain ⟨first', gone, rfl⟩ := List.exists_cons_of_ne_nil hgone
      have hfirst : first' = first := (List.cons.inj hcons).1
      have htail := hdescends.size_tail_le hlongest
      rw [nameSize_cons, ← hfirst]
      omega

/-- **A path that leads to a name in a folder is about as short as what the passes
of a lookup use up.** -/
theorem length_le_of_lookup {tree : FileTree} {followLast : Bool} {path name : String}
    {found : Entity × String} (hroot : path.toList.head? = some '/') (hplain : Plain name.toList)
    (hcolon : name.toList.head? ≠ some ':') (hlength : 3 ≤ name.length)
    (h : tree.lookup (Path.join (Path.clean path) [name]) followLast = some found) :
    (Path.clean path).length + name.length
      ≤ tree.longestWay * (longestNameOf tree.root + 1) + 4 := by
  have hjoin : (Path.join (Path.clean path) [name]).toList
      = Path.cleanChars (Path.cleanChars path.toList ++ '/' :: name.toList) := by
    rw [Path.toList_join_name, Path.toList_clean]
  have hrooted : (Path.cleanChars path.toList ++ '/' :: name.toList).head? = some '/' := by
    rw [List.head?_append, Path.head?_clean_of_rooted hroot]
    rfl
  have hnames : (namesOf (Path.join (Path.clean path) [name])).map String.toList
      = Path.segments (Path.cleanChars (Path.cleanChars path.toList ++ '/' :: name.toList)) := by
    rw [map_toList_namesOf, hjoin]
  have hplains : PlainNames (namesOf (Path.join (Path.clean path) [name])) := by
    intro other hother
    refine Path.plain_of_rooted hrooted other.toList ?_
    rw [← hnames]
    exact List.mem_map_of_mem hother
  have hlast : ∃ front, namesOf (Path.join (Path.clean path) [name]) = front ++ [name] := by
    rcases namesOf_behind (Path.clean path) [] (List.cons_ne_nil name [])
        (fun other ho => List.mem_singleton.mp ho ▸ hplain) with hbehind | ⟨_, hdrive, _⟩
    · exact hbehind
    · exact absurd hdrive hcolon
  obtain ⟨front, hlast⟩ := hlast
  have hlong := Nat.le_trans hlength (length_le_of_lookupWithin h hplain hcolon hlast)
  have hsize := (size_le_of_lookupWithin hlong (Nat.le_refl _) h hplains (List.nil_append _).symm).1
  rw [nameSize, hnames, ← Nat.mul_assoc] at hsize
  have hclean := Path.length_clean_le_of_rooted hroot hplain
  have hpath : (Path.clean path).length = (Path.cleanChars path.toList).length := by
    rw [← String.length_toList, Path.toList_clean]
  have hname : name.toList.length = name.length := String.length_toList
  rw [longestWay]
  omega

end FileTree

end PackageOrder
