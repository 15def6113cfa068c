/-
PackageOrder.Proofs.TwoRuns — steps that come to the same in two trees.

Two steps are alike if, each in its own tree and in any session of a kind, they come
to the same value or both fail, leave the tree as it is and the session of its kind
(`Run.Alike`); what they come to may be known to have a property. Steps that are put
together of such steps are alike again, so two runs are compared by what they read.
-/
import PackageOrder.Proofs.Session

namespace PackageOrder.Run

variable {α β : Type} {kind : Session → Prop} {one other third : FileTree}
  {holds : α → Prop} {holds' : β → Prop}

/-- What a step comes to in a session, if it does not fail. -/
def valueFrom (step : Run α) (session : Session) : Option α :=
  (step.runFrom session).1.toOption

theorem valueFrom_eq_some {step : Run α} {session : Session} {value : α} :
    step.valueFrom session = some value ↔ (step.runFrom session).1 = .ok value := by
  unfold valueFrom
  cases (step.runFrom session).1 with
  | error failure => exact iff_of_false nofun nofun
  | ok found => exact ⟨fun h => congrArg Except.ok (Option.some.inj h), fun h => by rw [h]; rfl⟩

theorem valueFrom_bind (first : Run α) (next : α → Run β) (session : Session) :
    (first >>= next).valueFrom session
      = (first.valueFrom session).bind fun value =>
          (next value).valueFrom (first.runFrom session).2 := by
  unfold valueFrom
  rw [runFrom_bind]
  rcases first.runFrom session with ⟨failure | value, middle⟩ <;> rfl

/-- What two steps come to that are alike. -/
structure SameEnd (kind : Session → Prop) (one other : FileTree) (holds : α → Prop)
    (step step' : Run α) (session session' : Session) : Prop where
  value : step.valueFrom session = step'.valueFrom session'
  holds : ∀ value, step.valueFrom session = some value → holds value
  kind : kind (step.runFrom session).2 ∧ kind (step'.runFrom session').2
  tree : (step.runFrom session).2.tree = one ∧ (step'.runFrom session').2.tree = other

/-- Two steps that come to the same, each in its own tree, and only to values with a
property. -/
def Alike (kind : Session → Prop) (one other : FileTree) (holds : α → Prop)
    (step step' : Run α) : Prop :=
  ∀ session session', kind session → session.tree = one → kind session' → session'.tree = other →
    SameEnd kind one other holds step step' session session'

theorem Alike.mono {more : α → Prop} {step step' : Run α}
    (h : Alike kind one other holds step step') (himp : ∀ value, holds value → more value) :
    Alike kind one other more step step' := by
  intro session session' hkind htree hkind' htree'
  have hend := h session session' hkind htree hkind' htree'
  exact ⟨hend.value, fun value hvalue => himp value (hend.holds value hvalue), hend.kind, hend.tree⟩

/-- Steps in two trees are alike if both are like one in a third tree. -/
theorem Alike.trans {more : α → Prop} {step step' step'' : Run α}
    (h : Alike kind one other holds step step') (h' : Alike kind other third more step' step'')
    (hmiddle : ∃ middle, kind middle ∧ middle.tree = other) :
    Alike kind one third (fun value => holds value ∧ more value) step step'' := by
  obtain ⟨middle, hkind, htree⟩ := hmiddle
  intro session session' hsession htree' hsession' htree''
  have hend := h session middle hsession htree' hkind htree
  have hend' := h' middle session' hkind htree hsession' htree''
  refine ⟨hend.value.trans hend'.value, fun value hvalue => ⟨hend.holds value hvalue, ?_⟩,
    ⟨hend.kind.1, hend'.kind.2⟩, hend.tree.1, hend'.tree.2⟩
  exact hend'.holds value (hend.value ▸ hvalue)

theorem Alike.symm {step step' : Run α} (h : Alike kind one other holds step step') :
    Alike kind other one holds step' step := by
  intro session session' hkind htree hkind' htree'
  have hend := h session' session hkind' htree' hkind htree
  exact ⟨hend.value.symm, fun value hvalue => hend.holds value (hend.value.trans hvalue),
    hend.kind.symm, hend.tree.symm⟩

/-- A step comes to what it comes to in one session of the other tree. -/
theorem Alike.known {step step' : Run α} (h : Alike kind one other holds step step')
    {known : Session} (hknown : kind known) (htree : known.tree = other) :
    Alike kind one other (fun value => holds value ∧ step'.valueFrom known = some value) step step' := by
  intro session session' hsession hone hsession' hother
  have hend := h session session' hsession hone hsession' hother
  refine ⟨hend.value, fun value hvalue => ⟨hend.holds value hvalue, ?_⟩, hend.kind, hend.tree⟩
  exact (h session known hsession hone hknown htree).value ▸ hvalue

/-! ## Steps put together -/

theorem Alike.bind {first first' : Run α} {next next' : α → Run β}
    (h : Alike kind one other holds first first')
    (hnext : ∀ value, holds value → Alike kind one other holds' (next value) (next' value)) :
    Alike kind one other holds' (first >>= next) (first' >>= next') := by
  intro session session' hkind htree hkind' htree'
  have hfirst := h session session' hkind htree hkind' htree'
  have hvalue := hfirst.value
  have hholds := hfirst.holds
  unfold valueFrom at hvalue hholds
  rcases hrun : first.runFrom session with ⟨failure | value, middle⟩
  · rcases hrun' : first'.runFrom session' with ⟨failure' | value', middle'⟩
    · refine ⟨?_, ?_, ?_, ?_⟩
      · rw [valueFrom, runFrom_bind, hrun, valueFrom, runFrom_bind, hrun']
        rfl
      · intro value hvalue
        rw [valueFrom, runFrom_bind, hrun] at hvalue
        cases hvalue
      · rw [runFrom_bind, hrun, runFrom_bind, hrun']
        simpa only [hrun, hrun'] using hfirst.kind
      · rw [runFrom_bind, hrun, runFrom_bind, hrun']
        simpa only [hrun, hrun'] using hfirst.tree
    · rw [hrun, hrun'] at hvalue
      cases hvalue
  · rcases hrun' : first'.runFrom session' with ⟨failure' | value', middle'⟩
    · rw [hrun, hrun'] at hvalue
      cases hvalue
    · rw [hrun, hrun'] at hvalue
      cases hvalue
      have hkinds := hfirst.kind
      have htrees := hfirst.tree
      rw [hrun, hrun'] at hkinds htrees
      have hlast := hnext value (hholds value (by rw [hrun]; rfl)) middle middle' hkinds.1 htrees.1
        hkinds.2 htrees.2
      refine ⟨?_, ?_, ?_, ?_⟩
      · rw [valueFrom_bind, valueFrom_bind, valueFrom, hrun, valueFrom, hrun']
        exact hlast.value
      · intro last hend
        rw [valueFrom_bind, valueFrom, hrun] at hend
        exact hlast.holds last hend
      · rw [runFrom_bind, hrun, runFrom_bind, hrun']
        exact hlast.kind
      · rw [runFrom_bind, hrun, runFrom_bind, hrun']
        exact hlast.tree

/-- A step may go on in one of the trees, if that comes to nothing new. -/
theorem Alike.bind_left {more : α → Prop} {step step' : Run α} {next : α → Run α}
    (h : Alike kind one other holds step step')
    (hnext : ∀ value, holds value → Alike kind one other more (next value) (pure value)) :
    Alike kind one other more (step >>= next) step' := by
  rw [← bind_pure step']
  exact h.bind hnext

/-- Steps that only read are alike if they read the same. -/
theorem Reads.alike {step step' : Run α} (h : Reads step) (h' : Reads step')
    (hvalue : step.valueFrom { tree := one } = step'.valueFrom { tree := other })
    (hholds : ∀ value, step.valueFrom { tree := one } = some value → holds value) :
    Alike kind one other holds step step' := by
  rintro session session' hkind rfl hkind' rfl
  have hsame : step.valueFrom session = step.valueFrom { tree := session.tree } :=
    congrArg Except.toOption (h.runFrom_congr rfl)
  have hsame' : step'.valueFrom session' = step'.valueFrom { tree := session'.tree } :=
    congrArg Except.toOption (h'.runFrom_congr rfl)
  refine ⟨?_, ?_, ?_, ?_⟩
  · rw [hsame, hsame', hvalue]
  · rw [hsame]
    exact hholds
  · rw [h.runFrom_snd, h'.runFrom_snd]
    exact ⟨hkind, hkind'⟩
  · rw [h.runFrom_snd, h'.runFrom_snd]
    exact ⟨rfl, rfl⟩

theorem alike_pure {value : α} (h : holds value) :
    Alike kind one other holds (pure value : Run α) (pure value) :=
  (reads_pure value).alike (reads_pure value) rfl fun _ hvalue => Option.some.inj hvalue ▸ h

theorem alike_throw (failure failure' : Failure) :
    Alike kind one other holds (throw failure : Run α) (throw failure') :=
  (reads_throw failure).alike (reads_throw failure') rfl nofun

theorem valueFrom_readWith (path : String) (operation : FileTree → Except FileError α)
    (session : Session) :
    (readWith path operation).valueFrom session = (operation session.tree).toOption := by
  unfold readWith
  rw [valueFrom_bind]
  change Option.bind (some session.tree) _ = _
  rw [Option.bind_some]
  cases operation session.tree <;> rfl

theorem alike_readWith (path : String) (operation : FileTree → Except FileError α)
    (h : (operation one).toOption = (operation other).toOption) :
    Alike kind one other (operation one = .ok ·) (readWith path operation)
      (readWith path operation) := by
  refine (reads_readWith path operation).alike (reads_readWith path operation) ?_ ?_
  · rw [valueFrom_readWith, valueFrom_readWith, h]
  · intro value hvalue
    rw [valueFrom_readWith] at hvalue
    cases hread : operation one with
    | error cause =>
      rw [hread] at hvalue
      cases hvalue
    | ok found =>
      rw [hread] at hvalue
      cases hvalue
      rfl

/-- A step may be replaced by one that does the same in its tree. -/
theorem Alike.of_runFrom {step step' step'' : Run α} (h : Alike kind one other holds step' step'')
    (hrun : ∀ session : Session, session.tree = one →
      step.runFrom session = step'.runFrom session) :
    Alike kind one other holds step step'' := by
  intro session session' hkind htree hkind' htree'
  have hend := h session session' hkind htree hkind' htree'
  have hsame := hrun session htree
  refine ⟨?_, ?_, hsame ▸ hend.kind, hsame ▸ hend.tree⟩
  · rw [valueFrom, hsame]
    exact hend.value
  · rw [valueFrom, hsame]
    exact hend.holds

theorem runFrom_tree_bind (next : FileTree → Run α) {session : Session}
    (htree : session.tree = one) :
    (Run.tree >>= next).runFrom session = (next one).runFrom session := by
  subst htree
  rfl

theorem runFrom_readWith_bind {path : String} (operation : FileTree → Except FileError α)
    {value : α} {next : α → Run β} {session : Session} (htree : session.tree = one)
    (h : operation one = .ok value) :
    (readWith path operation >>= next).runFrom session = (next value).runFrom session := by
  have hread : (readWith path operation).runFrom session = (.ok value, session) := by
    unfold readWith
    rw [runFrom_tree_bind _ htree, h]
    rfl
  rw [runFrom_bind, hread]

/-- The tree may be read before a step in one of the trees. -/
theorem Alike.tree_left {next : FileTree → Run α} {step' : Run α}
    (h : Alike kind one other holds (next one) step') :
    Alike kind one other holds (Run.tree >>= next) step' :=
  h.of_runFrom fun _ htree => runFrom_tree_bind next htree

/-- The trees themselves are read. -/
theorem alike_tree {next next' : FileTree → Run β}
    (h : Alike kind one other holds' (next one) (next' other)) :
    Alike kind one other holds' (Run.tree >>= next) (Run.tree >>= next') :=
  h.tree_left.symm.tree_left.symm

/-- What is read in the trees may differ. -/
theorem alike_read {path : String} {operation : FileTree → Except FileError α} {value value' : α}
    {next next' : α → Run β} (hone : operation one = .ok value) (hother : operation other = .ok value')
    (h : Alike kind one other holds' (next value) (next' value')) :
    Alike kind one other holds' (readWith path operation >>= next)
      (readWith path operation >>= next') :=
  ((h.of_runFrom fun _ htree => runFrom_readWith_bind operation htree hone).symm.of_runFrom
    fun _ htree => runFrom_readWith_bind operation htree hother).symm

theorem alike_say (hkind : ∀ session log, kind session → kind { session with log := log })
    (level level' : LogLevel) (message message' : String) :
    Alike kind one other (fun _ => True) (say level message) (say level' message') := by
  rintro session session' hsession rfl hsession' rfl
  exact ⟨rfl, fun _ _ => trivial, ⟨hkind _ _ hsession, hkind _ _ hsession'⟩, rfl, rfl⟩

/-- A message may be written before a step in one of the trees. -/
theorem Alike.say_left (hkind : ∀ session log, kind session → kind { session with log := log })
    {step step' : Run α} (h : Alike kind one other holds step step') (level : LogLevel)
    (message : String) : Alike kind one other holds (say level message >>= fun _ => step) step' := by
  rintro session session' hsession rfl hsession' rfl
  have hend := h { session with log := session.log ++ [(level, message)] } session'
    (hkind _ _ hsession) rfl hsession' rfl
  exact ⟨hend.value, hend.holds, hend.kind, hend.tree⟩

theorem alike_mapM {step step' : α → Run β} {items : List α}
    (h : ∀ item ∈ items, Alike kind one other holds' (step item) (step' item)) :
    Alike kind one other (fun values => ∀ value ∈ values, holds' value) (items.mapM step)
      (items.mapM step') := by
  induction items with
  | nil => exact alike_pure fun _ hmem => absurd hmem List.not_mem_nil
  | cons item rest ih =>
    rw [List.mapM_cons, List.mapM_cons]
    refine (h item List.mem_cons_self).bind fun value hvalue => ?_
    refine (ih fun other hother => h other (List.mem_cons_of_mem _ hother)).bind fun values hvalues =>
      ?_
    exact alike_pure (List.forall_mem_cons.mpr ⟨hvalue, hvalues⟩)

/-! ## Gathering -/

theorem gather_cons (step : α → Run (List β)) (item : α) (rest : List α) :
    ((item :: rest).mapM step >>= fun found => pure found.flatten)
      = step item >>= fun own => (rest.mapM step >>= fun found => pure found.flatten) >>= fun more =>
          pure (own ++ more) := by
  simp only [List.mapM_cons, bind_assoc, pure_bind, List.flatten_cons]

/-- Nothing is gathered from items that nothing comes of. -/
theorem alike_skip {step : α → Run (List β)} {keep : α → Bool} {items : List α}
    (hkeep : ∀ item ∈ items, keep item = true →
      Alike kind one one (fun _ => True) (step item) (step item))
    (hskip : ∀ item ∈ items, keep item = false →
      Alike kind one one (fun _ => True) (step item) (pure [])) :
    Alike kind one one (fun _ => True) (items.mapM step >>= fun found => pure found.flatten)
      ((items.filter keep).mapM step >>= fun found => pure found.flatten) := by
  induction items with
  | nil => exact alike_pure trivial
  | cons item rest ih =>
    have hrest := ih (fun other hother => hkeep other (List.mem_cons_of_mem _ hother))
      (fun other hother => hskip other (List.mem_cons_of_mem _ hother))
    rw [gather_cons]
    cases hitem : keep item with
    | true =>
      rw [List.filter_cons_of_pos hitem, gather_cons]
      refine (hkeep item List.mem_cons_self hitem).bind fun own _ => ?_
      exact hrest.bind fun more _ => alike_pure trivial
    | false =>
      rw [List.filter_cons_of_neg (by simp [hitem])]
      have hnothing : Alike kind one one (fun _ => True)
          (step item >>= fun own => (rest.mapM step >>= fun found => pure found.flatten) >>=
            fun more => pure (own ++ more))
          (pure [] >>= fun own : List β => ((rest.filter keep).mapM step >>= fun found =>
            pure found.flatten) >>= fun more => pure (own ++ more)) :=
        (hskip item List.mem_cons_self hitem).bind fun own _ =>
          hrest.bind fun more _ => alike_pure trivial
      simpa only [pure_bind, List.nil_append, bind_pure] using hnothing

/-- **The items of lists that are gathered from may differ by some that nothing comes
of.** -/
theorem alike_gather (keep : α → Bool) {step step' : α → Run (List β)} {items others : List α}
    (hsame : items.filter keep = others.filter keep)
    (hstep : ∀ item ∈ items, keep item = true →
      Alike kind one other (∀ value ∈ ·, holds' value) (step item) (step' item))
    (hskip : ∀ item ∈ items, keep item = false →
      Alike kind one one (fun _ => True) (step item) (pure []))
    (hskip' : ∀ item ∈ others, keep item = false →
      Alike kind other other (fun _ => True) (step' item) (pure [])) :
    Alike kind one other (∀ value ∈ ·, holds' value)
      (items.mapM step >>= fun found => pure found.flatten)
      (others.mapM step' >>= fun found => pure found.flatten) := by
  intro session session' hkind htree hkind' htree'
  have hone : ∃ middle, kind middle ∧ middle.tree = one := ⟨session, hkind, htree⟩
  have hother : ∃ middle, kind middle ∧ middle.tree = other := ⟨session', hkind', htree'⟩
  have hitems : Alike kind one one (fun _ => True) _ _ := alike_skip
    (fun item hitem hkeep => ((hstep item hitem hkeep).trans (hstep item hitem hkeep).symm
      hother).mono fun _ _ => trivial) hskip
  have hothers : Alike kind other other (fun _ => True) _ _ := alike_skip
    (fun item hitem hkeep => by
      have hmem : item ∈ items.filter keep := hsame ▸ List.mem_filter.mpr ⟨hitem, hkeep⟩
      have hlike := hstep item (List.mem_filter.mp hmem).1 hkeep
      exact (hlike.symm.trans hlike hone).mono fun _ _ => trivial) hskip'
  have hkept : Alike kind one other (∀ value ∈ ·, holds' value)
      ((items.filter keep).mapM step >>= fun found => pure found.flatten)
      ((others.filter keep).mapM step' >>= fun found => pure found.flatten) := by
    rw [← hsame]
    have hall : Alike kind one other (fun found => ∀ values ∈ found, ∀ value ∈ values, holds' value)
        ((items.filter keep).mapM step) ((items.filter keep).mapM step') := by
      refine alike_mapM fun item hitem => ?_
      obtain ⟨hmem, hkeep⟩ := List.mem_filter.mp hitem
      exact hstep item hmem hkeep
    refine hall.bind fun found hfound => alike_pure fun value hvalue => ?_
    obtain ⟨values, hvalues, hvalue⟩ := List.mem_flatten.mp hvalue
    exact hfound values hvalues value hvalue
  have hall := ((hitems.trans hkept hone).trans hothers.symm hother).mono
    fun value (hvalue : (_ ∧ _) ∧ _) => hvalue.1.2
  exact hall session session' hkind htree hkind' htree'

end PackageOrder.Run
