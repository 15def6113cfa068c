/-
PackageOrder.Proofs.Config.Remembered — what requests for package configurations are
answered when one follows the other.

A request names a package, its folder and its version, and what it was answered is
remembered under a key of the folder and the version only; no version and an empty one
make the same key, and so do all names. Hence a request gets what the first successful
one with its key got (`ConfigRequest.answerAfter`), which need not be what it would get
alone: the answers are those of single requests exactly if requests that share a key
agree (`Configuration.answers_alone_iff`). They do when each folder is asked for with one
name and one version, as discovery does (`Configuration.answers_alone_of_described`).
-/
import PackageOrder.Proofs.Session

namespace PackageOrder

/-! ## Requests -/

/-- A request for the configuration of a package. -/
structure ConfigRequest where
  packageName : String
  packagePath : String
  version : Option String

namespace ConfigRequest

/-- What the answer is remembered under. -/
def key (request : ConfigRequest) : String :=
  configKey request.packagePath request.version

def ask (request : ConfigRequest) (configuration : Configuration) : Run PackageConfig :=
  configuration.forPackage request.packageName request.packagePath request.version

/-- What a request is answered when it is the only one since the configuration of the
project was read. -/
def alone (baseDir : String) (tree : FileTree) (request : ConfigRequest) :
    Except Failure PackageConfig :=
  ((do request.ask (← Configuration.load baseDir) : Run PackageConfig).runFrom { tree }).1

/-- What is remembered under a key after some requests: the answer to the first one with
that key that succeeded. -/
def remembered (baseDir : String) (tree : FileTree) (past : List ConfigRequest) (key : String) :
    Option PackageConfig :=
  past.findSome? fun earlier =>
    if earlier.key = key then (earlier.alone baseDir tree).toOption else none

/-- What a request is answered after some others. -/
def answerAfter (baseDir : String) (tree : FileTree) (past : List ConfigRequest)
    (request : ConfigRequest) : Except Failure PackageConfig :=
  match remembered baseDir tree past request.key with
  | some config => .ok config
  | none => request.alone baseDir tree

/-- A request gives the one that follows no other answer than its own. -/
def Agree (baseDir : String) (tree : FileTree) (earlier later : ConfigRequest) : Prop :=
  earlier.key = later.key → ∀ config, earlier.alone baseDir tree = .ok config →
    later.alone baseDir tree = .ok config

end ConfigRequest

/-- The answers to requests that follow one another. -/
def Configuration.answers (configuration : Configuration) :
    List ConfigRequest → Session → List (Except Failure PackageConfig)
  | [], _ => []
  | request :: rest, session =>
    let (answer, after) := (request.ask configuration).runFrom session
    answer :: configuration.answers rest after

section

variable {baseDir : String} {tree : FileTree} {past : List ConfigRequest} {request : ConfigRequest}
  {configuration : Configuration} {session : Session}

/-! ## A single request -/

/-- What a request comes to if nothing was remembered under its key. -/
def ConfigRequest.computed (configuration : Configuration) (session : Session)
    (request : ConfigRequest) : Except Failure PackageConfig × Session :=
  (configuration.compute request.packageName request.packagePath request.version).runFrom session

theorem ConfigRequest.runFrom_ask (request : ConfigRequest) (configuration : Configuration)
    (session : Session) :
    (request.ask configuration).runFrom session
      = match session.configs.lookup request.key with
        | some config => (.ok config, session)
        | none =>
          match (request.computed configuration session).1 with
          | .ok config =>
            (.ok config, { session with configs := (request.key, config) :: session.configs })
          | .error failure => (.error failure, session) :=
  configuration.runFrom_forPackage request.packageName request.packagePath request.version session

theorem Configuration.reads_load (baseDir : String) : (Configuration.load baseDir).Reads := by
  unfold Configuration.load
  refine Run.reads_tree.bind fun tree => ?_
  split
  · exact Run.reads_pure _
  · refine (Run.reads_readWith _ _).bind fun text => ?_
    split
    · exact Run.reads_pure _
    · exact Run.reads_throw _

/-- Nothing is remembered yet, so a single request is answered from the files. -/
theorem ConfigRequest.alone_eq_compute
    (hload : ((Configuration.load baseDir).runFrom { tree }).1 = .ok configuration) :
    request.alone baseDir tree = (request.computed configuration { tree }).1 := by
  have hsession := (Configuration.reads_load baseDir).runFrom_snd { tree }
  unfold alone
  rw [Run.runFrom_bind]
  rcases hrun : (Configuration.load baseDir).runFrom { tree } with ⟨failure | loaded, middle⟩
  · rw [hrun] at hload
    cases hload
  · rw [hrun] at hload hsession
    cases hload
    cases hsession
    dsimp only
    rw [runFrom_ask, List.lookup_nil]
    dsimp only
    cases (request.computed configuration { tree }).1 <;> rfl

/-! ## One request after the other -/

namespace ConfigRequest

/-- One more request, of which there was none with its key that succeeded. -/
theorem remembered_append (past : List ConfigRequest) (request : ConfigRequest) (key : String) :
    remembered baseDir tree (past ++ [request]) key
      = (remembered baseDir tree past key).or
          (if request.key = key then (request.alone baseDir tree).toOption else none) := by
  unfold remembered
  rw [List.findSome?_append]
  congr 1
  simp only [List.findSome?_cons, List.findSome?_nil]
  cases (if request.key = key then (request.alone baseDir tree).toOption else none) <;> rfl

theorem exists_of_remembered {key : String} {config : PackageConfig}
    (h : remembered baseDir tree past key = some config) :
    ∃ earlier ∈ past, earlier.key = key ∧ earlier.alone baseDir tree = .ok config := by
  obtain ⟨earlier, hmem, hearlier⟩ := List.exists_of_findSome?_eq_some h
  obtain ⟨hkey, halone⟩ := Option.ite_none_right_eq_some.mp hearlier
  refine ⟨earlier, hmem, hkey, ?_⟩
  cases hanswer : earlier.alone baseDir tree with
  | error failure =>
    rw [hanswer] at halone
    cases halone
  | ok found =>
    rw [hanswer] at halone
    exact congrArg Except.ok (Option.some.inj halone)

/-- A session in which the answers to some requests are remembered, and no others. -/
structure RememberedIn (baseDir : String) (tree : FileTree) (past : List ConfigRequest)
    (session : Session) : Prop where
  same : session.tree = tree
  configs : ∀ key, session.configs.lookup key = remembered baseDir tree past key

/-- **A request gets what was remembered under its key, or else its own answer**, and
what it succeeded with is remembered from then on. -/
theorem RememberedIn.ask
    (hload : ((Configuration.load baseDir).runFrom { tree }).1 = .ok configuration)
    (h : RememberedIn baseDir tree past session) (request : ConfigRequest) :
    ((request.ask configuration).runFrom session).1 = answerAfter baseDir tree past request
      ∧ RememberedIn baseDir tree (past ++ [request])
        ((request.ask configuration).runFrom session).2 := by
  have hrun := request.runFrom_ask configuration session
  have hcompute : (request.computed configuration session).1 = request.alone baseDir tree := by
    rw [alone_eq_compute hload]
    exact (configuration.reads_compute _ _ _).runFrom_congr h.same
  rw [h.configs, hcompute] at hrun
  unfold answerAfter
  cases hfound : remembered baseDir tree past request.key with
  | some config =>
    rw [hfound] at hrun
    rw [hrun]
    refine ⟨rfl, h.same, fun key => ?_⟩
    rw [h.configs, remembered_append]
    split
    · subst key
      rw [hfound, Option.some_or]
    · rw [Option.or_none]
  | none =>
    rw [hfound] at hrun
    cases halone : request.alone baseDir tree with
    | error failure =>
      rw [halone] at hrun
      rw [hrun]
      refine ⟨rfl, h.same, fun key => ?_⟩
      rw [h.configs, remembered_append, halone]
      split <;> exact (Option.or_none).symm
    | ok config =>
      rw [halone] at hrun
      rw [hrun]
      refine ⟨rfl, h.same, fun key => ?_⟩
      rw [remembered_append, halone]
      by_cases hkey : request.key = key
      · subst key
        rw [hfound, if_pos rfl]
        exact List.lookup_cons_self
      · have hne : (key == request.key) = false := beq_eq_false_iff_ne.mpr (Ne.symm hkey)
        rw [if_neg hkey, Option.or_none, ← h.configs]
        exact List.lookup_cons.trans (by rw [hne])

theorem answers_cons (configuration : Configuration) (request : ConfigRequest)
    (rest : List ConfigRequest) (session : Session) :
    configuration.answers (request :: rest) session
      = ((request.ask configuration).runFrom session).1
        :: configuration.answers rest ((request.ask configuration).runFrom session).2 := rfl

/-- **The answers to requests that follow others**, one by one. -/
theorem RememberedIn.answers
    (hload : ((Configuration.load baseDir).runFrom { tree }).1 = .ok configuration)
    (h : RememberedIn baseDir tree past session) (requests : List ConfigRequest) (n : Nat) :
    (configuration.answers requests session)[n]?
      = requests[n]?.map (answerAfter baseDir tree (past ++ requests.take n)) := by
  induction requests generalizing past session n with
  | nil => rfl
  | cons request rest ih =>
    obtain ⟨hanswer, hafter⟩ := h.ask hload request
    cases n with
    | zero =>
      rw [answers_cons, List.getElem?_cons_zero, List.getElem?_cons_zero, hanswer, List.take_zero,
        List.append_nil]
      rfl
    | succ n =>
      rw [answers_cons, List.getElem?_cons_succ, List.getElem?_cons_succ, ih hafter,
        List.append_assoc]
      rfl

/-- A request that was answered what it gets alone leaves that answer for all that follow
with its key. -/
theorem remembered_of_answerAfter {requests : List ConfigRequest} {i j : Nat}
    (hi : i < requests.length) (hlt : i < j) {config : PackageConfig}
    (halone : requests[i].alone baseDir tree = .ok config)
    (hanswer : answerAfter baseDir tree (requests.take i) requests[i] = .ok config) :
    remembered baseDir tree (requests.take j) requests[i].key = some config := by
  have hfirst : remembered baseDir tree (requests.take i ++ [requests[i]]) requests[i].key
      = some config := by
    rw [remembered_append, if_pos rfl, halone]
    unfold answerAfter at hanswer
    cases hfound : remembered baseDir tree (requests.take i) requests[i].key with
    | some found =>
      rw [hfound] at hanswer
      cases hanswer
      rfl
    | none => rfl
  have hprefix : requests.take i ++ [requests[i]] <+: requests.take j := by
    rw [List.take_append_getElem hi]
    exact List.take_prefix_take_left hlt
  obtain ⟨rest, hrest⟩ := hprefix
  rw [← hrest]
  unfold remembered at hfirst ⊢
  rw [List.findSome?_append, hfirst, Option.some_or]

/-- **Each request is answered what it gets alone just if requests that share a key
agree.** -/
theorem answerAfter_alone_iff (requests : List ConfigRequest) :
    (∀ n (hn : n < requests.length),
        answerAfter baseDir tree (requests.take n) requests[n] = requests[n].alone baseDir tree)
      ↔ requests.Pairwise (Agree baseDir tree) := by
  rw [List.pairwise_iff_getElem]
  constructor
  · intro h i j hi hj hlt hkey config halone
    have hfound := remembered_of_answerAfter hi hlt halone ((h i hi).trans halone)
    rw [hkey] at hfound
    rw [← h j hj, answerAfter, hfound]
  · intro h n hn
    unfold answerAfter
    cases hfound : remembered baseDir tree (requests.take n) requests[n].key with
    | none => rfl
    | some config =>
      obtain ⟨earlier, hmem, hkey, halone⟩ := exists_of_remembered hfound
      obtain ⟨i, hi, rfl⟩ := List.getElem_of_mem hmem
      rw [List.getElem_take] at hkey halone
      rw [List.length_take] at hi
      exact (h i n _ hn (by omega) hkey config halone).symm

end ConfigRequest

/-! ## All requests of a run -/

namespace Configuration

/-- **The answers to the requests of a run**, one by one. -/
theorem getElem?_answers
    (hload : (Configuration.load baseDir).runFrom { tree } = (.ok configuration, session))
    (requests : List ConfigRequest) (n : Nat) :
    (configuration.answers requests session)[n]?
      = requests[n]?.map (ConfigRequest.answerAfter baseDir tree (requests.take n)) := by
  have hsession : session = { tree } := by
    rw [← (Configuration.reads_load baseDir).runFrom_snd { tree }, hload]
  subst hsession
  have hempty : ConfigRequest.RememberedIn baseDir tree [] { tree } := ⟨rfl, fun _ => rfl⟩
  exact hempty.answers (congrArg Prod.fst hload) requests n

/-- The answers are those of single requests if each of them is. -/
theorem answers_eq_map_iff
    (hload : (Configuration.load baseDir).runFrom { tree } = (.ok configuration, session))
    (requests : List ConfigRequest) :
    configuration.answers requests session = requests.map (ConfigRequest.alone baseDir tree)
      ↔ ∀ n (hn : n < requests.length),
        ConfigRequest.answerAfter baseDir tree (requests.take n) requests[n]
          = requests[n].alone baseDir tree := by
  rw [List.ext_getElem?_iff]
  refine forall_congr' fun n => ?_
  rw [getElem?_answers hload, List.getElem?_map]
  by_cases hn : n < requests.length
  · rw [List.getElem?_eq_getElem hn, Option.map_some, Option.map_some, Option.some_inj]
    exact ⟨fun h _ => h, fun h => h hn⟩
  · rw [List.getElem?_eq_none (Nat.le_of_not_lt hn), Option.map_none, Option.map_none]
    exact ⟨fun _ hlt => absurd hlt hn, fun _ => rfl⟩

/-- **What requests are answered that follow one another**: each gets what the first
successful one with its key got, or else its own answer, and those are the answers of single
requests exactly if requests that share a key agree. -/
theorem answers_alone_iff
    (hload : (Configuration.load baseDir).runFrom { tree } = (.ok configuration, session))
    (requests : List ConfigRequest) :
    (∀ n, (configuration.answers requests session)[n]?
        = requests[n]?.map (ConfigRequest.answerAfter baseDir tree (requests.take n)))
      ∧ (configuration.answers requests session = requests.map (ConfigRequest.alone baseDir tree)
        ↔ requests.Pairwise (ConfigRequest.Agree baseDir tree)) :=
  ⟨getElem?_answers hload requests,
    (answers_eq_map_iff hload requests).trans (ConfigRequest.answerAfter_alone_iff requests)⟩

/-- **Nothing is mixed up if each folder is asked for with one name and one version**, and
no version has an `@` in it. -/
theorem answers_alone_of_described
    (hload : (Configuration.load baseDir).runFrom { tree } = (.ok configuration, session))
    {requests : List ConfigRequest} (described : String → String × Option String)
    (hdescribed : ∀ request ∈ requests,
      (request.packageName, request.version) = described request.packagePath)
    (hplain : ∀ request ∈ requests, ∀ version, request.version = some version →
      '@' ∉ version.toList) :
    configuration.answers requests session = requests.map (ConfigRequest.alone baseDir tree) := by
  rw [answers_eq_map_iff hload, ConfigRequest.answerAfter_alone_iff]
  refine List.pairwise_of_forall_mem_list ?_
  intro earlier hearlier later hlater hkey config halone
  have hpath := configKey_inj (hplain earlier hearlier) (hplain later hlater) hkey
  have hsame := (hdescribed earlier hearlier).trans (hpath ▸ (hdescribed later hlater).symm)
  obtain ⟨hname, hversion⟩ := Prod.mk.inj hsame
  have heq : earlier = later := by
    cases earlier
    cases later
    cases hpath
    cases hname
    cases hversion
    rfl
  exact heq ▸ halone

end Configuration

end

/-- A project whose configuration ignores a part of some versions of a package. -/
def ignoringTree : FileTree where
  root := [("project", .folder [("ngcc.config.json",
    .file "\x7b\"packages\":\x7b\"a@^1.0.0\":\x7b\"entryPoints\":\x7b\"./sub\":\x7b\"ignore\":true\x7d\x7d\x7d\x7d\x7d".toUTF8)])]

/-- Requests for one folder, without a version, with an empty one and by another name. -/
def sameFolderRequests : List ConfigRequest :=
  [⟨"a", "/project/node_modules/a", none⟩, ⟨"a", "/project/node_modules/a", some ""⟩,
    ⟨"b", "/project/node_modules/a", none⟩]

theorem answers_alone_iff_sameFolder :
    ∃ configuration session, (Configuration.load "/project").runFrom { tree := ignoringTree }
        = (.ok configuration, session)
      ∧ (∀ n, (configuration.answers sameFolderRequests session)[n]?
          = sameFolderRequests[n]?.map
              (ConfigRequest.answerAfter "/project" ignoringTree (sameFolderRequests.take n)))
      ∧ (configuration.answers sameFolderRequests session
          = sameFolderRequests.map (ConfigRequest.alone "/project" ignoringTree)
        ↔ sameFolderRequests.Pairwise (ConfigRequest.Agree "/project" ignoringTree)) := by
  have hok : ((Configuration.load "/project").runFrom { tree := ignoringTree }).1.toOption.isSome
      = true := by
    decide +kernel
  rcases hrun : (Configuration.load "/project").runFrom { tree := ignoringTree } with
    ⟨failure | configuration, session⟩
  · rw [hrun] at hok
    cases hok
  · exact ⟨configuration, session, rfl, Configuration.answers_alone_iff hrun sameFolderRequests⟩

/-- **An empty version gets the configuration that no version gets, and so does another
package.** -/
theorem answers_mix_requests :
    ∃ configuration session, (Configuration.load "/project").runFrom { tree := ignoringTree }
        = (.ok configuration, session)
      ∧ configuration.answers sameFolderRequests session
        ≠ sameFolderRequests.map (ConfigRequest.alone "/project" ignoringTree) := by
  have hanswers : ((Configuration.load "/project").runFrom { tree := ignoringTree }).1.toOption.map
      (fun configuration => (configuration.answers sameFolderRequests
        ((Configuration.load "/project").runFrom { tree := ignoringTree }).2).map
          fun answer => answer.toOption.map (·.range))
        = some [some "^1.0.0", some "^1.0.0", some "^1.0.0"] := by
    decide +kernel
  have halone : (sameFolderRequests.map (ConfigRequest.alone "/project" ignoringTree)).map
      (fun answer => answer.toOption.map (·.range)) = [some "^1.0.0", some "*", some "*"] := by
    decide +kernel
  rcases hrun : (Configuration.load "/project").runFrom { tree := ignoringTree } with
    ⟨failure | configuration, session⟩
  · rw [hrun] at hanswers
    cases hanswers
  · refine ⟨configuration, session, rfl, fun heq => ?_⟩
    rw [hrun] at hanswers
    rw [← heq] at halone
    exact absurd ((Option.some.inj hanswers).symm.trans halone) (by decide)

end PackageOrder
