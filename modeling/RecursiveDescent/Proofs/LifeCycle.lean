import RecursiveDescent.Proofs.Apart

/-!
# The stages of a deferred rule

Seen from outside a deferred rule is at one of few stages: it was built or not, and it was dropped
or not. Each request takes it from stage to stage, whatever else happens in its body, and the stage
decides what is answered. The rule is built by its first parse and never again, and its handle
answers as the rule does between the build and the drop, and otherwise fails where it stands.
-/
namespace RecursiveDescent

namespace Store

variable {rules : List NodeId} {s t : Store} {rule : NodeId}

theorem isBuilt_of_count {b : Bool} (h : s.built.count rule = b.toNat) : s.isBuilt rule = b := by
  cases b with
  | false =>
    have absent : rule ∉ s.built := List.count_eq_zero.mp h
    simpa [isBuilt] using absent
  | true =>
    have present : rule ∈ s.built := List.count_pos_iff.mp (by rw [h]; decide)
    simpa [isBuilt] using present

/-- A rule that is not among those that may be built is not. -/
theorem Grows.count_of_not_mem (h : s.Grows rules t) (outside : rule ∉ rules) :
    t.built.count rule = s.built.count rule ∧
      t.announced.count rule = s.announced.count rule := by
  obtain ⟨-, new, builds, among⟩ := h
  have none : new.count rule = 0 := List.count_eq_zero.mpr fun built => outside (among built)
  constructor
  · rw [builds.built, List.count_append, none, Nat.zero_add]
  · rw [builds.announced, List.count_append, List.count_reverse, none, Nat.add_zero]

/-- After its first use a rule was built once, and it was announced if it was built just now. -/
theorem count_afterBuild {b : Bool} (h : s.built.count rule = b.toNat) (kind : RuleKind)
    (label : String) :
    (s.afterBuild kind rule label).built.count rule = 1 ∧
      (s.afterBuild kind rule label).announced.count rule =
        s.announced.count rule + (!b).toNat := by
  have built := isBuilt_of_count h
  cases b with
  | true =>
    rw [afterBuild, if_pos built]
    exact ⟨h, rfl⟩
  | false =>
    have builds : s.Builds (s.afterBuild kind rule label) [rule] :=
      builds_afterBuild (by simp [built]) kind label
    constructor
    · rw [builds.built, List.count_append, h]
      simp
    · rw [builds.announced, List.count_append]
      simp

end Store

namespace Deferred

variable (d : Deferred)

def scope : Scope :=
  match d.kind with
  | .lazy => []
  | .recursive => [⟨d.label, [], d.body⟩]

/-- The run of the parser that was built, as deep as its input asks for. -/
def made : Run (Match Value) := fun s =>
  (Grammar.parser (Grammar.enter (d.grammar.depthFor s.reader.bytesLeft)) d.scope [0] d.body).run s

def gone (r : Reader) : Failure :=
  .here s!"Recursive rule {d.label} is no longer available" d.label r.found r

/-- What came of the handle in a build that found the given store. -/
def probed (store : Store) : Option (Outcome (Match Value)) :=
  match d.kind with
  | .lazy => none
  | .recursive => d.probe.map fun text =>
    .failed (d.gone (Reader.start text)) ⟨Reader.start text, store⟩

variable {d}

/-! ## The rule and its handle -/

/-- The rule runs as what was built, after it was built. -/
theorem parser_run (s : State) :
    d.parser.run s = d.made ⟨s.reader, s.store.afterBuild d.kind [] d.label⟩ := by
  obtain ⟨kind, label, body, probe⟩ := d
  cases kind <;> exact Parser.deferred_run _ _ _ _ s

/-- Before the build and after the drop a handle fails, and says which rule is gone. -/
theorem handle_run_of_unavailable {r : Reader} {store : Store}
    (h : store.isAvailable [] = false) :
    d.handle.run ⟨r, store⟩ = .failed (d.gone r) ⟨r, store⟩ := by
  refine (Parser.reference_run _ _ _ _).trans ?_
  rw [if_neg (by simp [h])]
  have found : Run.found ⟨r, store⟩ = .ok r.found ⟨r, store⟩ := by
    rw [Run.found, Run.bind_apply, Reader.found]
    dsimp only [Run.reader]
    cases r.peek? <;> rfl
  rw [Parser.unavailable, Run.bind_apply, found]
  rfl

/-- Where the rule is available, the handle runs as what was built, and so does the rule. -/
theorem handle_run_of_available (recursive : d.kind = .recursive) {r : Reader} {store : Store}
    (h : store.isAvailable [] = true) :
    d.handle.run ⟨r, store⟩ = d.made ⟨r, store⟩ ∧ d.parser.run ⟨r, store⟩ = d.made ⟨r, store⟩ := by
  have built : store.isBuilt [] = true := by
    rw [Store.isAvailable, Bool.and_eq_true] at h
    exact h.1
  obtain ⟨kind, label, body, probe⟩ := d
  obtain rfl : kind = .recursive := recursive
  constructor
  · refine (Parser.reference_run _ _ _ _).trans ?_
    rw [if_pos h]
    rfl
  · rw [parser_run, Store.afterBuild, if_pos built]

/-- While the rule is built, its handle answers as one that is not available. -/
theorem tryHandle_eq {store : Store} (h : store.isBuilt [] = false) :
    d.tryHandle store = d.probed store := by
  have unavailable : store.isAvailable [] = false := by rw [Store.isAvailable, h, Bool.false_and]
  rw [tryHandle, probed]
  cases d.kind with
  | «lazy» => rfl
  | recursive =>
    cases d.probe with
    | none => rfl
    | some text => exact congrArg some (handle_run_of_unavailable unavailable)

/-- The deferred parser as a grammar asks of the store no more than its body does. -/
theorem storeBlind_grammar (body : d.body.StoreBlind) : d.grammar.StoreBlind := by
  obtain ⟨kind, label, body, probe⟩ := d
  cases kind <;> exact .unary nofun rfl body

/-- What was built builds rules inside the body only. -/
theorem grows_made (body : d.body.StoreBlind) : d.made.Grows (d.body.deferredNodes [0]) := by
  obtain ⟨kind, label, inner, probe⟩ := d
  intro s
  cases kind with
  | «lazy» => exact body.grows_parserWithin _ [0] s
  | recursive =>
    exact Grammar.StoreBlind.grows_enter ⟨label, [], inner⟩ body (_ + 1) s

theorem root_not_mem_body (body : d.body.StoreBlind) : [] ∉ d.body.deferredNodes [0] := by
  intro inside
  have below := (Grammar.Everywhere.suffix_of_mem body inside).length_le
  exact absurd below (by decide)

/-- Runs of the rule end alike whatever was built before, unless something was dropped. -/
theorem alike_run (body : d.body.StoreBlind) (r : Reader) {store : Store}
    (undropped : store.dropped = []) :
    (d.parser.run ⟨r, store⟩).Alike (d.parser.run ⟨r, .empty⟩) :=
  Parser.alike_of_undropped ((storeBlind_grammar body).corresponds []) r undropped rfl

/-! ## Stages -/

structure Stage where
  built : Bool
  dropped : Bool
deriving DecidableEq

namespace Stage

def start : Stage := ⟨false, false⟩

/-- A parse builds a rule that was not dropped. -/
def next (stage : Stage) : Request → Stage
  | .parse _ => ⟨stage.built || !stage.dropped, stage.dropped⟩
  | .drop => ⟨stage.built, true⟩
  | .label | .parseByHandle _ => stage

end Stage

/-- What the life tells at a stage. The build, if there was one, tried the handle when the rule did
not count as built. -/
structure At (d : Deferred) (stage : Stage) (life : Life) : Prop where
  isBuilt : life.isBuilt = stage.built
  builds : life.builds = stage.built.toNat
  isDropped : life.isDropped = stage.dropped
  undropped : stage.dropped = false → life.store.dropped = []
  probed : if stage.built then ∃ store, store.isBuilt [] = false ∧ life.probed = d.probed store
    else life.probed = none

/-- What is answered at a stage. Parses are told by what the rule does where nothing is built. -/
inductive Gives (d : Deferred) : Stage → Request → Answer → Prop
  | label {built : Bool} : Gives d ⟨built, false⟩ .label (.label d.label)
  | labelGone {built : Bool} : Gives d ⟨built, true⟩ .label .nothing
  | parse {built : Bool} {input : Text} {o : Outcome (Match Value)} :
    o.Alike (d.parser.parse input) → Gives d ⟨built, false⟩ (.parse input) (.outcome o)
  | parseGone {built : Bool} {input : Text} : Gives d ⟨built, true⟩ (.parse input) .nothing
  | byHandle {r : Reader} {o : Outcome (Match Value)} : d.kind = .recursive →
    o.Alike (d.parser.run ⟨r, .empty⟩) →
    Gives d ⟨true, false⟩ (.parseByHandle r) (.byHandle d.label o)
  | handleGone {r : Reader} {o : Outcome (Match Value)} : d.kind = .recursive →
    o.Alike (.failed (d.gone r) ⟨r, .empty⟩) →
    Gives d ⟨true, true⟩ (.parseByHandle r) (.byHandle d.label o)
  | noHandle {stage : Stage} {r : Reader} : d.kind = .lazy ∨ stage.built = false →
    Gives d stage (.parseByHandle r) .nothing
  | drop {stage : Stage} : Gives d stage .drop .nothing

/-- One request: what is answered, the stage after it, and how often the build was announced, which
is once if the rule got built and else not at all. -/
structure Step (d : Deferred) (stage : Stage) (request : Request) (answer : Answer × Life) :
    Prop where
  gives : d.Gives stage request answer.1
  after : d.At (stage.next request) answer.2
  announced : answer.2.store.announced.count [] + stage.built.toNat =
    (stage.next request).built.toNat

inductive Lived (d : Deferred) : Stage → List Request → List (Answer × Life) → Prop
  | done {stage : Stage} : Lived d stage [] []
  | more {stage : Stage} {request : Request} {requests : List Request} {answer : Answer × Life}
    {answers : List (Answer × Life)} : d.Step stage request answer →
    Lived d (stage.next request) requests answers →
    Lived d stage (request :: requests) (answer :: answers)

variable {stage : Stage} {life : Life}

theorem at_start : d.At .start .start :=
  ⟨rfl, rfl, rfl, fun _ => rfl, rfl⟩

theorem At.clearLog (h : d.At stage life) : d.At stage life.clearLog :=
  ⟨h.isBuilt, h.builds, h.isDropped, h.undropped, h.probed⟩

/-- A run that builds inside the body at most keeps the rule at its stage. -/
theorem At.grow (body : d.body.StoreBlind) (h : d.At stage life) {store : Store}
    (grown : life.store.Grows (d.body.deferredNodes [0]) store) :
    d.At stage { life with store } ∧
      store.announced.count [] = life.store.announced.count [] := by
  obtain ⟨built, announced⟩ := grown.count_of_not_mem (root_not_mem_body body)
  have builds := built.trans h.builds
  refine ⟨⟨Store.isBuilt_of_count builds, builds, ?_, ?_, h.probed⟩, announced⟩
  · exact (congrArg (List.contains · []) grown.1).trans h.isDropped
  · exact fun undropped => grown.1.trans (h.undropped undropped)

theorem store_build (life : Life) :
    (d.build life).store = life.store.afterBuild d.kind [] d.label := by
  rw [build, Store.afterBuild]
  by_cases built : life.isBuilt = true
  · have present : life.store.isBuilt [] = true := built
    rw [if_pos built, if_pos present]
  · have absent : ¬ life.store.isBuilt [] = true := built
    have before : (life.store.emit (.building d.kind [] d.label)).isBuilt [] = false :=
      Bool.eq_false_iff.mpr absent
    have still : ((d.tryHandle (life.store.emit (.building d.kind [] d.label))).map
        (·.state.store)).getD (life.store.emit (.building d.kind [] d.label)) =
          life.store.emit (.building d.kind [] d.label) := by
      rw [tryHandle_eq before, probed]
      cases d.kind with
      | «lazy» => rfl
      | recursive => cases d.probe <;> rfl
    rw [if_neg built, if_neg absent]
    exact congrArg (Store.markBuilt · []) still

/-- After the first parse begins, and in each one after it, the rule is built. -/
theorem At.build {built : Bool} (h : d.At ⟨built, false⟩ life) :
    d.At ⟨true, false⟩ (d.build life) ∧ (d.build life).store.announced.count [] =
      life.store.announced.count [] + (!built).toNat := by
  obtain ⟨once, announced⟩ := Store.count_afterBuild h.builds d.kind d.label
  have undropped : (d.build life).store.dropped = [] := by
    rw [store_build, Store.dropped_afterBuild]
    exact h.undropped rfl
  rw [← store_build] at once announced
  have isBuilt : (d.build life).isBuilt = true := Store.isBuilt_of_count (b := true) once
  refine ⟨⟨isBuilt, once, ?_, fun _ => undropped, ?_⟩, announced⟩
  · rw [Life.isDropped, undropped]
    rfl
  · rw [if_pos rfl]
    have isBuilt := h.isBuilt
    cases built with
    | true =>
      rw [Deferred.build, if_pos isBuilt]
      exact h.probed
    | false =>
      have before : (life.store.emit (.building d.kind [] d.label)).isBuilt [] = false := isBuilt
      rw [Deferred.build, if_neg (by simp [isBuilt])]
      exact ⟨_, before, tryHandle_eq before⟩

/-- A handle is available between the build and the drop. -/
theorem isAvailable_of_at (h : d.At stage life) :
    life.store.isAvailable [] = (stage.built && !stage.dropped) := by
  have isBuilt : life.store.isBuilt [] = stage.built := h.isBuilt
  have isDropped : life.store.dropped.contains [] = stage.dropped := h.isDropped
  rw [Store.isAvailable, isBuilt, isDropped]

/-! ## One request after the other -/

/-- A parse builds the rule if that was not done, and runs its body. -/
theorem step_parse (body : d.body.StoreBlind) (h : d.At stage life)
    (empty : life.store.announced.count [] = 0) (input : Text) :
    d.Step stage (.parse input) (d.answer life (.parse input)) := by
  obtain ⟨built, dropped⟩ := stage
  cases dropped with
  | true =>
    rw [answer, if_pos h.isDropped]
    refine ⟨.parseGone, ?_, ?_⟩
    · simpa [Stage.next] using h
    · simp [Stage.next, empty]
  | false =>
    obtain ⟨now, announced⟩ := h.build
    have isDropped : ¬ life.isDropped = true := Bool.eq_false_iff.mp h.isDropped
    have isBuilt : (d.build life).store.isBuilt [] = true := now.isBuilt
    have run : d.parser.run ⟨Reader.start input, (d.build life).store⟩ =
        d.made ⟨Reader.start input, (d.build life).store⟩ := by
      rw [parser_run, Store.afterBuild, if_pos isBuilt]
    have grown := grows_made body ⟨Reader.start input, (d.build life).store⟩
    rw [← run] at grown
    obtain ⟨after, kept⟩ := now.grow body grown
    rw [answer, if_neg isDropped]
    refine ⟨.parse (alike_run body _ (now.undropped rfl)), ?_, ?_⟩
    · simpa [Stage.next] using after
    · dsimp only
      rw [kept, announced, empty]
      cases built <;> rfl

/-- A parse by the handle builds nothing. -/
theorem step_parseByHandle (body : d.body.StoreBlind) (h : d.At stage life)
    (empty : life.store.announced.count [] = 0) (r : Reader) :
    d.Step stage (.parseByHandle r) (d.answer life (.parseByHandle r)) := by
  have isBuilt := h.isBuilt
  have available := isAvailable_of_at h
  obtain ⟨built, dropped⟩ := stage
  by_cases hasHandle : d.hasHandle life = true
  · obtain ⟨recursive, present⟩ : d.kind = .recursive ∧ life.isBuilt = true := by
      simpa [Deferred.hasHandle] using hasHandle
    obtain rfl : built = true := isBuilt.symm.trans present
    rw [answer, if_pos hasHandle]
    cases dropped with
    | true =>
      have run : d.handle.run ⟨r, life.store⟩ = .failed (d.gone r) ⟨r, life.store⟩ :=
        handle_run_of_unavailable available
      dsimp only
      rw [run]
      exact ⟨.handleGone recursive .failed, h, by simp [Stage.next, Outcome.state, empty]⟩
    | false =>
      obtain ⟨byHandle, byRule⟩ := handle_run_of_available recursive (r := r) available
      have grown := grows_made body ⟨r, life.store⟩
      rw [← byRule] at grown
      obtain ⟨after, kept⟩ := h.grow body grown
      dsimp only
      rw [byHandle, ← byRule]
      refine ⟨.byHandle recursive (alike_run body r (h.undropped rfl)), after, ?_⟩
      rw [kept, empty]
      rfl
  · rw [answer, if_neg hasHandle]
    refine ⟨.noHandle ?_, h, by simp [Stage.next, empty]⟩
    cases kind : d.kind with
    | «lazy» => exact .inl rfl
    | recursive =>
      right
      simpa [Deferred.hasHandle, kind, isBuilt] using hasHandle

/-- One request: the answer and the next stage, in a log of its own. -/
theorem step_answer (body : d.body.StoreBlind) (h : d.At stage life) (request : Request) :
    d.Step stage request (d.answer life.clearLog request) := by
  have cleared := h.clearLog
  cases request with
  | parse input => exact step_parse body cleared rfl input
  | parseByHandle r => exact step_parseByHandle body cleared rfl r
  | label =>
    refine ⟨?_, cleared, Nat.zero_add _⟩
    have isDropped := cleared.isDropped
    obtain ⟨built, dropped⟩ := stage
    rw [answer, isDropped]
    cases dropped with
    | true => exact .labelGone
    | false => exact .label
  | drop =>
    have isDropped : (d.answer life.clearLog .drop).2.isDropped = true := by
      simp [answer, Life.isDropped, Store.drop]
    exact ⟨.drop, ⟨h.isBuilt, h.builds, isDropped, nofun, h.probed⟩, Nat.zero_add _⟩

/-- Any number of requests, from any stage. -/
theorem lived_answers (body : d.body.StoreBlind) (h : d.At stage life) (requests : List Request) :
    d.Lived stage requests (d.answers life requests) := by
  induction requests generalizing stage life with
  | nil => exact .done
  | cons request requests ih =>
    have step := step_answer body h request
    exact .more step (ih step.after)

/-- All in all the build is announced once at most. -/
theorem Lived.announced_le {requests : List Request} {answers : List (Answer × Life)}
    (h : d.Lived stage requests answers) :
    (answers.flatMap (·.2.store.announced)).count [] + stage.built.toNat ≤ 1 := by
  induction h with
  | @done stage => cases stage.built <;> decide
  | more step _ ih =>
    have announced := step.announced
    rw [List.flatMap_cons, List.count_append]
    omega

/-- A rule from its start on, whatever is asked of it, and its handle wherever it is used. -/
theorem lives (body : d.body.StoreBlind) :
    (∀ requests, d.Lived .start requests (d.answers .start requests) ∧
      ((d.answers .start requests).flatMap (·.2.store.announced)).count [] ≤ 1) ∧
    (∀ s, d.parser.run s = d.made ⟨s.reader, s.store.afterBuild d.kind [] d.label⟩) ∧
    (∀ r store, store.isAvailable [] = false →
      d.handle.run ⟨r, store⟩ = .failed (d.gone r) ⟨r, store⟩) ∧
    (d.kind = .recursive → ∀ r store, store.isAvailable [] = true →
      d.handle.run ⟨r, store⟩ = d.made ⟨r, store⟩ ∧
        d.parser.run ⟨r, store⟩ = d.made ⟨r, store⟩) := by
  refine ⟨fun requests => ?_, parser_run, fun r store => handle_run_of_unavailable,
    fun recursive r store => handle_run_of_available recursive⟩
  have lived := lived_answers body at_start requests
  exact ⟨lived, lived.announced_le⟩

def nesting : Deferred where
  kind := .recursive
  label := "nesting"
  body := .optional (.between (.codePoint "(" '(') (.lazy "inside" (.reference "nesting"))
    (.codePoint ")" ')'))
  probe := some ['(', ')']

theorem nesting_storeBlind : nesting.body.StoreBlind := by
  have leaf : ∀ label c, (Grammar.codePoint label c).StoreBlind := fun _ _ => .leaf nofun rfl
  have inner : (Grammar.reference "nesting").StoreBlind := .leaf nofun rfl
  exact .unary nofun rfl (.ternary nofun rfl (leaf _ _) (.unary nofun rfl inner) (leaf _ _))

/-- Asked for its label before the build and after the drop, with two parses and the handle in
between, and the handle once more at the end. -/
def requests : List Request :=
  [.label, .parseByHandle (Reader.start ['(']), .parse ['(', '(', ')', ')'],
    .parseByHandle (Reader.startAt ['x', '(', ')'] ⟨1, 1, 2⟩), .parse [], .drop, .label,
    .parseByHandle (Reader.start ['(', ')'])]

theorem nesting_lives :
    nesting.body.StoreBlind ∧ nesting.Lived .start requests (nesting.answers .start requests) ∧
      ((nesting.answers .start requests).flatMap (·.2.store.announced)).count [] ≤ 1 ∧
      Store.empty.isAvailable [] = false ∧
      nesting.handle.run ⟨Reader.start ['(', ')'], .empty⟩ =
        .failed (nesting.gone (Reader.start ['(', ')'])) ⟨Reader.start ['(', ')'], .empty⟩ ∧
      nesting.kind = .recursive ∧ (Store.empty.markBuilt []).isAvailable [] = true ∧
      nesting.handle.run ⟨Reader.start ['(', ')'], Store.empty.markBuilt []⟩ =
        nesting.made ⟨Reader.start ['(', ')'], Store.empty.markBuilt []⟩ := by
  obtain ⟨lived, -, unavailable, available⟩ := lives nesting_storeBlind
  have before : Store.empty.isAvailable [] = false := rfl
  have after : (Store.empty.markBuilt []).isAvailable [] = true := rfl
  exact ⟨nesting_storeBlind, (lived requests).1, (lived requests).2, before,
    unavailable _ _ before, rfl, after, (available rfl _ _ after).1⟩

end Deferred

end RecursiveDescent
