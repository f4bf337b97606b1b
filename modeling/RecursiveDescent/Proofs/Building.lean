import RecursiveDescent.Deferred
import RecursiveDescent.Proofs.Upkeep

/-!
# What becomes of the store

In a run the store changes in one way only: some of the rules that were not built yet are built,
each of them once, and its build is announced in the log. So the growth of the store is something
that can be kept up, and for a grammar the rules are those of its own nodes.
-/
namespace RecursiveDescent

def Event.built? : Event → Option NodeId
  | .building _ rule _ => some rule
  | .trying _ _ _ | .matched _ _ _ _ | .failed _ _ _ => none

namespace Store

def announced (s : Store) : List NodeId :=
  s.log.toList.filterMap Event.built?

theorem announced_emit (s : Store) (e : Event) :
    (s.emit e).announced = s.announced ++ e.built?.toList := by
  simp only [announced, emit, Array.toList_push, List.filterMap_append]
  cases h : e.built? with
  | none => rw [List.filterMap_cons_none h]; rfl
  | some rule => rw [List.filterMap_cons_some h]; rfl

/-- From `s` to `t` the `new` rules were built, the last one first. -/
structure Builds (s t : Store) (new : List NodeId) : Prop where
  built : t.built = new ++ s.built
  announced : t.announced = s.announced ++ new.reverse
  once : new.Nodup
  notBefore : ∀ rule ∈ new, rule ∉ s.built

/-- From `s` to `t` nothing is dropped, and nothing is built but some of `rules`. -/
def Grows (rules : List NodeId) (s t : Store) : Prop :=
  t.dropped = s.dropped ∧ ∃ new, s.Builds t new ∧ new ⊆ rules

variable {rules : List NodeId} {s t u : Store}

theorem Builds.refl (s : Store) : s.Builds s [] :=
  ⟨rfl, (List.append_nil _).symm, .nil, nofun⟩

/-- What is built one after the other is announced in that order. -/
theorem Builds.trans {first second : List NodeId} (h : s.Builds t first)
    (h' : t.Builds u second) : s.Builds u (second ++ first) where
  built := by rw [h'.built, h.built, List.append_assoc]
  announced := by rw [h'.announced, h.announced, List.reverse_append, List.append_assoc]
  once := by
    refine List.nodup_append.mpr ⟨h'.once, h.once, ?_⟩
    rintro rule later _ earlier rfl
    refine h'.notBefore rule later ?_
    rw [h.built]
    exact List.mem_append_left _ earlier
  notBefore := by
    intro rule built
    rcases List.mem_append.mp built with later | earlier
    · have := h'.notBefore rule later
      rw [h.built] at this
      exact fun before => this (List.mem_append_right _ before)
    · exact h.notBefore rule earlier

theorem Grows.refl (rules : List NodeId) (s : Store) : s.Grows rules s :=
  ⟨rfl, [], .refl s, nofun⟩

theorem Grows.trans (h : s.Grows rules t) (h' : t.Grows rules u) : s.Grows rules u := by
  obtain ⟨dropped, first, built, among⟩ := h
  obtain ⟨dropped', second, built', among'⟩ := h'
  exact ⟨dropped'.trans dropped, second ++ first, built.trans built',
    List.append_subset.mpr ⟨among', among⟩⟩

theorem grows_emit (rules : List NodeId) (s : Store) {e : Event} (h : e.built? = none) :
    s.Grows rules (s.emit e) := by
  refine ⟨rfl, [], ⟨rfl, ?_, .nil, nofun⟩, nofun⟩
  rw [announced_emit, h]
  rfl

theorem not_mem_built (h : ¬ s.isBuilt rule = true) : rule ∉ s.built := by
  simpa [isBuilt] using h

/-- A rule that was not built is announced once and built. -/
theorem builds_afterBuild {rule : NodeId} (h : ¬ s.isBuilt rule = true) (kind : RuleKind)
    (label : String) : s.Builds (s.afterBuild kind rule label) [rule] := by
  rw [afterBuild, if_neg h]
  refine ⟨rfl, announced_emit s _, List.pairwise_singleton _ rule, ?_⟩
  exact fun _ only => List.mem_singleton.mp only ▸ not_mem_built h

/-- What the first use of a rule does to the store, and each further one. -/
theorem grows_afterBuild {rule : NodeId} (among : rule ∈ rules) (kind : RuleKind)
    (label : String) : s.Grows rules (s.afterBuild kind rule label) := by
  by_cases h : s.isBuilt rule = true
  · rw [afterBuild, if_pos h]
    exact .refl rules s
  · have builds := builds_afterBuild h kind label
    refine ⟨?_, [rule], builds, List.cons_subset.mpr ⟨among, List.nil_subset _⟩⟩
    rw [afterBuild, if_neg h]
    rfl

end Store

/-- The growth of the store as an upkeep. Readers may stand anywhere. -/
def Upkeep.growth (rules : List NodeId) : Upkeep where
  place _ := True
  change := Store.Grows rules
  whenHalted := True
  rules
  change_refl := .refl rules
  change_trans := .trans
  change_afterBuild _ kind label among := Store.grows_afterBuild among kind label
  back _ _ := trivial
  take _ _ := trivial
  takeBytes _ _ := trivial

namespace Run

variable {α : Type} {rules : List NodeId} {r : Run α}

/-- However the run ends, of its store it is known how it grows. -/
def Grows (rules : List NodeId) (r : Run α) : Prop :=
  ∀ s : State, s.store.Grows rules (r s).state.store

theorem grows_of_still (still : ∀ s, (r s).state.store = s.store) : r.Grows rules := by
  intro s
  rw [still]
  exact .refl rules s.store

/-- Growth is a form of upkeep, so that what is known of that holds of it. -/
theorem grows_iff_keeps : r.Grows rules ↔ (Upkeep.growth rules).Keeps r := by
  refine forall_congr' fun s => ?_
  cases r s with
  | ok a t => exact ⟨fun grown _ => ⟨trivial, grown⟩, fun kept => (kept trivial).2⟩
  | failed f t => exact ⟨fun grown _ => ⟨trivial, grown⟩, fun kept => (kept trivial).2⟩
  | halted cause t => exact ⟨fun grown _ _ => grown, fun kept => kept trivial trivial⟩

end Run

/-- An attempt is logged, but nothing is built for it. -/
theorem Parser.grows_traced {α : Type} {rules : List NodeId} {p : Parser α} (node : NodeId)
    (name : String) (hp : p.run.Grows rules) : (traced node name p).run.Grows rules := by
  intro s
  let tried : State := ⟨s.reader, s.store.emit (.trying node name s.reader.position)⟩
  have grown : s.store.Grows rules (p.run tried).state.store :=
    (s.store.grows_emit rules rfl).trans (hp tried)
  rw [traced_run]
  cases hrun : p.run tried with
  | ok m t =>
    rw [hrun] at grown
    exact grown.trans (t.store.grows_emit rules rfl)
  | failed f t =>
    rw [hrun] at grown
    exact grown.trans (t.store.grows_emit rules rfl)
  | halted cause t => rwa [hrun] at grown

end RecursiveDescent
