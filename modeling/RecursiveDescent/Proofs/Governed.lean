import RecursiveDescent.Deferred
import RecursiveDescent.Proofs.Discipline
import RecursiveDescent.Proofs.Parts

/-!
# Grammars under a discipline

A discipline that the leaves of one's own keep is kept by all of a grammar, whatever rules are
entered from where and to whatever depth. Where the input ends within a literal, the literal names
itself in the failure, so a discipline has to admit those that occur.
-/
namespace RecursiveDescent.Discipline

open Grammar

/-- The literals of the grammars `P` may fail because the input ends within them. -/
class AdmitsLiterals (D : Discipline) (P : Grammar → Prop) : Prop where
  literal {label : String} {text : Text} {r : Reader} : P (.literal label text) → D.start r →
    r.remaining.EndsWithin text →
    D.raised r (.here Parser.endOfFile (String.ofList text) endMark r)
  literalIgnoringCase {label : String} {text : Text} {r : Reader} :
    P (.literalIgnoringCase label text) → D.start r →
    r.remaining.lowercase.EndsWithin text.lowercase →
    D.raised r (.here Parser.endOfFile (String.ofList text) endMark r)

variable {D : Discipline} {P : Grammar → Prop} [D.AdmitsLiterals P] {g : Grammar} {scope : Scope}

/-- One case for each kind of node, by the rule of its parser. The bodies that references enter
are not parts of the node, so they are left to `bodies`. -/
theorem governs_node {run : Rule → Scope → Run (Match Value)}
    (leaves : ∀ p, P (.custom p) → D.Governs p.run)
    (bodies : ∀ (rule : Rule) (outer : Scope), rule.body.Everywhere P → InScope P outer →
      D.Governs (run rule outer))
    (hg : g.Everywhere P) (hscope : InScope P scope) (node : NodeId) :
    D.Governs (parser run scope node g).run := by
  induction hg generalizing scope node with
  | node here below ih =>
    rename_i g
    have branch : ∀ i h, g.parts[i]? = some h → D.Governs (parser run scope (i :: node) h).run :=
      fun i h at_i => ih h (List.mem_of_getElem? at_i) hscope (i :: node)
    have branches : ∀ p ∈ parsers run scope node 0 g.parts, D.Governs p.run := by
      intro p hp
      obtain ⟨i, h, hh, rfl⟩ := exists_of_mem_parsers hp
      exact ih h hh hscope (i :: node)
    cases g with
    | codePoint label c => exact governs_recast _ (shields_codePoint label c).governs
    | literal label text =>
      have whole := shields_literal label text fun _ => AdmitsLiterals.literal (D := D) here
      exact governs_recast _ whole.governs
    | literalIgnoringCase label text =>
      have whole := shields_literalIgnoringCase label text fun _ =>
        AdmitsLiterals.literalIgnoringCase (D := D) here
      exact governs_recast _ whole.governs
    | oneOf label chars => exact governs_recast _ (shields_oneOf label chars).governs
    | noneOf label chars => exact governs_recast _ (shields_noneOf label chars).governs
    | satisfy label accepts => exact governs_recast _ (shields_satisfy label accepts).governs
    | takeWhile label accepts => exact governs_recast _ (shields_takeWhile label accepts).governs
    | endOfInput => exact governs_recast _ shields_endOfInput.governs
    | choice label gs => exact (shields_choice label branches).governs
    | either a b => exact (shields_either (branch 0 a rfl) (branch 1 b rfl)).governs
    | allOf label gs => exact (shields_allOf label branches).governs
    | inOrder label gs => exact (shields_inOrder label branches).governs
    | andThen a b =>
      exact governs_recast _ (shields_andThen (branch 0 a rfl) (branch 1 b rfl)).governs
    | fst pair => exact (shields_fst (governs_recast _ (branch 0 pair rfl))).governs
    | snd pair => exact (shields_snd (governs_recast _ (branch 0 pair rfl))).governs
    | many item => exact governs_recast _ (shields_many (branch 0 item rfl)).governs
    | many1 item => exact governs_recast _ (shields_many1 (branch 0 item rfl)).governs
    | optional part => exact governs_recast _ (shields_optional (branch 0 part rfl)).governs
    | notAhead label part => exact governs_recast _ (shields_notAhead _ (branch 0 part rfl)).governs
    | attempt part => exact (shields_attempt (branch 0 part rfl)).governs
    | map f part => exact (shields_map f (branch 0 part rfl)).governs
    | filter label accepts part => exact governs_filter label accepts (branch 0 part rfl)
    | withSpan part => exact governs_recast _ (governs_withSpan (branch 0 part rfl))
    | lexeme part => exact governs_lexeme (branch 0 part rfl)
    | traced name part => exact governs_traced node name (branch 0 part rfl)
    | between opening content closing =>
      have inside := shields_between (branch 0 opening rfl) (branch 1 content rfl)
        (branch 2 closing rfl)
      exact inside.governs
    | sepBy item delimiter =>
      exact governs_recast _ (shields_sepBy (branch 0 item rfl) (branch 1 delimiter rfl)).governs
    | manyTill item ending =>
      exact governs_recast _ (shields_manyTill (branch 0 item rfl) (branch 1 ending rfl)).governs
    | chainLeft combine operand operator =>
      have operators := governs_recast combine (branch 1 operator rfl)
      exact (shields_chainLeft (branch 0 operand rfl) operators).governs
    | chainRight combine operand operator =>
      have operators := governs_recast combine (branch 1 operator rfl)
      exact (shields_chainRight (branch 0 operand rfl) operators).governs
    | «lazy» label body => exact governs_deferred .lazy node label (branch 0 body rfl)
    | recursive label body =>
      have within : InScope P (⟨label, node, body⟩ :: scope) :=
        hscope.cons (below body List.mem_cons_self)
      exact governs_deferred .recursive node label (ih body List.mem_cons_self within (0 :: node))
    | reference label =>
      rw [parser]
      split
      · rename_i rule outer found
        obtain ⟨body, outside⟩ := hscope.found found
        exact governs_reference rule.node label (bodies rule outer body outside)
      · exact (shields_unavailable label).governs
    | «alias» part => exact branch 0 part rfl
    | labelled label part => exact branch 0 part rfl
    | custom p => exact leaves p here

/-- However deep the rules may be entered; a run that may not go deeper halts. -/
theorem governs_enter (leaves : ∀ p, P (.custom p) → D.Governs p.run) (depth : Nat) {rule : Rule}
    {outer : Scope} (body : rule.body.Everywhere P) (outside : InScope P outer) :
    D.Governs (enter depth rule outer) := by
  induction depth generalizing rule outer with
  | zero =>
    intro s _
    exact Run.ends_exhaust.mpr D.halts_exhausted
  | succ depth ih =>
    have inner : InScope P (rule :: outer) := outside.cons body
    exact governs_node leaves (fun _ _ body outside => ih body outside) body inner (0 :: rule.node)

theorem governs_parserWithin (leaves : ∀ p, P (.custom p) → D.Governs p.run)
    (hg : g.Everywhere P) (depth : Nat) (node : NodeId) :
    D.Governs (g.parserWithin depth node).run :=
  governs_node leaves (fun _ _ body outside => governs_enter leaves depth body outside) hg
    inScope_nil node

theorem governs_toParser (leaves : ∀ p, P (.custom p) → D.Governs p.run) (hg : g.Everywhere P)
    (node : NodeId) : D.Governs (g.toParser node).run :=
  fun s hs => governs_parserWithin leaves hg (g.depthFor s.reader.bytesLeft) node s hs

/-- A handle of a rule that is the whole of a grammar. -/
theorem governs_handle (leaves : ∀ p, P (.custom p) → D.Governs p.run) {d : Deferred}
    (body : d.body.Everywhere P) : D.Governs d.handle.run :=
  fun s hs => governs_reference [] d.label (governs_enter leaves _ body inScope_nil) s hs

/-- All the ways to run a grammar. -/
theorem governs_parsers (leaves : ∀ p, P (.custom p) → D.Governs p.run) (hg : g.Everywhere P)
    (node : NodeId) :
    (∀ depth, D.Governs (g.parserWithin depth node).run) ∧ D.Governs (g.toParser node).run ∧
      ∀ kind label probe, D.Governs (Deferred.mk kind label g probe).handle.run :=
  ⟨fun depth => governs_parserWithin leaves hg depth node, governs_toParser leaves hg node,
    fun _ _ _ => governs_handle leaves hg⟩

end RecursiveDescent.Discipline
