import RecursiveDescent.Proofs.Roots

/-!
# What roots quote

A root says what was found in the words of the input, at the very place it points at. Some roots are
raised where a run began, before it took anything or after it went back, and some where an item
ended; each quotes what is ahead there. Only the mark for the end is not taken from the input, and a
line break `\r\n` is quoted as the one symbol it is read as.
-/
namespace RecursiveDescent

/-- The words are the beginning of the text, or its first symbol, or say that there is no more. -/
def Text.QuotedBy (ahead : Text) (found : String) : Prop :=
  found = endMark ∨ found.toList <+: ahead ∨ found = "\n" ∧ ['\r', '\n'] <+: ahead

namespace Reader

variable {r : Reader} {found : String}

/-- What a reader tells of the text ahead is a quotation of it. -/
theorem Tells.quotedBy (h : r.Tells found) : r.remaining.QuotedBy found := by
  cases h with
  | ahead =>
    cases hpeek : r.peek? with
    | none =>
      left
      rw [Reader.found, hpeek]
    | some c =>
      right
      have words : r.found = String.singleton c := by rw [Reader.found, hpeek]
      rw [words, String.toList_singleton]
      refine (prefix_of_peek? hpeek).imp_right ?_
      rintro ⟨rfl, pair⟩
      exact ⟨rfl, pair⟩
  | quotes begins =>
    right
    left
    rwa [String.toList_ofList]

end Reader

theorem Level.RaisedAt.quotedBy {g : Grammar} {r : Reader} {level : Level}
    (h : level.RaisedAt g r) : r.remaining.QuotedBy level.found := by
  cases h with
  | telling tells => exact tells.quotedBy
  | within short => cases short <;> exact .inl rfl

/-- The root of each failure points at a place in the input, not before the run began, and quotes
what is ahead there. -/
def Parser.QuotesInput {α : Type} (p : Parser α) : Prop :=
  ∀ s f t, s.reader.OnBoundary → p.run s = .failed f t →
    s.reader.offset ≤ f.root.position.offset ∧
      ∃ before ahead : Text, s.reader.input = before ++ ahead ∧
        before.byteLength = f.root.position.offset ∧ ahead.QuotedBy f.root.found

/-- The root of a failure was raised where the reader stood, and quotes what was ahead there. -/
theorem Parser.RaisesWithin.quotesInput {α : Type} {p : Parser α} {g : Grammar}
    (h : p.RaisesWithin g) : p.QuotesInput := by
  intro s f t boundary failed
  obtain ⟨raiser, walk, raised⟩ := h s f t boundary failed
  obtain ⟨before, hinput, hbefore⟩ := (walk.onBoundary boundary).exists_before
  rw [raised.position]
  refine ⟨walk.offset_le, before, raiser.remaining, ?_, hbefore, raised.quotedBy⟩
  rw [← walk.input, hinput]

namespace Grammar

/-- What a failure says was found is quoted from the input, in whichever way a grammar without
parsers of one's own is run. -/
theorem plain_quotesInput {g : Grammar} (hg : g.Plain) (node : NodeId) :
    (∀ depth, (g.parserWithin depth node).QuotesInput) ∧ (g.toParser node).QuotesInput ∧
      ∀ kind label probe, (Deferred.mk kind label g probe).handle.QuotesInput := by
  obtain ⟨within, whole, byHandle⟩ := hg.raisesWithin node
  exact ⟨fun depth => (within depth).quotesInput, whole.quotesInput,
    fun kind label probe => (byHandle kind label probe).quotesInput⟩

def stalling : Grammar :=
  .manyTill (.optional (.codePoint "a" 'a')) (.codePoint ";" ';')

theorem stalling_plain : stalling.Plain :=
  .binary nofun rfl (.unary nofun rfl (.leaf nofun rfl)) (.leaf nofun rfl)

/-- The run fails where it began, and quotes the line break at the place behind the first item. -/
theorem stalling_quotesInput :
    stalling.Plain ∧ (Reader.startAt ['é', 'a', '\r', '\n'] ⟨2, 1, 2⟩).OnBoundary ∧
      ∃ f t, (stalling.toParser []).run
          ⟨Reader.startAt ['é', 'a', '\r', '\n'] ⟨2, 1, 2⟩, .empty⟩ = .failed f t ∧
        f.root.position.offset = 3 ∧ f.root.found = "\n" ∧ 2 ≤ f.root.position.offset ∧
          ∃ before ahead : Text, ['é', 'a', '\r', '\n'] = before ++ ahead ∧
            before.byteLength = f.root.position.offset ∧ ahead.QuotedBy f.root.found := by
  have boundary : (Reader.startAt ['é', 'a', '\r', '\n'] ⟨2, 1, 2⟩).OnBoundary := by decide
  obtain ⟨f, t, failed, offset, found⟩ : ∃ f t, (stalling.toParser []).run
      ⟨Reader.startAt ['é', 'a', '\r', '\n'] ⟨2, 1, 2⟩, .empty⟩ = .failed f t ∧
        f.root.position.offset = 3 ∧ f.root.found = "\n" := ⟨_, _, rfl, rfl, rfl⟩
  have quotes := (plain_quotesInput stalling_plain []).2.1
    ⟨Reader.startAt ['é', 'a', '\r', '\n'] ⟨2, 1, 2⟩, .empty⟩ f t boundary failed
  exact ⟨stalling_plain, boundary, f, t, failed, offset, found, quotes⟩

end Grammar

end RecursiveDescent
