import Docspec.Markdown
import Docspec.Proofs.Regions

set_option autoImplicit false

namespace Docspec

def Event.startsQuote (e : Event) : Bool := e.kind == .start .quote

def Event.quoteToken (source : Text) (e : Event) : Token :=
  .bare .quoteOpen (lineOf source e.offset)

namespace Tokenizer

def quoteOpens (s : Tokenizer) : List Token := s.tokens.filter Token.isQuoteOpen

section Steps

variable (s : Tokenizer)

theorem quoteOpens_emit (t : Token) :
    (s.emit t).quoteOpens = s.quoteOpens ++ if t.isQuoteOpen then [t] else [] := by
  simp [quoteOpens, emit, List.filter_append, List.filter_singleton]

theorem quoteOpens_emit_other {t : Token} (other : t.isQuoteOpen = false) :
    (s.emit t).quoteOpens = s.quoteOpens := by
  rw [quoteOpens_emit, other]
  exact List.append_nil _

theorem quoteOpens_flush : s.flush.quoteOpens = s.quoteOpens := by
  rw [flush]
  split
  next => rfl
  next t ts _ => exact quoteOpens_emit_other s rfl

theorem quoteOpens_startConstruct (c : Construct) (line : Nat) :
    (s.startConstruct c line).quoteOpens =
      s.quoteOpens ++ if c = .quote then [.bare .quoteOpen line] else [] := by
  cases c with
  | quote => exact (quoteOpens_emit _ _).trans (by rw [quoteOpens_flush]; rfl)
  | heading | indentedCode =>
    exact (quoteOpens_emit_other _ rfl).trans ((quoteOpens_flush s).trans (List.append_nil _).symm)
  | fence info => exact (quoteOpens_flush s).trans (List.append_nil _).symm
  | span | other => exact (List.append_nil _).symm

theorem quoteOpens_stopConstruct (line : Nat) :
    (s.stopConstruct line).quoteOpens = s.quoteOpens := by
  cases enclosed : s.enclosing with
  | nil =>
    rw [stopConstruct, enclosed]
    exact quoteOpens_flush s
  | cons c outer =>
    rw [stopConstruct, enclosed]
    cases c with
    | heading | quote => exact (quoteOpens_emit_other _ rfl).trans (quoteOpens_flush _)
    | fence info =>
      cases s.fence with
      | some fence => exact quoteOpens_emit_other _ rfl
      | none => rfl
    | span => rfl
    | indentedCode | other => exact quoteOpens_flush _

theorem quoteOpens_addText (t : Text) (line : Nat) :
    (s.addText t line).quoteOpens = s.quoteOpens := by
  rw [addText]
  split
  next => rfl
  next => split <;> rfl

theorem quoteOpens_step (source : Text) (e : Event) :
    (step source s e).quoteOpens =
      s.quoteOpens ++ if e.startsQuote then [e.quoteToken source] else [] := by
  obtain ⟨kind, offset⟩ := e
  cases kind with
  | start c =>
    refine (quoteOpens_startConstruct s c _).trans (congrArg _ ?_)
    by_cases quote : c = .quote <;> simp [Event.startsQuote, Event.quoteToken, quote]
  | stop => exact (quoteOpens_stopConstruct s _).trans (List.append_nil _).symm
  | text t | code t => exact (quoteOpens_addText s t _).trans (List.append_nil _).symm
  | softBreak | hardBreak | silent => exact (List.append_nil _).symm

theorem quoteOpens_foldl (source : Text) (events : List Event) :
    (events.foldl (step source) s).quoteOpens =
      s.quoteOpens ++ (events.filter Event.startsQuote).map (Event.quoteToken source) := by
  induction events generalizing s with
  | nil => exact (List.append_nil _).symm
  | cons e events ih =>
    rw [List.foldl_cons, ih, quoteOpens_step, List.append_assoc, List.filter_cons]
    cases e.startsQuote <;> rfl

end Steps

end Tokenizer

theorem Token.quoteOpens_ofEvents (source : Text) (events : List Event) :
    (Token.ofEvents source events).filter Token.isQuoteOpen =
      (events.filter Event.startsQuote).map (Event.quoteToken source) := by
  have folded := Tokenizer.quoteOpens_foldl .start source events
  rw [← Tokenizer.quoteOpens_flush] at folded
  exact folded

theorem event_of_quote {source : Text} {events : List Event} {before after : List Region}
    {start : Token} {quoted : List Token} {stop : Option Token}
    (split : regions (Token.ofEvents source events) = before ++ .quote start quoted stop :: after) :
    ∃ earlier e later, events = earlier ++ e :: later ∧ e.startsQuote = true ∧
      (earlier.filter Event.startsQuote).length =
        ((before.flatMap Region.tokens).filter Token.isQuoteOpen).length ∧
      start = e.quoteToken source := by
  have member : .quote start quoted stop ∈ regions (Token.ofEvents source events) := by
    rw [split]
    exact List.mem_append_right _ List.mem_cons_self
  have opens : start.isQuoteOpen = true := regions_start member
  have starts := Token.quoteOpens_ofEvents source events
  rw [← regions_tokens (Token.ofEvents source events), split, List.flatMap_append,
    List.flatMap_cons, Region.tokens, List.cons_append, List.cons_append, List.filter_append,
    List.filter_cons_of_pos opens] at starts
  obtain ⟨front, back, shape, first, second⟩ := List.map_eq_append_iff.1 starts.symm
  obtain ⟨e, rest, rfl, same, -⟩ := List.map_eq_cons_iff.1 second
  obtain ⟨left, right, rfl, rfl, found⟩ := List.filter_eq_append_iff.1 shape
  obtain ⟨skipped, later, rfl, none, quote, -⟩ := List.filter_eq_cons_iff.1 found
  refine ⟨left ++ skipped, e, later, by simp, quote, ?_, same.symm⟩
  have silent : skipped.filter Event.startsQuote = [] := List.filter_eq_nil_iff.2 none
  rw [List.filter_append, silent, List.append_nil, ← first, List.length_map]

namespace Compiler

def isKnown (catalog : Catalog) : Region → Bool
  | .quote _ quoted _ => catalog.contains (calledName quoted)
  | _ => true

section Calls

variable {catalog : Catalog} {source : Text}

theorem call_known (source : Text) (start : Token) (after : List Region) {quoted : List Token}
    (known : catalog.contains (calledName quoted) = true) :
    ∃ c, call catalog source start quoted after = .ok c := by
  obtain ⟨spec, found⟩ := Option.isSome_iff_exists.1 known
  have resolved : catalog.resolve? (calledName quoted) = some spec := found
  exact ⟨_, by rw [call, resolved]⟩

theorem call_unknown {start : Token} {quoted : List Token} {after : List Region}
    (unknown : catalog.contains (calledName quoted) = false) :
    call catalog source start quoted after = .error ⟨calledName quoted, source, start.line⟩ := by
  have resolved : catalog.resolve? (calledName quoted) = none :=
    Option.isNone_iff_eq_none.1 (Option.isSome_eq_false_iff.1 unknown)
  rw [call, resolved]

theorem compileRegions_known (source : Text) (t : TestTree) (current : Nat) {rs : List Region}
    (known : ∀ r ∈ rs, isKnown catalog r = true) :
    ∃ t', compileRegions catalog source t current rs = .ok t' := by
  induction rs generalizing t current with
  | nil => exact ⟨t, rfl⟩
  | cons r rest ih =>
    have later := fun k member => known k (List.mem_cons_of_mem r member)
    cases r with
    | heading start title stop => exact ih _ _ later
    | quote start quoted stop =>
      obtain ⟨c, called⟩ := call_known source start rest (known _ List.mem_cons_self)
      rw [compileRegions, called]
      exact ih _ _ later
    | loose k => exact ih _ _ later

theorem compileRegions_unknown {t : TestTree} {current : Nat} {before after : List Region}
    {start : Token} {quoted : List Token} {stop : Option Token}
    (known : ∀ r ∈ before, isKnown catalog r = true)
    (unknown : catalog.contains (calledName quoted) = false) :
    compileRegions catalog source t current (before ++ .quote start quoted stop :: after) =
      .error ⟨calledName quoted, source, start.line⟩ := by
  induction before generalizing t current with
  | nil => rw [List.nil_append, compileRegions, call_unknown unknown]
  | cons r rest ih =>
    have later := fun k member => known k (List.mem_cons_of_mem r member)
    cases r with
    | heading start' title stop' => exact ih later
    | quote start' quoted' stop' =>
      obtain ⟨c, called⟩ := call_known source start'
        (rest ++ .quote start quoted stop :: after) (known _ List.mem_cons_self)
      rw [List.cons_append, compileRegions, called]
      exact ih later
    | loose k => exact ih later

theorem all_known_or_first_unknown (catalog : Catalog) (rs : List Region) :
    (∀ r ∈ rs, isKnown catalog r = true) ∨
      ∃ before start quoted stop after, rs = before ++ .quote start quoted stop :: after ∧
        (∀ r ∈ before, isKnown catalog r = true) ∧
        catalog.contains (calledName quoted) = false := by
  cases found : rs.find? fun r => !isKnown catalog r with
  | none => exact .inl (by simpa using List.find?_eq_none.1 found)
  | some r =>
    obtain ⟨unknown, before, after, shape, known⟩ := List.find?_eq_some_iff_append.1 found
    cases r with
    | quote start quoted stop =>
      exact .inr ⟨before, start, quoted, stop, after, shape, by simpa using known,
        by simpa [isKnown] using unknown⟩
    | heading | loose => simp [isKnown] at unknown

theorem compile_blames_first (catalog : Catalog) (source : Text) (ts : List Token) :
    ((∃ t, compile catalog source ts = .ok t) ↔
        ∀ start quoted stop, .quote start quoted stop ∈ regions ts →
          catalog.contains (calledName quoted) = true) ∧
      (∀ err, compile catalog source ts = .error err ↔
        ∃ before start quoted stop after, regions ts = before ++ .quote start quoted stop :: after ∧
          (∀ r ∈ before, isKnown catalog r = true) ∧
          catalog.contains (calledName quoted) = false ∧
          err = ⟨calledName quoted, source, start.line⟩) ∧
      ∀ text events, ts = Token.ofEvents text events →
        ∀ before start quoted stop after, regions ts = before ++ .quote start quoted stop :: after →
          ∃ earlier e later, events = earlier ++ e :: later ∧ e.startsQuote = true ∧
            (earlier.filter Event.startsQuote).length =
              ((before.flatMap Region.tokens).filter Token.isQuoteOpen).length ∧
            start.line = 1 + (text.take e.offset).count '\n' := by
  have fails {before after : List Region} {start : Token} {quoted : List Token}
      {stop : Option Token} (split : regions ts = before ++ .quote start quoted stop :: after)
      (known : ∀ r ∈ before, isKnown catalog r = true)
      (unknown : catalog.contains (calledName quoted) = false) :
      compile catalog source ts = .error ⟨calledName quoted, source, start.line⟩ := by
    rw [compile_eq, split]
    exact compileRegions_unknown known unknown
  refine ⟨⟨?_, ?_⟩, fun err => ⟨?_, ?_⟩, ?_⟩
  · rintro ⟨t, compiled⟩ start quoted stop member
    rcases all_known_or_first_unknown catalog (regions ts) with
      known | ⟨before, start', quoted', stop', after, split, known, unknown⟩
    · exact known _ member
    · rw [fails split known unknown] at compiled
      cases compiled
  · intro known
    rw [compile_eq]
    refine compileRegions_known source .new 0 fun r member => ?_
    cases r with
    | quote start quoted stop => exact known start quoted stop member
    | heading | loose => rfl
  · intro failed
    rcases all_known_or_first_unknown catalog (regions ts) with
      known | ⟨before, start, quoted, stop, after, split, known, unknown⟩
    · obtain ⟨t, compiled⟩ := compileRegions_known source .new 0 known
      rw [compile_eq, compiled] at failed
      cases failed
    · rw [fails split known unknown] at failed
      cases failed
      exact ⟨before, start, quoted, stop, after, split, known, unknown, rfl⟩
  · rintro ⟨before, start, quoted, stop, after, split, known, unknown, rfl⟩
    exact fails split known unknown
  · rintro text events rfl before start quoted stop after split
    obtain ⟨earlier, e, later, shape, quote, count, same⟩ := event_of_quote split
    refine ⟨earlier, e, later, shape, quote, count, ?_⟩
    rw [same, ← lineOf_eq]
    rfl

end Calls

def unregistered : Text := "> set a\n\n> http get /\n\n> nope\n"

theorem events_unregistered :
    Markdown.events unregistered =
      [(0, "set a"), (9, "http get /"), (23, "nope")].flatMap fun (offset, said) =>
        Markdown.Block.enclose .quote offset
          (Markdown.Block.enclose .other (offset + 2) [⟨.text said.toList, offset + 2⟩]) := by
  decide +kernel

theorem compile_blames_first_unregistered :
    compile .builtin "doc.md" (Markdown.tokens unregistered) = .error ⟨"http", "doc.md", 3⟩ ∧
      ∃ earlier e later, Markdown.events unregistered = earlier ++ e :: later ∧
        e.startsQuote = true ∧ (earlier.filter Event.startsQuote).length = 1 ∧
        3 = 1 + (unregistered.take e.offset).count '\n' := by
  let quote (said : Text) (line : Nat) : Region :=
    .quote (.bare .quoteOpen line) [.mk .inline [] [.ofText said line] line]
      (some (.bare .quoteClose line))
  obtain ⟨-, fails, lines⟩ :=
    compile_blames_first .builtin "doc.md" (Markdown.tokens unregistered)
  have parts : regions (Markdown.tokens unregistered) =
      [quote "set a" 1] ++ quote "http get /" 3 :: [quote "nope" 5] := by
    have tokens : Markdown.tokens unregistered =
        ([quote "set a" 1] ++ quote "http get /" 3 :: [quote "nope" 5]).flatMap Region.tokens := by
      rw [Markdown.tokens, events_unregistered]
      rfl
    rw [tokens]
    simp [quote, Region.tokens, regions, Token.bare, Token.ofText, Token.kind, Token.isQuoteClose]
  obtain ⟨earlier, e, later, shape, starts, count, line⟩ := lines _ _ rfl _ _ _ _ _ parts
  exact ⟨(fails _).2 ⟨_, _, _, _, _, parts, by decide, by decide, rfl⟩,
    earlier, e, later, shape, starts, count, line⟩

end Compiler

end Docspec
