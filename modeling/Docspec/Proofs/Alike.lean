import Docspec.Document.Tokenizer
import Docspec.Proofs.Attachment
import Docspec.Proofs.Scanning

set_option autoImplicit false

namespace Docspec

open Text

def Token.isPlain (t : Token) : Bool :=
  match t.kind with
  | .inline | .text | .other => true
  | _ => false

structure Token.Same (t t' : Token) : Prop where
  kind : t.kind = t'.kind
  content : t.content = t'.content
  flatText : t.flatText = t'.flatText

/-- Streams that are the same token by token, up to stretches of plain tokens that say the same. -/
inductive Alike : List Token → List Token → Prop
  | nil : Alike [] []
  | cons {t t' : Token} {ts ts' : List Token} : t.Same t' → Alike ts ts' →
    Alike (t :: ts) (t' :: ts')
  | plain {as bs ts ts' : List Token} : (∀ t ∈ as, t.isPlain = true) →
    (∀ t ∈ bs, t.isPlain = true) → Compiler.paragraphs as = Compiler.paragraphs bs →
    Alike ts ts' → Alike (as ++ ts) (bs ++ ts')

inductive Region.Same : Region → Region → Prop
  | heading {start start' : Token} {title title' : List Token} {stop stop' : Option Token} :
    start.level = start'.level → Compiler.paragraphs title = Compiler.paragraphs title' →
    Region.Same (.heading start title stop) (.heading start' title' stop')
  | quote {start start' : Token} {quoted quoted' : List Token} {stop stop' : Option Token} :
    Compiler.paragraphs quoted = Compiler.paragraphs quoted' →
    Region.Same (.quote start quoted stop) (.quote start' quoted' stop')
  | loose {t t' : Token} : t.Same t' → Region.Same (.loose t) (.loose t')

namespace Token

variable {t t' : Token}

theorem Same.block (same : t.Same t') : t.block = t'.block := by
  rw [Token.block, Token.block, same.content, info, info, same.kind]

theorem Same.isFence (same : t.Same t') : t.isFence = t'.isFence := by
  rw [Token.isFence, Token.isFence, same.kind]

theorem not_opens_of_isPlain (plain : t.isPlain = true) :
    t.isHeadingOpen = false ∧ t.isQuoteOpen = false ∧ t.isHeadingClose = false ∧
      t.isQuoteClose = false ∧ t.isFence = false := by
  unfold isPlain at plain
  split at plain
  next kind => simp [isHeadingOpen, isQuoteOpen, isHeadingClose, isQuoteClose, isFence, kind]
  next kind => simp [isHeadingOpen, isQuoteOpen, isHeadingClose, isQuoteClose, isFence, kind]
  next kind => simp [isHeadingOpen, isQuoteOpen, isHeadingClose, isQuoteClose, isFence, kind]
  next => cases plain

end Token

namespace Compiler

def pieces (ts : List Token) : List Text := (ts.map Token.flatText).filter fun t => !isAllBlank t

theorem paragraphs_eq_nil_iff (ts : List Token) : paragraphs ts = [] ↔ pieces ts = [] := by
  constructor
  · intro silent
    cases found : pieces ts with
    | nil => rfl
    | cons a as =>
      have visible : a ≠ [] := by
        rintro rfl
        have member : [] ∈ pieces ts := by simp [found]
        simp [pieces, isAllBlank] at member
      have joined : joinWith [' '] (pieces ts) = [] := silent
      rw [found] at joined
      exact absurd joined (joinWith_ne_nil _ visible)
  · intro none
    change joinWith [' '] (pieces ts) = []
    rw [none]
    rfl

theorem paragraphs_append (as bs : List Token) :
    paragraphs (as ++ bs) =
      if paragraphs as = [] then paragraphs bs
      else if paragraphs bs = [] then paragraphs as
      else paragraphs as ++ [' '] ++ paragraphs bs := by
  have whole : paragraphs (as ++ bs) = joinWith [' '] (pieces as ++ pieces bs) := by
    simp [paragraphs, pieces]
  rw [whole]
  by_cases left : pieces as = []
  next =>
    rw [if_pos ((paragraphs_eq_nil_iff as).2 left), left]
    rfl
  rw [if_neg (mt (paragraphs_eq_nil_iff as).1 left)]
  by_cases right : pieces bs = []
  next =>
    rw [if_pos ((paragraphs_eq_nil_iff bs).2 right), right, List.append_nil]
    rfl
  rw [if_neg (mt (paragraphs_eq_nil_iff bs).1 right)]
  exact joinWith_append _ left right

theorem paragraphs_cons (t : Token) (ts : List Token) :
    paragraphs (t :: ts) = paragraphs ([t] ++ ts) := rfl

end Compiler

namespace Alike

variable {ts ts' : List Token}

theorem append {as bs : List Token} (alike : Alike as bs) (rest : Alike ts ts') :
    Alike (as ++ ts) (bs ++ ts') := by
  induction alike with
  | nil => exact rest
  | cons same _ ih => exact .cons same ih
  | plain left right said _ ih =>
    rw [List.append_assoc, List.append_assoc]
    exact .plain left right said ih

theorem paragraphs (alike : Alike ts ts') : Compiler.paragraphs ts = Compiler.paragraphs ts' := by
  induction alike with
  | nil => rfl
  | @cons t t' ts ts' same _ ih =>
    have head : Compiler.paragraphs [t] = Compiler.paragraphs [t'] := by
      simp [Compiler.paragraphs, same.flatText]
    rw [Compiler.paragraphs_cons t, Compiler.paragraphs_cons t', Compiler.paragraphs_append,
      Compiler.paragraphs_append, head, ih]
  | plain _ _ said _ ih => rw [Compiler.paragraphs_append, Compiler.paragraphs_append, said, ih]

theorem cut {p : Token → Bool} (byKind : ∀ t t' : Token, t.kind = t'.kind → p t = p t')
    (passes : ∀ t : Token, t.isPlain = true → p t = true) (alike : Alike ts ts') :
    Alike (ts.takeWhile p) (ts'.takeWhile p) ∧
      Alike (ts.dropWhile p).tail (ts'.dropWhile p).tail := by
  induction alike with
  | nil => exact ⟨.nil, .nil⟩
  | @cons t t' ts ts' same rest ih =>
    cases found : p t with
    | true =>
      have found' : p t' = true := by rw [← byKind t t' same.kind, found]
      rw [List.takeWhile_cons_of_pos found, List.takeWhile_cons_of_pos found',
        List.dropWhile_cons_of_pos found, List.dropWhile_cons_of_pos found']
      exact ⟨.cons same ih.1, ih.2⟩
    | false =>
      have found' : p t' = false := by rw [← byKind t t' same.kind, found]
      simp only [List.takeWhile, List.dropWhile, found, found']
      exact ⟨.nil, rest⟩
  | @plain as bs ts ts' left right said _ ih =>
    have all : ∀ t ∈ as, p t = true := fun t member => passes t (left t member)
    have all' : ∀ t ∈ bs, p t = true := fun t member => passes t (right t member)
    rw [List.takeWhile_append_of_pos all, List.takeWhile_append_of_pos all',
      List.dropWhile_append_of_pos all, List.dropWhile_append_of_pos all']
    exact ⟨.plain left right said ih.1, ih.2⟩

end Alike

theorem filter_regions_plain {as : List Token} (plain : ∀ t ∈ as, t.isPlain = true)
    (ts : List Token) :
    (regions (as ++ ts)).filter Region.matters = (regions ts).filter Region.matters := by
  induction as with
  | nil => rfl
  | cons t as ih =>
    obtain ⟨own, others⟩ := List.forall_mem_cons.1 plain
    obtain ⟨noHeading, noQuote, -, -, noFence⟩ := Token.not_opens_of_isPlain own
    rw [List.cons_append, regions_loose t _ noHeading noQuote,
      List.filter_cons_of_neg (by simp [Region.matters, noFence]), ih others]

theorem Alike.regions {ts ts' : List Token} (alike : Alike ts ts') :
    List.Forall₂ Region.Same ((Docspec.regions ts).filter Region.matters)
      ((Docspec.regions ts').filter Region.matters) := by
  obtain ⟨n, bound⟩ : ∃ n, ts.length ≤ n := ⟨_, Nat.le_refl _⟩
  -- A region may take up any number of the steps by which the streams are alike.
  induction n using Nat.strongRecOn generalizing ts ts' with
  | ind n shorter =>
    induction alike with
    | nil => simp [Docspec.regions]
    | @plain as bs ts ts' left right _ _ ih =>
      rw [filter_regions_plain left, filter_regions_plain right]
      exact ih (by rw [List.length_append] at bound; omega)
    | @cons t t' ts ts' same rest ih =>
      rw [List.length_cons] at bound
      have behind (p : Token → Bool) : (ts.dropWhile p).tail.length ≤ ts.length := by
        have := Compiler.length_dropWhile_le p ts
        rw [List.length_tail]
        omega
      by_cases heading : t.isHeadingOpen = true
      next =>
        have heading' : t'.isHeadingOpen = true := by
          rwa [Token.isHeadingOpen, ← same.kind, ← Token.isHeadingOpen]
        obtain ⟨title, after⟩ := rest.cut (p := fun k => !k.isHeadingClose)
          (fun k k' kind => by rw [Token.isHeadingClose, Token.isHeadingClose, kind])
          fun k plain => by simp [Token.not_opens_of_isPlain plain]
        rw [regions_heading t ts heading, regions_heading t' ts' heading',
          List.filter_cons_of_pos (by rfl), List.filter_cons_of_pos (by rfl)]
        have level : t.level = t'.level := by rw [Token.level, Token.level, same.kind]
        exact .cons (.heading level title.paragraphs)
          (shorter _ (by omega) after (behind _))
      by_cases quote : t.isQuoteOpen = true
      next =>
        have quote' : t'.isQuoteOpen = true := by
          rwa [Token.isQuoteOpen, ← same.kind, ← Token.isQuoteOpen]
        obtain ⟨quoted, after⟩ := rest.cut (p := fun k => !k.isQuoteClose)
          (fun k k' kind => by rw [Token.isQuoteClose, Token.isQuoteClose, kind])
          fun k plain => by simp [Token.not_opens_of_isPlain plain]
        rw [regions_quote t ts quote, regions_quote t' ts' quote',
          List.filter_cons_of_pos (by rfl), List.filter_cons_of_pos (by rfl)]
        exact .cons (.quote quoted.paragraphs) (shorter _ (by omega) after (behind _))
      have noHeading : t.isHeadingOpen = false := by simpa using heading
      have noQuote : t.isQuoteOpen = false := by simpa using quote
      have noHeading' : t'.isHeadingOpen = false := by
        rwa [Token.isHeadingOpen, ← same.kind, ← Token.isHeadingOpen]
      have noQuote' : t'.isQuoteOpen = false := by
        rwa [Token.isQuoteOpen, ← same.kind, ← Token.isQuoteOpen]
      have later := ih (by omega)
      rw [regions_loose t ts noHeading noQuote, regions_loose t' ts' noHeading' noQuote',
        List.filter_cons, List.filter_cons, Region.matters, Region.matters, same.isFence]
      cases t'.isFence with
      | true => exact .cons (.loose same) later
      | false => exact later

def CompileError.unplaced (e : CompileError) : Text × Text := (e.command, e.source)

namespace Compiler

variable {rs rs' : List Region} (same : List.Forall₂ Region.Same rs rs')
include same

theorem blocks_same : (fencesOf rs).map Token.block = (fencesOf rs').map Token.block := by
  induction same with
  | nil => rfl
  | cons head _ ih =>
    cases head with
    | heading | quote => rfl
    | loose token =>
      rw [fencesOf_loose, fencesOf_loose, List.map_append, List.map_append, ih, token.isFence]
      split
      next => rw [List.map_singleton, List.map_singleton, token.block]
      next => rfl

theorem compileRegions_same (catalog : Catalog) (source : Text) (t : TestTree) (current : Nat) :
    (compileRegions catalog source t current rs).mapError CompileError.unplaced =
      (compileRegions catalog source t current rs').mapError CompileError.unplaced := by
  induction same generalizing t current with
  | nil => rfl
  | @cons r r' rest rest' head tail ih =>
    cases head with
    | heading level title => simpa only [compileRegions, level, title] using ih _ _
    | @quote start start' quoted quoted' stop stop' said =>
      have blocks := blocks_same tail
      simp only [compileRegions, call, calledName, calledLine, said, blocks]
      cases catalog.resolve? ((trim (paragraphs quoted')).takeWhile (· ≠ ' ')) with
      | none => rfl
      | some spec => exact ih _ _
    | loose => exact ih _ _

omit same

theorem compile_alike (catalog : Catalog) (source : Text) {ts ts' : List Token}
    (alike : Alike ts ts') :
    (compile catalog source ts).mapError CompileError.unplaced =
      (compile catalog source ts').mapError CompileError.unplaced := by
  have same := compileRegions_same alike.regions catalog source .new 0
  rwa [compileRegions_filter, compileRegions_filter, ← compile_eq, ← compile_eq] at same

end Compiler

namespace Tokenizer

structure Alike (s s' : Tokenizer) : Prop where
  tokens : Docspec.Alike s.tokens s'.tokens
  enclosing : s.enclosing = s'.enclosing
  run : Token.concat s.run = Token.concat s'.run
  gathering : s.run = [] ↔ s'.run = []
  fence : s.fence.map (fun f => (f.1, f.2.1)) = s'.fence.map fun f => (f.1, f.2.1)

theorem Alike.start : Alike .start .start := ⟨.nil, rfl, rfl, Iff.rfl, rfl⟩

section Steps

variable {s s' : Tokenizer} (alike : s.Alike s')
include alike

theorem Alike.emit {t t' : Token} (same : t.Same t') : (s.emit t).Alike (s'.emit t') :=
  { alike with tokens := alike.tokens.append (.cons same .nil) }

theorem Alike.bare (kind : TokenKind) (line line' : Nat) :
    (s.emit (.bare kind line)).Alike (s'.emit (.bare kind line')) :=
  alike.emit ⟨rfl, rfl, rfl⟩

theorem Alike.enter (c : Construct) : (s.enter c).Alike (s'.enter c) :=
  { alike with enclosing := congrArg (c :: ·) alike.enclosing }

theorem Alike.gather (t : Text) (line line' : Nat) :
    (s.gather (.ofText t line)).Alike (s'.gather (.ofText t line')) :=
  { alike with
    run := by
      change Token.concat (s.run ++ _) = Token.concat (s'.run ++ _)
      rw [Token.concat_append, Token.concat_append, alike.run]
      rfl
    gathering := by simp [Tokenizer.gather] }

theorem Alike.flush : s.flush.Alike s'.flush := by
  have said := alike.run
  have gathering := alike.gathering
  unfold Tokenizer.flush
  cases first : s.run with
  | nil =>
    rw [gathering.1 first]
    exact alike
  | cons t ts =>
    cases second : s'.run with
    | nil => rw [gathering.2 second] at first; cases first
    | cons t' ts' =>
      rw [first, second] at said
      exact
        { alike with
          tokens := alike.tokens.append (.cons ⟨rfl, rfl, said⟩ .nil)
          run := rfl
          gathering := Iff.rfl }

theorem Alike.fence_cases :
    s.fence = none ∧ s'.fence = none ∨ ∃ info content line line',
      s.fence = some (info, content, line) ∧ s'.fence = some (info, content, line') := by
  have fences := alike.fence
  cases first : s.fence with
  | none =>
    rw [first] at fences
    exact .inl ⟨rfl, Option.map_eq_none_iff.1 fences.symm⟩
  | some f =>
    rw [first] at fences
    obtain ⟨⟨info', content', line'⟩, second, shape⟩ := Option.map_eq_some_iff.1 fences.symm
    obtain ⟨info, content, line⟩ := f
    obtain ⟨rfl, rfl⟩ := Prod.mk.inj shape
    exact .inr ⟨_, _, line, line', rfl, second⟩

theorem Alike.startConstruct (c : Construct) (line line' : Nat) :
    (s.startConstruct c line).Alike (s'.startConstruct c line') := by
  cases c with
  | heading level => exact (alike.flush.bare _ _ _).enter _
  | quote => exact (alike.flush.bare _ _ _).enter _
  | fence info =>
    have open_ : Tokenizer.Alike { s.flush with fence := some (trim info, [], line) }
        { s'.flush with fence := some (trim info, [], line') } :=
      { alike.flush with fence := rfl }
    exact open_.enter _
  | indentedCode => exact (alike.flush.bare _ _ _).enter _
  | span | other => exact alike.enter _

theorem Alike.leave (outer : List Construct) :
    Tokenizer.Alike { s with enclosing := outer } { s' with enclosing := outer } :=
  { alike with enclosing := rfl }

theorem Alike.stopConstruct (line line' : Nat) :
    (s.stopConstruct line).Alike (s'.stopConstruct line') := by
  cases enclosed : s.enclosing with
  | nil =>
    rw [Tokenizer.stopConstruct, Tokenizer.stopConstruct, ← alike.enclosing, enclosed]
    exact alike.flush
  | cons c outer =>
    rw [Tokenizer.stopConstruct, Tokenizer.stopConstruct, ← alike.enclosing, enclosed]
    have left := alike.leave outer
    cases c with
    | heading | quote => exact left.flush.bare _ _ _
    | fence info =>
      rcases alike.fence_cases with ⟨first, second⟩ | ⟨info, content, line, line', first, second⟩
      · simpa only [first, second] using left
      · have closed : Tokenizer.Alike { s with enclosing := outer, fence := none }
            { s' with enclosing := outer, fence := none } := { left with fence := rfl }
        have fence : Token.Same (.mk (.fence info) content [] line)
            (.mk (.fence info) content [] line') := ⟨rfl, rfl, rfl⟩
        simpa only [first, second] using closed.emit fence
    | span => exact left
    | indentedCode | other => exact left.flush

theorem Alike.addText (t : Text) (line line' : Nat) :
    (s.addText t line).Alike (s'.addText t line') := by
  rcases alike.fence_cases with ⟨first, second⟩ | ⟨info, content, _, _, first, second⟩
  · simp only [Tokenizer.addText, first, second, ← alike.enclosing]
    split
    next => exact alike
    next => exact alike.gather t line line'
  · simp only [Tokenizer.addText, first, second]
    exact { alike with fence := rfl }

theorem Alike.step (source source' : Text) {e e' : Event} (kind : e.kind = e'.kind) :
    (step source s e).Alike (step source' s' e') := by
  rw [Tokenizer.step, Tokenizer.step, ← kind]
  cases e.kind with
  | start c => exact alike.startConstruct c _ _
  | stop => exact alike.stopConstruct _ _
  | text t | code t => exact alike.addText t _ _
  | softBreak | hardBreak => exact alike.gather [' '] _ _
  | silent => exact alike

theorem Alike.foldl (source source' : Text) {events events' : List Event}
    (kinds : events.map Event.kind = events'.map Event.kind) :
    (events.foldl (Tokenizer.step source) s).Alike
      (events'.foldl (Tokenizer.step source') s') := by
  induction events generalizing s s' events' with
  | nil =>
    obtain rfl : events' = [] := List.map_eq_nil_iff.1 kinds.symm
    exact alike
  | cons e events ih =>
    obtain ⟨e', rest, rfl, kind, kinds⟩ := List.map_eq_cons_iff.1 kinds.symm
    exact ih (alike.step source source' kind.symm) kinds.symm

end Steps

end Tokenizer

end Docspec
