import Docspec.Proofs.Alike
import Docspec.Proofs.CodeSpans

set_option autoImplicit false

namespace Docspec

open Text Markdown

namespace Markdown

inductive Sign
  | letter (c : Char)
  | softBreak
  | hardBreak
deriving DecidableEq

def Sign.separates : Sign → Bool
  | .letter c => c == ' '
  | .softBreak | .hardBreak => true

def Sign.said : Sign → Char
  | .letter c => c
  | .softBreak | .hardBreak => ' '

mutual

def Inline.signs : Inline → List Sign
  | .text _ t | .code _ t => t.map .letter
  | .softBreak _ => [.softBreak]
  | .hardBreak _ => [.hardBreak]
  | .span _ contents => Inline.signsOfAll contents

def Inline.signsOfAll : List Inline → List Sign
  | [] => []
  | i :: is => i.signs ++ Inline.signsOfAll is

end

mutual

theorem Inline.said_signs (i : Inline) : i.signs.map Sign.said = i.said := by
  cases i with
  | text o t | code o t =>
    rw [signs, said, List.map_map]
    exact List.map_id t
  | softBreak o | hardBreak o => rfl
  | span o contents => exact Inline.said_signsOfAll contents

theorem Inline.said_signsOfAll (is : List Inline) :
    (Inline.signsOfAll is).map Sign.said = Inline.saidOfAll is := by
  cases is with
  | nil => rfl
  | cons i is =>
    rw [signsOfAll, List.map_append, Inline.said_signs i, Inline.said_signsOfAll is, saidOfAll]

end

inductive Spells : List Text → List Sign → Prop
  | word (w : Text) : Spells [w] (w.map .letter)
  | next (w : Text) {sign : Sign} {ws : List Text} {signs : List Sign} :
    sign.separates = true → Spells ws signs → Spells (w :: ws) (w.map .letter ++ sign :: signs)

theorem Spells.said {ws : List Text} {signs : List Sign} (spells : Spells ws signs) :
    signs.map Sign.said = joinWith [' '] ws := by
  have letters (w : Text) : (w.map Sign.letter).map Sign.said = w := by
    rw [List.map_map]
    exact List.map_id w
  induction spells with
  | word w =>
    rw [letters]
    exact List.intercalate_singleton.symm
  | @next w sign ws signs separates rest ih =>
    have blank : sign.said = ' ' := by
      cases sign with
      | letter c => simpa [Sign.separates, Sign.said] using separates
      | softBreak | hardBreak => rfl
    have more : ws ≠ [] := by cases rest <;> simp
    rw [List.map_append, letters, List.map_cons, blank, ih, joinWith, joinWith,
      List.intercalate_cons_of_ne_nil more, List.append_assoc]
    rfl

theorem Spells.ne_nil {ws : List Text} {signs : List Sign} (spells : Spells ws signs) :
    ws ≠ [] := by
  cases spells <;> simp

end Markdown

structure IsWord (w : Text) : Prop where
  visible : w ≠ []
  no_blank : ∀ c ∈ w, isBlank c = false

theorem IsWord.trimmed {w : Text} (word : IsWord w) : trim w = w := trim_solid word.no_blank

section Words

variable {ws : List Text} (words : ∀ w ∈ ws, IsWord w)
include words

theorem trim_joinWith : trim (joinWith [' '] ws) = joinWith [' '] ws := by
  induction ws with
  | nil => rfl
  | cons w ws ih =>
    obtain ⟨word, others⟩ := List.forall_mem_cons.1 words
    cases ws with
    | nil =>
      rw [joinWith, List.intercalate_singleton]
      exact word.trimmed
    | cons v ws =>
      have next : IsWord v := others v List.mem_cons_self
      rw [joinWith_cons_cons]
      exact trim_append word.trimmed (ih others) word.visible (joinWith_ne_nil _ next.visible) [' ']

theorem isAllBlank_joinWith (some : ws ≠ []) : isAllBlank (joinWith [' '] ws) = false := by
  rw [← Bool.not_eq_true]
  intro blank
  have front := head_trim (joinWith [' '] ws)
  rw [trim_joinWith words] at front
  cases ws with
  | nil => exact some rfl
  | cons w ws =>
    cases shape : joinWith [' '] (w :: ws) with
    | nil => exact joinWith_ne_nil _ (words w List.mem_cons_self).visible shape
    | cons c t =>
      rw [shape] at front blank
      simp [isAllBlank, front c rfl] at blank

theorem cut_joinWith :
    (joinWith [' '] ws).takeWhile (· ≠ ' ') = ws.headD [] ∧
      ((joinWith [' '] ws).dropWhile (· ≠ ' ')).tail = joinWith [' '] ws.tail := by
  cases ws with
  | nil => exact ⟨rfl, rfl⟩
  | cons w ws =>
    have inside : ∀ c ∈ w, decide (c ≠ ' ') = true := by
      intro c member
      have bare := (words w List.mem_cons_self).no_blank c member
      have differ : c ≠ ' ' := by
        rintro rfl
        exact absurd bare (by decide)
      simpa using differ
    cases ws with
    | nil =>
      rw [joinWith, List.intercalate_singleton, List.takeWhile_eq_self_iff.2 inside,
        List.dropWhile_eq_nil_iff.2 inside]
      exact ⟨rfl, rfl⟩
    | cons v ws =>
      rw [joinWith_cons_cons, List.append_assoc, List.takeWhile_append_of_pos inside,
        List.dropWhile_append_of_pos inside]
      simp

end Words

theorem joinWith_flatten {wss : List (List Text)} (filled : ∀ ws ∈ wss, ws ≠ []) (sep : Text) :
    joinWith sep (wss.map (joinWith sep)) = joinWith sep wss.flatten := by
  induction wss with
  | nil => rfl
  | cons ws wss ih =>
    obtain ⟨own, others⟩ := List.forall_mem_cons.1 filled
    have rest := ih others
    cases wss with
    | nil => simp [joinWith]
    | cons vs wss =>
      have more : (vs :: wss).flatten ≠ [] := by simp [others vs List.mem_cons_self]
      rw [List.map_cons, List.map_cons, joinWith_cons_cons, ← List.map_cons, rest,
        ← joinWith_append sep own more]
      rfl

structure Paragraph where
  words : List Text
  offset : Nat
  contents : List Inline
  spells : Spells words (Inline.signsOfAll contents)

def blockEvents (blocks : List (Nat × List Inline)) : List Event :=
  blocks.flatMap fun b => Block.enclose .other b.1 (Inline.eventsOfAll b.2)

inductive Laid : Construct → List Text → List Event → Prop
  | quote (o : Nat) (ps : List Paragraph) :
    Laid .quote (ps.flatMap Paragraph.words)
      (Block.enclose .quote o (blockEvents (ps.map fun p => (p.offset, p.contents))))
  | heading (o level : Nat) (p : Paragraph) :
    Laid (.heading level) p.words
      (Block.enclose (.heading level) o (Inline.eventsOfAll p.contents))

def onOneLine (c : Construct) (o i : Nat) (ws : List Text) : List Event :=
  let line := [.text i (joinWith [' '] ws)]
  Block.enclose c o (if c = .quote then blockEvents [(i, line)] else Inline.eventsOfAll line)

def Construct.opens : Construct → TokenKind
  | .heading level => .headingOpen level
  | _ => .quoteOpen

def Construct.closes : Construct → TokenKind
  | .heading level => .headingClose level
  | _ => .quoteClose

/-- Events that become a token that opens, plain tokens with a text, and a token that closes,
wherever they come but inside a fence. -/
def Reads (c : Construct) (t : Text) (events : List Event) : Prop :=
  ∀ (source : Text) (s : Tokenizer), s.fence = none → ∃ line plain line',
    (∀ k ∈ plain, k.isPlain = true) ∧ Compiler.paragraphs plain = t ∧
      events.foldl (Tokenizer.step source) s =
        ⟨s.flush.tokens ++ .bare c.opens line :: plain ++ [.bare c.closes line'], s.enclosing, [],
          none⟩

namespace Tokenizer

theorem flush_gathered (source : Text) (contents : List Inline) (tokens : List Token)
    (enclosing : List Construct) :
    ∃ plain, (∀ k ∈ plain, k.isPlain = true) ∧
      Compiler.pieces plain = [Inline.saidOfAll contents].filter (fun t => !isAllBlank t) ∧
      (Tokenizer.mk tokens enclosing (Inline.tokensOfAll source contents) none).flush =
        ⟨tokens ++ plain, enclosing, [], none⟩ := by
  have said := Inline.concat_tokensOfAll source contents
  cases found : Inline.tokensOfAll source contents with
  | nil =>
    rw [found] at said
    refine ⟨[], by simp, ?_, by simp [flush]⟩
    rw [← said]
    rfl
  | cons t ts =>
    rw [found] at said
    refine ⟨[.mk .inline [] (t :: ts) t.line], by simp [Token.isPlain, Token.kind], ?_, rfl⟩
    have flat : (Token.mk .inline [] (t :: ts) t.line).flatText = Inline.saidOfAll contents := said
    simp only [Compiler.pieces, List.map_singleton, flat]

theorem flush_eq (s : Tokenizer) : s.flush = ⟨s.flush.tokens, s.enclosing, [], s.fence⟩ := by
  rw [flush]
  split
  next none => rw [← none]
  next => rfl

theorem foldl_block (source : Text) (o : Nat) (contents : List Inline) (tokens : List Token)
    (enclosing : List Construct) :
    (Block.enclose .other o (Inline.eventsOfAll contents)).foldl (step source)
        ⟨tokens, enclosing, [], none⟩ =
      (Tokenizer.mk tokens enclosing (Inline.tokensOfAll source contents) none).flush := by
  let opened : Tokenizer := ⟨tokens, .other :: enclosing, [], none⟩
  have gathered := foldl_eventsOfAll source contents (s := opened) ⟨rfl, by simp [opened]⟩
  rw [Block.enclose, List.foldl_cons, List.foldl_append]
  change step source (List.foldl (step source) opened _) ⟨.stop, o⟩ = _
  rw [gathered]
  rfl

theorem foldl_blocks (source : Text) (blocks : List (Nat × List Inline)) (tokens : List Token)
    (enclosing : List Construct) :
    ∃ plain, (∀ k ∈ plain, k.isPlain = true) ∧
      Compiler.pieces plain =
        (blocks.map fun b => Inline.saidOfAll b.2).filter (fun t => !isAllBlank t) ∧
      (blockEvents blocks).foldl (step source) ⟨tokens, enclosing, [], none⟩ =
        ⟨tokens ++ plain, enclosing, [], none⟩ := by
  induction blocks generalizing tokens with
  | nil => exact ⟨[], by simp, rfl, by simp [blockEvents]⟩
  | cons b blocks ih =>
    obtain ⟨own, plain, said, flushed⟩ := flush_gathered source b.2 tokens enclosing
    obtain ⟨others, plain', said', read⟩ := ih (tokens ++ own)
    refine ⟨own ++ others, List.forall_mem_append.2 ⟨plain, plain'⟩, ?_, ?_⟩
    · have both : Compiler.pieces (own ++ others) =
          Compiler.pieces own ++ Compiler.pieces others := by simp [Compiler.pieces]
      rw [both, said, said', ← List.filter_append]
      rfl
    · rw [blockEvents, List.flatMap_cons, List.foldl_append, foldl_block, flushed, ← blockEvents,
        read, List.append_assoc]

theorem step_opens (source : Text) {s : Tokenizer} (outside : s.fence = none) {c : Construct}
    (block : c = .quote ∨ ∃ level, c = .heading level) (o : Nat) :
    step source s ⟨.start c, o⟩ =
      ⟨s.flush.tokens ++ [.bare c.opens (lineOf source o)], c :: s.enclosing, [], none⟩ := by
  have opened : step source s ⟨.start c, o⟩ =
      (s.flush.emit (.bare c.opens (lineOf source o))).enter c := by
    obtain rfl | ⟨level, rfl⟩ := block <;> rfl
  rw [opened, flush_eq, outside]
  rfl

end Tokenizer

theorem reads_quote (o : Nat) (blocks : List (Nat × List Inline)) :
    Reads .quote
      (joinWith [' '] ((blocks.map fun b => Inline.saidOfAll b.2).filter fun t => !isAllBlank t))
      (Block.enclose .quote o (blockEvents blocks)) := by
  intro source s outside
  obtain ⟨plain, isPlain, said, read⟩ := Tokenizer.foldl_blocks source blocks
    (s.flush.tokens ++ [.bare Construct.quote.opens (lineOf source o)]) (.quote :: s.enclosing)
  refine ⟨lineOf source o, plain, lineOf source o, isPlain, congrArg (joinWith [' ']) said, ?_⟩
  have opened := Tokenizer.step_opens source outside (.inl rfl) o
  rw [Block.enclose, List.foldl_cons, List.foldl_append, opened, read]
  simp [Tokenizer.step, Tokenizer.stopConstruct, Tokenizer.flush, Tokenizer.emit, Construct.opens,
    Construct.closes]

theorem reads_heading (o level : Nat) (contents : List Inline) :
    Reads (.heading level)
      (joinWith [' '] ([Inline.saidOfAll contents].filter fun t => !isAllBlank t))
      (Block.enclose (.heading level) o (Inline.eventsOfAll contents)) := by
  intro source s outside
  let tokens := s.flush.tokens ++ [.bare (Construct.heading level).opens (lineOf source o)]
  obtain ⟨plain, isPlain, said, flushed⟩ :=
    Tokenizer.flush_gathered source contents tokens s.enclosing
  refine ⟨lineOf source o, plain, lineOf source o, isPlain, congrArg (joinWith [' ']) said, ?_⟩
  have opened := Tokenizer.step_opens source outside (.inr ⟨level, rfl⟩) o
  have gathered := Tokenizer.foldl_eventsOfAll source contents
    (s := ⟨tokens, .heading level :: s.enclosing, [], none⟩) ⟨rfl, by simp⟩
  rw [Block.enclose, List.foldl_cons, List.foldl_append, opened, gathered]
  change (Tokenizer.flush ⟨tokens, s.enclosing, Inline.tokensOfAll source contents, none⟩).emit
    (.bare (.headingClose level) (lineOf source o)) = _
  rw [flushed]
  simp [Tokenizer.emit, Construct.opens, Construct.closes, tokens]

theorem Paragraph.said (p : Paragraph) : Inline.saidOfAll p.contents = joinWith [' '] p.words := by
  rw [← Inline.said_signsOfAll, p.spells.said]

section Laid

variable {c : Construct} {ws : List Text} (words : ∀ w ∈ ws, IsWord w)
include words

theorem filter_joinWith :
    joinWith [' '] ([joinWith [' '] ws].filter fun t => !isAllBlank t) = joinWith [' '] ws := by
  cases shape : ws with
  | nil => rfl
  | cons w vs =>
    rw [← shape]
    have visible := isAllBlank_joinWith words (by simp [shape])
    rw [List.filter_cons_of_pos (by simpa using visible), List.filter_nil, joinWith,
      List.intercalate_singleton]

theorem laid_reads {layout : List Event} (laid : Laid c ws layout) :
    Reads c (joinWith [' '] ws) layout := by
  cases laid with
  | quote o ps =>
    have said : (ps.map fun p => (p.offset, p.contents)).map (fun b => Inline.saidOfAll b.2) =
        (ps.map Paragraph.words).map (joinWith [' ']) := by
      rw [List.map_map, List.map_map]
      exact List.map_congr_left fun p _ => p.said
    have filled : ∀ vs ∈ ps.map Paragraph.words, vs ≠ [] := by
      simpa using fun p _ => p.spells.ne_nil
    have shown : ((ps.map Paragraph.words).map (joinWith [' '])).filter (fun t => !isAllBlank t) =
        (ps.map Paragraph.words).map (joinWith [' ']) := by
      refine List.filter_eq_self.2 fun t member => ?_
      obtain ⟨vs, inside, rfl⟩ := List.mem_map.1 member
      obtain ⟨p, own, rfl⟩ := List.mem_map.1 inside
      have spelled : ∀ w ∈ p.words, IsWord w := fun w mine =>
        words w (List.mem_flatMap.2 ⟨p, own, mine⟩)
      simpa using isAllBlank_joinWith spelled p.spells.ne_nil
    have read := reads_quote o (ps.map fun p => (p.offset, p.contents))
    rwa [said, shown, joinWith_flatten filled, ← List.flatMap_def] at read
  | heading o level p =>
    have read := reads_heading o level p.contents
    rwa [p.said, filter_joinWith words] at read

theorem onOneLine_reads (block : c = .quote ∨ ∃ level, c = .heading level) (o i : Nat) :
    Reads c (joinWith [' '] ws) (onOneLine c o i ws) := by
  have said : Inline.saidOfAll [.text i (joinWith [' '] ws)] = joinWith [' '] ws :=
    List.append_nil _
  obtain rfl | ⟨level, rfl⟩ := block
  · have read := reads_quote o [(i, [.text i (joinWith [' '] ws)])]
    rwa [List.map_singleton, said, filter_joinWith words] at read
  · have read := reads_heading o level [.text i (joinWith [' '] ws)]
    rwa [said, filter_joinWith words] at read

end Laid

section Reads

variable {c : Construct} {t : Text} {events events' : List Event}

theorem Reads.alike (reads : Reads c t events) (reads' : Reads c t events') (source source' : Text)
    {s s' : Tokenizer} (alike : s.Alike s') (outside : s.fence = none) :
    (events.foldl (Tokenizer.step source) s).Alike
      (events'.foldl (Tokenizer.step source') s') := by
  have outside' : s'.fence = none := by
    rcases alike.fence_cases with ⟨-, outside'⟩ | ⟨_, _, _, _, inside, -⟩
    · exact outside'
    · rw [outside] at inside
      cases inside
  obtain ⟨line, plain, line', isPlain, said, read⟩ := reads source s outside
  obtain ⟨line₁, plain₁, line₁', isPlain₁, said₁, read₁⟩ := reads' source' s' outside'
  have stop : Alike [Token.bare c.closes line'] [Token.bare c.closes line₁'] :=
    .cons ⟨rfl, rfl, rfl⟩ .nil
  have same : Token.Same (.bare c.opens line) (.bare c.opens line₁) := ⟨rfl, rfl, rfl⟩
  have block := Alike.cons same (.plain isPlain isPlain₁ (said.trans said₁.symm) stop)
  rw [read, read₁, List.append_assoc, List.append_assoc]
  exact ⟨alike.flush.tokens.append block, alike.enclosing, rfl, Iff.rfl, rfl⟩

theorem Reads.ofEvents (reads : Reads c t events) (source : Text) :
    ∃ line plain line', (∀ k ∈ plain, k.isPlain = true) ∧ Compiler.paragraphs plain = t ∧
      Token.ofEvents source events = .bare c.opens line :: (plain ++ [.bare c.closes line']) := by
  obtain ⟨line, plain, line', isPlain, said, read⟩ := reads source .start rfl
  refine ⟨line, plain, line', isPlain, said, ?_⟩
  rw [Token.ofEvents, read]
  rfl

end Reads

namespace Compiler

def compiledWords (catalog : Catalog) (file : Text) (ws : List Text) :
    Construct → Except (Text × Text) TestTree
  | .heading level => .ok (TestTree.new.addChild 0 (joinWith [' '] ws) level)
  | _ =>
    match catalog.resolve? (ws.headD []) with
    | none => .error (ws.headD [], file)
    | some spec =>
      .ok (TestTree.new.addCommand 0 (spec.instantiate (spec.split (joinWith [' '] ws.tail))))

section Single

variable {ws : List Text} (words : ∀ w ∈ ws, IsWord w) {plain : List Token}
  (isPlain : ∀ k ∈ plain, k.isPlain = true) (said : paragraphs plain = joinWith [' '] ws)
  (catalog : Catalog) (file : Text) (line line' : Nat)
include words isPlain said

theorem compile_words_quote :
    (compile catalog file (.bare .quoteOpen line :: (plain ++ [.bare .quoteClose line']))).mapError
        CompileError.unplaced =
      compiledWords catalog file ws .quote := by
  have still : ∀ k ∈ plain, (!k.isQuoteClose) = true := fun k member => by
    simp [Token.not_opens_of_isPlain (isPlain k member)]
  have parts : regions (.bare .quoteOpen line :: (plain ++ [.bare .quoteClose line'])) =
      [.quote (.bare .quoteOpen line) plain (some (.bare .quoteClose line'))] := by
    rw [regions_quote _ _ rfl, List.takeWhile_append_of_pos still,
      List.dropWhile_append_of_pos still]
    simp [Token.isQuoteClose, Token.bare, Token.kind, regions]
  have name : calledName plain = ws.headD [] := by
    rw [calledName, said, trim_joinWith words, (cut_joinWith words).1]
  have rest : calledLine plain = joinWith [' '] ws.tail := by
    rw [calledLine, said, trim_joinWith words, (cut_joinWith words).2]
  rw [compile_eq, parts, compileRegions, call, name, rest]
  simp only [compiledWords]
  cases catalog.resolve? (ws.headD []) with
  | none => rfl
  | some spec => simp [compileRegions, fencesOf, Except.mapError]

theorem compile_words_heading (level : Nat) :
    (compile catalog file (.bare (.headingOpen level) line ::
        (plain ++ [.bare (.headingClose level) line']))).mapError CompileError.unplaced =
      compiledWords catalog file ws (.heading level) := by
  have still : ∀ k ∈ plain, (!k.isHeadingClose) = true := fun k member => by
    simp [Token.not_opens_of_isPlain (isPlain k member)]
  have parts : regions (.bare (.headingOpen level) line ::
        (plain ++ [.bare (.headingClose level) line'])) =
      [.heading (.bare (.headingOpen level) line) plain
        (some (.bare (.headingClose level) line'))] := by
    rw [regions_heading _ _ rfl, List.takeWhile_append_of_pos still,
      List.dropWhile_append_of_pos still]
    simp [Token.isHeadingClose, Token.bare, Token.kind, regions]
  have top (fuel : Nat) : placement TestTree.new level fuel 0 = 0 := by
    cases fuel with
    | zero => rfl
    | succ fuel => exact ite_self 0
  have under : placement TestTree.new (Token.bare (.headingOpen level) line).level
      TestTree.new.size 0 = 0 := top _
  rw [compile_eq, parts, compileRegions, compileRegions, said, trim_joinWith words, under]
  rfl

end Single

theorem compile_reflowed {c : Construct} {ws : List Text} (words : ∀ w ∈ ws, IsWord w)
    {layout : List Event} (laid : Laid c ws layout) (o i : Nat) (catalog : Catalog)
    (file source source' : Text) {front front' back back' : List Event}
    (fronts : front.map Event.kind = front'.map Event.kind)
    (backs : back.map Event.kind = back'.map Event.kind)
    (outside : (front.foldl (Tokenizer.step source) .start).fence = none) :
    (compile catalog file (Token.ofEvents source (front ++ layout ++ back))).mapError
          CompileError.unplaced =
        (compile catalog file
          (Token.ofEvents source' (front' ++ onOneLine c o i ws ++ back'))).mapError
            CompileError.unplaced ∧
      (compile catalog file (Token.ofEvents source layout)).mapError CompileError.unplaced =
        compiledWords catalog file ws c := by
  have block : c = .quote ∨ ∃ level, c = .heading level := by
    cases laid with
    | quote => exact .inl rfl
    | heading o level => exact .inr ⟨level, rfl⟩
  have reads := laid_reads words laid
  have reads' := onOneLine_reads words block o i
  constructor
  · rw [Token.ofEvents, Token.ofEvents, List.foldl_append, List.foldl_append, List.foldl_append,
      List.foldl_append]
    have before := Tokenizer.Alike.start.foldl source source' fronts
    have through := reads.alike reads' source source' before outside
    exact compile_alike catalog file (through.foldl source source' backs).flush.tokens
  · obtain ⟨line, plain, line', isPlain, said, tokens⟩ := reads.ofEvents source
    rw [tokens]
    obtain rfl | ⟨level, rfl⟩ := block
    · exact compile_words_quote words isPlain said catalog file line line'
    · exact compile_words_heading words isPlain said catalog file line line' level

def reflowed : Text := "> print *one*\n> \x60two\x60\n>\n> three\n"

theorem compile_reflowed_print :
    let line := onOneLine .quote 0 2 ["print", "one", "two", "three"]
    ∃ t, compile .builtin unnamed (Markdown.tokens reflowed) = .ok t ∧
      compile .builtin unnamed (Token.ofEvents "> print one two three\n" line) = .ok t ∧
      t.cases.map TestCase.commands = [[PrintCommand.ofLine "one two three"]] := by
  intro line
  let first : Paragraph :=
    ⟨["print", "one", "two"], 2,
      [.text 2 "print ", .span 8 [.text 9 "one"], .softBreak 13, .code 16 "two"],
      @Spells.next "print" (.letter ' ') _ _ rfl
        (@Spells.next "one" .softBreak _ _ rfl (.word "two"))⟩
  let second : Paragraph := ⟨["three"], 26, [.text 26 "three"], .word "three"⟩
  have parsed : Markdown.events reflowed = Block.enclose .quote 0
      (blockEvents ([first, second].map fun p => (p.offset, p.contents))) := by
    decide +kernel
  have laid : Laid .quote ["print", "one", "two", "three"] (Markdown.events reflowed) := by
    rw [parsed]
    exact .quote 0 [first, second]
  have words : ∀ w ∈ ["print".toList, "one".toList, "two".toList, "three".toList], IsWord w := by
    simp only [List.forall_mem_cons]
    exact ⟨⟨by decide, forall_of_any (by decide)⟩, ⟨by decide, forall_of_any (by decide)⟩,
      ⟨by decide, forall_of_any (by decide)⟩, ⟨by decide, forall_of_any (by decide)⟩, by simp⟩
  have empty : ([] : List Event).map Event.kind = [].map Event.kind := rfl
  have read {ts : List Token} {t : TestTree}
      (compiled : (compile .builtin unnamed ts).mapError CompileError.unplaced = .ok t) :
      compile .builtin unnamed ts = .ok t := by
    cases found : compile .builtin unnamed ts <;> rw [found] at compiled <;> cases compiled
    rfl
  obtain ⟨same, alone⟩ := compile_reflowed words laid 0 2 .builtin unnamed reflowed
    "> print one two three\n" empty empty rfl
  simp only [List.nil_append, List.append_nil] at same
  have compiled := read alone
  exact ⟨_, compiled, read (same.symm.trans alone), rfl⟩

end Compiler

end Docspec
