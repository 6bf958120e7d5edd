import Docspec.Markdown
import Docspec.Proofs.Aggregation
import Docspec.Proofs.PrintLine
import Docspec.Proofs.Regions

set_option autoImplicit false

namespace Docspec

open Text Placeholder Markdown

def Event.bared (e : Event) : Event :=
  match e.kind with
  | .code t => ⟨.text t, e.offset⟩
  | _ => e

theorem Tokenizer.step_bared (source : Text) (s : Tokenizer) (e : Event) :
    step source s e.bared = step source s e := by
  unfold Event.bared
  split
  next t kind => simp only [step, kind]
  next => rfl

theorem Token.ofEvents_bared (source : Text) (events : List Event) :
    Token.ofEvents source (events.map Event.bared) = Token.ofEvents source events := by
  rw [ofEvents, ofEvents, List.foldl_map]
  simp only [Tokenizer.step_bared]

namespace Markdown

mutual

def Inline.said : Inline → Text
  | .text _ t | .code _ t => t
  | .softBreak _ | .hardBreak _ => [' ']
  | .span _ contents => Inline.saidOfAll contents

def Inline.saidOfAll : List Inline → Text
  | [] => []
  | i :: is => i.said ++ Inline.saidOfAll is

end

mutual

def Inline.tokens (source : Text) : Inline → List Token
  | .text o t | .code o t => [.ofText t (lineOf source o)]
  | .softBreak o | .hardBreak o => [.ofText [' '] (lineOf source o)]
  | .span _ contents => Inline.tokensOfAll source contents

def Inline.tokensOfAll (source : Text) : List Inline → List Token
  | [] => []
  | i :: is => i.tokens source ++ Inline.tokensOfAll source is

end

mutual

theorem Inline.concat_tokens (source : Text) (i : Inline) :
    Token.concat (i.tokens source) = i.said := by
  cases i with
  | text o t | code o t => exact List.append_nil t
  | softBreak o | hardBreak o => rfl
  | span o contents => exact Inline.concat_tokensOfAll source contents

theorem Inline.concat_tokensOfAll (source : Text) (is : List Inline) :
    Token.concat (Inline.tokensOfAll source is) = Inline.saidOfAll is := by
  cases is with
  | nil => rfl
  | cons i is =>
    rw [tokensOfAll, Token.concat_append, Inline.concat_tokens source i,
      Inline.concat_tokensOfAll source is, saidOfAll]

end

end Markdown

namespace Tokenizer

def Gathers (s : Tokenizer) : Prop :=
  s.fence = none ∧ s.enclosing.head? ≠ some .indentedCode

def gatherAll (ts : List Token) (s : Tokenizer) : Tokenizer := { s with run := s.run ++ ts }

theorem addText_gathers {s : Tokenizer} (gathers : s.Gathers) (t : Text) (line : Nat) :
    s.addText t line = s.gatherAll [.ofText t line] := by
  rw [addText, gathers.1]
  exact if_neg gathers.2

mutual

theorem foldl_events (source : Text) (i : Inline) {s : Tokenizer} (gathers : s.Gathers) :
    i.events.foldl (step source) s = s.gatherAll (i.tokens source) := by
  cases i with
  | text o t | code o t => exact addText_gathers gathers t (lineOf source o)
  | softBreak o | hardBreak o => rfl
  | span o contents =>
    -- A span is on the stack while its contents are read, and texts join the run all the same.
    have inside : (s.enter .span).Gathers := ⟨gathers.1, by simp [enter]⟩
    have gathered := foldl_eventsOfAll source contents inside
    rw [Inline.events, List.foldl_cons, List.foldl_append]
    change step source (List.foldl (step source) (s.enter .span) _) ⟨.stop, o⟩ = _
    rw [gathered]
    rfl

theorem foldl_eventsOfAll (source : Text) (is : List Inline) {s : Tokenizer} (gathers : s.Gathers) :
    (Inline.eventsOfAll is).foldl (step source) s = s.gatherAll (Inline.tokensOfAll source is) := by
  cases is with
  | nil => simp [Inline.eventsOfAll, Inline.tokensOfAll, gatherAll]
  | cons i is =>
    have next : (s.gatherAll (i.tokens source)).Gathers := gathers
    rw [Inline.eventsOfAll, List.foldl_append, foldl_events source i gathers,
      foldl_eventsOfAll source is next]
    simp [gatherAll, Inline.tokensOfAll]

end

end Tokenizer

def quotedParagraph (outer inner : Nat) (contents : List Inline) : List Event :=
  Block.enclose .quote outer (Block.enclose .other inner (Inline.eventsOfAll contents))

theorem ofEvents_quotedParagraph (source : Text) (outer inner : Nat) {contents : List Inline}
    (visible : Inline.saidOfAll contents ≠ []) :
    ∃ run, run.kind = .inline ∧ run.flatText = Inline.saidOfAll contents ∧
      Token.ofEvents source (quotedParagraph outer inner contents) =
        [.bare .quoteOpen (lineOf source outer), run, .bare .quoteClose (lineOf source outer)] := by
  -- The starts of the two blocks leave an empty run, which the end of the paragraph closes.
  let opened : Tokenizer := ⟨[.bare .quoteOpen (lineOf source outer)], [.other, .quote], [], none⟩
  have gathered := Tokenizer.foldl_eventsOfAll source contents (s := opened) ⟨rfl, by simp [opened]⟩
  have said := Inline.concat_tokensOfAll source contents
  cases texts : Inline.tokensOfAll source contents with
  | nil =>
    rw [texts] at said
    exact absurd said.symm visible
  | cons t ts =>
    rw [texts] at gathered said
    refine ⟨.mk .inline [] (t :: ts) t.line, rfl, said, ?_⟩
    simp only [Token.ofEvents, quotedParagraph, Block.enclose, List.foldl_cons, List.foldl_append,
      List.foldl_nil]
    change Tokenizer.finish (Tokenizer.step source (Tokenizer.step source
      (List.foldl (Tokenizer.step source) opened (Inline.eventsOfAll contents)) ⟨.stop, inner⟩)
      ⟨.stop, outer⟩) = _
    rw [gathered]
    rfl

namespace Compiler

theorem compile_quote {start run stop : Token} {written : Text} (opens : start.kind = .quoteOpen)
    (closes : stop.kind = .quoteClose) (inside : run.kind = .inline)
    (said : run.flatText = PrintCommand.name ++ ' ' :: written) (trimmed : trim written = written)
    (visible : written ≠ []) (file : Text) :
    compile .builtin file [start, run, stop] =
      .ok (TestTree.new.addCommand 0 (PrintCommand.ofLine written)) := by
  have closed : stop.isQuoteClose = true := by simp [Token.isQuoteClose, closes]
  have still : run.isQuoteClose = false := by simp [Token.isQuoteClose, inside]
  have parts : regions [start, run, stop] = [.quote start [run] (some stop)] := by
    rw [regions_quote start _ (by simp [Token.isQuoteOpen, opens])]
    simp [still, closed, regions]
  have called := command_print said trimmed visible file start.line
  rw [command_eq_call, regions] at called
  rw [compile_eq, parts, compileRegions, called]
  rfl

end Compiler

namespace Runner

theorem run_single (s : Session) (cmd : Command) (c : Context) :
    (s.run (TestTree.new.addCommand 0 cmd) c).2.session.output = (cmd.execute s c).output := by
  have childless : (TestTree.new.addCommand 0 cmd).children 0 = [] := rfl
  have alone : trace s (TestTree.new.addCommand 0 cmd) c = [⟨0, cmd, c, s.output⟩] := by
    rw [trace, commandsFrom, TestTree.subtree_root, TestTree.walk, childless]
    rfl
  rw [run_came.follows.session]
  exact congrArg (outputAfter s) alone

theorem print_code_spans (source : Text) (outer inner : Nat) {contents : List Inline}
    {written : Text} (said : Inline.saidOfAll contents = PrintCommand.name ++ ' ' :: written)
    (trimmed : trim written = written) (visible : written ≠ []) (uncut : '>' ∉ written)
    (file : Text) (s : Session) (c : Context) :
    ∃ t, Compiler.compile .builtin file
          (Token.ofEvents source (quotedParagraph outer inner contents)) = .ok t ∧
      Compiler.compile .builtin file
        (Token.ofEvents source ((quotedParagraph outer inner contents).map Event.bared)) = .ok t ∧
      t.cases.map TestCase.commands = [[PrintCommand.ofLine written]] ∧
      (s.run t c).2.session.output = s.output ++
        match s.engine.interpolate written c.vars with
        | .ok shown => [⟨shown, none⟩]
        | .error _ => [] := by
  have filled : Inline.saidOfAll contents ≠ [] := by
    rw [said]
    exact List.cons_ne_nil _ _
  obtain ⟨text, kind, flat, tokens⟩ := ofEvents_quotedParagraph source outer inner filled
  have compiled : Compiler.compile .builtin file
        (Token.ofEvents source (quotedParagraph outer inner contents)) =
      .ok (TestTree.new.addCommand 0 (PrintCommand.ofLine written)) := by
    rw [tokens]
    exact Compiler.compile_quote rfl rfl kind (flat.trans said) trimmed visible file
  refine ⟨_, compiled, ?_, rfl, ?_⟩
  · rw [Token.ofEvents_bared]
    exact compiled
  · exact (run_single s _ c).trans (PrintCommand.execute_ofLine s c trimmed visible uncut)

def escapedName : Text := "> print \x60\x7b\x7b\x60 name \x60\x7d\x7d\x60\n"

theorem events_escapedName :
    Markdown.events escapedName = quotedParagraph 0 2
      [.text 2 "print ", .code 8 "\x7b\x7b", .text 12 " name ", .code 18 "\x7d\x7d"] := by
  decide +kernel

theorem print_code_spans_escaped :
    let c := Context.empty.set "name" (.str "World")
    let s := Session.new (.builtin ⟨0, 0⟩) id
    Markdown.events escapedName = quotedParagraph 0 2
        [.text 2 "print ", .code 8 "\x7b\x7b", .text 12 " name ", .code 18 "\x7d\x7d"] ∧
      ∃ t, Compiler.compile .builtin Compiler.unnamed
          (Token.ofEvents escapedName (Markdown.events escapedName)) = .ok t ∧
        (s.run t c).2.session.output = [⟨"World", none⟩] ∧
        (s.run t c).2.session.output ≠ [⟨"\x7b\x7b name \x7d\x7d", none⟩] := by
  intro c s
  have named : isVariableName "name".toList = true := by decide
  have said : Inline.saidOfAll
      [.text 2 "print ", .code 8 "\x7b\x7b", .text 12 " name ", .code 18 "\x7d\x7d"] =
        PrintCommand.name ++ ' ' :: placeholderOf "name" := rfl
  obtain ⟨t, compiled, -, -, printed⟩ := print_code_spans escapedName 0 2 said rfl (by decide)
    (by decide) Compiler.unnamed s c
  have shown : s.engine.interpolate (placeholderOf "name") c.vars = .ok "World" :=
    (interpolate_placeholderOf named _ _).trans (resolve_name named (by decide) _ _)
  rw [shown] at printed
  rw [events_escapedName]
  exact ⟨rfl, t, compiled, printed, by rw [printed]; decide⟩

end Runner

end Docspec
