import Docspec.Document.Tokenizer
import Docspec.Proofs.Nesting

set_option autoImplicit false

namespace Docspec

open Text

/-- A text comes with the place of its block in the document: the numbers of the parts that lead
there, the innermost first. -/
inductive Mark
  | text (block : List Nat) (t : Token)
  | token (t : Token)
  | starts
  | ends

def Construct.startMark? (c : Construct) (line : Nat) : Option Mark :=
  match c with
  | .heading level => some (.token (.bare (.headingOpen level) line))
  | .quote => some (.token (.bare .quoteOpen line))
  | .other => some .starts
  | .fence _ | .indentedCode | .span => none

def Construct.stopMark? (c : Construct) (line : Nat) : Option Mark :=
  match c with
  | .heading level => some (.token (.bare (.headingClose level) line))
  | .quote => some (.token (.bare .quoteClose line))
  | .other => some .ends
  | .fence _ | .indentedCode | .span => none

def Construct.codeToken (c : Construct) (texts : List (Nat × Text)) (line : Nat) : Token :=
  match c with
  | .fence info => .mk (.fence (trim info)) (texts.flatMap Prod.snd) [] line
  | _ => .bare .other line

namespace Part

mutual

def marksIn (source : Text) (block place : List Nat) : Part → List Mark
  | leaf e _ => (e.said?.map fun t => Mark.text block (.ofText t (lineOf source e.offset))).toList
  | code c _ start texts _ => [.token (c.codeToken texts (lineOf source start))]
  | within c _ _ start inside stop =>
    (c.startMark? (lineOf source start)).toList ++
      marksOfAllIn source (if c = .span then block else place) place 0 inside ++
        (c.stopMark? (lineOf source stop)).toList

def marksOfAllIn (source : Text) (block place : List Nat) (number : Nat) : List Part → List Mark
  | [] => []
  | p :: ps =>
    p.marksIn source block (number :: place) ++ marksOfAllIn source block place (number + 1) ps

end

def marks (source : Text) (parts : List Part) : List Mark := marksOfAllIn source [] [] 0 parts

end Part

def closeRun : List Token → List Token
  | [] => []
  | t :: ts => [.mk .inline [] (t :: ts) t.line]

namespace Mark

def emitted (run : List Token) : List Mark → List Token
  | [] => []
  | text _ t :: ms => emitted (run ++ [t]) ms
  | token t :: ms => closeRun run ++ t :: emitted [] ms
  | starts :: ms => emitted run ms
  | ends :: ms => closeRun run ++ emitted [] ms

def pending (run : List Token) : List Mark → List Token
  | [] => run
  | text _ t :: ms => pending (run ++ [t]) ms
  | token _ :: ms => pending [] ms
  | starts :: ms => pending run ms
  | ends :: ms => pending [] ms

def tokensFrom (run : List Token) (ms : List Mark) : List Token :=
  emitted run ms ++ closeRun (pending run ms)

def tokens (ms : List Mark) : List Token := tokensFrom [] ms

theorem emitted_append (run : List Token) (ms more : List Mark) :
    emitted run (ms ++ more) = emitted run ms ++ emitted (pending run ms) more := by
  induction ms generalizing run with
  | nil => rfl
  | cons m ms ih =>
    cases m with
    | text block t => exact ih (run ++ [t])
    | starts => exact ih run
    | token t => simp [emitted, pending, ih]
    | ends => simp [emitted, pending, ih]

theorem pending_append (run : List Token) (ms more : List Mark) :
    pending run (ms ++ more) = pending (pending run ms) more := by
  induction ms generalizing run with
  | nil => rfl
  | cons m ms ih =>
    cases m with
    | text block t => exact ih (run ++ [t])
    | starts => exact ih run
    | token | ends => exact ih []

theorem tokensFrom_append (run : List Token) (ms more : List Mark) :
    tokensFrom run (ms ++ more) = emitted run ms ++ tokensFrom (pending run ms) more := by
  rw [tokensFrom, emitted_append, pending_append, List.append_assoc, tokensFrom]

end Mark

namespace Tokenizer

def read (ms : List Mark) (s : Tokenizer) : Tokenizer :=
  { s with tokens := s.tokens ++ Mark.emitted s.run ms, run := Mark.pending s.run ms }

variable (source : Text) {s : Tokenizer}

theorem read_append (ms more : List Mark) (s : Tokenizer) :
    s.read (ms ++ more) = (s.read ms).read more := by
  simp [read, Mark.emitted_append, Mark.pending_append]

theorem flush_eq_read (s : Tokenizer) : s.flush = s.read [.ends] := by
  obtain ⟨tokens, enclosing, run, fence⟩ := s
  cases run <;> simp [flush, read, Mark.emitted, Mark.pending, closeRun]

theorem emit_flush_eq_read (t : Token) (s : Tokenizer) : s.flush.emit t = s.read [.token t] := by
  simp [flush_eq_read, emit, read, Mark.emitted, Mark.pending]

theorem step_start (s : Tokenizer) (c : Construct) (offset : Nat) :
    step source s ⟨.start c, offset⟩ = s.startConstruct c (lineOf source offset) := rfl

theorem step_stop (s : Tokenizer) (offset : Nat) :
    step source s ⟨.stop, offset⟩ = s.stopConstruct (lineOf source offset) := rfl

structure Outside (s : Tokenizer) : Prop where
  fence : s.fence = none
  enclosing : Event.inCode s.enclosing = false

theorem Outside.read (outside : s.Outside) (ms : List Mark) : (s.read ms).Outside :=
  ⟨outside.fence, outside.enclosing⟩

theorem step_leaf (outside : s.Outside) {e : Event} (single : e.isLeaf = true) (block : List Nat) :
    step source s e = s.read
      (e.said?.map fun t => Mark.text block (.ofText t (lineOf source e.offset))).toList := by
  have gathered (t : Token) : s.gather t = s.read [.text block t] := by
    simp [gather, Tokenizer.read, Mark.emitted, Mark.pending]
  have joined (t : Text) (line : Nat) :
      s.addText t line = s.read [.text block (.ofText t line)] := by
    have left : s.enclosing.head? ≠ some .indentedCode := by
      intro found
      have coded := outside.enclosing
      rw [Event.inCode, found] at coded
      cases coded
    rw [addText, outside.fence]
    exact (if_neg left).trans (gathered _)
  obtain ⟨kind, offset⟩ := e
  cases kind with
  | start | stop => cases single
  | text t | code t => exact joined t _
  | softBreak | hardBreak => exact gathered _
  | silent => simp [step, Event.said?, Tokenizer.read, Mark.emitted, Mark.pending]

theorem startConstruct_eq {c : Construct} (noCode : c.isCode = false) (line : Nat) (s : Tokenizer) :
    s.startConstruct c line = (s.read (c.startMark? line).toList).enter c := by
  cases c with
  | heading | quote => rw [startConstruct, emit_flush_eq_read]; rfl
  | fence | indentedCode => cases noCode
  | span | other => simp [startConstruct, Construct.startMark?, read, Mark.emitted, Mark.pending]

theorem stopConstruct_eq {c : Construct} (noCode : c.isCode = false) (line : Nat) {s : Tokenizer}
    {outer : List Construct} (enclosed : s.enclosing = c :: outer) :
    s.stopConstruct line = { s with enclosing := outer }.read (c.stopMark? line).toList := by
  rw [stopConstruct, enclosed]
  cases c with
  | heading | quote => exact emit_flush_eq_read _ _
  | fence | indentedCode => cases noCode
  | span => simp [Construct.stopMark?, read, Mark.emitted, Mark.pending]
  | other => exact flush_eq_read _

theorem foldl_fence (texts : List (Nat × Text)) (info content : Text) (line : Nat) :
    (Part.textEvents texts).foldl (step source) { s with fence := some (info, content, line) } =
      { s with fence := some (info, content ++ texts.flatMap Prod.snd, line) } := by
  induction texts generalizing content with
  | nil => simp [Part.textEvents]
  | cons t texts ih =>
    have next := ih (content ++ t.2)
    rw [List.append_assoc, ← List.flatMap_cons] at next
    exact next

theorem foldl_indented (texts : List (Nat × Text)) (noFence : s.fence = none)
    (indented : s.enclosing.head? = some .indentedCode) :
    (Part.textEvents texts).foldl (step source) s = s := by
  induction texts with
  | nil => rfl
  | cons t texts ih =>
    have same : step source s ⟨.text t.2, t.1⟩ = s := by
      change s.addText t.2 _ = s
      rw [addText, noFence]
      exact if_pos indented
    rw [Part.textEvents, List.map_cons, List.foldl_cons, same]
    exact ih

theorem foldl_code (outside : s.Outside) {c : Construct} (isCode : c.isCode = true)
    (start : Nat) (texts : List (Nat × Text)) (stop : Nat) :
    (⟨.start c, start⟩ :: (Part.textEvents texts ++ [⟨.stop, stop⟩])).foldl (step source) s =
      s.read [.token (c.codeToken texts (lineOf source start))] := by
  obtain ⟨tokens, enclosing, run, fence⟩ := s
  obtain rfl : fence = none := outside.fence
  let flushed : Tokenizer := ⟨tokens ++ closeRun run, enclosing, [], none⟩
  have flush : (Tokenizer.mk tokens enclosing run none).flush = flushed := by
    simp [flush_eq_read, read, Mark.emitted, Mark.pending, flushed]
  rw [List.foldl_cons, List.foldl_append]
  cases c with
  | heading | quote | span | other => cases isCode
  | fence info =>
    have opened : step source ⟨tokens, enclosing, run, none⟩ ⟨.start (.fence info), start⟩ =
        { flushed.enter (.fence info) with
          fence := some (trim info, [], lineOf source start) } := by
      rw [step_start, startConstruct, flush]
      rfl
    rw [opened, foldl_fence]
    simp [step, stopConstruct, enter, emit, read, Mark.emitted, Mark.pending, flushed,
      Construct.codeToken]
  | indentedCode =>
    have opened : step source ⟨tokens, enclosing, run, none⟩ ⟨.start .indentedCode, start⟩ =
        (flushed.emit (.bare .other (lineOf source start))).enter .indentedCode := by
      rw [step_start, startConstruct, flush]
    rw [opened, foldl_indented source texts rfl rfl]
    simp [step, stopConstruct, enter, emit, read, Mark.emitted, Mark.pending, flushed,
      Construct.codeToken, Tokenizer.flush]

mutual

theorem foldl_part (block place : List Nat) (s : Tokenizer) (outside : s.Outside) (p : Part) :
    p.events.foldl (step source) s = s.read (p.marksIn source block place) := by
  cases p with
  | leaf e single => exact step_leaf source outside single block
  | code c isCode start texts stop => exact foldl_code source outside isCode start texts stop
  | within c noCode levelled start inside stop =>
    have entered : ((s.read (c.startMark? (lineOf source start)).toList).enter c).Outside :=
      ⟨outside.fence, noCode⟩
    have inner := foldl_parts (if c = .span then block else place) place 0 _ entered inside
    rw [Part.events, List.foldl_cons, List.foldl_append, step_start, startConstruct_eq noCode,
      inner, List.foldl_cons, step_stop, stopConstruct_eq noCode _ rfl, Part.marksIn, read_append,
      read_append]
    rfl

theorem foldl_parts (block place : List Nat) (number : Nat) (s : Tokenizer)
    (outside : s.Outside) (ps : List Part) :
    (Part.eventsOfAll ps).foldl (step source) s =
      s.read (Part.marksOfAllIn source block place number ps) := by
  cases ps with
  | nil => simp [Part.eventsOfAll, Part.marksOfAllIn, read, Mark.emitted, Mark.pending]
  | cons p ps =>
    rw [Part.eventsOfAll, List.foldl_append, foldl_part block (number :: place) s outside p,
      foldl_parts block place (number + 1) _ (outside.read _) ps, Part.marksOfAllIn, read_append]

end

end Tokenizer

theorem Token.ofEvents_marks (source : Text) (parts : List Part) :
    Token.ofEvents source (Part.eventsOfAll parts) = Mark.tokens (Part.marks source parts) := by
  have start : Tokenizer.start.Outside := ⟨rfl, rfl⟩
  rw [Token.ofEvents, Tokenizer.foldl_parts source [] [] 0 _ start, Tokenizer.finish,
    Tokenizer.flush_eq_read]
  simp [Tokenizer.read, Tokenizer.start, Mark.emitted, Mark.tokens, Mark.tokensFrom, Part.marks]

end Docspec
