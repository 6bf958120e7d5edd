import Docspec.Document.Event
import Docspec.Document.Token

set_option autoImplicit false

namespace Docspec

def lineStartsFrom (place : Nat) : Text → List Nat
  | [] => []
  | c :: t =>
    if c = '\n' then (place + 1) :: lineStartsFrom (place + 1) t
    else lineStartsFrom (place + 1) t

def lineStarts (source : Text) : List Nat := 0 :: lineStartsFrom 0 source

def lineOf (source : Text) (offset : Nat) : Nat :=
  ((lineStarts source).takeWhile (· ≤ offset)).length

theorem lt_of_mem_lineStartsFrom {place start : Nat} {t : Text}
    (member : start ∈ lineStartsFrom place t) : place < start := by
  induction t generalizing place with
  | nil => exact absurd member List.not_mem_nil
  | cons c t ih =>
    rw [lineStartsFrom] at member
    split at member
    next =>
      rcases List.mem_cons.1 member with rfl | later
      · exact Nat.lt_succ_self place
      · exact Nat.lt_of_succ_lt (ih later)
    next => exact Nat.lt_of_succ_lt (ih member)

theorem length_takeWhile_lineStartsFrom (place n : Nat) (t : Text) :
    ((lineStartsFrom place t).takeWhile (· ≤ place + n)).length = (t.take n).count '\n' := by
  induction t generalizing place n with
  | nil => simp [lineStartsFrom]
  | cons c t ih =>
    cases n with
    | zero =>
      -- Every line starts behind the place.
      cases shape : lineStartsFrom place (c :: t) with
      | nil => simp
      | cons start more =>
        have later : place < start := lt_of_mem_lineStartsFrom (t := c :: t) (by simp [shape])
        have beyond : ¬ start ≤ place := Nat.not_le_of_lt later
        simp [beyond]
    | succ n =>
      have rest := ih (place + 1) n
      rw [Nat.add_right_comm, Nat.add_assoc] at rest
      by_cases newline : c = '\n'
      next =>
        have reached : place + 1 ≤ place + (n + 1) := by omega
        simp [lineStartsFrom, newline, reached, rest]
      next => simp [lineStartsFrom, newline, rest]

theorem lineOf_eq (source : Text) (offset : Nat) :
    lineOf source offset = 1 + (source.take offset).count '\n' := by
  have rest := length_takeWhile_lineStartsFrom 0 offset source
  rw [Nat.zero_add] at rest
  simp [lineOf, lineStarts, rest, Nat.add_comm]

structure Tokenizer where
  tokens : List Token
  enclosing : List Construct
  run : List Token
  fence : Option (Text × Text × Nat)

namespace Tokenizer

def start : Tokenizer := ⟨[], [], [], none⟩

def flush (s : Tokenizer) : Tokenizer :=
  match s.run with
  | [] => s
  | t :: ts => { s with tokens := s.tokens ++ [.mk .inline [] (t :: ts) t.line], run := [] }

def emit (t : Token) (s : Tokenizer) : Tokenizer := { s with tokens := s.tokens ++ [t] }

def gather (t : Token) (s : Tokenizer) : Tokenizer := { s with run := s.run ++ [t] }

def enter (c : Construct) (s : Tokenizer) : Tokenizer := { s with enclosing := c :: s.enclosing }

def startConstruct (c : Construct) (line : Nat) (s : Tokenizer) : Tokenizer :=
  match c with
  | .heading level => (s.flush.emit (.bare (.headingOpen level) line)).enter c
  | .quote => (s.flush.emit (.bare .quoteOpen line)).enter c
  | .fence info => { s.flush with fence := some (Text.trim info, [], line) }.enter c
  | .indentedCode => (s.flush.emit (.bare .other line)).enter c
  | .span | .other => s.enter c

def stopConstruct (line : Nat) (s : Tokenizer) : Tokenizer :=
  match s.enclosing with
  | [] => s.flush
  | c :: outer =>
    let s := { s with enclosing := outer }
    match c with
    | .heading level => s.flush.emit (.bare (.headingClose level) line)
    | .quote => s.flush.emit (.bare .quoteClose line)
    | .fence _ =>
      match s.fence with
      | some (info, content, line) =>
        { s with fence := none }.emit (.mk (.fence info) content [] line)
      | none => s
    | .span => s
    | .indentedCode | .other => s.flush

/-- A text goes into the open fence, or is dropped in indented code, or joins the run. -/
def addText (t : Text) (line : Nat) (s : Tokenizer) : Tokenizer :=
  match s.fence with
  | some (info, content, start) => { s with fence := some (info, content ++ t, start) }
  | none =>
    if s.enclosing.head? = some .indentedCode then s else s.gather (.ofText t line)

def step (source : Text) (s : Tokenizer) (e : Event) : Tokenizer :=
  let line := lineOf source e.offset
  match e.kind with
  | .start c => s.startConstruct c line
  | .stop => s.stopConstruct line
  | .text t | .code t => s.addText t line
  | .softBreak | .hardBreak => s.gather (.ofText [' '] line)
  | .silent => s

def finish (s : Tokenizer) : List Token := s.flush.tokens

end Tokenizer

def Token.ofEvents (source : Text) (events : List Event) : List Token :=
  (events.foldl (Tokenizer.step source) .start).finish

end Docspec
