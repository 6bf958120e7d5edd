import Docspec.Markdown
import Docspec.Proofs.Regions
import Docspec.Proofs.TextRuns

set_option autoImplicit false

namespace Docspec

open Text

namespace Token

def fence? (t : Token) : Option (Text × Text) :=
  match t.kind with
  | .fence info => some (info, t.content)
  | _ => none

theorem length_fences (ts : List Token) : (ts.filterMap fence?).length = ts.countP isFence := by
  rw [List.length_filterMap_eq_countP]
  refine List.countP_congr fun t _ => ?_
  obtain ⟨kind, content, children, line⟩ := t
  cases kind <;> simp [fence?, isFence, kind]

end Token

namespace Mark

def text? : Mark → Option Token
  | text _ t => some t
  | _ => none

def token? : Mark → Option Token
  | token t => some t
  | _ => none

def continues : Mark → Bool
  | text _ _ | starts => true
  | token _ | ends => false

def texts (ms : List Mark) : List Token := ms.filterMap text?

def Sound : Mark → Prop
  | text _ t => t.kind = .text
  | token t => t.kind ≠ .inline
  | starts | ends => True

theorem texts_append (ms more : List Mark) : texts (ms ++ more) = texts ms ++ texts more :=
  List.filterMap_append

theorem reads_continuing {own : List Mark} (continuing : ∀ m ∈ own, m.continues = true)
    (run : List Token) : emitted run own = [] ∧ pending run own = run ++ texts own := by
  induction own generalizing run with
  | nil => exact ⟨rfl, (List.append_nil run).symm⟩
  | cons m own ih =>
    obtain ⟨first, others⟩ := List.forall_mem_cons.1 continuing
    cases m with
    | text block t =>
      obtain ⟨none, waiting⟩ := ih others (run ++ [t])
      refine ⟨none, waiting.trans ?_⟩
      simp [texts, text?]
    | starts => exact ih others run
    | token | ends => cases first

end Mark

theorem closeRun_children {run : List Token} {front : List Token} {t : Token} {back : List Token}
    (closed : closeRun run = front ++ t :: back) : front = [] ∧ t.children = run ∧ back = [] := by
  cases run with
  | nil => simp [closeRun] at closed
  | cons c cs =>
    cases front with
    | nil =>
      obtain ⟨rfl, rfl⟩ := List.cons.inj closed
      exact ⟨rfl, rfl, rfl⟩
    | cons b front => simp [closeRun] at closed

theorem closeRun_append {run rest front : List Token} {t : Token} {back : List Token}
    (split : closeRun run ++ rest = front ++ t :: back) :
    front = [] ∧ t.children = run ∧ rest = back ∨
      ∃ later, front = closeRun run ++ later ∧ rest = later ++ t :: back := by
  rcases List.append_eq_append_iff.1 split with ⟨later, rfl, behind⟩ | ⟨inside, closed, behind⟩
  · exact .inr ⟨later, rfl, behind⟩
  · cases inside with
    | nil => exact .inr ⟨[], by simpa using closed.symm, by simpa using behind.symm⟩
    | cons u inside =>
      obtain ⟨rfl, rfl⟩ := List.cons.inj behind
      obtain ⟨none, children, rfl⟩ := closeRun_children closed
      exact .inl ⟨none, children, rfl⟩

namespace Mark

theorem tokensFrom_stop {m : Mark} (stops : m.continues = false) (run : List Token)
    (ms : List Mark) :
    tokensFrom run (m :: ms) = closeRun run ++ m.token?.toList ++ tokens ms := by
  cases m with
  | text | starts => cases stops
  | token | ends => simp [tokensFrom, emitted, pending, tokens, token?]

theorem tokens_continuing {own : List Mark} (continuing : ∀ m ∈ own, m.continues = true)
    (rest : List Mark) : tokens (own ++ rest) = tokensFrom (texts own) rest := by
  obtain ⟨none, waiting⟩ := reads_continuing continuing []
  rw [tokens, tokensFrom_append, none, waiting]
  rfl

theorem behind_stop {m : Mark} (sound : m.Sound) (stops : m.continues = false)
    {run : Token} (inline : run.kind = .inline) {rest later after : List Token}
    (split : m.token?.toList ++ rest = later ++ run :: after) :
    ∃ behind, later = m.token?.toList ++ behind ∧ rest = behind ++ run :: after := by
  cases m with
  | text | starts => cases stops
  | ends => exact ⟨later, rfl, split⟩
  | token t =>
    have alone : t.kind ≠ .inline := sound
    cases later with
    | nil =>
      obtain ⟨rfl, -⟩ := List.cons.inj split
      exact absurd inline alone
    | cons u behind =>
      obtain ⟨rfl, found⟩ := List.cons.inj split
      exact ⟨behind, rfl, found⟩

theorem run_within {ms : List Mark} (sound : ∀ m ∈ ms, m.Sound) {before after : List Token}
    {run : Token} (inline : run.kind = .inline) (split : tokens ms = before ++ run :: after) :
    ∃ front own back, ms = front ++ own ++ back ∧ (∀ m ∈ own, m.continues = true) ∧
      run.children = texts own ∧ tokens front = before ∧ tokens back = after := by
  obtain ⟨n, bound⟩ : ∃ n, ms.length ≤ n := ⟨_, Nat.le_refl _⟩
  induction n using Nat.strongRecOn generalizing ms before with
  | ind n shorter =>
    have continuing : ∀ m ∈ ms.takeWhile continues, m.continues = true :=
      fun m member => List.mem_takeWhile_imp member
    have whole := List.takeWhile_append_dropWhile (p := continues) (l := ms)
    generalize ms.takeWhile continues = own at continuing whole
    cases rest : ms.dropWhile continues with
    | nil =>
      rw [rest, List.append_nil] at whole
      subst whole
      have alone := tokens_continuing continuing []
      rw [List.append_nil, split] at alone
      obtain ⟨rfl, children, rfl⟩ := closeRun_children alone.symm
      exact ⟨[], own, [], by simp, continuing, children, rfl, rfl⟩
    | cons m more =>
      have stops : m.continues = false := by
        have first := List.head?_dropWhile_not continues ms
        rw [rest] at first
        simpa using first
      rw [rest] at whole
      subst whole
      rw [tokens_continuing continuing, tokensFrom_stop stops, List.append_assoc] at split
      rcases closeRun_append split with ⟨rfl, children, found⟩ | ⟨later, rfl, found⟩
      · refine ⟨[], own, m :: more, rfl, continuing, children, rfl, ?_⟩
        rw [tokens, tokensFrom_stop stops]
        exact found
      · obtain ⟨behind, rfl, deeper⟩ := behind_stop (sound m (by simp)) stops inline found
        have less : more.length < n := by
          rw [List.length_append, List.length_cons] at bound
          omega
        obtain ⟨front, inside, back, rfl, goes, children, rfl, remains⟩ :=
          shorter _ less (fun k member => sound k (by simp [member])) deeper (Nat.le_refl _)
        refine ⟨own ++ m :: front, inside, back, by simp, goes, children, ?_, remains⟩
        rw [tokens_continuing continuing, tokensFrom_stop stops, List.append_assoc]

theorem emitted_block (run : List Token) (first last : Token) (ms : List Mark) :
    emitted run ([token first] ++ ms ++ [token last]) =
      closeRun run ++ (first :: tokens ms ++ last :: []) := by
  simp [emitted, emitted_append, tokens, tokensFrom]

theorem filter_tokensFrom {ms : List Mark} (sound : ∀ m ∈ ms, m.Sound) (run : List Token) :
    (tokensFrom run ms).filter (fun t => t.kind != .inline) = ms.filterMap token? := by
  have closed (run : List Token) : (closeRun run).filter (fun t => t.kind != .inline) = [] := by
    cases run with
    | nil => rfl
    | cons t ts => simp [closeRun, Token.kind]
  induction ms generalizing run with
  | nil => exact closed run
  | cons m ms ih =>
    obtain ⟨own, others⟩ := List.forall_mem_cons.1 sound
    cases m with
    | text block t => exact ih others (run ++ [t])
    | starts => exact ih others run
    | ends =>
      have rest : (tokens ms).filter _ = _ := ih others []
      rw [tokensFrom_stop rfl]
      simp [closed, rest, List.filterMap_cons, token?]
    | token t =>
      have alone : t.kind ≠ .inline := own
      have rest : (tokens ms).filter _ = _ := ih others []
      rw [tokensFrom_stop rfl]
      simp [closed, rest, token?, alone]

theorem fences_tokens {ms : List Mark} (sound : ∀ m ∈ ms, m.Sound) :
    (tokens ms).filterMap Token.fence? = (ms.filterMap token?).filterMap Token.fence? := by
  have alone : (tokens ms).filter (fun t => t.kind != .inline) = ms.filterMap token? :=
    filter_tokensFrom sound []
  rw [← alone, List.filterMap_filter]
  refine List.filterMap_congr fun t _ => ?_
  obtain ⟨kind, content, children, line⟩ := t
  cases kind <;> simp [Token.fence?, Token.kind]

theorem pending_texts {ms : List Mark} (sound : ∀ m ∈ ms, m.Sound) {run : List Token}
    (waiting : ∀ t ∈ run, t.kind = .text) : ∀ t ∈ pending run ms, t.kind = .text := by
  induction ms generalizing run with
  | nil => exact waiting
  | cons m ms ih =>
    obtain ⟨own, others⟩ := List.forall_mem_cons.1 sound
    cases m with
    | text block t =>
      exact ih others (List.forall_mem_append.2 ⟨waiting, List.forall_mem_singleton.2 own⟩)
    | starts => exact ih others waiting
    | token | ends => exact ih others (by simp)

end Mark

namespace Part

variable (source : Text)

mutual

theorem sound_part (block place : List Nat) (p : Part) :
    ∀ m ∈ p.marksIn source block place, m.Sound := by
  cases p with
  | leaf e single =>
    intro m member
    obtain ⟨t, -, rfl⟩ := Option.map_eq_some_iff.1 (Option.mem_toList.1 member)
    rfl
  | code c isCode start texts stop =>
    intro m member
    obtain rfl := List.mem_singleton.1 member
    cases c with
    | fence | indentedCode => simp [Mark.Sound, Construct.codeToken, Token.kind, Token.bare]
    | heading | quote | span | other => cases isCode
  | within c noCode levelled start inside stop =>
    have inner := sound_parts (if c = .span then block else place) place 0 inside
    have outer (line : Nat) : (∀ m ∈ (c.startMark? line).toList, m.Sound) ∧
        ∀ m ∈ (c.stopMark? line).toList, m.Sound := by
      cases c <;>
        simp [Construct.startMark?, Construct.stopMark?, Mark.Sound, Token.kind, Token.bare]
    exact List.forall_mem_append.2
      ⟨List.forall_mem_append.2 ⟨(outer _).1, inner⟩, (outer _).2⟩

theorem sound_parts (block place : List Nat) (number : Nat) (ps : List Part) :
    ∀ m ∈ marksOfAllIn source block place number ps, m.Sound := by
  cases ps with
  | nil => simp [marksOfAllIn]
  | cons p ps =>
    exact List.forall_mem_append.2 ⟨sound_part block _ p, sound_parts block place _ ps⟩

end

end Part

namespace Event

open Docspec.Part

def startsFence (e : Event) : Bool :=
  match e.kind with
  | .start (.fence _) => true
  | _ => false

def fences : List Event → List (Text × Text)
  | [] => []
  | e :: es =>
    match e.kind with
    | .start (.fence info) =>
      (trim info, ((es.takeWhile fun e => e.kind ≠ .stop).filterMap said?).flatten) :: fences es
    | _ => fences es

theorem length_fences (es : List Event) : (fences es).length = es.countP startsFence := by
  induction es with
  | nil => rfl
  | cons e es ih =>
    obtain ⟨kind, offset⟩ := e
    rw [List.countP_cons, ← ih]
    cases kind with
    | start c => cases c <;> rfl
    | stop | text | code | softBreak | hardBreak | silent => rfl

section Code

variable (texts : List (Nat × Text)) (stop : Nat) (rest : List Event)

theorem takeWhile_texts :
    ((textEvents texts ++ ⟨.stop, stop⟩ :: rest).takeWhile fun e => e.kind ≠ .stop).filterMap
      said? = texts.map Prod.snd := by
  induction texts with
  | nil => rfl
  | cons t texts ih => exact congrArg (t.2 :: ·) ih

theorem fences_texts : fences (textEvents texts ++ ⟨.stop, stop⟩ :: rest) = fences rest := by
  induction texts with
  | nil => rfl
  | cons t texts ih => exact ih

end Code

variable (source : Text)

mutual

theorem fences_part (block place : List Nat) (p : Part) (rest : List Event) :
    fences (p.events ++ rest) =
      ((p.marksIn source block place).filterMap Mark.token?).filterMap Token.fence? ++
        fences rest := by
  cases p with
  | leaf e single =>
    obtain ⟨kind, offset⟩ := e
    cases kind with
    | start | stop => cases single
    | text | code | softBreak | hardBreak | silent => rfl
  | code c isCode start texts stop =>
    have behind := fences_texts texts stop rest
    have own := takeWhile_texts texts stop rest
    cases c with
    | heading | quote | span | other => cases isCode
    | fence info =>
      rw [events, List.cons_append, List.append_assoc, List.singleton_append, fences, own, behind,
        ← List.flatMap_def]
      rfl
    | indentedCode =>
      rw [events, List.cons_append, List.append_assoc, List.singleton_append, fences, behind]
      rfl
  | within c noCode levelled start inside stop =>
    have inner := fences_parts (if c = .span then block else place) place 0 inside
      (⟨.stop, stop⟩ :: rest)
    rw [events, List.cons_append, List.append_assoc, List.singleton_append, marksIn]
    cases c with
    | fence | indentedCode => cases noCode
    | heading | quote | span | other =>
      simpa [fences, Construct.startMark?, Construct.stopMark?, Mark.token?, Token.fence?,
        Token.kind, Token.bare, List.filterMap_cons] using inner

theorem fences_parts (block place : List Nat) (number : Nat) (ps : List Part)
    (rest : List Event) :
    fences (eventsOfAll ps ++ rest) =
      ((marksOfAllIn source block place number ps).filterMap Mark.token?).filterMap Token.fence? ++
        fences rest := by
  cases ps with
  | nil => rfl
  | cons p ps =>
    rw [eventsOfAll, List.append_assoc, fences_part block (number :: place) p,
      fences_parts block place (number + 1) ps, marksOfAllIn, List.filterMap_append,
      List.filterMap_append, List.append_assoc]

end

end Event

namespace Token

def StandsAlone (t : Token) : Prop :=
  t.kind = .inline ∧ t.children ≠ [] ∧ (∀ c ∈ t.children, c.kind = .text) ∨
    t.isFence = true ∨ t.kind = .other

/-- Streams in which every heading and every quote is closed after what it holds, a heading with the
level it was opened with. -/
inductive Balanced : List Token → Prop
  | nil : Balanced []
  | alone {t : Token} {ts : List Token} : t.StandsAlone → Balanced ts → Balanced (t :: ts)
  | heading {level line line' : Nat} {inside ts : List Token} : 1 ≤ level → level ≤ 6 →
    Balanced inside → Balanced ts →
    Balanced (.bare (.headingOpen level) line :: inside ++
      .bare (.headingClose level) line' :: ts)
  | quote {line line' : Nat} {inside ts : List Token} : Balanced inside → Balanced ts →
    Balanced (.bare .quoteOpen line :: inside ++ .bare .quoteClose line' :: ts)

namespace Balanced

theorem append {as bs : List Token} (left : Balanced as) (right : Balanced bs) :
    Balanced (as ++ bs) := by
  induction left with
  | nil => exact right
  | alone stands _ ih => exact .alone stands ih
  | heading low high inside _ _ ih =>
    rw [List.append_assoc]
    exact .heading low high inside ih
  | quote inside _ _ ih =>
    rw [List.append_assoc]
    exact .quote inside ih

theorem closeRun {run : List Token} (texts : ∀ t ∈ run, t.kind = .text) :
    Balanced (closeRun run) := by
  cases run with
  | nil => exact .nil
  | cons t ts => exact .alone (.inl ⟨rfl, List.cons_ne_nil t ts, texts⟩) .nil

end Balanced

end Token

namespace Part

open Token

variable (source : Text)

mutual

theorem balanced_part (block place : List Nat) (p : Part) (run : List Token)
    (waiting : ∀ t ∈ run, t.kind = .text) :
    Balanced (Mark.emitted run (p.marksIn source block place)) := by
  cases p with
  | leaf e single =>
    rw [marksIn]
    cases e.said? <;> exact .nil
  | code c isCode start texts stop =>
    have alone : (c.codeToken texts (lineOf source start)).StandsAlone := by
      cases c with
      | fence => exact .inr (.inl rfl)
      | indentedCode => exact .inr (.inr rfl)
      | heading | quote | span | other => cases isCode
    exact (Balanced.closeRun waiting).append (.alone alone .nil)
  | within c noCode levelled start inside stop =>
    -- The texts of the part before a heading or a quote that starts are closed before it.
    have through (run : List Token) (waiting : ∀ t ∈ run, t.kind = .text) (block : List Nat) :
        Balanced (Mark.emitted run (marksOfAllIn source block place 0 inside)) ∧
          Balanced (Mark.tokensFrom run (marksOfAllIn source block place 0 inside)) := by
      have own := balanced_parts block place 0 inside run waiting
      have closed := Balanced.closeRun
        (Mark.pending_texts (sound_parts source block place 0 inside) waiting)
      exact ⟨own, own.append closed⟩
    cases c with
    | fence | indentedCode => cases noCode
    | heading level =>
      obtain ⟨low, high⟩ : 1 ≤ level ∧ level ≤ 6 := by simpa [Construct.isLevelled] using levelled
      have inner := (through [] (by simp) place).2
      change Balanced (Mark.emitted run
        ([.token (.bare (.headingOpen level) (lineOf source start))] ++
          marksOfAllIn source place place 0 inside ++
            [.token (.bare (.headingClose level) (lineOf source stop))]))
      rw [Mark.emitted_block]
      exact (Balanced.closeRun waiting).append (.heading low high inner .nil)
    | quote =>
      have inner := (through [] (by simp) place).2
      change Balanced (Mark.emitted run ([.token (.bare .quoteOpen (lineOf source start))] ++
        marksOfAllIn source place place 0 inside ++
          [.token (.bare .quoteClose (lineOf source stop))]))
      rw [Mark.emitted_block]
      exact (Balanced.closeRun waiting).append (.quote inner .nil)
    | span =>
      simpa [marksIn, Construct.startMark?, Construct.stopMark?] using
        (through run waiting block).1
    | other =>
      simpa [marksIn, Construct.startMark?, Construct.stopMark?, Mark.emitted, Mark.emitted_append,
        Mark.tokensFrom] using (through run waiting place).2

theorem balanced_parts (block place : List Nat) (number : Nat) (ps : List Part)
    (run : List Token) (waiting : ∀ t ∈ run, t.kind = .text) :
    Balanced (Mark.emitted run (marksOfAllIn source block place number ps)) := by
  cases ps with
  | nil => exact .nil
  | cons p ps =>
    have next := Mark.pending_texts (sound_part source block (number :: place) p) waiting
    rw [marksOfAllIn, Mark.emitted_append]
    exact (balanced_part block _ p run waiting).append
      (balanced_parts block place _ ps _ next)

end

end Part

theorem Token.ofEvents_brackets {events : List Event} (nested : Event.nest events = true)
    (source : Text) :
    let ts := Token.ofEvents source events
    Token.Balanced ts ∧ ts.countP Token.isFence = events.countP Event.startsFence ∧
      ∃ parts, Part.eventsOfAll parts = events ∧
        ts.filter (fun t => t.kind != .inline) = (Part.marks source parts).filterMap Mark.token? ∧
        ∀ before run after, ts = before ++ run :: after → run.kind = .inline →
          ∃ front own back, Part.marks source parts = front ++ own ++ back ∧
            (∀ m ∈ own, m.continues = true) ∧ run.children = Mark.texts own ∧
            Mark.tokens front = before ∧ Mark.tokens back = after := by
  obtain ⟨parts, rfl⟩ := Event.nest_iff.1 nested
  intro ts
  have sound : ∀ m ∈ Part.marks source parts, m.Sound := Part.sound_parts source [] [] 0 parts
  have read : ts = Mark.tokens (Part.marks source parts) := Token.ofEvents_marks source parts
  have fences := Event.fences_parts source [] [] 0 parts []
  simp only [Event.fences, List.append_nil] at fences
  refine ⟨?_, ?_, parts, rfl, ?_, ?_⟩
  · have nothing : ∀ t ∈ ([] : List Token), t.kind = .text := by simp
    have closed := Token.Balanced.closeRun (Mark.pending_texts sound nothing)
    rw [read]
    exact (Part.balanced_parts source [] [] 0 parts [] nothing).append closed
  · rw [← Token.length_fences, ← Event.length_fences, read, fences]
    exact congrArg List.length (Mark.fences_tokens sound)
  · rw [read]
    exact Mark.filter_tokensFrom sound []
  · intro before run after split inline
    rw [read] at split
    exact Mark.run_within sound inline split

theorem Token.ofEvents_brackets_list :
    let source := "# a\n> - `b`\n>   c\n\n```x\nd\n```\n".toList
    let events := Markdown.events source
    let ts := Token.ofEvents source events
    Event.nest events = true ∧ Token.Balanced ts ∧ ts.countP Token.isFence = 1 := by
  intro source events ts
  have nested : Event.nest events = true := by decide +kernel
  obtain ⟨balanced, counted, -⟩ := Token.ofEvents_brackets nested source
  have given : events.countP Event.startsFence = 1 := by decide +kernel
  exact ⟨nested, balanced, counted.trans given⟩

end Docspec
