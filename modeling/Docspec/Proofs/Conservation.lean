import Docspec.Proofs.Bracketing

set_option autoImplicit false

namespace Docspec

open Text

def Construct.isIndented (c : Construct) : Bool := c = .indentedCode

namespace Event

/-- The texts of events, in order, but for those directly inside constructs that are left out. The
constructs that have started before are given, the innermost first. -/
def textsIn (left : Construct → Bool) : List Construct → List Event → List Text
  | _, [] => []
  | enclosing, e :: es =>
    match e.kind with
    | .start c => textsIn left (c :: enclosing) es
    | .stop => textsIn left enclosing.tail es
    | _ => (if enclosing.head?.any left then [] else e.said?.toList) ++ textsIn left enclosing es

section Reading

variable (left : Construct → Bool) (enclosing : List Construct) (offset : Nat) (es : List Event)

theorem textsIn_start (c : Construct) :
    textsIn left enclosing (⟨.start c, offset⟩ :: es) = textsIn left (c :: enclosing) es :=
  rfl

theorem textsIn_stop :
    textsIn left enclosing (⟨.stop, offset⟩ :: es) = textsIn left enclosing.tail es :=
  rfl

end Reading

end Event

namespace Token

def runTexts (t : Token) : List Text :=
  if t.kind = .inline then t.children.map Token.content else []

theorem concat_closeRun (run : List Token) : concat (closeRun run) = concat run := by
  cases run with
  | nil => rfl
  | cons t ts => exact List.append_nil _

theorem runTexts_closeRun (run : List Token) :
    (closeRun run).flatMap runTexts = run.map Token.content := by
  cases run with
  | nil => rfl
  | cons t ts => simp [closeRun, runTexts, Token.kind, Token.children]

end Token

namespace Mark

def said : Mark → Text
  | text _ t | token t => t.flatText
  | starts | ends => []

theorem concat_tokensFrom (run : List Token) (ms : List Mark) :
    Token.concat (tokensFrom run ms) = Token.concat run ++ ms.flatMap said := by
  induction ms generalizing run with
  | nil => simpa [tokensFrom, emitted, pending] using Token.concat_closeRun run
  | cons m ms ih =>
    have rest : Token.concat (tokens ms) = ms.flatMap said := ih []
    cases m with
    | text block t =>
      have joined : Token.concat (tokensFrom run (text block t :: ms)) =
        Token.concat (run ++ [t]) ++ ms.flatMap said := ih (run ++ [t])
      simpa [Token.concat_append, Token.concat, said] using joined
    | starts => exact ih run
    | token | ends =>
      rw [tokensFrom_stop rfl]
      simp [Token.concat_append, Token.concat, Token.concat_closeRun, rest, token?, said]

theorem runTexts_tokensFrom {ms : List Mark} (sound : ∀ m ∈ ms, m.Sound) (run : List Token) :
    (tokensFrom run ms).flatMap Token.runTexts =
      run.map Token.content ++ (texts ms).map Token.content := by
  induction ms generalizing run with
  | nil => simpa [tokensFrom, emitted, pending, texts] using Token.runTexts_closeRun run
  | cons m ms ih =>
    obtain ⟨own, others⟩ := List.forall_mem_cons.1 sound
    have rest : (tokens ms).flatMap Token.runTexts = (texts ms).map Token.content :=
      ih others []
    cases m with
    | text block t =>
      have joined : (tokensFrom run (text block t :: ms)).flatMap Token.runTexts =
        (run ++ [t]).map Token.content ++ (texts ms).map Token.content := ih others (run ++ [t])
      simpa [texts, text?] using joined
    | starts => exact ih others run
    | token t =>
      have alone : t.runTexts = [] := if_neg own
      rw [tokensFrom_stop rfl]
      simpa [Token.runTexts_closeRun, token?, alone, texts, text?, List.filterMap_cons] using rest
    | ends =>
      rw [tokensFrom_stop rfl]
      simpa [Token.runTexts_closeRun, token?, texts, text?, List.filterMap_cons] using rest

end Mark

namespace Event

open Docspec.Part

section Code

variable (left : Construct → Bool) (c : Construct) (enclosing : List Construct)
  (texts : List (Nat × Text)) (stop : Nat) (rest : List Event)

theorem textsIn_code :
    textsIn left (c :: enclosing) (textEvents texts ++ ⟨.stop, stop⟩ :: rest) =
      (if left c then [] else texts.map Prod.snd) ++ textsIn left enclosing rest := by
  induction texts with
  | nil => cases h : left c <;> simp [textEvents, textsIn]
  | cons t texts ih =>
    change (if left c then [] else [t.2]) ++
      textsIn left (c :: enclosing) (textEvents texts ++ ⟨.stop, stop⟩ :: rest) = _
    rw [ih]
    cases left c <;> rfl

end Code

variable (source : Text)

structure Reading (β : Type) where
  left : Construct → Bool
  ofTexts : List Text → List β
  ofMark : Mark → List β
  left_code : ∀ c, left c = true → c.isCode = true
  nil : ofTexts [] = []
  append : ∀ ts us, ofTexts (ts ++ us) = ofTexts ts ++ ofTexts us
  text : ∀ block t line, ofMark (.text block (.ofText t line)) = ofTexts [t]
  code : ∀ c texts line, c.isCode = true →
    ofMark (.token (c.codeToken texts line)) = if left c then [] else ofTexts (texts.map Prod.snd)
  bare : ∀ (c : Construct) line, (c.startMark? line).toList.flatMap ofMark = [] ∧
    (c.stopMark? line).toList.flatMap ofMark = []

namespace Reading

variable {β : Type} (r : Reading β)

mutual

theorem read_part (block place : List Nat) (enclosing : List Construct)
    (outside : inCode enclosing = false) (p : Part) (rest : List Event) :
    r.ofTexts (textsIn r.left enclosing (p.events ++ rest)) =
      (p.marksIn source block place).flatMap r.ofMark ++
        r.ofTexts (textsIn r.left enclosing rest) := by
  cases p with
  | leaf e single =>
    have heard : enclosing.head?.any r.left = false := by
      cases enclosing with
      | nil => rfl
      | cons c outer => exact Bool.eq_false_iff.2 (mt (r.left_code c) (Bool.eq_false_iff.1 outside))
    obtain ⟨kind, offset⟩ := e
    cases kind with
    | start | stop => cases single
    | silent => simp [events, textsIn, heard, marksIn, said?]
    | text | code | softBreak | hardBreak =>
      simpa [events, textsIn, heard, marksIn, said?, r.text] using
        r.append [_] (textsIn r.left enclosing rest)
  | code c isCode start texts stop =>
    rw [events, List.cons_append, List.append_assoc, List.singleton_append, textsIn_start,
      textsIn_code, r.append, marksIn, List.flatMap_singleton, r.code c texts _ isCode]
    cases r.left c with
    | true => simp [r.nil]
    | false => rfl
  | within c noCode levelled start inside stop =>
    have inner := read_parts (if c = .span then block else place) place 0 (c :: enclosing)
      noCode inside (⟨.stop, stop⟩ :: rest)
    rw [events, List.cons_append, List.append_assoc, List.singleton_append, textsIn_start,
      inner, textsIn_stop, marksIn, List.flatMap_append, List.flatMap_append, (r.bare c _).1,
      (r.bare c _).2, List.nil_append, List.append_nil, List.tail_cons]

theorem read_parts (block place : List Nat) (number : Nat) (enclosing : List Construct)
    (outside : inCode enclosing = false) (ps : List Part) (rest : List Event) :
    r.ofTexts (textsIn r.left enclosing (eventsOfAll ps ++ rest)) =
      (marksOfAllIn source block place number ps).flatMap r.ofMark ++
        r.ofTexts (textsIn r.left enclosing rest) := by
  cases ps with
  | nil => rfl
  | cons p ps =>
    rw [eventsOfAll, List.append_assoc, read_part block (number :: place) _ outside p,
      read_parts block place (number + 1) _ outside ps, marksOfAllIn, List.flatMap_append,
      List.append_assoc]

end

end Reading

def spoken : Reading Char where
  left := Construct.isIndented
  ofTexts := List.flatten
  ofMark := Mark.said
  left_code c indented := by cases c <;> first | rfl | cases indented
  nil := rfl
  append _ _ := List.flatten_append
  text block t line := by simp [Mark.said, Token.ofText, Token.flatText]
  code c texts line isCode := by
    cases c with
    | heading | quote | span | other => cases isCode
    | fence | indentedCode =>
      simp [Construct.isIndented, Mark.said, Construct.codeToken, Token.bare, Token.flatText,
        List.flatMap_def]
  bare c line := by cases c <;> exact ⟨rfl, rfl⟩

def outsideCode : Reading Text where
  left := Construct.isCode
  ofTexts := id
  ofMark m := (m.text?.map Token.content).toList
  left_code _ isCode := isCode
  nil := rfl
  append _ _ := rfl
  text _ _ _ := rfl
  code _ _ _ isCode := (if_pos isCode).symm
  bare c line := by cases c <;> exact ⟨rfl, rfl⟩

end Event

theorem Token.ofEvents_keeps_texts {events : List Event} (nested : Event.nest events = true)
    (source : Text) :
    let ts := Token.ofEvents source events
    Token.concat ts = (Event.textsIn Construct.isIndented [] events).flatten ∧
      ts.filterMap Token.fence? = Event.fences events ∧
      ts.flatMap Token.runTexts = Event.textsIn Construct.isCode [] events := by
  obtain ⟨parts, rfl⟩ := Event.nest_iff.1 nested
  intro ts
  have read : ts = Mark.tokens (Part.marks source parts) := Token.ofEvents_marks source parts
  have sound := Part.sound_parts source [] [] 0 parts
  have fences := Event.fences_parts source [] [] 0 parts []
  have said := Event.spoken.read_parts source [] [] 0 [] rfl parts []
  have texts := Event.outsideCode.read_parts source [] [] 0 [] rfl parts []
  have runs : (Mark.texts (Part.marks source parts)).map Token.content =
      (Part.marks source parts).flatMap Event.outsideCode.ofMark := by
    rw [Mark.texts, List.map_filterMap, List.filterMap_eq_flatMap_toList]
    rfl
  simp only [Event.textsIn, Event.fences, Event.spoken.nil, Event.outsideCode.nil,
    List.append_nil] at said fences texts
  rw [read, fences]
  exact ⟨(Mark.concat_tokensFrom [] _).trans said.symm, Mark.fences_tokens sound,
    (Mark.runTexts_tokensFrom sound []).trans (runs.trans texts.symm)⟩

theorem Token.ofEvents_keeps_texts_quote :
    let source := "> - set `a`\n>   b\n\n    left\n\n```yaml\na: 1\n```\n".toList
    let events := Markdown.events source
    let ts := Token.ofEvents source events
    Event.nest events = true ∧ Token.concat ts = "set a ba: 1\n".toList ∧
      ts.filterMap Token.fence? = [("yaml".toList, "a: 1\n".toList)] ∧
      ts.flatMap Token.runTexts = [['s', 'e', 't', ' '], ['a'], [' '], ['b']] := by
  intro source events ts
  have nested : Event.nest events = true := by decide +kernel
  obtain ⟨said, fences, texts⟩ := Token.ofEvents_keeps_texts nested source
  have given : (Event.textsIn Construct.isIndented [] events).flatten = "set a ba: 1\n".toList ∧
      Event.fences events = [("yaml".toList, "a: 1\n".toList)] ∧
      Event.textsIn Construct.isCode [] events = [['s', 'e', 't', ' '], ['a'], [' '], ['b']] := by
    decide +kernel
  exact ⟨nested, said.trans given.1, fences.trans given.2.1, texts.trans given.2.2⟩

end Docspec
