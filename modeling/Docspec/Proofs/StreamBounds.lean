import Docspec.Proofs.Placement
import Docspec.Proofs.Turns

set_option autoImplicit false

namespace Docspec.Compiler

open TestTree

structure Cursor where
  tokens : List Token
  index : Nat

namespace Cursor

def peek? (c : Cursor) : Option Token := c.tokens[c.index]?

def advance (c : Cursor) : Cursor := { c with index := min (c.index + 1) c.tokens.length }

def find (stops : Token → Bool) (c : Cursor) : Nat :=
  (((c.tokens.drop c.index).findIdx? stops).map (c.index + ·)).getD c.tokens.length

def slice? (start stop : Nat) (c : Cursor) : Option (List Token) :=
  if start ≤ stop ∧ stop ≤ c.tokens.length then some ((c.tokens.take stop).drop start) else none

def seek? (stops : Token → Bool) (c : Cursor) : Option (List Token × Cursor) := do
  let skipped ← c.slice? c.index (c.find stops)
  return (skipped, { c with index := c.find stops })

def ahead? (stops : Token → Bool) (c : Cursor) : Option (List Token) :=
  c.slice? c.index (c.find stops)

end Cursor

def climb? (t : TestTree) (level i : Nat) : Option (Turning Nat Nat Nat) := do
  let n ← t.get? i
  if n.level < level then return .ended i i
  else
    match n.parent with
    | some p => return .passed i p
    | none => return .ended i i

def climbed (t : TestTree) (level : Nat) : Nat → Nat → List Nat
  | 0, i => [i]
  | fuel + 1, i =>
    if (t.getD i).level < level then [i]
    else
      match (t.getD i).parent with
      | some p => i :: climbed t level fuel p
      | none => [i]

structure Stage where
  tree : TestTree
  current : Nat
  index : Nat

def Stage.start : Stage := ⟨.new, 0, 0⟩

/-- What a turn starts from, where it cuts the stream, the cases it uses and the one it is given by
the tree, and the number of the token it stops at. -/
structure Turn where
  stage : Stage
  slices : List (Nat × Nat)
  used : List Nat
  returned : Option Nat
  next : Nat

section Turns

variable (catalog : Catalog) (source : Text) (tokens : List Token) (s : Stage)

def heading? (level : Nat) : Option (Turning Stage Turn (Except CompileError TestTree)) := do
  let opened := Cursor.advance ⟨tokens, s.index⟩
  let (title, closed) ← opened.seek? Token.isHeadingClose
  let parent := placement s.tree level s.tree.size s.current
  guard (parent < s.tree.size)
  return .passed
    { stage := s
      slices := [(opened.index, closed.index)]
      used := climbed s.tree level s.tree.size s.current
      returned := some s.tree.size
      next := closed.index }
    ⟨s.tree.addChild parent (Text.trim (paragraphs title)) level, s.tree.size, closed.index⟩

def quote? (line : Nat) : Option (Turning Stage Turn (Except CompileError TestTree)) := do
  let opened := Cursor.advance ⟨tokens, s.index⟩
  let (quoted, stopped) ← opened.seek? Token.isQuoteClose
  let closed := stopped.advance
  let stops : Token → Bool := fun t => t.isQuoteOpen || t.isHeadingOpen
  -- Fences are only needed once the command is known. To look ahead at once asks for more.
  let ahead ← closed.ahead? stops
  let turn : Turn :=
    { stage := s
      slices := [(opened.index, stopped.index), (closed.index, closed.find stops)]
      used := [s.current]
      returned := none
      next := closed.index }
  match command catalog source line quoted ahead with
  | .error err => return .ended turn (.error err)
  | .ok c =>
    guard (s.current < s.tree.size)
    return .passed turn ⟨s.tree.addCommand s.current c, s.current, closed.index⟩

def step? : Option (Turning Stage Turn (Except CompileError TestTree)) :=
  let cursor : Cursor := ⟨tokens, s.index⟩
  match cursor.peek? with
  | none => some (.left (.ok s.tree))
  | some tok =>
    match tok.kind with
    | .headingOpen level => heading? tokens s level
    | .quoteOpen => quote? catalog source tokens s tok.line
    | _ =>
      let next := cursor.advance.index
      some (.passed ⟨s, [], [], none, next⟩ { s with index := next })

end Turns

/-- A turn moves on and stays in the stream, and so does where it cuts it. It uses cases of the tree
it starts from. For a heading these are the ones on the way up to a less deep case or, if none is
less deep, the document. -/
structure Turn.InBounds (tokens : List Token) (turn : Turn) : Prop where
  index_lt : turn.stage.index < turn.next
  next_le : turn.next ≤ tokens.length
  slices : ∀ cut ∈ turn.slices, cut.1 ≤ cut.2 ∧ cut.2 ≤ tokens.length
  known : ∀ i ∈ turn.used, i < turn.stage.tree.size
  climbs : ∀ tok level, tokens[turn.stage.index]? = some tok → tok.kind = .headingOpen level →
    let t := turn.stage.tree
    let top := placement t level t.size turn.stage.current
    (∀ used top', Runs (climb? t level) turn.stage.current used top' ↔
      used = turn.used ∧ top' = top) ∧ (t.level top < level ∨ top = 0)

/-- What the turns from a stage on have in common: each starts where the one before it stopped, they
are no more than the tokens ahead, and all are in bounds. They only use cases there were or that the
tree gave before, and stop short of the end of the stream only for an error. -/
structure Progress (tokens : List Token) (s : Stage) (turns : List Turn)
    (result : Except CompileError TestTree) : Prop where
  onward : ∃ last, Onward (·.stage.index) Turn.next s.index turns last ∧
    ∀ t, result = .ok t → last = tokens.length
  few : turns.length ≤ tokens.length - s.index
  inBounds : ∀ turn ∈ turns, turn.InBounds tokens
  known : ∀ before turn after, turns = before ++ turn :: after →
    ∀ i ∈ turn.used, i < s.tree.size ∨ ∃ earlier ∈ before, earlier.returned = some i

namespace Cursor

variable (before rest : List Token) (stops : Token → Bool)

theorem peek?_cons (tok : Token) :
    peek? ⟨before ++ tok :: rest, before.length⟩ = some tok := by
  simp [peek?]

theorem advance_append : advance ⟨before ++ rest, before.length⟩ =
    ⟨before ++ rest, (before ++ rest.head?.toList).length⟩ := by
  cases rest with
  | nil => simp [advance]
  | cons tok rest => simp [advance]

theorem find_append : find stops ⟨before ++ rest, before.length⟩ =
    (before ++ rest.takeWhile fun t => !stops t).length := by
  have passed : (rest.takeWhile fun t => !stops t).length = rest.findIdx stops := by
    rw [List.takeWhile_eq_take_findIdx_not, List.length_take]
    simpa using List.findIdx_le_length
  rw [List.length_append, passed, List.findIdx_eq_getD_findIdx?,
    ← Option.getD_map (before.length + ·), ← List.length_append, find]
  dsimp only
  rw [List.drop_left]

theorem slice?_front {before front rest : List Token} (begins : front <+: rest) (n : Nat) :
    slice? before.length (before ++ front).length ⟨before ++ rest, n⟩ = some front := by
  have start : before.length ≤ (before ++ front).length := by simp
  have stop : (before ++ front).length ≤ (before ++ rest).length := by simpa using begins.length_le
  rw [slice?, if_pos ⟨start, stop⟩]
  obtain ⟨more, rfl⟩ := begins
  dsimp only
  rw [← List.append_assoc, List.take_left, List.drop_left]

theorem ahead?_append : ahead? stops ⟨before ++ rest, before.length⟩ =
    some (rest.takeWhile fun t => !stops t) := by
  rw [ahead?, find_append]
  exact slice?_front (List.takeWhile_prefix _) _

theorem seek?_append : seek? stops ⟨before ++ rest, before.length⟩ =
    some (rest.takeWhile fun t => !stops t,
      ⟨before ++ rest, (before ++ rest.takeWhile fun t => !stops t).length⟩) := by
  rw [seek?, find_append, slice?_front (List.takeWhile_prefix _)]
  rfl

theorem advance_found (p : Token → Bool) :
    advance ⟨before ++ rest, (before ++ rest.takeWhile p).length⟩ =
      ⟨before ++ rest.takeWhile p ++ (rest.dropWhile p).head?.toList ++ (rest.dropWhile p).tail,
        (before ++ rest.takeWhile p ++ (rest.dropWhile p).head?.toList).length⟩ := by
  have whole : before ++ rest = before ++ rest.takeWhile p ++ rest.dropWhile p := by
    rw [List.append_assoc, List.takeWhile_append_dropWhile]
  have parts := takeWhile_append_rest p rest
  rw [whole, advance_append, ← whole, List.append_assoc before, List.append_assoc before, parts]

end Cursor

-- The climb ends, since every case but the document has its parent before it.
theorem runs_climbed {t : TestTree} (outlined : t.Outlined) (level : Nat) {fuel i : Nat}
    (enough : i < fuel) (inside : i < t.size) :
    Runs (climb? t level) i (climbed t level fuel i) (placement t level fuel i) ∧
      ∀ j ∈ climbed t level fuel i, j < t.size := by
  induction fuel generalizing i with
  | zero => omega
  | succ fuel ih =>
    have found : t.get? i = some (t.getD i) := by
      rw [getD, get?, List.getElem?_eq_getElem inside]
      rfl
    have last : ∀ j ∈ [i], j < t.size := by simpa using inside
    have turn : climb? t level i = if (t.getD i).level < level then some (.ended i i) else
        match (t.getD i).parent with
        | some p => some (.passed i p)
        | none => some (.ended i i) := by
      rw [climb?, found]
      rfl
    rw [climbed, placement]
    split
    next lower => exact ⟨.ended (by rw [turn, if_pos lower]), last⟩
    next deep =>
      rw [if_neg deep] at turn
      rcases Nat.eq_zero_or_pos i with rfl | positive
      · rw [outlined.document] at turn ⊢
        exact ⟨.ended turn, last⟩
      · obtain ⟨p, parent, holds⟩ := outlined.nearest i positive inside
        rw [parent] at turn ⊢
        obtain ⟨runs, known⟩ :=
          ih (i := p) (by have := holds.before; omega) (Nat.lt_trans holds.before inside)
        exact ⟨.passed turn runs, List.forall_mem_cons.2 ⟨inside, known⟩⟩

namespace Progress

variable {tokens : List Token} {result : Except CompileError TestTree}

theorem nil {s : Stage} (reached : ∀ t, result = .ok t → s.index = tokens.length) :
    Progress tokens s [] result where
  onward := ⟨s.index, .nil, reached⟩
  few := Nat.zero_le _
  inBounds := fun _ member => by cases member
  known := fun before turn after split => by simp at split

theorem cons {turn : Turn} {turns : List Turn} {s : Stage} (bounds : turn.InBounds tokens)
    (rest : Progress tokens s turns result) (next : s.index = turn.next)
    (given : ∀ i < s.tree.size, i < turn.stage.tree.size ∨ turn.returned = some i) :
    Progress tokens turn.stage (turn :: turns) result where
  onward := by
    obtain ⟨last, onward, reached⟩ := rest.onward
    exact ⟨last, .cons (next ▸ onward), reached⟩
  few := by
    have fewer := rest.few
    have later := bounds.index_lt
    have within := bounds.next_le
    simp only [List.length_cons]
    omega
  inBounds := List.forall_mem_cons.2 ⟨bounds, rest.inBounds⟩
  known := by
    intro before turn' after split i used
    cases before with
    | nil =>
      obtain ⟨rfl, -⟩ := List.cons.inj split
      exact .inl (bounds.known i used)
    | cons first before =>
      obtain ⟨rfl, behind⟩ := List.cons.inj split
      rcases rest.known before turn' after behind i used with old | ⟨earlier, member, returned⟩
      · rcases given i old with older | returned
        · exact .inl older
        · exact .inr ⟨_, List.mem_cons_self, returned⟩
      · exact .inr ⟨earlier, List.mem_cons_of_mem _ member, returned⟩

end Progress

section Turns

variable (before rest : List Token) (tok : Token) (t : TestTree) (current : Nat)

def Turn.ofHeading (level : Nat) : Turn :=
  let title := rest.takeWhile fun k => !k.isHeadingClose
  let closed := before ++ [tok] ++ title
  { stage := ⟨t, current, before.length⟩
    slices := [((before ++ [tok]).length, closed.length)]
    used := climbed t level t.size current
    returned := some t.size
    next := closed.length }

def Turn.ofQuote : Turn :=
  let quoted := rest.takeWhile fun k => !k.isQuoteClose
  let behind := rest.dropWhile fun k => !k.isQuoteClose
  let stopped := before ++ [tok] ++ quoted
  let closed := stopped ++ behind.head?.toList
  let ahead := closed ++ behind.tail.takeWhile fun k => !(k.isQuoteOpen || k.isHeadingOpen)
  { stage := ⟨t, current, before.length⟩
    slices := [((before ++ [tok]).length, stopped.length), (closed.length, ahead.length)]
    used := [current]
    returned := none
    next := closed.length }

theorem advance_cons : Cursor.advance ⟨before ++ tok :: rest, before.length⟩ =
    ⟨before ++ [tok] ++ rest, (before ++ [tok]).length⟩ := by
  rw [Cursor.advance_append, List.append_cons before tok rest]
  rfl

theorem heading?_append (level : Nat) (inside : placement t level t.size current < t.size) :
    let title := rest.takeWhile fun k => !k.isHeadingClose
    let turn := Turn.ofHeading before rest tok t current level
    heading? (before ++ tok :: rest) ⟨t, current, before.length⟩ level =
      some (.passed turn ⟨t.addChild (placement t level t.size current)
        (Text.trim (paragraphs title)) level, t.size, turn.next⟩) := by
  simp only [heading?, advance_cons, Cursor.seek?_append, Option.bind_eq_bind, Option.bind_some,
    guard, if_pos inside]
  rfl

theorem command_ahead (catalog : Catalog) (source : Text) (line : Nat) (quoted ts : List Token) :
    command catalog source line quoted
        (ts.takeWhile fun t => !(t.isQuoteOpen || t.isHeadingOpen)) =
      command catalog source line quoted ts := by
  have same : fences (ts.takeWhile fun t => !(t.isQuoteOpen || t.isHeadingOpen)) = fences ts := by
    rw [fences, List.takeWhile_idem]
    rfl
  simp only [command, same]

theorem quote?_append {catalog : Catalog} {source : Text} {line : Nat}
    {result : Except CompileError Command} (inside : current < t.size)
    (called : command catalog source line (rest.takeWhile fun k => !k.isQuoteClose)
      (rest.dropWhile fun k => !k.isQuoteClose).tail = result) :
    let turn := Turn.ofQuote before rest tok t current
    quote? catalog source (before ++ tok :: rest) ⟨t, current, before.length⟩ line =
      match result with
      | .error err => some (.ended turn (.error err))
      | .ok c => some (.passed turn ⟨t.addCommand current c, current, turn.next⟩) := by
  simp only [quote?, advance_cons, Cursor.seek?_append, Option.bind_eq_bind, Option.bind_some,
    Cursor.advance_found, Cursor.ahead?_append, Cursor.find_append, command_ahead, called, guard,
    if_pos inside]
  cases result <;> rfl

variable {tok t current}

theorem ofHeading_inBounds {level : Nat} (kind : tok.kind = .headingOpen level)
    (outlined : t.Outlined) (inside : current < t.size) :
    (Turn.ofHeading before rest tok t current level).InBounds (before ++ tok :: rest) := by
  obtain ⟨climb, known⟩ := runs_climbed outlined level inside inside
  obtain ⟨-, lower, -⟩ := placement_lastLower outlined level inside inside
  have fits : (rest.takeWhile fun k => !k.isHeadingClose).length ≤ rest.length :=
    (List.takeWhile_prefix _).length_le
  refine ⟨?_, ?_, ?_, known, ?_⟩
  · simp only [Turn.ofHeading, List.length_append, List.length_singleton]
    omega
  · simp only [Turn.ofHeading, List.length_append, List.length_cons, List.length_nil]
    omega
  · simp only [Turn.ofHeading, List.mem_singleton, forall_eq, List.length_append, List.length_cons,
      List.length_nil]
    omega
  · intro tok' level' here kind'
    obtain rfl : tok = tok' := by simpa [Turn.ofHeading] using here
    obtain rfl : level = level' := TokenKind.headingOpen.inj (kind.symm.trans kind')
    exact ⟨fun _ _ => climb.iff, lower.symm⟩

theorem inBounds_of_no_heading (noHeading : ∀ level, tok.kind ≠ .headingOpen level) {turn : Turn}
    (start : turn.stage.index = before.length) (later : before.length < turn.next)
    (within : turn.next ≤ (before ++ tok :: rest).length)
    (slices : ∀ cut ∈ turn.slices, cut.1 ≤ cut.2 ∧ cut.2 ≤ (before ++ tok :: rest).length)
    (known : ∀ i ∈ turn.used, i < turn.stage.tree.size) :
    turn.InBounds (before ++ tok :: rest) where
  index_lt := start ▸ later
  next_le := within
  slices := slices
  known := known
  climbs := fun tok' level here kind => by
    obtain rfl : tok = tok' := by simpa [start] using here
    exact absurd kind (noHeading level)

theorem ofQuote_inBounds (kind : tok.kind = .quoteOpen) (inside : current < t.size) :
    (Turn.ofQuote before rest tok t current).InBounds (before ++ tok :: rest) := by
  have whole := congrArg List.length (takeWhile_append_rest (fun k => !k.isQuoteClose) rest)
  have ahead : ((rest.dropWhile fun k => !k.isQuoteClose).tail.takeWhile
      fun k => !(k.isQuoteOpen || k.isHeadingOpen)).length ≤
      (rest.dropWhile fun k => !k.isQuoteClose).tail.length := (List.takeWhile_prefix _).length_le
  simp only [List.length_append] at whole
  have known : ∀ i ∈ [current], i < t.size := by simpa using inside
  refine inBounds_of_no_heading before rest (by simp [kind]) rfl ?_ ?_ ?_ known
  · simp only [Turn.ofQuote, List.length_append, List.length_singleton]
    omega
  · simp only [Turn.ofQuote, List.length_append, List.length_cons, List.length_nil]
    omega
  · simp only [Turn.ofQuote, List.forall_mem_cons, List.length_append, List.length_cons,
      List.length_nil]
    refine ⟨⟨?_, ?_⟩, ⟨?_, ?_⟩, by simp⟩ <;> omega

end Turns

section Compile

variable (catalog : Catalog) (source : Text)

-- The induction is along compiling. What the loop has passed stands in front of what is compiled.
theorem runs_compileFrom {tokens : List Token} (t : TestTree) (current : Nat)
    (ts before : List Token) (whole : tokens = before ++ ts) (outlined : t.Outlined)
    (last : current + 1 = t.size) :
    ∃ turns, Runs (step? catalog source tokens) ⟨t, current, before.length⟩ turns
        (compileFrom catalog source t current ts) ∧
      Progress tokens ⟨t, current, before.length⟩ turns
        (compileFrom catalog source t current ts) := by
  fun_induction compileFrom catalog source t current ts generalizing before with
  | case1 t current =>
    have peeked : Cursor.peek? ⟨tokens, before.length⟩ = none := by simp [Cursor.peek?, whole]
    exact ⟨[], .left (by simp only [step?, peeked]), .nil fun _ _ => by simp [whole]⟩
  | case2 t current tok rest level kind name parent ih =>
    subst whole
    have inside : current < t.size := by omega
    obtain ⟨upTo, lower, between⟩ := placement_lastLower outlined level inside inside
    have placed : parent < t.size := Nat.lt_of_le_of_lt upTo inside
    have added : (t.addChild parent name level).Outlined :=
      outlined.addChild name placed lower fun j after before => between j after (by omega)
    have size := size_addChild t parent name level
    obtain ⟨turns, runs, progress⟩ :=
      ih (before ++ [tok] ++ rest.takeWhile fun k => !k.isHeadingClose) (by simp) added size.symm
    have turn := heading?_append before rest tok t current level placed
    have bounds := ofHeading_inBounds before rest kind outlined inside
    refine ⟨_, .passed ?_ runs, .cons bounds progress rfl ?_⟩
    · simp only [step?, Cursor.peek?_cons, kind]
      exact turn
    · intro i old
      rcases Nat.lt_succ_iff_lt_or_eq.1 (size ▸ old) with older | same
      · exact .inl older
      · exact .inr (congrArg some same.symm)
  | case3 t current tok rest kind after e failed =>
    subst whole
    have inside : current < t.size := by omega
    have turn := quote?_append before rest tok t current inside failed
    have bounds := ofQuote_inBounds before rest kind inside
    let stop : Stage := ⟨t, current, (Turn.ofQuote before rest tok t current).next⟩
    have ended : Progress (before ++ tok :: rest) stop [] (.error e) := .nil fun _ ok => by cases ok
    refine ⟨_, .ended ?_, .cons bounds ended rfl fun _ old => .inl old⟩
    simp only [step?, Cursor.peek?_cons, kind]
    exact turn
  | case4 t current tok rest kind after c called ih =>
    subst whole
    have inside : current < t.size := by omega
    have turn := quote?_append before rest tok t current inside called
    have bounds := ofQuote_inBounds before rest kind inside
    have size : (t.addCommand current c).size = t.size := size_modify t current _
    have passed : before ++ tok :: rest = before ++ [tok] ++
        (rest.takeWhile fun k => !k.isQuoteClose) ++
        (rest.dropWhile fun k => !k.isQuoteClose).head?.toList ++ after := by
      rw [List.append_cons, List.append_assoc _ _ after, List.append_assoc _ _ (_ ++ after),
        ← List.append_assoc _ _ after, takeWhile_append_rest]
    obtain ⟨turns, runs, progress⟩ :=
      ih _ passed (outlined.addCommand inside c) (last.trans size.symm)
    refine ⟨_, .passed ?_ runs, .cons bounds progress rfl fun _ old => .inl (size ▸ old)⟩
    simp only [step?, Cursor.peek?_cons, kind]
    exact turn
  | case5 t current tok rest noHeading noQuote ih =>
    subst whole
    obtain ⟨turns, runs, progress⟩ := ih (before ++ [tok]) (by simp) outlined last
    have bounds : Turn.InBounds (before ++ tok :: rest)
        ⟨⟨t, current, before.length⟩, [], [], none, (before ++ [tok]).length⟩ :=
      inBounds_of_no_heading before rest noHeading rfl (by simp) (by simp) (by simp) (by simp)
    refine ⟨_, .passed ?_ runs, .cons bounds progress rfl fun _ old => .inl old⟩
    simp only [step?, Cursor.peek?_cons, advance_cons]

theorem compile_in_bounds (ts : List Token) :
    ∃ turns,
      (∀ turns' result, Runs (step? catalog source ts) .start turns' result ↔
        turns' = turns ∧ result = compile catalog source ts) ∧
      Progress ts .start turns (compile catalog source ts) := by
  obtain ⟨turns, runs, progress⟩ := runs_compileFrom catalog source .new 0 ts [] rfl .new rfl
  exact ⟨turns, fun _ _ => runs.iff, progress⟩

end Compile

end Docspec.Compiler
