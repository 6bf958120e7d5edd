import Docspec.Document.Compiler
import Mathlib.Data.List.Basic
import Mathlib.Data.List.TakeWhile

set_option autoImplicit false

namespace Docspec

def Token.level (t : Token) : Nat :=
  match t.kind with
  | .headingOpen level => level
  | _ => 0

def Token.isFence (t : Token) : Bool :=
  match t.kind with
  | .fence _ => true
  | _ => false

def Token.info (t : Token) : Text :=
  match t.kind with
  | .fence info => info
  | _ => []

def Token.block (t : Token) : Argument :=
  .ofBlock t.content (t.info.takeWhile (· ≠ ' ')) (Text.trim (t.info.dropWhile (· ≠ ' ')).tail)

/-- A part of a token stream. A heading or quote that the end of the stream cuts off has no token
that stops it. -/
inductive Region
  | heading (start : Token) (title : List Token) (stop : Option Token)
  | quote (start : Token) (quoted : List Token) (stop : Option Token)
  | loose (t : Token)

namespace Region

def tokens : Region → List Token
  | heading start title stop => start :: title ++ stop.toList
  | quote start quoted stop => start :: quoted ++ stop.toList
  | loose t => [t]

def isLoose : Region → Bool
  | loose _ => true
  | _ => false

def matters : Region → Bool
  | loose t => t.isFence
  | _ => true

def fence? : Region → Option Token
  | loose t => if t.isFence then some t else none
  | _ => none

end Region

/-- The regions of a stream. A heading ends at the next end of a heading and a quote at the next end
of a quote, whatever is between. -/
def regions : List Token → List Region
  | [] => []
  | t :: rest =>
    match t.kind with
    | .headingOpen _ =>
      let after := rest.dropWhile fun k => !k.isHeadingClose
      .heading t (rest.takeWhile fun k => !k.isHeadingClose) after.head? :: regions after.tail
    | .quoteOpen =>
      let after := rest.dropWhile fun k => !k.isQuoteClose
      .quote t (rest.takeWhile fun k => !k.isQuoteClose) after.head? :: regions after.tail
    | _ => .loose t :: regions rest
termination_by ts => ts.length
decreasing_by
  · have := Compiler.length_dropWhile_le (fun k : Token => !k.isHeadingClose) rest
    simp only [List.length_cons, List.length_tail]; omega
  · have := Compiler.length_dropWhile_le (fun k : Token => !k.isQuoteClose) rest
    simp only [List.length_cons, List.length_tail]; omega
  · simp

section Cut

variable (t : Token) (rest : List Token)

theorem regions_heading (opens : t.isHeadingOpen = true) :
    regions (t :: rest) =
      .heading t (rest.takeWhile fun k => !k.isHeadingClose)
          (rest.dropWhile fun k => !k.isHeadingClose).head? ::
        regions (rest.dropWhile fun k => !k.isHeadingClose).tail := by
  rw [regions]
  unfold Token.isHeadingOpen at opens
  split at opens
  next kind => simp only [kind]
  next => cases opens

theorem regions_quote (opens : t.isQuoteOpen = true) :
    regions (t :: rest) =
      .quote t (rest.takeWhile fun k => !k.isQuoteClose)
          (rest.dropWhile fun k => !k.isQuoteClose).head? ::
        regions (rest.dropWhile fun k => !k.isQuoteClose).tail := by
  have kind : t.kind = .quoteOpen := by simpa [Token.isQuoteOpen] using opens
  rw [regions]
  simp only [kind]

theorem regions_loose (noHeading : t.isHeadingOpen = false) (noQuote : t.isQuoteOpen = false) :
    regions (t :: rest) = .loose t :: regions rest := by
  rw [regions]
  split
  next kind => simp [Token.isHeadingOpen, kind] at noHeading
  next kind => simp [Token.isQuoteOpen, kind] at noQuote
  next => rfl

end Cut

theorem takeWhile_append_rest (p : Token → Bool) (ts : List Token) :
    ts.takeWhile p ++ (ts.dropWhile p).head?.toList ++ (ts.dropWhile p).tail = ts := by
  have whole := List.takeWhile_append_dropWhile (p := p) (l := ts)
  cases shape : ts.dropWhile p <;> simpa [shape] using whole

theorem regions_tokens (ts : List Token) : (regions ts).flatMap Region.tokens = ts := by
  fun_induction regions ts with
  | case1 => rfl
  | case2 t rest level kind after ih =>
    rw [List.flatMap_cons, ih, Region.tokens, List.cons_append]
    exact congrArg _ (takeWhile_append_rest _ rest)
  | case3 t rest kind after ih =>
    rw [List.flatMap_cons, ih, Region.tokens, List.cons_append]
    exact congrArg _ (takeWhile_append_rest _ rest)
  | case4 t rest _ _ ih => simp [Region.tokens, ih]

theorem regions_start {ts : List Token} {start : Token} {quoted : List Token}
    {stop : Option Token} (member : .quote start quoted stop ∈ regions ts) :
    start.isQuoteOpen = true := by
  fun_induction regions ts with
  | case1 => cases member
  | case2 t rest level kind after ih =>
    rcases List.mem_cons.1 member with same | later
    · cases same
    · exact ih later
  | case3 t rest kind after ih =>
    rcases List.mem_cons.1 member with same | later
    · cases same
      simp [Token.isQuoteOpen, kind]
    · exact ih later
  | case4 t rest _ _ ih =>
    rcases List.mem_cons.1 member with same | later
    · cases same
    · exact ih later

theorem block_ended (p : Token → Bool) (ts : List Token) (followed : (ts.dropWhile p).tail ≠ [])
    (more : List Token) :
    ∃ stop, (ts.dropWhile p).head? = some stop ∧
      (ts.takeWhile p ++ stop :: more).takeWhile p = ts.takeWhile p ∧
      (ts.takeWhile p ++ stop :: more).dropWhile p = stop :: more := by
  have inside : ∀ k ∈ ts.takeWhile p, p k = true := fun k => List.mem_takeWhile_imp
  have head := List.head?_dropWhile_not p ts
  cases found : ts.dropWhile p with
  | nil => simp [found] at followed
  | cons stop after =>
    have stops : p stop = false := by rwa [found] at head
    refine ⟨stop, rfl, ?_, ?_⟩
    · rw [List.takeWhile_append_of_pos inside]
      simp [stops]
    · rw [List.dropWhile_append_of_pos inside]
      simp [stops]

theorem regions_cons {ts : List Token} {r : Region} {rs : List Region}
    (first : regions ts = r :: rs) :
    regions (rs.flatMap Region.tokens) = rs ∧
      (rs ≠ [] → ∀ more, regions (r.tokens ++ more) = r :: regions more) := by
  cases ts with
  | nil => simp [regions] at first
  | cons t rest =>
    have ended {p : Token → Bool} (followed : regions (rest.dropWhile p).tail ≠ []) :=
      block_ended p rest fun none => followed (by rw [none, regions])
    by_cases heading : t.isHeadingOpen = true
    next =>
      rw [regions_heading t rest heading] at first
      obtain ⟨rfl, rfl⟩ := List.cons.inj first
      refine ⟨by rw [regions_tokens], fun followed more => ?_⟩
      obtain ⟨stop, found, title, after⟩ := ended followed more
      simp only [found, Region.tokens, Option.toList_some, List.cons_append, List.append_assoc,
        List.nil_append]
      rw [regions_heading t _ heading, title, after]
      rfl
    by_cases quote : t.isQuoteOpen = true
    next =>
      rw [regions_quote t rest quote] at first
      obtain ⟨rfl, rfl⟩ := List.cons.inj first
      refine ⟨by rw [regions_tokens], fun followed more => ?_⟩
      obtain ⟨stop, found, quoted, after⟩ := ended followed more
      simp only [found, Region.tokens, Option.toList_some, List.cons_append, List.append_assoc,
        List.nil_append]
      rw [regions_quote t _ quote, quoted, after]
      rfl
    have noHeading : t.isHeadingOpen = false := by simpa using heading
    have noQuote : t.isQuoteOpen = false := by simpa using quote
    rw [regions_loose t rest noHeading noQuote] at first
    obtain ⟨rfl, rfl⟩ := List.cons.inj first
    exact ⟨by rw [regions_tokens], fun _ more => regions_loose t more noHeading noQuote⟩

theorem regions_append {ts : List Token} {before after : List Region}
    (split : regions ts = before ++ after) (followed : after ≠ []) :
    regions (after.flatMap Region.tokens) = after ∧
      ∀ more, regions (before.flatMap Region.tokens ++ more) = before ++ regions more := by
  induction before generalizing ts with
  | nil =>
    rw [List.nil_append] at split
    exact ⟨by rw [← split, regions_tokens], fun _ => rfl⟩
  | cons r before ih =>
    obtain ⟨rest, closed⟩ := regions_cons split
    obtain ⟨later, earlier⟩ := ih rest
    refine ⟨later, fun more => ?_⟩
    rw [List.flatMap_cons, List.append_assoc, closed (by simp [followed]), earlier]
    rfl

theorem regions_delete {ts : List Token} {before after : List Region} {t : Token}
    (split : regions ts = before ++ .loose t :: after) :
    regions ((before ++ after).flatMap Region.tokens) = before ++ after := by
  obtain ⟨later, earlier⟩ := regions_append split (List.cons_ne_nil _ _)
  rw [List.flatMap_append, earlier, (regions_cons later).1]

/-- The fences that belong to a quote, given the regions after it: those before the next heading or
quote. -/
def fencesOf (after : List Region) : List Token :=
  (after.takeWhile Region.isLoose).filterMap Region.fence?

theorem fencesOf_loose (t : Token) (after : List Region) :
    fencesOf (.loose t :: after) = (if t.isFence then [t] else []) ++ fencesOf after := by
  rw [fencesOf, List.takeWhile_cons_of_pos (by rfl), List.filterMap_cons]
  cases fence : t.isFence <;> simp [Region.fence?, fence, fencesOf]

namespace Compiler

def calledName (quoted : List Token) : Text :=
  (Text.trim (paragraphs quoted)).takeWhile (· ≠ ' ')

def calledLine (quoted : List Token) : Text :=
  ((Text.trim (paragraphs quoted)).dropWhile (· ≠ ' ')).tail

def call (catalog : Catalog) (source : Text) (start : Token) (quoted : List Token)
    (after : List Region) : Except CompileError Command :=
  match catalog.resolve? (calledName quoted) with
  | none => .error ⟨calledName quoted, source, start.line⟩
  | some spec =>
    .ok (spec.instantiate
      (spec.split (calledLine quoted) ++ (fencesOf after).map Token.block))

def compileRegions (catalog : Catalog) (source : Text) (t : TestTree) (current : Nat) :
    List Region → Except CompileError TestTree
  | [] => .ok t
  | .heading start title _ :: rest =>
    compileRegions catalog source
      (t.addChild (placement t start.level t.size current) (Text.trim (paragraphs title))
        start.level)
      t.size rest
  | .quote start quoted _ :: rest =>
    match call catalog source start quoted rest with
    | .error e => .error e
    | .ok c => compileRegions catalog source (t.addCommand current c) current rest
  | .loose _ :: rest => compileRegions catalog source t current rest

theorem splitOnce_space (t : Text) :
    (Text.splitOnce (· = ' ') t).getD (t, []) =
      (t.takeWhile (· ≠ ' '), (t.dropWhile (· ≠ ' ')).tail) := by
  induction t with
  | nil => rfl
  | cons c t ih =>
    by_cases space : c = ' '
    next => simp [Text.splitOnce, space]
    next =>
      cases found : Text.splitOnce (· = ' ') t <;> rw [found] at ih <;>
        simpa [Text.splitOnce, space, found, Prod.ext_iff] using ih

theorem fences_eq (ts : List Token) :
    fences ts =
      ((ts.takeWhile fun t => !(t.isQuoteOpen || t.isHeadingOpen)).filter Token.isFence).map
        Token.block := by
  rw [← List.filterMap_eq_filter, List.map_filterMap]
  apply List.filterMap_congr
  intro t _
  split
  next info kind =>
    simp [Option.guard, Token.isFence, Token.block, Token.info, kind, splitOnce_space]
  next other =>
    have none : t.isFence = false := by
      unfold Token.isFence
      split
      next info kind => exact absurd kind (other info)
      next => rfl
    simp [Option.guard, none]

theorem fences_regions (ts : List Token) : fences ts = (fencesOf (regions ts)).map Token.block := by
  rw [fences_eq]
  congr 1
  induction ts with
  | nil => simp [fencesOf, regions]
  | cons t rest ih =>
    by_cases heading : t.isHeadingOpen = true
    next => simp [regions_heading t rest heading, fencesOf, heading, Region.isLoose]
    by_cases quote : t.isQuoteOpen = true
    next => simp [regions_quote t rest quote, fencesOf, quote, Region.isLoose]
    have noHeading : t.isHeadingOpen = false := by simpa using heading
    have noQuote : t.isQuoteOpen = false := by simpa using quote
    rw [regions_loose t rest noHeading noQuote, fencesOf_loose,
      List.takeWhile_cons_of_pos (by simp [noHeading, noQuote]), List.filter_cons, ih]
    cases t.isFence <;> rfl

theorem command_eq_call (catalog : Catalog) (source : Text) (start : Token)
    (quoted after : List Token) :
    command catalog source start.line quoted after =
      call catalog source start quoted (regions after) := by
  rw [command, call, fences_regions]
  simp only [splitOnce_space]
  rfl

section Compile

variable (catalog : Catalog) (source : Text) (t : TestTree) (current : Nat)

theorem compileRegions_title (rest : List Token) :
    compileRegions catalog source t current
        (regions (rest.dropWhile fun k => !k.isHeadingClose)) =
      compileRegions catalog source t current
        (regions (rest.dropWhile fun k => !k.isHeadingClose).tail) := by
  have head := List.head?_dropWhile_not (fun k : Token => !k.isHeadingClose) rest
  cases found : rest.dropWhile fun k => !k.isHeadingClose with
  | nil => rfl
  | cons stop after =>
    have closes : stop.isHeadingClose = true := by
      rw [found] at head
      simpa using head
    obtain ⟨level, kind⟩ : ∃ level, stop.kind = .headingClose level := by
      unfold Token.isHeadingClose at closes
      split at closes
      next level kind => exact ⟨level, kind⟩
      next => cases closes
    rw [regions_loose stop after (by simp [Token.isHeadingOpen, kind])
      (by simp [Token.isQuoteOpen, kind])]
    rfl

theorem compileFrom_eq (ts : List Token) :
    compileFrom catalog source t current ts =
      compileRegions catalog source t current (regions ts) := by
  fun_induction compileFrom catalog source t current ts with
  | case1 t current =>
    rw [regions]
    rfl
  | case2 t current tok rest level kind name parent ih =>
    have depth : tok.level = level := by simp [Token.level, kind]
    rw [ih, compileRegions_title, regions_heading tok rest (by simp [Token.isHeadingOpen, kind]),
      compileRegions, depth]
  | case3 t current tok rest kind after e failed =>
    rw [regions_quote tok rest (by simp [Token.isQuoteOpen, kind]), compileRegions,
      ← command_eq_call, failed]
  | case4 t current tok rest kind after c called ih =>
    rw [regions_quote tok rest (by simp [Token.isQuoteOpen, kind]), compileRegions,
      ← command_eq_call, called, ih]
  | case5 t current tok rest noHeading noQuote ih =>
    have heading : tok.isHeadingOpen = false := by
      unfold Token.isHeadingOpen
      split
      next level kind => exact (noHeading level kind).elim
      next => rfl
    have quote : tok.isQuoteOpen = false := by simpa [Token.isQuoteOpen] using noQuote
    rw [ih, regions_loose tok rest heading quote, compileRegions]

theorem compile_eq (ts : List Token) :
    compile catalog source ts = compileRegions catalog source .new 0 (regions ts) :=
  compileFrom_eq catalog source .new 0 ts

end Compile

end Compiler

end Docspec
