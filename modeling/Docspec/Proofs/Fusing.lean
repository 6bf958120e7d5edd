import Docspec.Proofs.Alike
import Docspec.Proofs.Conservation

set_option autoImplicit false

namespace Docspec

open Text

namespace Token

/-- The position of the token that holds a text, when the texts of all runs are counted. -/
def runPlace : List Token → Nat → Nat
  | [], _ => 0
  | t :: ts, k => if k < t.runTexts.length then 0 else runPlace ts (k - t.runTexts.length) + 1

theorem runPlace_append {as : List Token} {k : Nat} (behind : (as.flatMap runTexts).length ≤ k)
    {t : Token} (inside : k < (as.flatMap runTexts).length + t.runTexts.length) (bs : List Token) :
    runPlace (as ++ t :: bs) k = as.length := by
  induction as generalizing k with
  | nil =>
    have own : k < t.runTexts.length := by simpa using inside
    exact if_pos own
  | cons a as ih =>
    rw [List.flatMap_cons, List.length_append] at behind inside
    have later : ¬ k < a.runTexts.length := by omega
    have rest := @ih (k - a.runTexts.length) (by omega) (by omega)
    rw [List.cons_append, runPlace, if_neg later, rest, List.length_cons]

end Token

namespace Mark

def waiting (blocks : List (List Nat)) : List Mark → List (List Nat)
  | [] => blocks
  | text b _ :: ms => waiting (b :: blocks) ms
  | starts :: ms => waiting blocks ms
  | token _ :: ms | ends :: ms => waiting [] ms

def Deepen (blocks : List (List Nat)) : List Mark → Prop
  | [] => True
  | text b _ :: ms => (∀ a ∈ blocks, a <:+ b) ∧ Deepen (b :: blocks) ms
  | starts :: ms => Deepen blocks ms
  | token _ :: ms | ends :: ms => Deepen [] ms

theorem deepen_append (blocks : List (List Nat)) (ms more : List Mark) :
    Deepen blocks (ms ++ more) ↔ Deepen blocks ms ∧ Deepen (waiting blocks ms) more := by
  induction ms generalizing blocks with
  | nil => simp [Deepen, waiting]
  | cons m ms ih =>
    cases m with
    | text b t => exact (and_congr_right fun _ => ih (b :: blocks)).trans and_assoc.symm
    | starts => exact ih blocks
    | token | ends => exact ih []

theorem waiting_append (blocks : List (List Nat)) (ms more : List Mark) :
    waiting blocks (ms ++ more) = waiting (waiting blocks ms) more := by
  induction ms generalizing blocks with
  | nil => rfl
  | cons m ms ih =>
    cases m with
    | text b t => exact ih (b :: blocks)
    | starts => exact ih blocks
    | token | ends => exact ih []

theorem mem_waiting {a : List Nat} {blocks : List (List Nat)} (waits : a ∈ blocks) {ms : List Mark}
    (continuing : ∀ m ∈ ms, m.continues = true) : a ∈ waiting blocks ms := by
  induction ms generalizing blocks with
  | nil => exact waits
  | cons m ms ih =>
    obtain ⟨first, others⟩ := List.forall_mem_cons.1 continuing
    cases m with
    | text b t => exact ih (List.mem_cons_of_mem b waits) others
    | starts => exact ih waits others
    | token | ends => cases first

theorem Deepen.suffix {front mid back : List Mark} {a b : List Nat} {x y : Token}
    (deepen : Deepen [] (front ++ text a x :: (mid ++ text b y :: back)))
    (continuing : ∀ m ∈ mid, m.continues = true) : a <:+ b := by
  have first : Deepen (waiting [] front) (text a x :: (mid ++ text b y :: back)) :=
    ((deepen_append [] front _).1 deepen).2
  have second : Deepen (waiting (a :: waiting [] front) mid) (text b y :: back) :=
    ((deepen_append _ mid _).1 first.2).2
  exact second.1 a (mem_waiting List.mem_cons_self continuing)

end Mark

namespace Part

open Mark

variable (source : Text)

mutual

theorem deepen_part (block place : List Nat) (within : block <:+ place) (p : Part)
    (blocks : List (List Nat)) (around : ∀ a ∈ blocks, a <:+ block) :
    Deepen blocks (p.marksIn source block place) ∧
      ∀ a ∈ waiting blocks (p.marksIn source block place), a <:+ block := by
  cases p with
  | leaf e single =>
    rw [marksIn]
    cases e.said? with
    | none => exact ⟨trivial, around⟩
    | some t =>
      exact ⟨⟨around, trivial⟩, List.forall_mem_cons.2 ⟨List.suffix_refl block, around⟩⟩
  | code c isCode start texts stop => exact ⟨trivial, by simp [marksIn, waiting]⟩
  | within c noCode levelled start inside stop =>
    have spanned := deepen_parts block place 0 within inside blocks around
    have inner := deepen_parts place place 0 (List.suffix_refl place) inside
    have outer := inner blocks fun a member => (around a member).trans within
    have fresh := inner [] (by simp)
    cases c with
    | fence | indentedCode => cases noCode
    | span => simpa [marksIn, Construct.startMark?, Construct.stopMark?] using spanned
    | heading | quote =>
      simp [marksIn, Construct.startMark?, Construct.stopMark?, deepen_append, waiting_append,
        Deepen, waiting, fresh.1]
    | other =>
      simp [marksIn, Construct.startMark?, Construct.stopMark?, deepen_append, waiting_append,
        Deepen, waiting, outer.1]

theorem deepen_parts (block place : List Nat) (number : Nat) (within : block <:+ place)
    (ps : List Part) (blocks : List (List Nat)) (around : ∀ a ∈ blocks, a <:+ block) :
    Deepen blocks (marksOfAllIn source block place number ps) ∧
      ∀ a ∈ waiting blocks (marksOfAllIn source block place number ps), a <:+ block := by
  cases ps with
  | nil => exact ⟨trivial, around⟩
  | cons p ps =>
    have deeper : block <:+ number :: place := within.trans (List.suffix_cons number place)
    obtain ⟨first, left⟩ := deepen_part block (number :: place) deeper p blocks around
    obtain ⟨rest, waits⟩ := deepen_parts block place (number + 1) within ps _ left
    rw [marksOfAllIn, deepen_append, waiting_append]
    exact ⟨⟨first, rest⟩, waits⟩

end

end Part

namespace Mark

theorem closeRun_concat (run : List Token) (t : Token) :
    ∃ line, closeRun (run ++ [t]) = [.mk .inline [] (run ++ [t]) line] := by
  cases run with
  | nil => exact ⟨t.line, rfl⟩
  | cons u us => exact ⟨u.line, rfl⟩

theorem emitted_run (run : List Token) (t : Token) {ms : List Mark}
    (ends : ¬ ∀ m ∈ ms, m.continues = true) :
    ∃ more line after,
      emitted (run ++ [t]) ms = .mk .inline [] (run ++ [t] ++ more) line :: after := by
  induction ms generalizing run t with
  | nil => simp at ends
  | cons m ms ih =>
    have later (continues : m.continues = true) : ¬ ∀ m ∈ ms, m.continues = true :=
      fun others => ends (List.forall_mem_cons.2 ⟨continues, others⟩)
    cases m with
    | text b u =>
      obtain ⟨more, line, after, whole⟩ := ih (run ++ [t]) u (later rfl)
      rw [List.append_assoc (run ++ [t])] at whole
      exact ⟨u :: more, line, after, whole⟩
    | starts => exact ih run t (later rfl)
    | token | ends =>
      obtain ⟨line, closed⟩ := closeRun_concat run t
      exact ⟨[], line, _, by rw [emitted, closed, List.append_nil]; rfl⟩

theorem tokensFrom_run (run : List Token) (t : Token) (ms : List Mark) :
    ∃ more line after,
      tokensFrom (run ++ [t]) ms = .mk .inline [] (run ++ [t] ++ more) line :: after := by
  by_cases continuing : ∀ m ∈ ms, m.continues = true
  next =>
    obtain ⟨none, waits⟩ := reads_continuing continuing (run ++ [t])
    obtain ⟨u, us, begun⟩ := List.exists_cons_of_ne_nil
      (List.append_ne_nil_of_left_ne_nil (List.concat_ne_nil t run) (texts ms))
    rw [tokensFrom, none, waits, begun]
    exact ⟨texts ms, u.line, [], by rw [begun]; rfl⟩
  next =>
    obtain ⟨more, line, after, whole⟩ := emitted_run run t continuing
    exact ⟨more, line, after ++ closeRun (pending (run ++ [t]) ms), by rw [tokensFrom, whole]; rfl⟩

theorem emitted_eq_nil_iff (run : List Token) (t : Token) {ms : List Mark} :
    emitted (run ++ [t]) ms = [] ↔ ∀ m ∈ ms, m.continues = true := by
  constructor
  · intro none
    by_contra ends
    obtain ⟨more, line, after, whole⟩ := emitted_run run t ends
    rw [none] at whole
    cases whole
  · exact fun continuing => (reads_continuing continuing _).1

theorem length_texts {ms : List Mark} (sound : ∀ m ∈ ms, m.Sound) :
    (texts ms).length =
      ((emitted [] ms).flatMap Token.runTexts).length + (pending [] ms).length := by
  have counted := congrArg List.length (runTexts_tokensFrom sound [])
  simpa [tokensFrom, Token.runTexts_closeRun] using counted.symm

theorem runPlace_text {ms front rest : List Mark} {a : List Nat} {x : Token}
    (sound : ∀ m ∈ ms, m.Sound) (shape : ms = front ++ text a x :: rest) :
    Token.runPlace (tokens ms) (texts front).length = (emitted [] front).length := by
  subst shape
  obtain ⟨more, line, after, run⟩ := tokensFrom_run (pending [] front) x rest
  have whole : tokens (front ++ text a x :: rest) = emitted [] front ++
      .mk .inline [] (pending [] front ++ [x] ++ more) line :: after := by
    rw [← run, tokens, tokensFrom_append]
    rfl
  have before : ∀ m ∈ front, m.Sound := fun m member => sound m (List.mem_append_left _ member)
  rw [whole, length_texts before]
  refine Token.runPlace_append (Nat.le_add_right _ _) ?_ after
  simp [Token.runTexts, Token.kind, Token.children]

section Two

variable {ms front mid back : List Mark} {a b : List Nat} {x y : Token}
  (shape : ms = front ++ text a x :: (mid ++ text b y :: back))
include shape

theorem runPlace_later (sound : ∀ m ∈ ms, m.Sound) :
    Token.runPlace (tokens ms) ((texts front).length + 1 + (texts mid).length) =
      (emitted [] front).length + (emitted (pending [] front ++ [x]) mid).length := by
  have counted : (texts (front ++ text a x :: mid)).length =
      (texts front).length + 1 + (texts mid).length := by
    rw [texts_append, List.length_append, Nat.add_assoc, Nat.add_comm 1]
    rfl
  have finished : emitted [] (front ++ text a x :: mid) =
      emitted [] front ++ emitted (pending [] front ++ [x]) mid := by
    rw [emitted_append]
    rfl
  have later : ms = (front ++ text a x :: mid) ++ text b y :: back := by
    rw [shape, List.append_assoc, List.cons_append]
  have found := runPlace_text sound later
  rwa [counted, finished, List.length_append] at found

theorem tokens_together (continuing : ∀ m ∈ mid, m.continues = true) :
    ∃ more line after, tokens ms = emitted [] front ++
      .mk .inline [] (pending [] front ++ (x :: texts mid ++ [y]) ++ more) line :: after := by
  obtain ⟨none, waits⟩ := reads_continuing continuing (pending [] front ++ [x])
  obtain ⟨more, line, after, run⟩ :=
    tokensFrom_run (pending [] front ++ [x] ++ texts mid) y back
  have behind : tokensFrom (pending [] front) (text a x :: (mid ++ text b y :: back)) =
      tokensFrom (pending [] front ++ [x] ++ texts mid ++ [y]) back := by
    change tokensFrom (pending [] front ++ [x]) (mid ++ text b y :: back) = _
    rw [tokensFrom_append, none, waits]
    rfl
  refine ⟨more, line, after, ?_⟩
  rw [shape, tokens, tokensFrom_append, behind, run]
  simp

theorem tokens_apart (ends : ¬ ∀ m ∈ mid, m.continues = true) :
    ∃ more line later own more' line' after,
      emitted (pending [] front ++ [x]) mid =
        .mk .inline [] (pending [] front ++ [x] ++ more) line :: later ∧
      tokens ms =
        emitted [] front ++ .mk .inline [] (pending [] front ++ [x] ++ more) line :: later ++
          .mk .inline [] (own ++ [y] ++ more') line' :: after := by
  obtain ⟨more, line, later, first⟩ := emitted_run (pending [] front) x ends
  let own := pending (pending [] front ++ [x]) mid
  obtain ⟨more', line', after, second⟩ := tokensFrom_run own y back
  refine ⟨more, line, later, own, more', line', after, first, ?_⟩
  rw [shape, tokens, tokensFrom_append, List.append_assoc, ← first, ← second]
  exact congrArg (emitted [] front ++ ·) (tokensFrom_append _ mid (text b y :: back))

end Two

end Mark

theorem infix_joinWith (sep : Text) {w : Text} {ws : List Text} (member : w ∈ ws) :
    w <:+: joinWith sep ws := by
  obtain ⟨before, after, rfl⟩ := List.append_of_mem member
  have own : joinWith sep [w] = w := List.append_nil w
  have first : w <:+: joinWith sep (w :: after) := by
    cases after with
    | nil => exact ⟨[], [], by rw [own, List.nil_append, List.append_nil]⟩
    | cons v after =>
      rw [joinWith_cons_cons]
      exact ⟨[], _, by rw [List.nil_append, List.append_assoc]⟩
  cases before with
  | nil => exact first
  | cons v before =>
    rw [joinWith_append sep (List.cons_ne_nil v before) (List.cons_ne_nil w after)]
    exact first.trans (List.suffix_append _ _).isInfix

theorem visible_of_infix {w v : Text} (inside : w <:+: v) (visible : isAllBlank w = false) :
    isAllBlank v = false := by
  rw [isAllBlank, List.all_eq_false] at visible ⊢
  obtain ⟨c, member, seen⟩ := visible
  exact ⟨c, inside.subset member, seen⟩

theorem Compiler.infix_paragraphs {ts : List Token} {t : Token} (member : t ∈ ts) {w : Text}
    (inside : w <:+: t.flatText) (visible : isAllBlank w = false) :
    w <:+: paragraphs ts ∧ paragraphs ts ≠ [] := by
  have seen : isAllBlank t.flatText = false := visible_of_infix inside visible
  have piece : t.flatText ∈ pieces ts :=
    List.mem_filter.2 ⟨List.mem_map_of_mem member, by rw [seen]; rfl⟩
  have within : w <:+: paragraphs ts := inside.trans (infix_joinWith [' '] piece)
  refine ⟨within, fun silent => ?_⟩
  rw [silent, List.infix_nil] at within
  rw [within] at visible
  cases visible

theorem exists_in_stretch {as bs before quoted after : List Token} {t : Token}
    (whole : as ++ t :: bs = before ++ quoted ++ after) (low : before.length ≤ as.length)
    (high : as.length < before.length + quoted.length) :
    ∃ l r, quoted = l ++ t :: r ∧ as = before ++ l := by
  rw [List.append_assoc] at whole
  obtain ⟨l, rfl⟩ : before <+: as :=
    List.prefix_of_prefix_length_le (List.prefix_append _ _) (whole ▸ List.prefix_append _ _) low
  rw [List.append_assoc, List.append_cancel_left_eq] at whole
  rw [List.length_append] at high
  have start : l ++ [t] <+: quoted ++ after := ⟨bs, by rw [← whole, List.append_assoc]; rfl⟩
  obtain ⟨r, rfl⟩ : l ++ [t] <+: quoted := by
    refine List.prefix_of_prefix_length_le start (List.prefix_append _ _) ?_
    rw [List.length_append, List.length_singleton]
    omega
  exact ⟨l, r, by simp, rfl⟩

namespace Compiler

variable {as bs cs before quoted after : List Token} {t u : Token} {w v : Text}

theorem paragraphs_of_token (whole : as ++ t :: bs = before ++ quoted ++ after)
    (low : before.length ≤ as.length) (high : as.length < before.length + quoted.length)
    (inside : w <:+: t.flatText) (visible : isAllBlank w = false) : w <:+: paragraphs quoted := by
  obtain ⟨l, r, rfl, -⟩ := exists_in_stretch whole low high
  exact (infix_paragraphs (List.mem_append_right l List.mem_cons_self) inside visible).1

theorem paragraphs_of_tokens (whole : as ++ t :: bs ++ u :: cs = before ++ quoted ++ after)
    (low : before.length ≤ as.length)
    (high : (as ++ t :: bs).length < before.length + quoted.length)
    (first : w <:+: t.flatText) (second : v <:+: u.flatText) (visible : isAllBlank w = false)
    (visible' : isAllBlank v = false) :
    ∃ l r, paragraphs quoted = l ++ [' '] ++ r ∧ w <:+: l ∧ v <:+: r := by
  have longer : as.length < (as ++ t :: bs).length := by simp
  obtain ⟨l, r, rfl, split⟩ := exists_in_stretch whole (low.trans longer.le) high
  have lengths : (as ++ t :: bs).length = before.length + l.length := by
    rw [split, List.length_append]
  rw [← List.append_nil (before ++ l)] at split
  obtain ⟨l', r', rfl, -⟩ := exists_in_stretch split low (by omega)
  obtain ⟨left, some⟩ := infix_paragraphs (List.mem_append_right l' List.mem_cons_self) first
    visible
  obtain ⟨right, some'⟩ := infix_paragraphs List.mem_cons_self second visible'
  refine ⟨_, _, ?_, left, right⟩
  rw [paragraphs_append, if_neg some, if_neg some']

end Compiler

theorem Token.flatText_run (front back : List Token) {inside : List Token} (some : inside ≠ [])
    (line : Nat) :
    Token.concat inside <:+: (Token.mk .inline [] (front ++ inside ++ back) line).flatText := by
  have whole : (Token.mk .inline [] (front ++ inside ++ back) line).flatText =
      Token.concat (front ++ inside ++ back) := by
    cases made : front ++ inside ++ back with
    | nil => simp [some] at made
    | cons t ts => rfl
  rw [whole, Token.concat_append, Token.concat_append]
  exact ⟨_, _, rfl⟩

theorem Token.concat_singleton (t : Token) : Token.concat [t] = t.flatText :=
  List.append_nil _

theorem Token.runPlace_eq_iff {source : Text} {parts : List Part} {front mid back : List Mark}
    {a b : List Nat} {x y : Token}
    (shape : Part.marks source parts = front ++ .text a x :: (mid ++ .text b y :: back)) :
    let ts := Token.ofEvents source (Part.eventsOfAll parts)
    let here := Token.runPlace ts (Mark.texts front).length
    let there := Token.runPlace ts ((Mark.texts front).length + 1 + (Mark.texts mid).length)
    ts.flatMap Token.runTexts = (Mark.texts (Part.marks source parts)).map Token.content ∧
      (here = there ↔ ∀ m ∈ mid, m.continues = true) ∧ (here = there → a <:+ b) ∧
      ∀ before quoted after, ts = before ++ quoted ++ after → before.length ≤ here →
        there < before.length + quoted.length → isAllBlank x.flatText = false →
        isAllBlank y.flatText = false →
        if here = there then
          Token.concat (x :: Mark.texts mid ++ [y]) <:+: Compiler.paragraphs quoted
        else
          ∃ l r, Compiler.paragraphs quoted = l ++ [' '] ++ r ∧ x.flatText <:+: l ∧
            y.flatText <:+: r := by
  intro ts here there
  have sound : ∀ m ∈ Part.marks source parts, m.Sound := Part.sound_parts source [] [] 0 parts
  have deepen : Mark.Deepen [] (Part.marks source parts) :=
    (Part.deepen_parts source [] [] 0 (List.suffix_refl []) parts [] (by simp)).1
  have read : ts = Mark.tokens (Part.marks source parts) := Token.ofEvents_marks source parts
  have texts : ts.flatMap Token.runTexts =
      (Mark.texts (Part.marks source parts)).map Token.content := by
    rw [read]
    exact Mark.runTexts_tokensFrom sound []
  rw [shape] at deepen
  have first : here = (Mark.emitted [] front).length := by
    change Token.runPlace ts _ = _
    rw [read]
    exact Mark.runPlace_text sound shape
  have second : there = here + (Mark.emitted (Mark.pending [] front ++ [x]) mid).length := by
    change Token.runPlace ts _ = _
    rw [read, first]
    exact Mark.runPlace_later shape sound
  have same : here = there ↔ ∀ m ∈ mid, m.continues = true := by
    rw [second, ← Mark.emitted_eq_nil_iff (Mark.pending [] front) x, ← List.length_eq_zero_iff]
    omega
  refine ⟨texts, same, fun shared => deepen.suffix (same.1 shared), ?_⟩
  intro before quoted after whole low high visible visible'
  split
  next shared =>
    obtain ⟨more, line, behind, found⟩ := Mark.tokens_together shape (same.1 shared)
    rw [first] at low
    rw [← shared, first] at high
    have some : x :: Mark.texts mid ++ [y] ≠ [] := List.cons_ne_nil x _
    have inside := Token.flatText_run (Mark.pending [] front) more some line
    have seen : isAllBlank (Token.concat (x :: Mark.texts mid ++ [y])) = false :=
      visible_of_infix (List.prefix_append _ _).isInfix visible
    exact Compiler.paragraphs_of_token (found.symm.trans (read.symm.trans whole)) low high inside
      seen
  next apart =>
    obtain ⟨more, line, later, own, more', line', behind, emits, found⟩ :=
      Mark.tokens_apart shape (mt same.2 apart)
    rw [emits, List.length_cons, first] at second
    have reach : (Mark.emitted [] front ++ .mk .inline [] (Mark.pending [] front ++ [x] ++ more)
        line :: later).length = there := by
      rw [List.length_append, List.length_cons, second]
    have held := Token.flatText_run (Mark.pending [] front) more (List.cons_ne_nil x []) line
    have held' := Token.flatText_run own more' (List.cons_ne_nil y []) line'
    rw [Token.concat_singleton] at held held'
    exact Compiler.paragraphs_of_tokens (found.symm.trans (read.symm.trans whole)) (first ▸ low)
      (reach ▸ high) held held' visible visible'

def nestedItems : List Part :=
  let inner : Part := .within .other rfl rfl 16 [.leaf ⟨.text ['b'], 18⟩ rfl] 16
  let outer : Part := .within .other rfl rfl 2
    [.leaf ⟨.text "print a".toList, 4⟩ rfl, .within .other rfl rfl 16 [inner] 16] 2
  [.within .quote rfl rfl 0 [.within .other rfl rfl 2 [outer] 2] 0]

theorem Token.runPlace_eq_nested_items :
    let source := "> - print a\n>   - b\n".toList
    let ts := Token.ofEvents source (Part.eventsOfAll nestedItems)
    let run := Token.mk .inline [] [.ofText "print a".toList 1, .ofText ['b'] 2] 1
    Markdown.events source = Part.eventsOfAll nestedItems ∧
      ts = [.bare .quoteOpen 1] ++ [run] ++ [.bare .quoteClose 1] ∧
      Token.runPlace ts 0 = Token.runPlace ts 1 ∧ [0, 0, 0] <:+ [0, 1, 0, 0, 0] ∧
      "print ab".toList <:+: Compiler.paragraphs [run] := by
  intro source
  have shape : Part.marks source nestedItems =
      [.token (.bare .quoteOpen 1), .starts, .starts] ++
        .text [0, 0, 0] (.ofText "print a".toList 1) :: ([.starts, .starts] ++
          .text [0, 1, 0, 0, 0] (.ofText ['b'] 2) ::
            [.ends, .ends, .ends, .ends, .token (.bare .quoteClose 1)]) := by
    rfl
  have read : Token.ofEvents source (Part.eventsOfAll nestedItems) =
      [.bare .quoteOpen 1] ++
        [.mk .inline [] [.ofText "print a".toList 1, .ofText ['b'] 2] 1] ++
          [.bare .quoteClose 1] := by
    rw [Token.ofEvents_marks, shape]
    rfl
  have given := Token.runPlace_eq_iff shape
  rw [read] at given
  obtain ⟨-, same, deeper, said⟩ := given
  have shared := same.2 (by simp [Mark.continues])
  have line := said _ _ _ rfl (by decide) (by decide) rfl rfl
  rw [if_pos shared] at line
  rw [read]
  exact ⟨by decide +kernel, rfl, shared, deeper shared, line⟩

end Docspec
