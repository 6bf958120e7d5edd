import Docspec.Proofs.Bodies

set_option autoImplicit false

namespace Docspec.Placeholder

open Text Body

/-- A pattern with alternatives in order. A repetition tries more rounds first if it is greedy, and
no more first if it is not. -/
inductive Pattern
  | empty
  | final
  | one (p : Char → Bool)
  | both (a b : Pattern)
  | either (a b : Pattern)
  | repeated (greedy : Bool) (a : Pattern)

namespace Pattern

def rounds (greedy : Bool) (round : Text → List (Text × Text)) : Nat → Text → List (Text × Text)
  | 0, t => [([], t)]
  | n + 1, t =>
    let more := (round t).flatMap fun (x, u) =>
      if x = [] then [] else (rounds greedy round n u).map fun (y, w) => (x ++ y, w)
    if greedy then more ++ [([], t)] else ([], t) :: more

/-- The ways in which a pattern can take a beginning of a text, the preferred ones first, each with
what it leaves. -/
def splits : Pattern → Text → List (Text × Text)
  | empty, t => [([], t)]
  | final, t => if t = [] then [([], [])] else []
  | one p, t =>
    match t with
    | [] => []
    | c :: t => if p c then [([c], t)] else []
  | both a b, t =>
    (a.splits t).flatMap fun (x, u) => (b.splits u).map fun (y, w) => (x ++ y, w)
  | either a b, t => a.splits t ++ b.splits t
  | repeated greedy a, t => rounds greedy a.splits t.length t

def run (p : Char → Bool) : Pattern := repeated true (one p)

def blanks : Pattern := run isBlank

def name : Pattern := both (one isNameStart) (run isNameChar)

def variableName : Pattern := both (one isNameStart) (run isVariableChar)

def call : Pattern :=
  both name (both (either (one isBlank) empty) (both (one (· = '(')) (both (run (· ≠ ')'))
    (both (one (· = ')')) blanks))))

def item : Pattern :=
  both (one (· = '|')) (both blanks (both name
    (both (either (both blanks (run (· ≠ '|'))) empty) blanks)))

structure Groups where
  lead : Text
  name : Text
  gap : Text
  filters : Text
  invalid : Text

def bodyGroups (t : Text) : List Groups :=
  (blanks.splits t).flatMap fun (lead, t) =>
    ((either call variableName).splits t).flatMap fun (name, t) =>
      (blanks.splits t).flatMap fun (gap, t) =>
        ((repeated true item).splits t).flatMap fun (filters, t) =>
          ((repeated false (one fun _ => true)).splits t).flatMap fun (invalid, t) =>
            ((both blanks final).splits t).map fun _ => ⟨lead, name, gap, filters, invalid⟩

def Groups.body (g : Groups) : Body where
  identifier := trim g.name
  filters := (splitAll '|' g.filters).tail.map trim
  invalid := g.invalid
  invalidOffset := byteLength (g.lead ++ g.name ++ g.gap ++ g.filters)

section Splits

variable {a b : Pattern} {t x y u w : Text}

theorem head_flatMap {α β : Type} {as : List α} {f : α → List β} {p : α} {q : β}
    (first : as.head? = some p) (next : (f p).head? = some q) : (as.flatMap f).head? = some q := by
  cases as with
  | nil => cases first
  | cons p' as =>
    obtain rfl : p' = p := Option.some.inj first
    rw [List.flatMap_cons, List.head?_append, next]
    rfl

theorem head_both (first : (a.splits t).head? = some (x, u))
    (second : (b.splits u).head? = some (y, w)) :
    ((both a b).splits t).head? = some (x ++ y, w) := by
  refine head_flatMap first ?_
  rw [List.head?_map, second]
  rfl

theorem mem_both {z : Text} (member : (z, w) ∈ (both a b).splits t) :
    ∃ x u y, (x, u) ∈ a.splits t ∧ (y, w) ∈ b.splits u ∧ z = x ++ y := by
  obtain ⟨⟨x, u⟩, first, inside⟩ := List.mem_flatMap.1 member
  obtain ⟨⟨y, w'⟩, second, same⟩ := List.mem_map.1 inside
  obtain ⟨rfl, rfl⟩ := Prod.mk.inj same
  exact ⟨x, u, y, first, second, rfl⟩

theorem head_one {p : Char → Bool} {c : Char} (taken : p c = true) (t : Text) :
    ((one p).splits (c :: t)).head? = some ([c], t) := by
  simp [splits, taken]

theorem mem_one {p : Char → Bool} (member : (x, u) ∈ (one p).splits t) :
    ∃ c, x = [c] ∧ t = c :: u ∧ p c = true := by
  cases t with
  | nil => cases member
  | cons c t =>
    rw [splits] at member
    split at member
    next taken =>
      obtain ⟨rfl, rfl⟩ := Prod.mk.inj (List.mem_singleton.1 member)
      exact ⟨c, rfl, rfl, taken⟩
    next => cases member

section Run

variable {p : Char → Bool}

theorem splits_run_cons (c : Char) (t : Text) :
    (run p).splits (c :: t) =
      (if p c then ((run p).splits t).map fun (y, w) => (c :: y, w) else []) ++ [([], c :: t)] := by
  simp only [run, splits, List.length_cons, rounds]
  by_cases taken : p c = true <;> simp [taken]

theorem head_run (t : Text) : ((run p).splits t).head? = some (t.takeWhile p, t.dropWhile p) := by
  induction t with
  | nil => rfl
  | cons c t ih =>
    rw [splits_run_cons]
    by_cases taken : p c = true
    next => simp [taken, List.head?_append, List.head?_map, ih]
    next => simp [taken]

theorem mem_run (member : (x, u) ∈ (run p).splits t) : t = x ++ u ∧ ∀ c ∈ x, p c = true := by
  induction t generalizing x with
  | nil =>
    obtain ⟨rfl, rfl⟩ := Prod.mk.inj (List.mem_singleton.1 member)
    simp
  | cons c t ih =>
    rw [splits_run_cons] at member
    by_cases taken : p c = true
    next =>
      rw [if_pos taken] at member
      rcases List.mem_append.1 member with more | stop
      · obtain ⟨⟨y, w⟩, later, same⟩ := List.mem_map.1 more
        obtain ⟨rfl, rfl⟩ := Prod.mk.inj same
        obtain ⟨rfl, each⟩ := ih later
        exact ⟨rfl, List.forall_mem_cons.2 ⟨taken, each⟩⟩
      · obtain ⟨rfl, rfl⟩ := Prod.mk.inj (List.mem_singleton.1 stop)
        simp
    next =>
      rw [if_neg taken] at member
      obtain ⟨rfl, rfl⟩ := Prod.mk.inj (List.mem_singleton.1 member)
      simp

theorem head_longest {a b : Text} (inside : ∀ c ∈ a, p c = true)
    (stop : ∀ c ∈ b.head?, p c = false) : ((run p).splits (a ++ b)).head? = some (a, b) := by
  rw [head_run, (longest inside stop).1, (longest inside stop).2]

end Run

theorem head_name {n : Text} (named : isName n = true) {t : Text}
    (stop : ∀ c ∈ t.head?, isNameChar c = false) : (name.splits (n ++ t)).head? = some (n, t) := by
  obtain ⟨c, n, rfl, start⟩ := start_of_isName named
  have chars := (List.forall_mem_cons.1 (chars_of_isName named)).2
  exact head_both (head_one start _) (head_longest chars stop)

theorem mem_name (member : (x, u) ∈ name.splits t) : t = x ++ u ∧ isName x = true := by
  obtain ⟨_, _, y, first, rest, rfl⟩ := mem_both member
  obtain ⟨c, rfl, rfl, start⟩ := mem_one first
  obtain ⟨rfl, each⟩ := mem_run rest
  exact ⟨rfl, by simpa [isName, start] using each⟩

theorem head_char (d : Char) (t : Text) :
    ((one (· = d)).splits (d :: t)).head? = some ([d], t) :=
  head_one (by simp) t

theorem mem_char {d : Char} (member : (x, u) ∈ (one (· = d)).splits t) : x = [d] ∧ t = d :: u := by
  obtain ⟨c, rfl, rfl, same⟩ := mem_one member
  obtain rfl : c = d := of_decide_eq_true same
  exact ⟨rfl, rfl⟩

theorem mem_blank_or_not (member : (x, u) ∈ (either (one isBlank) empty).splits t) :
    t = x ++ u ∧ x.length ≤ 1 ∧ ∀ c ∈ x, isBlank c = true := by
  rcases List.mem_append.1 member with taken | left
  · obtain ⟨c, rfl, rfl, blank⟩ := mem_one taken
    exact ⟨rfl, Nat.le_refl 1, by simpa using blank⟩
  · obtain ⟨rfl, rfl⟩ := Prod.mk.inj (List.mem_singleton.1 left)
    exact ⟨rfl, Nat.zero_le 1, by simp⟩

theorem mem_call (member : (x, u) ∈ call.splits t) : ∃ c after, t = c ++ after ∧ IsCall c := by
  obtain ⟨n, t₁, _, first, rest, -⟩ := mem_both member
  obtain ⟨gap, t₂, _, second, rest, -⟩ := mem_both rest
  obtain ⟨_, t₃, _, third, rest, -⟩ := mem_both rest
  obtain ⟨argument, t₄, _, fourth, rest, -⟩ := mem_both rest
  obtain ⟨_, after, _, fifth, -, -⟩ := mem_both rest
  obtain ⟨rfl, named⟩ := mem_name first
  obtain ⟨rfl, short, blank⟩ := mem_blank_or_not second
  obtain ⟨-, rfl⟩ := mem_char third
  obtain ⟨rfl, inside⟩ := mem_run fourth
  obtain ⟨-, rfl⟩ := mem_char fifth
  have absent : ')' ∉ argument := fun member => by simpa using inside _ member
  exact ⟨_, after, by simp, .mk named short blank absent⟩

theorem head_call {c : Text} (isCall : IsCall c) (t : Text) :
    (call.splits (c ++ t)).head? = some (c ++ t.takeWhile isBlank, t.dropWhile isBlank) := by
  cases isCall with
  | @mk n gap argument named short blank inside =>
    have closing := head_both (b := blanks) (head_char ')' t) (head_run t)
    have before : ∀ d ∈ argument, decide (d ≠ ')') = true := by
      intro d member
      have differ : d ≠ ')' := fun same => inside (same ▸ member)
      simpa using differ
    have between := head_both (head_longest (b := ')' :: t) before (by simp)) closing
    have opening := head_both (head_char '(' _) between
    have parens : ((either (one isBlank) empty).splits
        (gap ++ '(' :: (argument ++ ')' :: t))).head? =
          some (gap, '(' :: (argument ++ ')' :: t)) := by
      cases gap with
      | nil => rfl
      | cons d gap =>
        obtain rfl : gap = [] :=
          List.length_eq_zero_iff.1 (Nat.le_zero.1 (Nat.le_of_succ_le_succ short))
        simp [splits, blank d List.mem_cons_self]
    have stop : ∀ d ∈ (gap ++ '(' :: (argument ++ ')' :: t)).head?, isNameChar d = false := by
      cases gap with
      | nil =>
        intro d first
        obtain rfl : '(' = d := Option.some.inj first
        rfl
      | cons d gap => simpa using not_nameChar_of_blank (blank d List.mem_cons_self)
    have whole := head_both (head_name named stop) (head_both parens opening)
    simpa [call] using whole

theorem call_splits_of_not {t : Text} (unread : ∀ c more, IsCall c → t ≠ c ++ more) :
    call.splits t = [] :=
  List.eq_nil_iff_forall_not_mem.2 fun (_, _) member => by
    obtain ⟨c, after, shape, isCall⟩ := mem_call member
    exact unread c after isCall shape

theorem head_variableName {n : Text} (named : isVariableName n = true) {t : Text}
    (stop : ∀ c ∈ t.head?, isVariableChar c = false) :
    (variableName.splits (n ++ t)).head? = some (n, t) := by
  obtain ⟨c, n, rfl, start⟩ := name_start named
  have chars := (List.forall_mem_cons.1 (name_chars named)).2
  exact head_both (head_one start _) (head_longest chars stop)

theorem head_identifier {t identifier after : Text} (identifies : Identifies t identifier after) :
    ∃ gap rest, after = gap ++ rest ∧ (∀ c ∈ gap, isBlank c = true) ∧
      ((either call variableName).splits t).head? = some (identifier ++ gap, rest) := by
  have blank : after.takeWhile isBlank ++ after.dropWhile isBlank = after :=
    List.takeWhile_append_dropWhile
  cases identifies with
  | call shape isCall =>
    refine ⟨_, _, blank.symm, fun c => List.mem_takeWhile_imp, ?_⟩
    rw [splits, List.head?_append, shape, head_call isCall]
    rfl
  | name shape unread named stop =>
    refine ⟨[], after, rfl, by simp, ?_⟩
    rw [splits, call_splits_of_not unread, shape, List.nil_append, head_variableName named stop,
      List.append_nil]

theorem start_of_identifier (member : (x, u) ∈ (either call variableName).splits t) :
    ∃ c rest, t = c :: rest ∧ isNameStart c = true := by
  rcases List.mem_append.1 member with inCall | inVariable
  · obtain ⟨n, after, _, first, -, -⟩ := mem_both inCall
    obtain ⟨rfl, named⟩ := mem_name first
    obtain ⟨c, n, rfl, start⟩ := start_of_isName named
    exact ⟨c, _, rfl, start⟩
  · obtain ⟨_, rest, _, first, -, -⟩ := mem_both inVariable
    obtain ⟨c, -, rfl, start⟩ := mem_one first
    exact ⟨c, rest, rfl, start⟩

section Items

theorem mem_item (member : (x, u) ∈ item.splits t) : StartsItem t ∧ x ≠ [] := by
  obtain ⟨_, t₁, _, first, rest, rfl⟩ := mem_both member
  obtain ⟨lead, t₂, _, second, rest, -⟩ := mem_both rest
  obtain ⟨n, after, _, third, -, -⟩ := mem_both rest
  obtain ⟨rfl, rfl⟩ := mem_char first
  obtain ⟨rfl, blank⟩ := mem_run second
  obtain ⟨rfl, named⟩ := mem_name third
  have isItem : IsItem ('|' :: (lead ++ n ++ [])) := .mk blank named List.not_mem_nil
  exact ⟨⟨_, after, isItem, by simp⟩, by simp⟩

theorem head_item {i rest : Text} (isItem : IsItem i) (next : ∀ c ∈ rest.head?, c = '|') :
    (item.splits (i ++ rest)).head? = some (i, rest) := by
  obtain ⟨_, rfl, absent, filter⟩ := isItem_iff.1 isItem
  obtain ⟨lead, c, r, rfl, blank, start⟩ := isFilter_iff.1 filter
  obtain ⟨n, r₁, rfl, chars, nameStop⟩ := exists_longest isNameChar r
  obtain ⟨gap, more, rfl, gapBlank, gapStop⟩ := exists_longest isBlank r₁
  have named : isName (c :: n) = true := by simpa [isName, start] using chars
  have unbarred : ∀ d ∈ more, decide (d ≠ '|') = true := by
    intro d member
    have differ : d ≠ '|' := by
      rintro rfl
      exact absent (by simp [member])
    simpa using differ
  -- What stops a part inside the item also stops it at the bar behind.
  have stop {p : Char → Bool} {u : Text} (own : ∀ d ∈ u.head?, p d = false)
      (bar : p '|' = false) : ∀ d ∈ (u ++ rest).head?, p d = false := by
    cases u with
    | nil =>
      intro d first
      rwa [next d first]
    | cons => simpa using own
  have last := head_longest (p := isBlank) (a := []) (by simp) (stop (u := []) (by simp) rfl)
  have inner : ((both blanks (run (· ≠ '|'))).splits (gap ++ (more ++ rest))).head? =
      some (gap ++ more, rest) :=
    head_both (head_longest gapBlank (stop gapStop rfl))
      (head_longest unbarred (stop (u := []) (by simp) (by simp)))
  have tail : ((either (both blanks (run (· ≠ '|'))) empty).splits
      (gap ++ (more ++ rest))).head? = some (gap ++ more, rest) := by
    rw [splits, List.head?_append, inner]
    rfl
  have bare := isBlank_of_isVariableChar (isVariableChar_of_isNameStart start)
  have nameEnd := stop nameStop (by decide)
  rw [List.append_assoc] at nameEnd
  have whole := head_both (head_char '|' _) (head_both (head_longest blank (by simpa using bare))
    (head_both (head_name named nameEnd) (head_both tail last)))
  simpa [item, blanks] using whole

theorem head_items {items : List Text} {bad : Text} (each : ∀ i ∈ items, IsItem i)
    (stops : ¬ StartsItem bad) (bar : items = [] ∨ ∀ c ∈ bad.head?, c = '|') {n : Nat}
    (bound : (items.flatten ++ bad).length ≤ n) :
    (rounds true item.splits n (items.flatten ++ bad)).head? = some (items.flatten, bad) := by
  induction items generalizing n with
  | nil =>
    have none : item.splits bad = [] :=
      List.eq_nil_iff_forall_not_mem.2 fun (_, _) member => stops (mem_item member).1
    cases n <;> simp [rounds, none]
  | cons i items ih =>
    obtain ⟨own, others⟩ := List.forall_mem_cons.1 each
    obtain ⟨p, rfl, -, -⟩ := isItem_iff.1 own
    have next := bar.resolve_left (List.cons_ne_nil _ _)
    rw [List.flatten_cons, List.append_assoc] at bound ⊢
    cases n with
    | zero => simp at bound
    | succ n =>
      rw [List.length_append, List.length_cons] at bound
      have first := head_item own (bar_before others next)
      have later := ih others (.inr next) (n := n) (by omega)
      have more := head_flatMap (f := fun (x, u) =>
          if x = [] then [] else (rounds true item.splits n u).map fun (y, w) => (x ++ y, w))
        first (q := (('|' :: p) ++ items.flatten, bad)) (by simp [List.head?_map, later])
      simp only [rounds, if_true]
      rw [List.head?_append, more]
      rfl

end Items

section Rest

theorem splits_any_cons (c : Char) (t : Text) :
    (repeated false (one fun _ => true)).splits (c :: t) =
      ([], c :: t) ::
        ((repeated false (one fun _ => true)).splits t).map fun (y, w) => (c :: y, w) := by
  simp [splits, rounds]

theorem head_blank_end (blank : isAllBlank t = true) :
    ((both blanks final).splits t).head? = some (t, []) := by
  have inside : ∀ c ∈ t, isBlank c = true := List.all_eq_true.1 blank
  have taken := head_longest (b := []) inside (by simp)
  rw [List.append_nil] at taken
  have ended : (final.splits []).head? = some ([], []) := rfl
  simpa [blanks] using head_both taken ended

theorem splits_blank_end (visible : isAllBlank t = false) : (both blanks final).splits t = [] := by
  refine List.eq_nil_iff_forall_not_mem.2 fun (_, _) member => ?_
  obtain ⟨x, u, _, first, second, -⟩ := mem_both member
  obtain ⟨rfl, blank⟩ := mem_run first
  have ended : u = [] := by
    rw [splits] at second
    split at second
    next empty => exact empty
    next => cases second
  have all : isAllBlank (x ++ u) = true := by
    rw [ended, List.append_nil]
    exact List.all_eq_true.2 blank
  rw [all] at visible
  cases visible

theorem head_invalid {α : Type} (g : Text → α) (t : Text) :
    (((repeated false (one fun _ => true)).splits t).flatMap fun (x, u) =>
      ((both blanks final).splits u).map fun _ => g x).head? = some (g (trimEnd t)) := by
  induction t generalizing g with
  | nil => rfl
  | cons c t ih =>
    rw [splits_any_cons, List.flatMap_cons, List.flatMap_map]
    dsimp only
    cases blank : isAllBlank (c :: t) with
    | true =>
      rw [List.head?_append, List.head?_map, head_blank_end blank, trimEnd_eq_nil_iff.2 blank]
      rfl
    | false =>
      have kept : trimEnd (c :: t) = c :: trimEnd t := by
        have visible := mt trimEnd_eq_nil_iff.1 (Bool.eq_false_iff.1 blank)
        rw [trimEnd_cons] at visible ⊢
        exact if_neg fun both => visible (if_pos both)
      rw [splits_blank_end blank, List.map_nil, List.nil_append, kept]
      exact ih fun x => g (c :: x)

end Rest

end Splits

section Body

variable {t : Text}

theorem splitAll_items {items : List Text} (each : ∀ i ∈ items, IsItem i) :
    splitAll '|' items.flatten = [] :: items.map List.tail := by
  induction items with
  | nil => rfl
  | cons i items ih =>
    obtain ⟨own, others⟩ := List.forall_mem_cons.1 each
    obtain ⟨p, rfl, absent, -⟩ := isItem_iff.1 own
    rw [List.flatten_cons, List.cons_append, splitAll, if_pos rfl]
    have rest := ih others
    cases items with
    | nil => simp [splitAll_of_not_mem absent]
    | cons j items =>
      obtain ⟨q, rfl, -, -⟩ := isItem_iff.1 (others j List.mem_cons_self)
      rw [List.flatten_cons, List.cons_append, splitAll, if_pos rfl] at rest
      rw [List.flatten_cons, List.cons_append, splitAll_append absent, (List.cons.inj rest).2]
      rfl

theorem bodyGroups_eq_nil (other : ¬ StartsLikeName t) : bodyGroups t = [] := by
  refine List.eq_nil_iff_forall_not_mem.2 fun g member => other ?_
  obtain ⟨⟨lead, u⟩, first, inside⟩ := List.mem_flatMap.1 member
  obtain ⟨⟨n, w⟩, second, -⟩ := List.mem_flatMap.1 inside
  obtain ⟨rfl, blank⟩ := mem_run first
  obtain ⟨c, rest, rfl, start⟩ := start_of_identifier second
  have bare := isBlank_of_isVariableChar (isVariableChar_of_isNameStart start)
  exact ⟨c, rest, (longest blank (by simpa using bare)).2, start⟩

theorem head_bodyGroups (p : Body.Parts t) :
    ∃ gap gap' items bad, gap ++ gap' = p.gap ∧ (∀ c ∈ gap, isBlank c = true) ∧
      p.rest = List.flatten items ++ bad ∧ (∀ i ∈ items, IsItem i) ∧
      filterChain p.rest = (items.map List.tail, bad) ∧
      (bodyGroups t).head? =
        some ⟨p.lead, p.identifier ++ gap, gap', items.flatten, trimEnd bad⟩ := by
  obtain ⟨lead, content, -, around, rest⟩ := p.read
  obtain ⟨gap, rest', shape, blank, second⟩ := head_identifier p.identifies
  obtain ⟨items, bad, cut, each, stops, bar⟩ := items_and_rest p.rest
  have fourth : ((repeated true item).splits p.rest).head? = some (items.flatten, bad) := by
    rw [splits, cut]
    exact head_items each stops bar (Nat.le_refl _)
  rw [shape, List.takeWhile_append_of_pos blank] at around
  rw [shape, trimStart, List.dropWhile_append_of_pos blank] at rest
  have first : (blanks.splits t).head? = some (p.lead, p.identifier ++ (p.gap ++ p.rest)) := by
    rw [blanks, head_run, lead, ← trimStart, content]
  have third : (blanks.splits rest').head? = some (rest'.takeWhile isBlank, p.rest) := by
    rw [blanks, head_run, rest]
  refine ⟨gap, rest'.takeWhile isBlank, items, bad, around, blank, cut, each, ?_, ?_⟩
  · rw [cut]
    exact filterChain_cut each stops bar
  · exact head_flatMap first (head_flatMap second (head_flatMap third (head_flatMap fourth
      (head_invalid (fun x => Groups.mk p.lead (p.identifier ++ gap) (rest'.takeWhile isBlank)
        items.flatten x) bad))))

theorem bodyGroups_parse (t : Text) : (bodyGroups t).head?.map Groups.body = Body.parse? t := by
  by_cases starts : StartsLikeName t
  next =>
    obtain ⟨p⟩ := starts.parts
    obtain ⟨gap, gap', items, bad, around, blank, cut, each, chain, first⟩ := head_bodyGroups p
    have identifier : trim (p.identifier ++ gap) = p.identifier :=
      (trim_append_blanks _ blank).trans (identifier_ends p.identifies).2
    have size : byteLength (p.lead ++ (p.identifier ++ gap) ++ gap' ++ items.flatten) =
        byteLength t - byteLength bad := by
      have whole := congrArg byteLength (p.eq_upTo cut)
      simp only [Parts.upTo, ← around, byteLength_append] at whole ⊢
      omega
    rw [first, parse?_parts p, chain, Option.map_some, Groups.body]
    simp only [identifier, splitAll_items each, List.tail_cons, size]
  next => rw [bodyGroups_eq_nil starts, parse?_eq_none starts]; rfl

end Body

end Pattern

end Docspec.Placeholder
