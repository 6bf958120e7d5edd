import Docspec.Proofs.Names

set_option autoImplicit false

namespace Docspec

open Text

namespace Placeholder

section Grammar

inductive IsCall : Text → Prop
  | mk {name gap argument : Text} : isName name = true → gap.length ≤ 1 →
    (∀ c ∈ gap, isBlank c = true) → ')' ∉ argument →
    IsCall (name ++ gap ++ '(' :: (argument ++ [')']))

/-- The identifier at the start of a text and what follows it: a call where one stands, else a
variable with all the characters that it can have. -/
inductive Identifies : Text → Text → Text → Prop
  | call {t identifier after : Text} : t = identifier ++ after → IsCall identifier →
    Identifies t identifier after
  | name {t identifier after : Text} : t = identifier ++ after →
    (∀ call more, IsCall call → t ≠ call ++ more) → isVariableName identifier = true →
    (∀ c ∈ after.head?, isVariableChar c = false) → Identifies t identifier after

inductive IsItem : Text → Prop
  | mk {blanks name more : Text} : (∀ c ∈ blanks, isBlank c = true) → isName name = true →
    '|' ∉ more → IsItem ('|' :: (blanks ++ name ++ more))

def StartsItem (t : Text) : Prop := ∃ item rest, IsItem item ∧ t = item ++ rest

/-- A text that should be items, cut where it stops being that: at its start, or before the first
bar that starts no item. -/
inductive Fault : Text → Text → Prop
  | start {bad : Text} : bad ≠ [] → ¬ StartsItem bad → Fault [] bad
  | bar {good bad : Text} : StartsItem (good ++ '|' :: bad) → ¬ StartsItem ('|' :: bad) →
    (∀ a b, good = a ++ '|' :: b → StartsItem ('|' :: (b ++ '|' :: bad))) →
    Fault good ('|' :: bad)

def AreItems (t : Text) : Prop := ∃ items, t = List.flatten items ∧ ∀ i ∈ items, IsItem i

def StartsLikeName (t : Text) : Prop := ∃ c rest, trimStart t = c :: rest ∧ isNameStart c = true

@[ext]
structure Body.Parts (t : Text) where
  lead : Text
  identifier : Text
  gap : Text
  rest : Text
  whole : t = lead ++ (identifier ++ (gap ++ rest))
  lead_blank : ∀ c ∈ lead, isBlank c = true
  gap_blank : ∀ c ∈ gap, isBlank c = true
  identifies : Identifies (identifier ++ (gap ++ rest)) identifier (gap ++ rest)
  rest_visible : ∀ c ∈ rest.head?, isBlank c = false

end Grammar

section Names

variable {n : Text} (named : isName n = true)
include named

theorem start_of_isName : ∃ c t, n = c :: t ∧ isNameStart c = true := by
  cases n with
  | nil => cases named
  | cons c t => exact ⟨c, t, rfl, (Bool.and_eq_true_iff.1 named).1⟩

theorem chars_of_isName : ∀ c ∈ n, isNameChar c = true := by
  cases n with
  | nil => simp
  | cons c t =>
    obtain ⟨start, rest⟩ := Bool.and_eq_true_iff.1 named
    refine List.forall_mem_cons.2 ⟨?_, List.all_eq_true.1 rest⟩
    simp [isNameChar, start]

theorem variableChars_of_isName : ∀ c ∈ n, isVariableChar c = true := fun c member => by
  simp [isVariableChar, chars_of_isName named c member]

end Names

theorem not_nameChar_of_blank {c : Char} (blank : isBlank c = true) : isNameChar c = false := by
  rw [← Bool.not_eq_true]
  intro taken
  have bare := isBlank_of_isVariableChar (c := c) (by simp [isVariableChar, taken])
  rw [bare] at blank
  cases blank

end Placeholder

namespace Text

theorem eq_append_of_splitOnce {p : Char → Bool} {t a b : Text}
    (found : splitOnce p t = some (a, b)) :
    ∃ c, t = a ++ c :: b ∧ p c = true ∧ ∀ d ∈ a, p d = false := by
  induction t generalizing a with
  | nil => cases found
  | cons c t ih =>
    rw [splitOnce] at found
    split at found
    next taken =>
      cases found
      exact ⟨c, rfl, taken, by simp⟩
    next passed =>
      obtain ⟨⟨a', b'⟩, later, shape⟩ := Option.map_eq_some_iff.1 found
      cases shape
      obtain ⟨d, rfl, taken, before⟩ := ih later
      exact ⟨d, rfl, taken, List.forall_mem_cons.2 ⟨by simpa using passed, before⟩⟩

theorem splitAll_join (sep : Char) (t : Text) :
    (splitAll sep t).flatMap (sep :: ·) = sep :: t := by
  induction t with
  | nil => rfl
  | cons c t ih =>
    rw [splitAll]
    split
    next same => rw [List.flatMap_cons, ih, same]; rfl
    next =>
      cases pieces : splitAll sep t with
      | nil => exact absurd pieces (splitAll_ne_nil sep t)
      | cons piece rest =>
        rw [pieces, List.flatMap_cons] at ih
        simpa [List.flatMap_cons] using ih

theorem longest {p : Char → Bool} {a b : Text} (inside : ∀ c ∈ a, p c = true)
    (stop : ∀ c ∈ b.head?, p c = false) :
    (a ++ b).takeWhile p = a ∧ (a ++ b).dropWhile p = b := by
  rw [List.takeWhile_append_of_pos inside, List.dropWhile_append_of_pos inside]
  cases b with
  | nil => simp
  | cons c b => simp [stop c rfl]

theorem exists_longest (p : Char → Bool) (t : Text) :
    ∃ a b, t = a ++ b ∧ (∀ c ∈ a, p c = true) ∧ ∀ c ∈ b.head?, p c = false := by
  have head := List.head?_dropWhile_not p t
  exact ⟨t.takeWhile p, t.dropWhile p, List.takeWhile_append_dropWhile.symm,
    fun c => List.mem_takeWhile_imp, fun c first => by rwa [Option.mem_def.1 first] at head⟩

end Text

namespace Placeholder

open Body

theorem Body.call?_of_isCall {call : Text} (isCall : IsCall call) (after : Text) :
    call? (call ++ after) = some (call, after) := by
  cases isCall with
  | @mk name gap argument named short blank inside =>
    have passed : ∀ d ∈ argument, decide (d = ')') = false := by
      intro d member
      have differ : d ≠ ')' := fun same => inside (same ▸ member)
      simpa using differ
    have closing : splitOnce (· = ')') (argument ++ ')' :: after) = some (argument, after) :=
      splitOnce_append passed (by simp) after
    have chars := chars_of_isName named
    have shape : name ++ gap ++ '(' :: (argument ++ [')']) ++ after =
        name ++ (gap ++ '(' :: (argument ++ ')' :: after)) := by simp
    cases gap with
    | nil =>
      have stop : isNameChar '(' = false := by decide
      rw [shape, call?, List.takeWhile_append_of_pos chars, List.dropWhile_append_of_pos chars]
      simp [stop, closing, show isBlank '(' = false from rfl]
    | cons c gap =>
      obtain rfl : gap = [] :=
        List.length_eq_zero_iff.1 (Nat.le_zero.1 (Nat.le_of_succ_le_succ short))
      have own := blank c List.mem_cons_self
      have stop := not_nameChar_of_blank own
      rw [shape, call?, List.takeWhile_append_of_pos chars, List.dropWhile_append_of_pos chars]
      simp [stop, own, closing]

theorem isCall_of_call? {c : Char} {t call after : Text} (start : isNameStart c = true)
    (found : call? (c :: t) = some (call, after)) : IsCall call ∧ c :: t = call ++ after := by
  have whole := List.takeWhile_append_dropWhile (p := isNameChar) (l := c :: t)
  have named : isName ((c :: t).takeWhile isNameChar) = true := by
    have own : isNameChar c = true := by simp [isNameChar, start]
    rw [List.takeWhile_cons_of_pos own, isName, start, Bool.true_and, List.all_eq_true]
    exact fun d => List.mem_takeWhile_imp
  -- The argument goes up to the first closing parenthesis.
  have closed {name r : Text} (gap : Text) (isNamed : isName name = true) (short : gap.length ≤ 1)
      (blank : ∀ d ∈ gap, isBlank d = true) (shape : c :: t = name ++ (gap ++ '(' :: r))
      (read : (splitOnce (· = ')') r).map (fun parts =>
        (name ++ gap ++ '(' :: parts.1 ++ [')'], parts.2)) = some (call, after)) :
      IsCall call ∧ c :: t = call ++ after := by
    obtain ⟨⟨argument, after'⟩, split, same⟩ := Option.map_eq_some_iff.1 read
    cases same
    obtain ⟨d, rfl, closes, before⟩ := eq_append_of_splitOnce split
    obtain rfl : d = ')' := of_decide_eq_true closes
    have inside : ')' ∉ argument := fun member => by simpa using before _ member
    have isCall := IsCall.mk isNamed short blank inside
    simp only [List.append_assoc, List.cons_append] at isCall shape ⊢
    exact ⟨isCall, by simp [shape]⟩
  rw [call?] at found
  cases rest : (c :: t).dropWhile isNameChar with
  | nil => simp [rest] at found
  | cons d r =>
    rw [rest] at found whole
    by_cases blank : isBlank d = true
    next =>
      cases r with
      | nil => simp [blank] at found
      | cons d' r =>
        by_cases opens : d' = '('
        next =>
          subst opens
          simp only [blank, if_true] at found
          exact closed [d] named (Nat.le_refl 1) (by simpa using blank) whole.symm found
        next => simp [blank, opens] at found
    next =>
      by_cases opens : d = '('
      next =>
        subst opens
        simp only [blank] at found
        exact closed [] named (Nat.zero_le 1) (by simp) whole.symm (by simpa using found)
      next => simp [blank, opens] at found

theorem identifies_iff {c : Char} {t identifier after : Text} (start : isNameStart c = true) :
    Identifies (c :: t) identifier after ↔ takeIdentifier (c :: t) = (identifier, after) := by
  have noCall (unread : call? (c :: t) = none) (call more : Text) (isCall : IsCall call) :
      c :: t ≠ call ++ more := by
    intro shape
    rw [shape, call?_of_isCall isCall] at unread
    cases unread
  have run := List.takeWhile_append_dropWhile (p := isVariableChar) (l := c :: t)
  constructor
  · intro identifies
    cases identifies with
    | call shape isCall => rw [shape, takeIdentifier, call?_of_isCall isCall]
    | name shape unread named stop =>
      have missing : call? (c :: t) = none := by
        refine Option.eq_none_iff_forall_ne_some.2 fun parts found => ?_
        obtain ⟨isCall, whole⟩ := isCall_of_call? start (found : _ = some (parts.1, parts.2))
        exact unread _ _ isCall whole
      obtain ⟨taken, left⟩ := longest (name_chars named) stop
      rw [takeIdentifier, missing]
      simp only [shape, taken, left]
  · intro read
    rw [takeIdentifier] at read
    cases found : call? (c :: t) with
    | some parts =>
      obtain ⟨isCall, whole⟩ := isCall_of_call? start (found : _ = some (parts.1, parts.2))
      rw [found] at read
      cases read
      exact .call whole isCall
    | none =>
      rw [found] at read
      cases read
      refine .name run.symm (noCall found) ?_ ?_
      · rw [List.takeWhile_cons_of_pos (isVariableChar_of_isNameStart start), isVariableName, start,
          Bool.true_and, List.all_eq_true]
        exact fun d => List.mem_takeWhile_imp
      · have head := List.head?_dropWhile_not isVariableChar (c :: t)
        intro d first
        rwa [Option.mem_def.1 first] at head

theorem IsCall.getLast? {call : Text} (isCall : IsCall call) : call.getLast? = some ')' := by
  cases isCall with
  | mk =>
    rw [← List.cons_append, ← List.append_assoc, List.getLast?_append_of_ne_nil _ (by simp)]
    rfl

theorem identifier_ends {t identifier after : Text} (identifies : Identifies t identifier after) :
    (∃ c rest, identifier = c :: rest ∧ isNameStart c = true) ∧ trim identifier = identifier := by
  cases identifies with
  | call _ isCall =>
    have closing := isCall.getLast?
    cases isCall with
    | @mk name gap argument named _ _ _ =>
      obtain ⟨c, rest, rfl, start⟩ := start_of_isName named
      refine ⟨⟨c, _, rfl, start⟩, trim_of_ends ?_ ?_⟩
      · intro d first
        obtain rfl : c = d := Option.some.inj first
        exact isBlank_of_isVariableChar (isVariableChar_of_isNameStart start)
      · intro d last
        obtain rfl : ')' = d := Option.some.inj (closing.symm.trans last)
        rfl
  | name _ _ named _ =>
    obtain ⟨c, rest, rfl, start⟩ := name_start named
    exact ⟨⟨c, rest, rfl, start⟩, trim_name named⟩

theorem Body.isFilter_iff {t : Text} :
    isFilter t = true ↔ ∃ blanks c rest, t = blanks ++ c :: rest ∧
      (∀ b ∈ blanks, isBlank b = true) ∧ isNameStart c = true := by
  constructor
  · intro filter
    obtain ⟨blanks, rest, rfl, blank, stop⟩ := exists_longest isBlank t
    rw [isFilter, trimStart, (longest blank stop).2] at filter
    cases rest with
    | nil => cases filter
    | cons c rest => exact ⟨blanks, c, rest, rfl, blank, filter⟩
  · rintro ⟨blanks, c, rest, rfl, blank, start⟩
    have bare := isBlank_of_isVariableChar (isVariableChar_of_isNameStart start)
    rw [isFilter, trimStart, (longest blank (by simpa using bare)).2]
    exact start

theorem startsItem_iff {t : Text} : StartsItem t ↔ ∃ u, t = '|' :: u ∧ isFilter u = true := by
  constructor
  · rintro ⟨_, rest, ⟨blank, named, _⟩, rfl⟩
    obtain ⟨c, name, rfl, start⟩ := start_of_isName named
    exact ⟨_, rfl, isFilter_iff.2 ⟨_, c, _, by simp; rfl, blank, start⟩⟩
  · rintro ⟨u, rfl, filter⟩
    obtain ⟨blanks, c, rest, rfl, blank, start⟩ := isFilter_iff.1 filter
    have item : IsItem ('|' :: (blanks ++ [c] ++ [])) :=
      .mk blank (by simp [isName, start]) List.not_mem_nil
    exact ⟨_, rest, item, by simp⟩

theorem isItem_iff {item : Text} :
    IsItem item ↔ ∃ p, item = '|' :: p ∧ '|' ∉ p ∧ isFilter p = true := by
  constructor
  · rintro ⟨blank, named, more⟩
    obtain ⟨c, name, rfl, start⟩ := start_of_isName named
    refine ⟨_, rfl, ?_, isFilter_iff.2 ⟨_, c, _, by simp; rfl, blank, start⟩⟩
    have noBlank {b : Char} (member : isBlank b = true) : b ≠ '|' := by
      rintro rfl
      cases member
    have noName {d : Char} (member : isNameChar d = true) : d ≠ '|' := by
      rintro rfl
      exact absurd member (by decide)
    simp only [List.mem_append, not_or]
    exact ⟨⟨fun member => noBlank (blank _ member) rfl,
      fun member => noName (chars_of_isName named _ member) rfl⟩, more⟩
  · rintro ⟨p, rfl, absent, filter⟩
    obtain ⟨blanks, c, rest, rfl, blank, start⟩ := isFilter_iff.1 filter
    have item : IsItem ('|' :: (blanks ++ [c] ++ rest)) :=
      .mk blank (by simp [isName, start]) fun member => absent (by simp [member])
    simpa using item

theorem Body.filterChain_bar (t : Text) :
    filterChain ('|' :: t) =
      ((splitAll '|' t).takeWhile isFilter,
        ((splitAll '|' t).dropWhile isFilter).flatMap ('|' :: ·)) := by
  rw [filterChain, splitAll, if_pos rfl]

theorem Body.filterChain_item {item rest : Text} (isItem : IsItem item)
    (next : ∀ c ∈ rest.head?, c = '|') :
    filterChain (item ++ rest) = (item.tail :: (filterChain rest).1, (filterChain rest).2) := by
  obtain ⟨p, rfl, absent, filter⟩ := isItem_iff.1 isItem
  cases rest with
  | nil =>
    rw [List.append_nil, filterChain_bar, splitAll_of_not_mem absent]
    simp [filter, filterChain, splitAll]
  | cons c rest =>
    obtain rfl := next c rfl
    rw [List.cons_append, filterChain_bar, filterChain_bar, splitAll_append absent]
    simp [filter]

theorem Body.filterChain_stop {t : Text} (stops : ¬ StartsItem t) : filterChain t = ([], t) := by
  cases t with
  | nil => rfl
  | cons c t =>
    by_cases bar : c = '|'
    next =>
      subst bar
      have joined := splitAll_join '|' t
      cases pieces : splitAll '|' t with
      | nil => exact absurd pieces (splitAll_ne_nil '|' t)
      | cons first more =>
        rw [pieces, List.flatMap_cons] at joined
        have unfit : isFilter first = false := by
          rw [← Bool.not_eq_true]
          intro filter
          have item := isItem_iff.2 ⟨first, rfl, not_mem_of_splitAll pieces, filter⟩
          exact stops ⟨_, _, item, joined.symm⟩
        rw [filterChain_bar, pieces]
        simpa [unfit] using joined
    next =>
      rw [filterChain, splitAll, if_neg bar]
      cases splitAll '|' t <;> rfl

theorem bar_before {items : List Text} (each : ∀ i ∈ items, IsItem i) {rest : Text}
    (next : ∀ c ∈ rest.head?, c = '|') : ∀ c ∈ (items.flatten ++ rest).head?, c = '|' := by
  cases items with
  | nil => exact next
  | cons item items =>
    obtain ⟨p, rfl, -, -⟩ := isItem_iff.1 (each item List.mem_cons_self)
    intro c first
    exact (Option.some.inj first).symm

theorem Body.filterChain_items {items : List Text} (each : ∀ i ∈ items, IsItem i) (rest : Text)
    (next : ∀ c ∈ rest.head?, c = '|') :
    filterChain (items.flatten ++ rest) =
      (items.map List.tail ++ (filterChain rest).1, (filterChain rest).2) := by
  induction items with
  | nil => rfl
  | cons item items ih =>
    obtain ⟨own, others⟩ := List.forall_mem_cons.1 each
    rw [List.flatten_cons, List.append_assoc, filterChain_item own (bar_before others next),
      ih others]
    rfl

theorem Body.isFilter_before_bar (p q : Text) : isFilter (p ++ '|' :: q) = isFilter p := by
  rw [isFilter, isFilter, trimStart, trimStart, List.dropWhile_append]
  cases p.dropWhile isBlank with
  | nil => rfl
  | cons => rfl

theorem exists_before_bar (t : Text) :
    ∃ p rest, t = p ++ rest ∧ '|' ∉ p ∧ ∀ c ∈ rest.head?, c = '|' := by
  obtain ⟨p, rest, rfl, inside, stop⟩ := exists_longest (· ≠ '|') t
  exact ⟨p, rest, rfl, fun member => by simpa using inside _ member,
    fun c first => by simpa using stop c first⟩

theorem startsItem_cases {t : Text} (starts : StartsItem t) :
    ∃ item rest, IsItem item ∧ t = item ++ rest ∧ ∀ c ∈ rest.head?, c = '|' := by
  obtain ⟨u, rfl, filter⟩ := startsItem_iff.1 starts
  obtain ⟨p, rest, rfl, absent, next⟩ := exists_before_bar u
  have item : isFilter p = true := by
    cases rest with
    | nil => simpa using filter
    | cons c rest =>
      obtain rfl := next c rfl
      rwa [isFilter_before_bar] at filter
  exact ⟨_, rest, isItem_iff.2 ⟨p, rfl, absent, item⟩, rfl, next⟩

theorem items_and_rest (t : Text) :
    ∃ items bad, t = List.flatten items ++ bad ∧ (∀ i ∈ items, IsItem i) ∧ ¬ StartsItem bad ∧
      (items = [] ∨ ∀ c ∈ bad.head?, c = '|') := by
  induction size : t.length using Nat.strongRecOn generalizing t with
  | ind n ih =>
    by_cases starts : StartsItem t
    next =>
      obtain ⟨item, rest, isItem, rfl, next⟩ := startsItem_cases starts
      obtain ⟨p, rfl, -, -⟩ := isItem_iff.1 isItem
      rw [List.length_append, List.length_cons] at size
      have shorter : rest.length < n := by omega
      obtain ⟨items, bad, rfl, each, stops, bar⟩ := ih rest.length shorter rest rfl
      refine ⟨('|' :: p) :: items, bad, by simp, List.forall_mem_cons.2 ⟨isItem, each⟩, stops,
        .inr ?_⟩
      rcases bar with rfl | bar
      · exact next
      · exact bar
    next => exact ⟨[], t, rfl, by simp, starts, .inl rfl⟩

theorem startsItem_inside {items : List Text} (each : ∀ i ∈ items, IsItem i) {a b : Text}
    (shape : items.flatten = a ++ '|' :: b) (bad : Text) : StartsItem ('|' :: (b ++ bad)) := by
  induction items generalizing a with
  | nil => simp at shape
  | cons item items ih =>
    obtain ⟨own, others⟩ := List.forall_mem_cons.1 each
    obtain ⟨p, rfl, absent, -⟩ := isItem_iff.1 own
    rw [List.flatten_cons, List.cons_append] at shape
    cases a with
    | nil =>
      obtain rfl : p ++ items.flatten = b := List.tail_eq_of_cons_eq shape
      exact ⟨_, _, own, by simp; rfl⟩
    | cons c a =>
      rcases List.append_eq_append_iff.1 (List.tail_eq_of_cons_eq shape) with
        ⟨a', rfl, rest⟩ | ⟨c', rfl, rest⟩
      · exact ih others rest
      · cases c' with
        | nil => exact ih (a := []) others rest.symm
        | cons d c' =>
          obtain rfl : '|' = d := List.head_eq_of_cons_eq rest
          simp at absent

theorem fault_iff {good bad : Text} :
    Fault good bad ↔ ∃ items, good = List.flatten items ∧ (∀ i ∈ items, IsItem i) ∧ bad ≠ [] ∧
      ¬ StartsItem bad ∧ (items = [] ∨ ∀ c ∈ bad.head?, c = '|') := by
  constructor
  · intro fault
    cases fault with
    | start visible stops => exact ⟨[], rfl, by simp, visible, stops, .inl rfl⟩
    | @bar good bad starts stops between =>
      obtain ⟨items, bad', whole, each, stops', bar⟩ := items_and_rest (good ++ '|' :: bad)
      rcases List.append_eq_append_iff.1 whole with ⟨x, inside, behind⟩ | ⟨x, rfl, rfl⟩
      · cases x with
        | nil =>
          rw [List.append_nil] at inside
          exact ⟨items, inside.symm, each, by simp, stops, .inr (by simp)⟩
        | cons c x =>
          obtain ⟨rfl, rfl⟩ := List.cons.inj behind
          exact absurd (startsItem_inside each inside bad') stops
      · cases x with
        | nil => exact ⟨items, by simp, each, by simp, stops, .inr (by simp)⟩
        | cons c x =>
          rcases bar with rfl | bar
          · exact absurd starts stops'
          · obtain rfl : c = '|' := bar c rfl
            exact absurd (between _ x rfl) stops'
  · rintro ⟨items, rfl, each, visible, stops, bar⟩
    cases items with
    | nil => exact .start visible stops
    | cons item items =>
      obtain ⟨q, rfl⟩ : ∃ q, bad = '|' :: q := by
        cases bad with
        | nil => exact absurd rfl visible
        | cons c q => exact ⟨q, by rw [(bar.resolve_left (by simp)) c rfl]⟩
      refine .bar ⟨item, items.flatten ++ '|' :: q, each item List.mem_cons_self, by simp⟩ stops ?_
      exact fun a b shape => startsItem_inside each shape _

theorem Body.filterChain_cut {items : List Text} {bad : Text} (each : ∀ i ∈ items, IsItem i)
    (stops : ¬ StartsItem bad) (bar : items = [] ∨ ∀ c ∈ bad.head?, c = '|') :
    filterChain (items.flatten ++ bad) = (items.map List.tail, bad) := by
  rcases bar with rfl | bar
  · exact filterChain_stop stops
  · rw [filterChain_items each bad bar, filterChain_stop stops, List.append_nil]

theorem Body.filterChain_fault {good bad : Text} (fault : Fault good bad) :
    ∃ items, good = List.flatten items ∧ (∀ i ∈ items, IsItem i) ∧
      filterChain (good ++ bad) = (items.map List.tail, bad) := by
  obtain ⟨items, rfl, each, -, stops, bar⟩ := fault_iff.1 fault
  exact ⟨items, rfl, each, filterChain_cut each stops bar⟩

theorem areItems_iff {t : Text} : AreItems t ↔ (filterChain t).2 = [] := by
  constructor
  · rintro ⟨items, rfl, each⟩
    have all := filterChain_items each [] (by simp)
    rw [List.append_nil] at all
    rw [all]
    rfl
  · intro none
    obtain ⟨items, bad, rfl, each, stops, bar⟩ := items_and_rest t
    rw [filterChain_cut each stops bar] at none
    obtain rfl : bad = [] := none
    exact ⟨items, List.append_nil _, each⟩

instance (t : Text) : Decidable (AreItems t) := decidable_of_iff _ areItems_iff.symm

theorem exists_fault {t : Text} (other : ¬ AreItems t) :
    ∃ good bad, t = good ++ bad ∧ Fault good bad := by
  obtain ⟨items, bad, rfl, each, stops, bar⟩ := items_and_rest t
  have visible : bad ≠ [] := by
    rintro rfl
    exact other ⟨items, List.append_nil _, each⟩
  exact ⟨_, bad, rfl, fault_iff.2 ⟨items, rfl, each, visible, stops, bar⟩⟩

theorem Fault.visible {good bad : Text} (fault : Fault good bad)
    (first : ∀ c ∈ (good ++ bad).head?, isBlank c = false) : trimEnd bad ≠ [] := by
  have kept {c : Char} (bare : isBlank c = false) (t : Text) : trimEnd (c :: t) ≠ [] := by
    rw [trimEnd_cons, if_neg (by simp [bare])]
    exact List.cons_ne_nil _ _
  cases fault with
  | start visible _ =>
    obtain ⟨c, t, rfl⟩ := List.exists_cons_of_ne_nil visible
    exact kept (first c rfl) t
  | bar _ _ _ => exact kept rfl _

section Parts

variable {t : Text}

theorem Body.Parts.read (p : Parts t) :
    t.takeWhile isBlank = p.lead ∧ trimStart t = p.identifier ++ (p.gap ++ p.rest) ∧
      takeIdentifier (trimStart t) = (p.identifier, p.gap ++ p.rest) ∧
      (p.gap ++ p.rest).takeWhile isBlank = p.gap ∧ trimStart (p.gap ++ p.rest) = p.rest := by
  obtain ⟨⟨c, tail, shape, start⟩, -⟩ := identifier_ends p.identifies
  have bare := isBlank_of_isVariableChar (isVariableChar_of_isNameStart start)
  have first : ∀ d ∈ (p.identifier ++ (p.gap ++ p.rest)).head?, isBlank d = false := by
    simpa [shape] using bare
  obtain ⟨lead, content⟩ := longest p.lead_blank first
  obtain ⟨gap, rest⟩ := longest p.gap_blank p.rest_visible
  rw [← p.whole] at lead content
  refine ⟨lead, content, ?_, gap, rest⟩
  have read := p.identifies
  rw [trimStart, content]
  rw [shape, List.cons_append] at read ⊢
  exact (identifies_iff start).1 read

theorem Body.Parts.unique (p q : Parts t) : p = q := by
  obtain ⟨lead, -, read, gap, rest⟩ := p.read
  obtain ⟨lead', -, read', gap', rest'⟩ := q.read
  obtain ⟨identifier, after⟩ := Prod.mk.inj (read.symm.trans read')
  rw [after, gap'] at gap
  rw [after, rest'] at rest
  exact Parts.ext (lead.symm.trans lead') identifier gap.symm rest.symm

def Body.Parts.upTo (p : Parts t) (good : Text) : Text := p.lead ++ p.identifier ++ p.gap ++ good

theorem Body.Parts.eq_upTo (p : Parts t) {good bad : Text} (shape : p.rest = good ++ bad) :
    t = p.upTo good ++ bad := by
  have whole := p.whole
  rw [shape] at whole
  simpa [upTo] using whole

theorem StartsLikeName.parts (starts : StartsLikeName t) : Nonempty (Parts t) := by
  obtain ⟨c, tail, content, start⟩ := starts
  obtain ⟨lead, body, rfl, lead_blank, stop⟩ := exists_longest isBlank t
  obtain rfl : body = c :: tail := by rwa [trimStart, (longest lead_blank stop).2] at content
  cases read : takeIdentifier (c :: tail) with
  | mk identifier after =>
    have identifies := (identifies_iff start).2 read
    have whole : c :: tail = identifier ++ after := by
      cases identifies <;> assumption
    obtain ⟨gap, rest, rfl, gap_blank, rest_visible⟩ := exists_longest isBlank after
    rw [whole] at identifies
    exact ⟨⟨lead, identifier, gap, rest, by rw [whole], lead_blank, gap_blank, identifies,
      rest_visible⟩⟩

theorem Body.Parts.startsLikeName (p : Parts t) : StartsLikeName t := by
  obtain ⟨⟨c, tail, shape, start⟩, -⟩ := identifier_ends p.identifies
  exact ⟨c, tail ++ (p.gap ++ p.rest), by rw [p.read.2.1, shape]; rfl, start⟩

theorem Body.parse?_eq_none (other : ¬ StartsLikeName t) : parse? t = none := by
  rw [parse?]
  cases content : trimStart t with
  | nil => rfl
  | cons c tail => exact if_neg fun start => other ⟨c, tail, content, start⟩

theorem Body.parse?_parts (p : Parts t) :
    parse? t = some ⟨p.identifier, (filterChain p.rest).1.map trim, trimEnd (filterChain p.rest).2,
      byteLength t - byteLength (filterChain p.rest).2⟩ := by
  obtain ⟨c, tail, content, start⟩ := p.startsLikeName
  obtain ⟨-, -, read, -, rest⟩ := p.read
  rw [content] at read
  rw [parse?, content]
  simp only [start, if_true, read, rest, (identifier_ends p.identifies).2]

theorem Body.Parts.parse?_items (p : Parts t) {items : List Text} (shape : p.rest = items.flatten)
    (each : ∀ i ∈ items, IsItem i) :
    ∃ b, parse? t = some b ∧ b.identifier = p.identifier ∧
      b.filters = items.map (fun i => trim i.tail) ∧ b.invalid = [] := by
  have chain : filterChain p.rest = (items.map List.tail, []) := by
    have whole := filterChain_items each [] (by simp)
    rwa [List.append_nil, ← shape, show filterChain [] = ([], []) from rfl, List.append_nil]
      at whole
  refine ⟨_, parse?_parts p, rfl, ?_, ?_⟩
  · simp only [chain, List.map_map, Function.comp_def]
  · rw [chain]
    rfl

end Parts

end Placeholder

end Docspec
