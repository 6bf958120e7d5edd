import Docspec.Proofs.LineGrammars
import Docspec.Proofs.Patterns

set_option autoImplicit false

namespace Docspec

open Text Placeholder

/-- A part of the pattern of a line. A group that may be absent is so together with the text before
it. -/
inductive LinePart
  | skipped (p : Pattern)
  | group (p : Pattern)
  | perhaps (before p : Pattern)

namespace LinePart

open Pattern

/-- The ways in which parts match a text from its beginning, the preferred ones first, each with
what its groups take. -/
def ways : List LinePart → Text → List (List (Option Text))
  | [], _ => [[]]
  | skipped p :: more, t => (p.splits t).flatMap fun (_, u) => ways more u
  | group p :: more, t => (p.splits t).flatMap fun (x, u) => (ways more u).map (some x :: ·)
  | perhaps before p :: more, t =>
    ((before.splits t).flatMap fun (_, u) =>
      (p.splits u).flatMap fun (x, w) => (ways more w).map (some x :: ·)) ++
      (ways more t).map (none :: ·)

def anyText : Pattern := repeated false (one fun _ => true)

def ending : LinePart := skipped (both blanks final)

def valued : LinePart := perhaps (both (one isBlank) blanks) (both (one fun _ => true) anyText)

def ofSet : List LinePart := [skipped blanks, group variableName, valued, ending]

def shown : LinePart :=
  group (both (repeated false (one (· ≠ '>'))) (one fun c => c ≠ '>' && !isBlank c))

def destined : LinePart := perhaps (both (one (· = '>')) blanks) anyText

def ofPrint : List LinePart := [skipped blanks, shown, skipped blanks, destined, ending]

end LinePart

def LineGrammar.ofParts (parts : List LinePart) (isPadded : Bool) : LineGrammar where
  groups? t := (LinePart.ways parts t).head?
  isPadded := isPadded

namespace LinePart

open Pattern LineGrammar

variable {t : Text}

section Ending

theorem ways_ending (t : Text) :
    ways [ending] t = ((both blanks final).splits t).map fun _ => [] :=
  List.map_eq_flatMap.symm

theorem head_ending (blank : isAllBlank t = true) : (ways [ending] t).head? = some [] := by
  rw [ways_ending, List.head?_map, head_blank_end blank]
  rfl

theorem ways_ending_eq_nil (visible : isAllBlank t = false) : ways [ending] t = [] := by
  rw [ways_ending, splits_blank_end visible, List.map_nil]

theorem head_anyText (f : Text → Text) (t : Text) :
    ((anyText.splits t).flatMap fun (x, u) =>
      (ways [ending] u).map (some (f x) :: ·)).head? = some [some (f (trimEnd t))] := by
  simp only [ways_ending, List.map_map]
  exact head_invalid (fun x => [some (f x)]) t

end Ending

section OfSet

theorem splits_run_last {p : Char → Bool} {a : Text} {c : Char}
    (inside : ∀ d ∈ a ++ [c], p d = true) :
    ∃ more, (run p).splits (a ++ [c]) = (a ++ [c], []) :: (a, [c]) :: more := by
  induction a with
  | nil =>
    have taken := inside c List.mem_cons_self
    exact ⟨[], by simp [splits_run_cons, taken]; rfl⟩
  | cons d a ih =>
    obtain ⟨taken, rest⟩ := List.forall_mem_cons.1 inside
    obtain ⟨more, shape⟩ := ih rest
    refine ⟨more.map (fun (y, w) => (d :: y, w)) ++ [([], d :: (a ++ [c]))], ?_⟩
    rw [List.cons_append, splits_run_cons, shape, if_pos taken]
    rfl

theorem mem_variableName {x u : Text} (member : (x, u) ∈ variableName.splits t) :
    t = x ++ u ∧ isVariableName x = true := by
  obtain ⟨_, _, y, first, rest, rfl⟩ := mem_both member
  obtain ⟨c, rfl, rfl, start⟩ := mem_one first
  obtain ⟨rfl, each⟩ := mem_run rest
  exact ⟨rfl, by simpa [isVariableName, start] using each⟩

theorem splits_blanks_cons {c : Char} (blank : isBlank c = true) (t : Text) :
    (both (one isBlank) blanks).splits (c :: t) =
      (blanks.splits t).map fun (x, u) => (c :: x, u) := by
  simp [splits, blank]

theorem head_valued_short {after : Text} (apart : ∀ c ∈ after.head?, isBlank c = true)
    (short : after.length < 2) : (ways [valued, ending] after).head? = some [none] := by
  have ended : ((ways [ending] after).map (none :: ·)).head? = some [none] := by
    rw [List.head?_map, head_ending (blank_of_short apart short)]
    rfl
  rw [valued, ways]
  cases after with
  | nil => exact ended
  | cons c r =>
    obtain rfl : r = [] := List.length_eq_zero_iff.1 (Nat.le_zero.1 (Nat.le_of_lt_succ
      (Nat.lt_of_succ_lt_succ short)))
    rw [splits_blanks_cons (apart c rfl)]
    exact ended

theorem head_valued_blank {c d : Char} {a : Text} (first : isBlank c = true)
    (blank : ∀ e ∈ a ++ [d], isBlank e = true) :
    (ways [valued, ending] (c :: (a ++ [d]))).head? = some [some [d]] := by
  obtain ⟨more, order⟩ := splits_run_last blank
  rw [valued, ways, splits_blanks_cons first, blanks, order]
  rfl

theorem head_valued_visible {c d : Char} {gap r : Text} (first : isBlank c = true)
    (blank : ∀ e ∈ gap, isBlank e = true) (visible : isBlank d = false) :
    (ways [valued, ending] (c :: (gap ++ d :: r))).head? = some [some (d :: trimEnd r)] := by
  have gapped := head_longest (b := d :: r) blank (by simpa using visible)
  have behind : ((both (one isBlank) blanks).splits (c :: (gap ++ d :: r))).head? =
      some (c :: gap, d :: r) := by
    rw [splits_blanks_cons first, List.head?_map, blanks, gapped]
    rfl
  have value : (((both (one fun _ => true) anyText).splits (d :: r)).flatMap fun (x, w) =>
      (ways [ending] w).map (some x :: ·)).head? = some [some (d :: trimEnd r)] := by
    have one : (both (one fun _ => true) anyText).splits (d :: r) =
        (anyText.splits r).map fun (x, u) => (d :: x, u) := by
      simp [splits]
    rw [one, List.flatMap_map]
    exact head_anyText (d :: ·) r
  rw [valued, ways, List.head?_append, head_flatMap behind value]
  rfl

theorem head_valued {after : Text} (apart : ∀ c ∈ after.head?, isBlank c = true) :
    ∃ value, (ways [valued, ending] after).head? = some [value] ∧
      value.map trim = if after.length < 2 then none else some (trim after) := by
  rcases after with _ | ⟨c, _ | ⟨d, r⟩⟩
  · exact ⟨none, head_valued_short apart (by simp), rfl⟩
  · exact ⟨none, head_valued_short apart (by simp), rfl⟩
  · have first : isBlank c = true := apart c rfl
    have behind : trim (c :: d :: r) = trim (d :: r) :=
      trim_blanks_append (a := [c]) (by simpa using first) (d :: r)
    rw [if_neg (by simp), behind]
    by_cases blank : isAllBlank (d :: r) = true
    next =>
      obtain ⟨a, e, shape⟩ := (List.eq_nil_or_concat (d :: r)).resolve_left (List.cons_ne_nil _ _)
      rw [List.concat_eq_append] at shape
      have own := List.all_eq_true.1 blank
      rw [trim_eq_nil_iff.2 blank]
      rw [shape] at own ⊢
      have last : isBlank e = true := own e (by simp)
      refine ⟨some [e], head_valued_blank first own, ?_⟩
      rw [Option.map_some, trim_eq_nil_iff.2 (by simpa [isAllBlank] using last)]
    next =>
      obtain ⟨gap, more, shape, before, stop⟩ := exists_longest isBlank (d :: r)
      rw [shape]
      cases more with
      | nil =>
        rw [shape, List.append_nil] at blank
        exact absurd (List.all_eq_true.2 before) blank
      | cons e more =>
        have visible : isBlank e = false := stop e rfl
        refine ⟨some (e :: trimEnd more), head_valued_visible first before visible, ?_⟩
        have kept := trim_word (List.cons_ne_nil e []) (by simpa using visible) more
        rw [List.singleton_append, List.singleton_append] at kept
        rw [Option.map_some, trim_blanks_append before, ← kept, trim_trim]

theorem head_ofSet {line n after : Text} (starts : StartsWithName line n after) :
    ∃ value, (ways ofSet line).head? = some [some n, value] ∧
      value.map trim = if after.length < 2 then none else some (trim after) := by
  obtain ⟨value, third, shown⟩ := head_valued starts.apart
  obtain ⟨lead, rfl, blank⟩ := starts.lead
  obtain ⟨c, t, shape, -⟩ := name_start starts.named
  have visible := name_no_blank starts.named c (by simp [shape])
  have first := head_longest (b := n ++ after) blank (by simpa [shape] using visible)
  have second := head_variableName starts.named starts.stop
  refine ⟨value, head_flatMap first (head_flatMap second ?_), shown⟩
  rw [List.head?_map, third]
  rfl

theorem startsWithName_of_mem_ways {line : Text} {groups : List (Option Text)}
    (member : groups ∈ ways ofSet line) : ∃ n after, StartsWithName line n after := by
  obtain ⟨⟨lead, t⟩, first, inside⟩ := List.mem_flatMap.1 member
  obtain ⟨⟨n, after⟩, second, inside⟩ := List.mem_flatMap.1 inside
  obtain ⟨rest, third, -⟩ := List.mem_map.1 inside
  obtain ⟨rfl, blank⟩ := mem_run first
  obtain ⟨rfl, named⟩ := mem_variableName second
  refine ⟨n, after, ⟨lead, rfl, blank⟩, named, fun c front => ?_⟩
  rcases List.mem_append.1 third with taken | left
  · obtain ⟨⟨gap, u⟩, gapped, -⟩ := List.mem_flatMap.1 taken
    obtain ⟨_, _, _, one, -, -⟩ := mem_both gapped
    obtain ⟨d, -, rfl, own⟩ := mem_one one
    obtain rfl : d = c := Option.some.inj front
    exact own
  · obtain ⟨_, ended, -⟩ := List.mem_map.1 left
    have blank : isAllBlank after = true := by
      by_contra visible
      rw [ways_ending_eq_nil (Bool.eq_false_iff.2 visible)] at ended
      cases ended
    exact List.all_eq_true.1 blank c (List.mem_of_mem_head? front)

end OfSet

section OfPrint

theorem splits_lazy_cons (p q : Char → Bool) (c : Char) (t : Text) :
    (both (repeated false (one p)) (one q)).splits (c :: t) =
      (if q c then [([c], t)] else []) ++
        (if p c then ((both (repeated false (one p)) (one q)).splits t).map
          fun (x, u) => (c :: x, u) else []) := by
  have first : (repeated false (one p)).splits (c :: t) =
      ([], c :: t) :: if p c then
        ((repeated false (one p)).splits t).map fun (x, u) => (c :: x, u) else [] := by
    by_cases taken : p c = true <;> simp [splits, rounds, taken]
  rw [splits, first, List.flatMap_cons]
  congr 1
  · by_cases last : q c = true <;> simp [splits, last]
  · by_cases taken : p c = true <;>
      simp [splits, taken, List.flatMap_map, List.map_flatMap, Function.comp_def]

theorem head_shortest {α : Type} {p q : Char → Bool} {body r : Text} {g : α}
    {k : Text → Text → List α} (inside : ∀ c ∈ body, p c = true)
    (last : ∃ c ∈ body.getLast?, q c = true)
    (early : ∀ x y, body = x ++ y → y ≠ [] → k x (y ++ r) = [])
    (first : (k body r).head? = some g) :
    (((both (repeated false (one p)) (one q)).splits (body ++ r)).flatMap
      fun s => k s.1 s.2).head? = some g := by
  induction body generalizing k with
  | nil =>
    obtain ⟨c, member, -⟩ := last
    cases member
  | cons c body ih =>
    obtain ⟨own, others⟩ := List.forall_mem_cons.1 inside
    rw [List.cons_append, splits_lazy_cons, if_pos own, List.flatMap_append, List.flatMap_map]
    cases body with
    | nil =>
      obtain ⟨d, member, ends⟩ := last
      obtain rfl : c = d := Option.some.inj member
      rw [if_pos ends, List.head?_append, List.flatMap_singleton]
      dsimp only
      rw [List.nil_append, first]
      rfl
    | cons d body =>
      have none : (if q c then [([c], d :: body ++ r)] else []).flatMap
          (fun s => k s.1 s.2) = [] := by
        split
        next => simpa using early [c] (d :: body) rfl (List.cons_ne_nil _ _)
        next => rfl
      rw [none, List.nil_append]
      exact ih (k := fun x => k (c :: x)) others (by simpa using last)
        (fun x y shape => early (c :: x) y (congrArg (c :: ·) shape)) first

theorem head_destined {trail : Text} (blank : ∀ c ∈ trail, isBlank c = true)
    (after : Option Text) :
    (ways [skipped blanks, destined, ending] (trail ++ arrowed after)).head? =
      some [after.map trim] := by
  have stop : ∀ c ∈ (arrowed after).head?, isBlank c = false := by
    cases after with
    | none => nofun
    | some after =>
      intro c first
      obtain rfl : '>' = c := Option.some.inj first
      rfl
  refine head_flatMap (head_longest blank stop) ?_
  cases after with
  | none => rfl
  | some after =>
    have arrow : ((both (one (· = '>')) blanks).splits ('>' :: after)).head? =
        some ('>' :: after.takeWhile isBlank, trimStart after) :=
      head_both (head_char '>' after) (head_run after)
    have value := head_anyText id (trimStart after)
    change (ways [destined, ending] ('>' :: after)).head? = _
    rw [destined, ways, List.head?_append, head_flatMap arrow value]
    rfl

theorem mem_destined {u : Text} {groups : List (Option Text)}
    (member : groups ∈ ways [skipped blanks, destined, ending] u) :
    ∃ gap w, u = gap ++ w ∧ (∀ c ∈ gap, isBlank c = true) ∧
      (isAllBlank w = true ∨ w.head? = some '>') := by
  obtain ⟨⟨gap, w⟩, first, inside⟩ := List.mem_flatMap.1 member
  obtain ⟨rfl, blank⟩ := mem_run first
  refine ⟨gap, w, rfl, blank, ?_⟩
  rcases List.mem_append.1 inside with taken | left
  · obtain ⟨⟨_, v⟩, arrow, -⟩ := List.mem_flatMap.1 taken
    obtain ⟨_, _, _, one, -, -⟩ := mem_both arrow
    obtain ⟨-, rfl⟩ := mem_char one
    exact .inr rfl
  · obtain ⟨_, ended, -⟩ := List.mem_map.1 left
    refine .inl ?_
    by_contra visible
    rw [ways_ending_eq_nil (Bool.eq_false_iff.2 visible)] at ended
    cases ended

theorem destined_eq_nil {y r : Text} (unarrowed : '>' ∉ y) (visible : isAllBlank y = false) :
    ways [skipped blanks, destined, ending] (y ++ r) = [] := by
  refine List.eq_nil_iff_forall_not_mem.2 fun groups member => ?_
  obtain ⟨gap, w, shape, blank, rest⟩ := mem_destined member
  obtain ⟨c, inside, own⟩ := List.all_eq_false.1 visible
  rcases List.append_eq_append_iff.1 shape with ⟨a, rfl, -⟩ | ⟨a, rfl, rfl⟩
  · exact own (blank c (List.mem_append_left a inside))
  · rcases List.mem_append.1 inside with before | behind
    · exact own (blank c before)
    · rcases rest with all | arrow
      · exact own (List.all_eq_true.1 all c (List.mem_append_left r behind))
      · rw [List.head?_append_of_ne_nil _ (List.ne_nil_of_mem behind)] at arrow
        exact unarrowed (List.mem_append_right gap (List.mem_of_mem_head? arrow))

theorem mem_shortest {p q : Char → Bool} {x u : Text}
    (member : (x, u) ∈ (both (repeated false (one p)) (one q)).splits t) :
    t = x ++ u ∧ (∃ c ∈ x, q c = true) ∧ ∀ c ∈ x, p c = true ∨ q c = true := by
  induction t generalizing x with
  | nil => simp [splits, rounds] at member
  | cons c t ih =>
    rw [splits_lazy_cons] at member
    rcases List.mem_append.1 member with stopped | longer
    · by_cases last : q c = true
      next =>
        rw [if_pos last] at stopped
        obtain ⟨rfl, rfl⟩ := Prod.mk.inj (List.mem_singleton.1 stopped)
        exact ⟨rfl, ⟨c, List.mem_cons_self, last⟩, by simp [last]⟩
      next =>
        rw [if_neg last] at stopped
        cases stopped
    · by_cases taken : p c = true
      next =>
        rw [if_pos taken] at longer
        obtain ⟨⟨y, w⟩, later, same⟩ := List.mem_map.1 longer
        obtain ⟨rfl, rfl⟩ := Prod.mk.inj same
        obtain ⟨rfl, ⟨d, inside, last⟩, each⟩ := ih later
        exact ⟨rfl, ⟨d, List.mem_cons_of_mem c inside, last⟩,
          List.forall_mem_cons.2 ⟨.inl taken, each⟩⟩
      next =>
        rw [if_neg taken] at longer
        cases longer

section Cut

variable {before : Text} (unarrowed : '>' ∉ before) (after : Option Text)
include unarrowed

theorem head_ofPrint (visible : trim before ≠ []) :
    (ways ofPrint (before ++ arrowed after)).head? = some [some (trim before), after.map trim] := by
  obtain ⟨lead, trail, shape, front, back⟩ := exists_trim before
  have absent : '>' ∉ trim before := fun member => unarrowed <| by
    rw [shape]
    exact List.mem_append_right lead (List.mem_append_left trail member)
  have start : ∀ c ∈ (trim before ++ (trail ++ arrowed after)).head?, isBlank c = false := by
    rw [List.head?_append_of_ne_nil _ visible]
    exact head_trim before
  have whole : before ++ arrowed after = lead ++ (trim before ++ (trail ++ arrowed after)) := by
    rw [← List.append_assoc (trim before), ← List.append_assoc lead, ← shape]
  have ends : ∃ c ∈ (trim before).getLast?, (c ≠ '>' && !isBlank c) = true := by
    have last := List.getLast?_eq_some_getLast visible
    refine ⟨_, last, ?_⟩
    have own := last_trimEnd _ _ last
    have other : (trim before).getLast visible ≠ '>' := fun same =>
      absent (same ▸ List.getLast_mem visible)
    simp [own, other]
  rw [whole]
  refine head_flatMap (head_longest front start) (head_shortest (k := fun x u =>
    (ways [skipped blanks, destined, ending] u).map (some x :: ·)) ?_ ends ?_ ?_)
  · intro c member
    have other : c ≠ '>' := fun same => absent (same ▸ member)
    simpa using other
  · intro x y parts nonempty
    have inside : '>' ∉ y := fun member => absent (parts ▸ List.mem_append_right x member)
    have shown : isAllBlank y = false := Bool.eq_false_iff.2 fun blank => by
      have last : (trim before).getLast? = some (y.getLast nonempty) := by
        rw [parts, List.getLast?_append_of_ne_nil _ nonempty, List.getLast?_eq_some_getLast]
      have own := last_trimEnd _ _ last
      rw [List.all_eq_true.1 blank _ (List.getLast_mem nonempty)] at own
      cases own
    rw [destined_eq_nil inside shown, List.map_nil]
  · rw [List.head?_map, head_destined back after]
    rfl

theorem ofPrint_eq_nil (unseen : trim before = []) :
    ways ofPrint (before ++ arrowed after) = [] := by
  refine List.eq_nil_iff_forall_not_mem.2 fun groups member => ?_
  obtain ⟨⟨lead, t⟩, first, inside⟩ := List.mem_flatMap.1 member
  obtain ⟨⟨x, u⟩, second, -⟩ := List.mem_flatMap.1 inside
  obtain ⟨shape, blank⟩ := mem_run first
  obtain ⟨rfl, ⟨c, taken, last⟩, each⟩ := mem_shortest second
  obtain ⟨-, visible⟩ := Bool.and_eq_true_iff.1 last
  have bare : isBlank c = false := by simpa using visible
  have absent : '>' ∉ lead ++ x := by
    refine List.not_mem_append (fun member => ?_) fun member => ?_
    · cases blank _ member
    · simpa using each _ member
  -- What the group takes ends before the arrow, so its visible character stands there.
  have seen : c ∈ before := by
    rw [← List.append_assoc] at shape
    rcases List.append_eq_append_iff.1 shape with ⟨a, parts, rest⟩ | ⟨a, rfl, -⟩
    · have inside := List.mem_append_right lead taken
      rw [parts] at inside absent
      refine (List.mem_append.1 inside).resolve_right fun behind => ?_
      cases after with
      | none =>
        rw [arrowed, eq_comm, List.append_eq_nil_iff] at rest
        simp [rest.1] at behind
      | some after =>
        have whole : (a ++ u).head? = some '>' := congrArg List.head? rest.symm
        have front : a.head? = some '>' := by
          rwa [List.head?_append_of_ne_nil _ (List.ne_nil_of_mem behind)] at whole
        exact absent (List.mem_append_right before (List.mem_of_mem_head? front))
    · exact List.mem_append_left a (List.mem_append_right lead taken)
  rw [List.all_eq_true.1 (trim_eq_nil_iff.1 unseen) c seen] at bare
  cases bare

end Cut

end OfPrint

end LinePart

namespace LineGrammar

section SetLine

theorem split_ofParts_ofSet (line : Text) :
    (ofParts LinePart.ofSet false).split line = ofSet.split line := by
  by_cases starts : ∃ n after, StartsWithName line n after
  next =>
    obtain ⟨n, after, starts⟩ := starts
    obtain ⟨value, first, shown⟩ := LinePart.head_ofSet starts
    have own : (value.map fun v => Argument.ofLine (trim v)) = (value.map trim).map .ofLine :=
      (Option.map_map Argument.ofLine trim value).symm
    rw [split_unpadded rfl first, split_named starts, own, shown, trim_name starts.named]
    split <;> rfl
  next =>
    rw [split_unnamed starts]
    refine split_eq_nil (List.head?_eq_none_iff.2 (List.eq_nil_iff_forall_not_mem.2 ?_))
    exact fun groups member => starts (LinePart.startsWithName_of_mem_ways member)

theorem split_set_line (line : Text) :
    let t := trim line
    let w := t.takeWhile isVariableChar
    ofSet.split line = (ofParts LinePart.ofSet false).split line ∧
      (w.head?.any isNameStart = false → ofSet.split line = []) ∧
      (w.head?.any isNameStart = true →
        (t = w → ofSet.split line =
          if (trimStart line).length < w.length + 2 then [.ofLine w]
          else [.ofLine w, .ofLine []]) ∧
        ∀ c rest, t = w ++ c :: rest → ofSet.split line =
          if isBlank c then [.ofLine w, .ofLine (trimStart (c :: rest))] else []) ∧
      ∀ n gap v, isVariableName n = true → gap ≠ [] → (∀ c ∈ gap, isBlank c = true) → v ≠ [] →
        trim v = v → ofSet.split (n ++ (gap ++ v)) = [.ofLine n, .ofLine v] := by
  intro t w
  refine ⟨(split_ofParts_ofSet line).symm, fun other => split_unnamed fun ⟨n, after, starts⟩ => ?_,
    fun start => ⟨fun alone => ?_, fun c rest shape => ?_⟩, fun n gap v => split_spaced⟩
  · obtain ⟨c, r, shape, first⟩ := name_start starts.named
    have word : w = c :: r := starts.word_eq.trans shape
    simp [word, first] at other
  · exact split_alone rfl (by rw [List.append_nil]; exact alone) start rfl
  · by_cases blank : isBlank c = true
    next =>
      rw [if_pos blank]
      exact split_valued rfl shape start blank
    next =>
      rw [if_neg blank]
      exact split_joined rfl shape (Bool.eq_false_iff.2 blank) rfl

theorem split_set_line_spaced :
    let line : Text := "\ta.b \n 12 > 3 "
    let w := (trim line).takeWhile isVariableChar
    w.head?.any isNameStart = true ∧ trim line = w ++ ' ' :: "\n 12 > 3".toList ∧
      ofSet.split line = [.ofLine "a.b", .ofLine "12 > 3"] := by
  intro line w
  have start : w.head?.any isNameStart = true := rfl
  have shape : trim line = w ++ ' ' :: "\n 12 > 3".toList := rfl
  obtain ⟨-, -, named, -⟩ := split_set_line line
  exact ⟨start, shape, (named start).2 ' ' _ shape⟩

example : ofSet.split "name  " = [.ofLine "name", .ofLine []] := by decide

end SetLine

section PrintLine

theorem ofPrint_eq_ofParts : ofPrint = ofParts LinePart.ofPrint true := by
  have groups (line : Text) : printGroups? line = (LinePart.ways LinePart.ofPrint line).head? := by
    obtain ⟨before, after, unarrowed, rfl⟩ := exists_arrowed line
    rw [printGroups?_arrowed unarrowed]
    split
    next unseen => rw [LinePart.ofPrint_eq_nil unarrowed after unseen]; rfl
    next visible => rw [LinePart.head_ofPrint unarrowed after visible]
  rw [ofPrint, ofParts, funext groups]

theorem split_print_line (line : Text) :
    ofPrint = ofParts LinePart.ofPrint true ∧
      ('>' ∉ line → ofPrint.split line =
        if trim line = [] then [] else [.ofLine (trim line), .ofLine []]) ∧
      (∀ before after, '>' ∉ before → line = before ++ '>' :: after → ofPrint.split line =
        if trim before = [] then [] else [.ofLine (trim before), .ofLine (trim after)]) ∧
      (ofPrint.split line = [] ∨ ∃ text destination,
        ofPrint.split line = [.ofLine text, .ofLine destination] ∧ '>' ∉ text ∧
          destination.count '>' = line.count '>' - 1) := by
  refine ⟨ofPrint_eq_ofParts, fun absent => ?_, ?_, ?_⟩
  · have whole := split_arrowed absent none
    rwa [arrowed, List.append_nil] at whole
  · rintro before after absent rfl
    exact split_arrowed absent (some after)
  · obtain ⟨before, after, unarrowed, rfl⟩ := exists_arrowed line
    rw [split_arrowed unarrowed]
    split
    next => exact .inl rfl
    next =>
      have none : (trim before).count '>' = 0 :=
        (count_trim rfl before).trans (List.count_eq_zero.2 unarrowed)
      refine .inr ⟨_, _, rfl, List.count_eq_zero.1 none, ?_⟩
      rw [count_trim rfl, List.count_append, List.count_eq_zero.2 unarrowed]
      cases after with
      | none => rfl
      | some after => simp [arrowed]

theorem split_print_line_arrows :
    let line : Text := " a b > c > d\n"
    '>' ∉ " a b ".toList ∧ line = " a b ".toList ++ '>' :: " c > d\n".toList ∧
      ofPrint.split line = [.ofLine "a b", .ofLine "c > d"] := by
  intro line
  have unarrowed : '>' ∉ " a b ".toList := by decide
  have shape : line = " a b ".toList ++ '>' :: " c > d\n".toList := rfl
  obtain ⟨-, -, cut, -⟩ := split_print_line line
  exact ⟨unarrowed, shape, cut _ _ unarrowed shape⟩

end PrintLine

end LineGrammar

end Docspec
