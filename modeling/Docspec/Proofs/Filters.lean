import Docspec.Proofs.Copies
import Docspec.Proofs.Names

set_option autoImplicit false

namespace Docspec

open Text

namespace Placeholder

def filtering (n item : Text) : Text := ' ' :: (n ++ ' ' :: '|' :: ' ' :: item)

def filteredOf (n item : Text) : Text :=
  Markers.default.opening ++ (filtering n item ++ [' ']) ++ Markers.default.closing

theorem unmarked_filtering {n item : Text} (name : Markers.Unmarked n)
    (argument : Markers.Unmarked item) : Markers.Unmarked (filtering n item) := by
  have blank : Markers.Unmarked [' '] := by decide
  have bar : Markers.Unmarked [' ', '|', ' '] := by decide
  exact blank.append (name.append (bar.append argument))

theorem filteredOf_ne_nil (n item : Text) : filteredOf n item ≠ [] := by
  simp [filteredOf, Markers.default]

theorem trim_filteredOf (n item : Text) : trim (filteredOf n item) = filteredOf n item :=
  trim_append (a := Markers.default.opening) (b := Markers.default.closing) rfl rfl (by decide)
    (by decide) _

structure FilterText (t : Text) : Prop where
  nonempty : t ≠ []
  trimmed : trim t = t
  no_bar : '|' ∉ t
  no_backtick : backtick ∉ t
  no_opening : containsText Markers.default.opening t = false
  no_closing : containsText Markers.default.closing t = false

theorem FilterText.unmarked {t : Text} (written : FilterText t)
    (free : ∀ c ∈ t, Markers.isStandIn c = false) : Markers.Unmarked t := fun c member =>
  ⟨fun same => written.no_backtick (same ▸ member), free c member⟩

theorem Body.call?_name {n : Text} (named : isVariableName n = true) {t : Text} {c : Char}
    (apart : c ≠ '(') : Body.call? (n ++ ' ' :: c :: t) = none := by
  have rest : (n ++ ' ' :: c :: t).dropWhile isNameChar =
      n.dropWhile isNameChar ++ ' ' :: c :: t := by
    rw [List.dropWhile_append]
    cases n.dropWhile isNameChar <;> simp [show isNameChar ' ' = false from by decide]
  rw [call?, rest]
  cases shape : n.dropWhile isNameChar with
  | nil => simp [show isBlank ' ' = true from rfl, apart]
  | cons d r =>
    have inRest : d ∈ n.dropWhile isNameChar := by
      rw [shape]
      exact List.mem_cons_self
    have member : d ∈ n := (List.dropWhile_sublist _).subset inRest
    have taken := name_chars named d member
    have differ : d ≠ '(' := ne_of_isVariableChar taken (by decide)
    simp [isBlank_of_isVariableChar taken, differ]

theorem parse?_filtering {n item : Text} (named : isVariableName n = true)
    (written : FilterText item) (starts : ∀ c ∈ item.head?, isNameStart c = true) :
    ∃ b, Body.parse? (filtering n item ++ [' ']) = some b ∧ b.identifier = n ∧ b.filters = [item] ∧
      b.invalid = [] := by
  obtain ⟨c, r, shape, start⟩ := name_start named
  have content : trimStart (filtering n item ++ [' ']) =
      n ++ ' ' :: '|' :: ' ' :: (item ++ [' ']) := by
    have bare : isBlank c = false := name_no_blank named c (by simp [shape])
    simp [filtering, trimStart, shape, bare, show isBlank ' ' = true from rfl]
  have identifier : Body.takeIdentifier (n ++ ' ' :: '|' :: ' ' :: (item ++ [' '])) =
      (n, ' ' :: '|' :: ' ' :: (item ++ [' '])) := by
    have blank : isVariableChar ' ' = false := by decide
    rw [Body.takeIdentifier, Body.call?_name named (by decide),
      List.takeWhile_append_of_pos (name_chars named),
      List.dropWhile_append_of_pos (name_chars named)]
    simp [blank]
  have isFilter : Body.isFilter (' ' :: (item ++ [' '])) = true := by
    cases h : item with
    | nil => exact absurd h written.nonempty
    | cons d t =>
      have start : isNameStart d = true := starts d (by simp [h])
      have bare := isBlank_of_isVariableChar (isVariableChar_of_isNameStart start)
      simp [Body.isFilter, trimStart, bare, start, show isBlank ' ' = true from rfl]
  -- There is one bar, so what is behind it is the only filter and nothing is left over.
  have chain : Body.filterChain ('|' :: ' ' :: (item ++ [' '])) =
      ([' ' :: (item ++ [' '])], []) := by
    have single : splitAll '|' (' ' :: (item ++ [' '])) = [' ' :: (item ++ [' '])] :=
      splitAll_of_not_mem (by simp [written.no_bar])
    rw [Body.filterChain, splitAll, if_pos rfl, single]
    simp [isFilter]
  have trimmed : trim (' ' :: (item ++ [' '])) = item := by
    have both := trim_append_blank item (c := ' ') rfl
    rw [written.trimmed] at both
    exact both
  refine ⟨⟨n, [item], [], byteLength (filtering n item ++ [' '])⟩, ?_, rfl, rfl, rfl⟩
  rw [Body.parse?, content]
  simp only [shape, List.cons_append, start, if_true]
  rw [← List.cons_append, ← shape, identifier]
  simp only [show trimStart (' ' :: '|' :: ' ' :: (item ++ [' '])) = '|' :: ' ' :: (item ++ [' '])
    from rfl, chain, List.map_singleton, trimmed, trim_name named]
  rfl

theorem cut?_filtering {marker n item : Text} (noBlank : ' ' ∉ marker) (noBar : '|' ∉ marker)
    (name : cut? marker n = none) (argument : cut? marker item = none) :
    cut? marker (filtering n item) = none := by
  have empty : cut? marker [] = none := by
    have nonempty : marker ≠ [] := fun none => by
      rw [none] at argument
      cases item <;> simp [cut?, stripFront?] at argument
    simp [cut?, nonempty]
  have bar := cut?_join noBar empty (cut?_join noBlank empty argument)
  exact cut?_join noBlank empty (cut?_join noBlank name bar)

section Name

variable {n : Text} (named : isVariableName n = true)
include named

theorem cut?_opening_filtering {item : Text}
    (argument : cut? Markers.default.opening item = none) :
    cut? Markers.default.opening (filtering n item) = none :=
  cut?_filtering (by decide) (by decide)
    (cut?_eq_none_of_apart (by decide) (name_plain named).apart_opening) argument

theorem cut?_closing_filtering {item : Text}
    (argument : cut? Markers.default.closing item = none) :
    cut? Markers.default.closing (filtering n item) = none :=
  cut?_filtering (by decide) (by decide)
    (cut?_eq_none_of_apart (by decide) (name_plain named).apart_closing) argument

theorem nextSpan?_filteredOf {item : Text} (written : FilterText item) :
    Markers.default.nextSpan? (filteredOf n item) = some ⟨[], filtering n item ++ [' '], []⟩ := by
  have noOpening := cut?_opening_filtering named (cut?_of_containsText written.no_opening)
  have noClosing := cut?_closing_filtering named (cut?_of_containsText written.no_closing)
  have outer : cut? Markers.default.opening (filteredOf n item) =
      some ([], filtering n item ++ ' ' :: Markers.default.closing) := by
    rw [filteredOf, List.append_assoc, cut?_self, List.append_assoc]
    rfl
  have inner : cut? Markers.default.closing (filtering n item ++ ' ' :: Markers.default.closing) =
      some (filtering n item ++ [' '], []) := by
    have closing := cut?_self Markers.default.closing []
    rw [List.append_nil] at closing
    rw [cut?_append_break (by decide) noClosing, closing]
    rfl
  have none : cutLast? Markers.default.opening (filtering n item ++ [' ']) = none :=
    cutLast?_of_cut? (cut?_join (by decide) noOpening rfl)
  simp only [Markers.nextSpan?, outer, inner, none]

theorem interpolate_filteredOf {item : Text} (written : FilterText item)
    (starts : ∀ c ∈ item.head?, isNameStart c = true)
    (unmarked : Markers.Unmarked item) (r : Registry) (vars : Vars) :
    Engine.interpolate ⟨.default, r⟩ (filteredOf n item) vars =
      (Engine.resolve ⟨.default, r⟩ vars n).bind (r.applyFilter item) := by
  obtain ⟨b, parsed, identifier, filters, valid⟩ := parse?_filtering named written starts
  have opening : Markers.Unmarked Markers.default.opening := by decide
  have closing : Markers.Unmarked (' ' :: Markers.default.closing) := by decide
  have body := unmarked_filtering (name_plain named).unmarked unmarked
  have whole := (opening.append body).append closing
  rw [List.append_cons, List.append_assoc _ (filtering n item)] at whole
  rw [filteredOf, Engine.interpolate_span ⟨.default, r⟩ vars whole
    (nextSpan?_filteredOf named written) parsed, Engine.expand]
  simp only [valid, ne_eq, not_true_eq_false, if_false, identifier, filters]
  cases Engine.resolve ⟨.default, r⟩ vars n with
  | error err => rfl
  | ok value =>
    change (r.applyFilter item value).bind (r.applyFilters []) = r.applyFilter item value
    cases r.applyFilter item value <;> rfl

end Name

def replaceName : Text := "replace"

def replacement (pat image : Text) : Text := pat ++ ' ' :: '>' :: ' ' :: image

def replaceItem (pat image : Text) : Text := replaceName ++ ' ' :: replacement pat image

structure ReplaceText (t : Text) : Prop extends FilterText t where
  no_arrow : '>' ∉ t

theorem replacement_ne_nil (pat image : Text) : replacement pat image ≠ [] := by
  simp [replacement]

theorem not_mem_replaceItem {pat image : Text} {c : Char} (left : c ∉ pat) (right : c ∉ image)
    (usual : c ∉ replaceItem [] []) : c ∉ replaceItem pat image := by
  simp only [replaceItem, replacement, List.mem_append, List.mem_cons, List.not_mem_nil,
    not_or] at usual ⊢
  tauto

theorem unmarked_replaceItem {pat image : Text} (left : Markers.Unmarked pat)
    (right : Markers.Unmarked image) : Markers.Unmarked (replaceItem pat image) := by
  have name : Markers.Unmarked (replaceName ++ [' ']) := by decide
  have arrow : Markers.Unmarked [' ', '>', ' '] := by decide
  have whole := name.append (left.append (arrow.append right))
  rwa [List.append_assoc] at whole

theorem cut?_replaceItem {marker pat image : Text} (noBlank : ' ' ∉ marker) (noArrow : '>' ∉ marker)
    (name : cut? marker replaceName = none) (left : cut? marker pat = none)
    (right : cut? marker image = none) : cut? marker (replaceItem pat image) = none := by
  have empty : cut? marker [] = none := by
    have nonempty : marker ≠ [] := fun none => by
      rw [none] at name
      cases name
    simp [cut?, nonempty]
  have arrow := cut?_join noArrow empty (cut?_join noBlank empty right)
  exact cut?_join noBlank name (cut?_join noBlank left arrow)

def untilArrow (image : Text) : Text := trim (image.takeWhile (· ≠ '>'))

theorem untilArrow_eq_iff {image : Text} (trimmed : trim image = image) :
    untilArrow image = image ↔ '>' ∉ image := by
  constructor
  · intro whole inside
    have kept : '>' ∈ image.takeWhile (· ≠ '>') := by
      rwa [← mem_trim_iff rfl, ← untilArrow, whole]
    simpa using List.mem_takeWhile_imp kept
  · intro absent
    have whole : image.takeWhile (· ≠ '>') = image :=
      List.takeWhile_eq_self_iff.2 fun c member => by
        simpa using fun same : c = '>' => absent (same ▸ member)
    rw [untilArrow, whole, trimmed]

theorem replace_no_arrow {argument : Option Text} (absent : '>' ∉ argument.getD []) (t : Text) :
    replace t argument =
      .error ("expects `from > to` format, `" ++ argument.getD [] ++ "` passed instead") := by
  rw [replace, splitAll_of_not_mem absent]

theorem replace_arrow {a : Text} (absent : '>' ∉ a) (b t : Text) :
    replace t (some (a ++ '>' :: b)) = .ok (replaceAll (trim a) (untilArrow b) t) := by
  obtain ⟨rest, pieces⟩ := List.head?_eq_some_iff.1 (head?_splitAll '>' b)
  rw [replace, Option.getD_some, splitAll_append absent, pieces]
  rfl

section Arrow

variable {pat image : Text} (trimmed : trim pat = pat) (single : '>' ∉ pat)
include trimmed single

theorem replace_spaced {b : Text} (t : Text) :
    replace t (some (pat ++ ' ' :: '>' :: b)) = .ok (replaceAll pat (untilArrow b) t) := by
  have before : '>' ∉ pat ++ [' '] := by simp [single]
  have left : trim (pat ++ [' ']) = pat := (trim_append_blank pat rfl).trans trimmed
  rw [List.append_cons, replace_arrow before, left]

theorem replace_replacement (t : Text) :
    replace t (some (replacement pat image)) = .ok (replaceAll pat (untilArrow image) t) :=
  replace_spaced trimmed single t

theorem applyFilter_replace (visible : pat ≠ []) (trimmed' : trim image = image) (m : Moment)
    (value : Text) : (Registry.builtin m).applyFilter (replaceItem pat image) value =
      .ok (replaceAll pat (untilArrow image) value) := by
  have cut : splitOnce isBlank (replaceItem pat image) =
      some (replaceName, replacement pat image) :=
    splitOnce_append (forall_of_any rfl) rfl _
  have known : (Registry.builtin m).filter? replaceName = some replace := rfl
  obtain ⟨b, argument, same⟩ : ∃ b, trim (replacement pat image) = pat ++ ' ' :: '>' :: b ∧
      untilArrow b = untilArrow image := by
    by_cases empty : image = []
    next =>
      have shape : replacement pat image = pat ++ [' '] ++ ['>'] ++ [' '] := by
        simp [replacement, empty]
      refine ⟨[], ?_, by rw [empty]⟩
      rw [shape, trim_append_blank _ rfl, trim_append trimmed rfl visible (by decide)]
      simp
    next =>
      have joined := trim_append trimmed trimmed' visible empty [' ', '>', ' ']
      rw [List.append_assoc] at joined
      exact ⟨' ' :: image, joined, rfl⟩
  have given : trimmed? (replacement pat image) = some (pat ++ ' ' :: '>' :: b) := by
    rw [trimmed?_eq, argument, if_neg (by simp)]
  rw [Registry.applyFilter, cut]
  simp only [given, known, replace_spaced trimmed single, same]
  rfl

end Arrow

section Replace

variable {pat image : Text} (replaced : ReplaceText pat) (put : ReplaceText image)
include replaced put

theorem trim_replacement : trim (replacement pat image) = replacement pat image := by
  have joined := trim_append replaced.trimmed put.trimmed replaced.nonempty put.nonempty
    [' ', '>', ' ']
  rwa [List.append_assoc] at joined

theorem replaceItem_filterText : FilterText (replaceItem pat image) where
  nonempty := List.append_ne_nil_of_left_ne_nil (by decide) _
  trimmed := by
    have joined := trim_append (a := replaceName) rfl (trim_replacement replaced put) (by decide)
      (replacement_ne_nil pat image) [' ']
    rwa [List.append_assoc] at joined
  no_bar := not_mem_replaceItem replaced.no_bar put.no_bar (by decide)
  no_backtick := not_mem_replaceItem replaced.no_backtick put.no_backtick (by decide)
  no_opening := by
    rw [containsText, cut?_replaceItem (by decide) (by decide) rfl
      (cut?_of_containsText replaced.no_opening) (cut?_of_containsText put.no_opening)]
    rfl
  no_closing := by
    rw [containsText, cut?_replaceItem (by decide) (by decide) rfl
      (cut?_of_containsText replaced.no_closing) (cut?_of_containsText put.no_closing)]
    rfl

theorem applyFilter_replaceItem (m : Moment) (value : Text) :
    (Registry.builtin m).applyFilter (replaceItem pat image) value =
      .ok (replaceAll pat image value) := by
  have kept := (untilArrow_eq_iff put.trimmed).2 put.no_arrow
  rw [applyFilter_replace replaced.trimmed replaced.no_arrow replaced.nonempty put.trimmed, kept]

end Replace

theorem replace_cut_at_arrow {pat image : Text} (visible : pat ≠ []) (trimmed : trim pat = pat)
    (single : '>' ∉ pat) (trimmed' : trim image = image) (t : Text) :
    (∃ out, replace t (some (replacement pat image)) = .ok out ∧
        (∀ m, (Registry.builtin m).applyFilter (replaceItem pat image) t = .ok out) ∧
        Substituted [(pat, untilArrow image)] t out) ∧
      (untilArrow image = image ↔ '>' ∉ image) ∧
      ∀ argument : Option Text, '>' ∉ argument.getD [] → replace t argument =
        .error ("expects `from > to` format, `" ++ argument.getD [] ++ "` passed instead") :=
  ⟨⟨_, replace_replacement trimmed single t,
      fun m => applyFilter_replace trimmed single visible trimmed' m t,
      replaceAll_substituted visible _ t⟩,
    untilArrow_eq_iff trimmed', fun _ absent => replace_no_arrow absent t⟩

theorem replace_cut_at_second_arrow :
    let pat : Text := "a"
    let image : Text := "b > c"
    let value : Text := "banana"
    (pat ≠ [] ∧ trim pat = pat ∧ '>' ∉ pat ∧ trim image = image) ∧
      (∀ m, (Registry.builtin m).applyFilter (replaceItem pat image) value = .ok "bbnbnb") ∧
      untilArrow image ≠ image ∧
      replace value (some pat) =
        .error "expects `from > to` format, `a` passed instead" := by
  intro pat image value
  have visible : pat ≠ [] := by decide
  have trimmed : trim pat = pat := by decide
  have single : '>' ∉ pat := by decide
  have trimmed' : trim image = image := by decide
  obtain ⟨⟨out, replaced, filtered, -⟩, cut, refused⟩ :=
    replace_cut_at_arrow visible trimmed single trimmed' value
  have shown : replace value (some (replacement pat image)) = .ok "bbnbnb" := by rfl
  obtain rfl := Except.ok.inj (replaced.symm.trans shown)
  exact ⟨⟨visible, trimmed, single, trimmed'⟩, filtered, fun whole => cut.1 whole (by decide),
    refused (some pat) (by decide)⟩

end Placeholder

end Docspec
