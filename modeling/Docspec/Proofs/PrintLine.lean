import Docspec.Proofs.Filters
import Docspec.Proofs.ReadBack
import Docspec.Document.Compiler

set_option autoImplicit false

namespace Docspec

open Text Placeholder

namespace PrintCommand

def ofLine (written : Text) : Command :=
  CommandSpec.print.instantiate (CommandSpec.print.split written)

section Execute

variable {s : Session} {c : Context} {text destination t d : Text}

theorem execute_texts (first : s.engine.interpolate text c.vars = .ok t)
    (second : s.engine.interpolate destination c.vars = .ok d) :
    execute s [.ofLine text, .ofLine destination] c =
      ⟨c, s.output ++ [⟨t, if d.isEmpty then none else some d⟩], none⟩ := by
  simp only [execute_pair, printed, Argument.interpolateFor, Argument.interpolate,
    Argument.ofLine, first, second]
  rfl

theorem execute_refused (failed : (∃ err, s.engine.interpolate text c.vars = .error err) ∨
      ∃ err, s.engine.interpolate destination c.vars = .error err) :
    ∃ err, execute s [.ofLine text, .ofLine destination] c =
      .refused s c (.interpolation name err) := by
  simp only [execute_pair, printed, Argument.interpolateFor, Argument.interpolate,
    Argument.ofLine]
  cases first : s.engine.interpolate text c.vars with
  | error err => exact ⟨err, rfl⟩
  | ok t =>
    obtain ⟨err, second⟩ := failed.resolve_left (by simp [first])
    rw [second]
    exact ⟨err, rfl⟩

end Execute

theorem execute_ofLine (s : Session) (c : Context) {written : Text}
    (trimmed : trim written = written) (visible : written ≠ []) (uncut : '>' ∉ written) :
    ((ofLine written).execute s c).output = s.output ++
      match s.engine.interpolate written c.vars with
      | .ok shown => [⟨shown, none⟩]
      | .error _ => [] := by
  have arguments : (ofLine written).arguments = [.ofLine written, .ofLine []] := by
    have split := LineGrammar.split_print uncut (by rwa [trimmed])
    rwa [trimmed] at split
  change (execute s (ofLine written).arguments c).output = _
  rw [arguments]
  cases filled : s.engine.interpolate written c.vars with
  | ok shown =>
    have nothing : s.engine.interpolate [] c.vars = .ok [] :=
      s.engine.interpolate_of_no_span c.vars (by decide) s.engine.markers.nextSpan?_nil
    rw [execute_texts filled nothing]
    rfl
  | error err =>
    have refused : ∃ err, execute s [.ofLine written, .ofLine []] c = _ :=
      execute_refused (.inl ⟨err, filled⟩)
    obtain ⟨err', refused⟩ := refused
    rw [refused]
    exact (List.append_nil s.output).symm

end PrintCommand

theorem Engine.interpolate_standIn (e : Engine) (vars : Vars) {t : Text} {c : Char}
    (member : c ∈ t) (standIn : Markers.isStandIn c = true) :
    ∃ err, e.interpolate t vars = .error err := by
  have found : t.dropWhile (fun c => !Markers.isStandIn c) ≠ [] := fun none => by
    have free := List.dropWhile_eq_nil_iff.1 none c member
    simp [standIn] at free
  simp only [interpolate, List.span_eq_takeWhile_dropWhile]
  cases shape : t.dropWhile fun c => !Markers.isStandIn c with
  | nil => exact absurd shape found
  | cons d r => exact ⟨_, rfl⟩

theorem Argument.literalOf?_opening (t : Text) :
    Argument.literalOf? (Markers.default.opening ++ t) = none := by
  obtain ⟨r, shape⟩ : ∃ r, Markers.default.opening ++ t = '\x7b' :: r := ⟨_, rfl⟩
  have sign : Decimal.takeSign ('\x7b' :: r) = (false, '\x7b' :: r) := rfl
  have noInt : Decimal.readWord? ('\x7b' :: r) = none := by
    have digit : isDigit '\x7b' = false := by decide
    simp [Decimal.readWord?, Decimal.readInt?, sign, digits?, digit]
  have noDouble : Decimal.readDouble? ('\x7b' :: r) = none := by
    have lower : asciiLower ('\x7b' :: r) = '\x7b' :: asciiLower r := rfl
    have whole : ('\x7b' :: r).takeWhile isDigit = [] := rfl
    have rest : ('\x7b' :: r).dropWhile isDigit = '\x7b' :: r := rfl
    rw [Decimal.readDouble?, sign]
    simp only [Decimal.readUnsigned?, lower, whole, rest]
    rfl
  rw [shape, literalOf?, noInt, noDouble]
  rfl

namespace Compiler

theorem command_line {catalog : Catalog} {spec : CommandSpec} {id rest : Text}
    (known : catalog.resolve? id = some spec) (word : id ≠ []) (solid : ∀ c ∈ id, isBlank c = false)
    {quoted : List Token} (said : paragraphs quoted = id ++ ' ' :: rest)
    (visible : trimEnd rest ≠ []) (source : Text) (line : Nat) (after : List Token) :
    command catalog source line quoted after =
      .ok (spec.instantiate (spec.split (trimEnd rest) ++ fences after)) := by
  have text : trim (paragraphs quoted) = id ++ ' ' :: trimEnd rest := by
    rw [said, trim_word word solid, trimEnd_cons, if_neg fun both => visible both.1]
  have noSpace : ∀ c ∈ id, decide (c = ' ') = false := fun c member => by
    refine decide_eq_false fun same => ?_
    have bare := solid c member
    rw [same] at bare
    cases bare
  have called : splitOnce (· = ' ') (id ++ ' ' :: trimEnd rest) = some (id, trimEnd rest) :=
    splitOnce_append noSpace rfl _
  rw [command, text, called]
  simp only [Option.getD_some, known]

theorem command_print {tok : Token} {written : Text}
    (said : tok.flatText = PrintCommand.name ++ ' ' :: written) (trimmed : trim written = written)
    (visible : written ≠ []) (source : Text) (line : Nat) :
    command .builtin source line [tok] [] = .ok (PrintCommand.ofLine written) := by
  have whole : trimEnd written = written := trimEnd_of_trim trimmed
  have alone : paragraphs [tok] = PrintCommand.name ++ ' ' :: written := by
    have filled : isAllBlank (PrintCommand.name ++ ' ' :: written) = false := rfl
    simp [paragraphs, said, filled, joinWith]
  have known : Catalog.builtin.resolve? PrintCommand.name = some .print := rfl
  have none : (fences [] : List Argument) = [] := rfl
  rw [command_line known (by decide) (forall_of_any rfl) alone (by rwa [whole]), whole, none,
    List.append_nil]
  rfl

end Compiler

namespace Placeholder

def beforeArrow (n pat : Text) : Text :=
  Markers.default.opening ++ filtering n (replaceName ++ ' ' :: pat)

def afterArrow (image : Text) : Text := image ++ ' ' :: Markers.default.closing

theorem filteredOf_replaceItem (n pat image : Text) :
    filteredOf n (replaceItem pat image) =
      (beforeArrow n pat ++ [' ']) ++ '>' :: ' ' :: afterArrow image := by
  simp [filteredOf, filtering, replaceItem, replacement, beforeArrow, afterArrow]

section Arrow

variable {n pat image : Text} (named : isVariableName n = true) (replaced : ReplaceText pat)
  (put : ReplaceText image)

include replaced in
theorem trim_beforeArrow : trim (beforeArrow n pat) = beforeArrow n pat := by
  have joined := trim_append (a := Markers.default.opening) rfl replaced.trimmed (by decide)
    replaced.nonempty (' ' :: (n ++ [' ', '|', ' '] ++ replaceName ++ [' ']))
  simpa [beforeArrow, filtering] using joined

include put in
theorem trim_afterArrow : trim (afterArrow image) = afterArrow image := by
  have joined := trim_append (b := Markers.default.closing) put.trimmed rfl put.nonempty (by decide)
    [' ']
  rwa [List.append_assoc] at joined

include named replaced in
theorem split_print_replaceItem (put : ReplaceText image) :
    LineGrammar.ofPrint.split (filteredOf n (replaceItem pat image)) =
      [.ofLine (beforeArrow n pat), .ofLine (afterArrow image)] := by
  have absent : '>' ∉ beforeArrow n pat ++ [' '] := by
    have inName : '>' ∉ n := name_not_mem named (by decide)
    have inWord : '>' ∉ replaceName := by decide
    simp [beforeArrow, filtering, Markers.default, inName, inWord, replaced.no_arrow]
  have left : trim (beforeArrow n pat ++ [' ']) = beforeArrow n pat :=
    (trim_append_blank _ rfl).trans (trim_beforeArrow replaced)
  have right : trim (' ' :: afterArrow image) = afterArrow image := trim_afterArrow put
  have visible : beforeArrow n pat ≠ [] := List.append_ne_nil_of_left_ne_nil (by decide) _
  rw [filteredOf_replaceItem, LineGrammar.split_print_arrow absent (by rwa [left]), left, right]

include named in
theorem interpolate_beforeArrow (replaced : ReplaceText pat)
    (free : ∀ c ∈ pat, Markers.isStandIn c = false) (r : Registry) (vars : Vars) :
    Engine.interpolate ⟨.default, r⟩ (beforeArrow n pat) vars = .ok (beforeArrow n pat) := by
  have unmarked : Markers.Unmarked (beforeArrow n pat) := by
    have opening : Markers.Unmarked Markers.default.opening := by decide
    have word : Markers.Unmarked (replaceName ++ [' ']) := by decide
    have item := word.append (replaced.unmarked free)
    rw [List.append_assoc] at item
    exact opening.append (unmarked_filtering (name_plain named).unmarked item)
  have unclosed : Markers.default.nextSpan? (beforeArrow n pat) = none := by
    have argument : cut? Markers.default.closing (replaceName ++ ' ' :: pat) = none :=
      cut?_join (by decide) rfl (cut?_of_containsText replaced.no_closing)
    simp only [Markers.nextSpan?, beforeArrow, cut?_self, cut?_closing_filtering named argument]
  exact Engine.interpolate_of_no_span ⟨.default, r⟩ vars unmarked unclosed

theorem interpolate_afterArrow (put : ReplaceText image)
    (free : ∀ c ∈ image, Markers.isStandIn c = false) (r : Registry) (vars : Vars) :
    Engine.interpolate ⟨.default, r⟩ (afterArrow image) vars = .ok (afterArrow image) := by
  have closing : Markers.Unmarked (' ' :: Markers.default.closing) := by decide
  have unopened : Markers.default.nextSpan? (afterArrow image) = none := by
    have missing : cut? Markers.default.opening (afterArrow image) = none :=
      cut?_join (by decide) (cut?_of_containsText put.no_opening) rfl
    simp only [Markers.nextSpan?, missing]
  exact Engine.interpolate_of_no_span ⟨.default, r⟩ vars ((put.unmarked free).append closing)
    unopened

end Arrow

end Placeholder

section Arrow

variable {n pat image : Text} (named : isVariableName n = true) (replaced : ReplaceText pat)
  (put : ReplaceText image)
include named replaced put

theorem arguments_replaceItem :
    (PrintCommand.ofLine (filteredOf n (replaceItem pat image))).arguments =
      [.ofLine (beforeArrow n pat), .ofLine (afterArrow image)] :=
  split_print_replaceItem named replaced put

theorem execute_print_replaceItem (free : ∀ c ∈ pat ++ image, Markers.isStandIn c = false)
    (r : Registry) (out : List Printed) (fault : Text → Text) (c : Context) :
    (PrintCommand.ofLine (filteredOf n (replaceItem pat image))).execute
        ⟨⟨.default, r⟩, out, fault⟩ c =
      ⟨c, out ++ [⟨beforeArrow n pat, some (afterArrow image)⟩], none⟩ := by
  have first := interpolate_beforeArrow named replaced
    (fun c member => free c (List.mem_append_left _ member)) r c.vars
  have second := interpolate_afterArrow put
    (fun c member => free c (List.mem_append_right _ member)) r c.vars
  have filled : (afterArrow image).isEmpty = false := by
    simp [afterArrow]
  change PrintCommand.execute _
    (PrintCommand.ofLine (filteredOf n (replaceItem pat image))).arguments c = _
  rw [arguments_replaceItem named replaced put]
  rw [PrintCommand.execute_texts (s := ⟨⟨.default, r⟩, out, fault⟩) first second, filled]
  rfl

theorem execute_print_replaceItem_refused
    (reserved : ∃ c ∈ pat ++ image, Markers.isStandIn c = true) (s : Session) (c : Context) :
    ∃ err, (PrintCommand.ofLine (filteredOf n (replaceItem pat image))).execute s c =
      .refused s c (.interpolation PrintCommand.name err) := by
  -- The cut leaves the reserved character in one of the two arguments, and either is filled in.
  obtain ⟨ch, member, standIn⟩ := reserved
  change ∃ err, PrintCommand.execute _
    (PrintCommand.ofLine (filteredOf n (replaceItem pat image))).arguments c = _
  rw [arguments_replaceItem named replaced put]
  apply PrintCommand.execute_refused
  rcases List.mem_append.1 member with inPattern | inImage
  · refine .inl (s.engine.interpolate_standIn c.vars (c := ch) ?_ standIn)
    simp [beforeArrow, filtering, inPattern]
  · refine .inr (s.engine.interpolate_standIn c.vars (c := ch) ?_ standIn)
    simp [afterArrow, inImage]

theorem interpolate_replaceItem (free : ∀ c ∈ pat ++ image, Markers.isStandIn c = false)
    (whole : '.' ∉ n) (m : Moment) {vars : Vars} {v : Value}
    (bound : Bindings.get? n vars = some v) :
    (Engine.builtin m).interpolate (filteredOf n (replaceItem pat image)) vars =
      .ok (replaceAll pat image v.display) := by
  have starts : ∀ c ∈ (replaceItem pat image).head?, isNameStart c = true := by
    intro c first
    obtain rfl : 'r' = c := Option.some.inj first
    rfl
  have unmarked : Markers.Unmarked (replaceItem pat image) :=
    unmarked_replaceItem (replaced.unmarked fun c member => free c (List.mem_append_left _ member))
      (put.unmarked fun c member => free c (List.mem_append_right _ member))
  have resolved := resolve_name named whole (Engine.builtin m) vars
  rw [bound] at resolved
  have filled := interpolate_filteredOf named (replaceItem_filterText replaced put) starts unmarked
    (.builtin m) vars
  rw [Engine.builtin, filled, ← Engine.builtin, resolved]
  exact applyFilter_replaceItem replaced put m v.display

theorem execute_set_replaceItem (free : ∀ c ∈ pat ++ image, Markers.isStandIn c = false)
    (whole : '.' ∉ n) (m : Moment) (out : List Printed) (fault : Text → Text) {c : Context}
    {v : Value} (bound : c.get? n = some v) {k : Text} (target : isVariableName k = true) :
    (SetCommand.ofLine k (filteredOf n (replaceItem pat image))).execute
        ⟨.builtin m, out, fault⟩ c =
      .done ⟨.builtin m, out, fault⟩
        (c.set (boundName k) (.str (replaceAll pat image v.display))) := by
  have parsed : (Argument.ofLine (filteredOf n (replaceItem pat image))).parse (.builtin m) c =
      .ok (.str (replaceAll pat image v.display)) := by
    have text : (Argument.ofLine (filteredOf n (replaceItem pat image))).literal? = none := by
      have opened := Argument.literalOf?_opening
        ((filtering n (replaceItem pat image) ++ [' ']) ++ Markers.default.closing)
      rwa [← List.append_assoc] at opened
    have filled :
        (Argument.ofLine (filteredOf n (replaceItem pat image))).interpolate (.builtin m) c =
          .ok (replaceAll pat image v.display) :=
      interpolate_replaceItem named replaced put free whole m bound
    rw [Argument.parse, text, filled]
    rfl
  have executed :=
    execute_set target (.builtin m) out fault c (filteredOf n (replaceItem pat image))
  rw [if_neg (filteredOf_ne_nil _ _), trim_filteredOf, ← Engine.builtin, parsed] at executed
  exact executed

theorem print_cut_at_arrow (m : Moment) (out : List Printed) (fault : Text → Text) (c : Context)
    (source : Text) (line : Nat) :
    let s : Session := ⟨.builtin m, out, fault⟩
    let written := filteredOf n (replaceItem pat image)
    let printed := (PrintCommand.ofLine written).execute s c
    Compiler.command .builtin source line
          [.ofText (PrintCommand.name ++ ' ' :: written) line] [] =
        .ok (PrintCommand.ofLine written) ∧
      (PrintCommand.ofLine written).arguments =
        [.ofLine (beforeArrow n pat), .ofLine (afterArrow image)] ∧
      ((∃ ch ∈ pat ++ image, Markers.isStandIn ch = true) →
        ∃ err, printed = .refused s c (.interpolation PrintCommand.name err)) ∧
      ((∀ ch ∈ pat ++ image, Markers.isStandIn ch = false) →
        printed = ⟨c, out ++ [⟨beforeArrow n pat, some (afterArrow image)⟩], none⟩ ∧
        ∀ v, '.' ∉ n → c.get? n = some v →
          PrintCommand.execute s [.ofLine written, .ofLine []] c =
            ⟨c, out ++ [⟨replaceAll pat image v.display, none⟩], none⟩ ∧
          ∀ k, isVariableName k = true → IsReadBack k →
            let bound := (SetCommand.ofLine k written).execute s c
            bound.error = none ∧ bound.output = out ∧
              (PrintCommand.ofName k).execute s bound.context =
                ⟨bound.context, out ++ [⟨replaceAll pat image v.display, none⟩], none⟩) := by
  intro s written printed
  refine ⟨Compiler.command_print rfl (trim_filteredOf _ _) (filteredOf_ne_nil _ _) source line,
    arguments_replaceItem named replaced put,
    fun reserved => execute_print_replaceItem_refused named replaced put reserved s c,
    fun free => ⟨execute_print_replaceItem named replaced put free _ out fault c,
      fun v whole value => ⟨?_, ?_⟩⟩⟩
  · have nothing : (Engine.builtin m).interpolate [] c.vars = .ok [] :=
      Engine.interpolate_of_no_span _ c.vars (by decide) (Markers.nextSpan?_nil _)
    exact PrintCommand.execute_texts (s := s)
      (interpolate_replaceItem named replaced put free whole m value) nothing
  · intro k target own bound
    have executed : bound = .done s (c.set (boundName k) (.str (replaceAll pat image v.display))) :=
      execute_set_replaceItem named replaced put free whole m out fault value target
    have shown := execute_print target (.builtin m) out fault bound.context
    have resolved := resolve_bound target (.builtin m) c (.str (replaceAll pat image v.display)) own
    rw [executed] at shown ⊢
    rw [Outcome.done, resolved] at shown
    exact ⟨rfl, rfl, shown⟩

end Arrow

section Banana

def banana : Context := Context.empty.set "word" (.str "banana")

theorem replaceText_a : ReplaceText "a" :=
  ⟨⟨by decide, rfl, by decide, by decide, rfl, rfl⟩, by decide⟩

theorem replaceText_e : ReplaceText "e" :=
  ⟨⟨by decide, rfl, by decide, by decide, rfl, rfl⟩, by decide⟩

theorem print_cut_at_arrow_banana :
    let s : Session := ⟨.builtin ⟨0, 0⟩, [⟨"before", none⟩], id⟩
    let written : Text := "\x7b\x7b word | replace a > e \x7d\x7d"
    isVariableName "word".toList = true ∧ ReplaceText "a" ∧ ReplaceText "e" ∧
      (PrintCommand.ofLine written).execute s banana =
        ⟨banana, [⟨"before", none⟩, ⟨"\x7b\x7b word | replace a", some "e \x7d\x7d"⟩], none⟩ ∧
      PrintCommand.execute s [.ofLine written, .ofLine []] banana =
        ⟨banana, [⟨"before", none⟩, ⟨"benene", none⟩], none⟩ := by
  have named : isVariableName "word".toList = true := by decide
  obtain ⟨-, -, -, whole⟩ := print_cut_at_arrow named replaceText_a replaceText_e ⟨0, 0⟩
    [⟨"before", none⟩] id banana Compiler.unnamed 1
  obtain ⟨printed, given⟩ := whole (forall_of_any rfl)
  exact ⟨named, replaceText_a, replaceText_e, printed, (given _ (by decide) rfl).1⟩

theorem replaceText_standIn : ReplaceText [Markers.openingStandIn] :=
  ⟨⟨by decide, rfl, by decide, by decide, rfl, rfl⟩, by decide⟩

theorem print_not_replaced :
    let s := Session.new (.builtin ⟨0, 0⟩) id
    let line (pat : Text) : Text := filteredOf "word" (replaceItem pat "e")
    let printed (pat : Text) := ((PrintCommand.ofLine (line pat)).execute s banana).output
    isVariableName "word".toList = true ∧ banana.get? "word" = some (.str "banana") ∧
      ReplaceText "a" ∧ ReplaceText [Markers.openingStandIn] ∧ ReplaceText "e" ∧
      line "a" = "\x7b\x7b word | replace a > e \x7d\x7d".toList ∧
      printed "a" = [⟨"\x7b\x7b word | replace a", some "e \x7d\x7d"⟩] ∧
      printed "a" ≠ [⟨replaceAll "a" "e" "banana", none⟩] ∧
      printed [Markers.openingStandIn] = [] := by
  intro s line printed
  have named : isVariableName "word".toList = true := by decide
  have cut : printed "a" = [⟨"\x7b\x7b word | replace a", some "e \x7d\x7d"⟩] :=
    congrArg Outcome.output
      (execute_print_replaceItem named replaceText_a replaceText_e (forall_of_any rfl)
        (.builtin ⟨0, 0⟩) [] id banana)
  have none : printed [Markers.openingStandIn] = [] := by
    obtain ⟨err, refused⟩ := execute_print_replaceItem_refused named replaceText_standIn
      replaceText_e ⟨_, List.mem_cons_self, by decide⟩ s banana
    exact congrArg Outcome.output refused
  have differ : printed "a" ≠ [⟨replaceAll "a" "e" "banana", Option.none⟩] := by
    rw [cut]
    decide
  exact ⟨named, rfl, replaceText_a, replaceText_standIn, replaceText_e, rfl, cut, differ, none⟩

end Banana

end Docspec
