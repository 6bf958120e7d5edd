import Docspec.Proofs.LineGrammars

set_option autoImplicit false

namespace Docspec

open Text Placeholder

/-- The name a `set` binds, which for the word of a number is the number as it is shown. -/
def boundName (n : Text) : Text :=
  if n = "nan".toList then "NaN" else if n = "infinity".toList then "inf" else n

def IsReadBack (n : Text) : Prop := '.' ∉ n ∧ n ≠ "nan".toList ∧ n ≠ "infinity".toList

def SetCommand.ofLine (n v : Text) : Command :=
  CommandSpec.set.instantiate (CommandSpec.set.split (n ++ ' ' :: v))

def PrintCommand.ofName (n : Text) : Command :=
  CommandSpec.print.instantiate (CommandSpec.print.split (placeholderOf n))

theorem parse_bare_name {n : Text} (named : isVariableName n = true) (e : Engine)
    (bare : e.markers.nextSpan? n = none) (c : Context) :
    ∃ u, (Argument.ofLine n).parse e c = .ok u ∧ u.display = boundName n := by
  have literal : (Argument.ofLine n).literal? = Argument.literalOf? n := rfl
  rw [Argument.parse, literal, Argument.literalOf?_name named]
  by_cases isTrue : n = "true".toList
  next =>
    subst isTrue
    exact ⟨.bool true, rfl, rfl⟩
  by_cases isFalse : n = "false".toList
  next =>
    subst isFalse
    exact ⟨.bool false, rfl, rfl⟩
  by_cases isInf : n = "inf".toList
  next =>
    subst isInf
    exact ⟨.float (.infinite false), rfl, rfl⟩
  by_cases isInfinity : n = "infinity".toList
  next =>
    subst isInfinity
    exact ⟨.float (.infinite false), rfl, rfl⟩
  by_cases isNan : n = "nan".toList
  next =>
    subst isNan
    exact ⟨.float .nan, rfl, rfl⟩
  have interpolated : (Argument.ofLine n).interpolate e c = .ok n :=
    interpolate_bare_name named e bare c.vars
  refine ⟨.str n, ?_, ?_⟩
  · rw [if_neg isTrue, if_neg isFalse, if_neg (not_or.2 ⟨isInf, isInfinity⟩), if_neg isNan]
    change ((Argument.ofLine n).interpolate e c).map Value.str = _
    rw [interpolated]
    rfl
  · rw [boundName, if_neg isNan, if_neg isInfinity]
    rfl

section ReadBack

variable {n : Text} (named : isVariableName n = true) (r : Registry) (out : List Printed)
  (fault : Text → Text) (c : Context)
include named

theorem parse_name :
    ∃ u, (Argument.ofLine n).parse ⟨.default, r⟩ c = .ok u ∧ u.display = boundName n :=
  parse_bare_name named ⟨.default, r⟩ (nextSpan?_name named) c

theorem execute_set (v : Text) :
    (SetCommand.ofLine n v).execute ⟨⟨.default, r⟩, out, fault⟩ c =
      if v = [] then .refused ⟨⟨.default, r⟩, out, fault⟩ c (.arity SetCommand.name 2 1)
      else
        match (Argument.ofLine (trim v)).parse ⟨.default, r⟩ c with
        | .ok w => .done ⟨⟨.default, r⟩, out, fault⟩ (c.set (boundName n) w)
        | .error err =>
          .refused ⟨⟨.default, r⟩, out, fault⟩ c (.interpolation SetCommand.name err) := by
  -- The target is an argument too, so what is bound is the text its own value is shown as.
  obtain ⟨u, parsed, shown⟩ := parse_name named r c
  have arguments : CommandSpec.set.split (n ++ ' ' :: v) = _ := LineGrammar.split_set named v
  rw [SetCommand.ofLine, arguments]
  by_cases empty : v = []
  next =>
    rw [if_pos empty, if_pos empty]
    rfl
  next =>
    rw [if_neg empty, if_neg empty]
    have target : (Argument.ofLine n).parseFor SetCommand.name ⟨.default, r⟩ c = .ok u := by
      rw [Argument.parseFor, parsed]
      rfl
    change SetCommand.execute _ [_, _] c = _
    have value : SetCommand.bound ⟨⟨.default, r⟩, out, fault⟩ c (.ofLine n) (.ofLine (trim v)) =
        ((Argument.ofLine (trim v)).parseFor SetCommand.name ⟨.default, r⟩ c).map fun w =>
          c.set (boundName n) w := by
      rw [SetCommand.bound, target, ← shown]
      rfl
    simp only [SetCommand.execute_pair, value, Argument.parseFor]
    cases (Argument.ofLine (trim v)).parse ⟨.default, r⟩ c <;> rfl

theorem execute_print :
    (PrintCommand.ofName n).execute ⟨⟨.default, r⟩, out, fault⟩ c =
      match Engine.resolve ⟨.default, r⟩ c.vars n with
      | .ok t => ⟨c, out ++ [⟨t, none⟩], none⟩
      | .error err =>
        .refused ⟨⟨.default, r⟩, out, fault⟩ c (.interpolation PrintCommand.name err) := by
  have arguments : CommandSpec.print.split (placeholderOf n) =
      [.ofLine (placeholderOf n), .ofLine []] :=
    LineGrammar.split_print_placeholderOf named
  have text : (Argument.ofLine (placeholderOf n)).interpolate ⟨.default, r⟩ c =
      Engine.resolve ⟨.default, r⟩ c.vars n :=
    interpolate_placeholderOf named r c.vars
  have destination : (Argument.ofLine []).interpolate ⟨.default, r⟩ c = .ok [] :=
    Segment.interpolate_text (e := ⟨.default, r⟩) (s := .literal []) default_no_standIn
      fun _ member => absurd member List.not_mem_nil
  rw [PrintCommand.ofName, arguments]
  change PrintCommand.execute _ [_, _] c = _
  simp only [PrintCommand.execute_pair, PrintCommand.printed, Argument.interpolateFor, text,
    destination]
  cases Engine.resolve ⟨.default, r⟩ c.vars n <;> rfl

theorem resolve_ok (vars : Vars) : ∃ t, Engine.resolve ⟨.default, r⟩ vars n = .ok t := by
  by_cases dotted : '.' ∈ n
  next =>
    rw [Engine.resolve, if_pos dotted]
    split <;> exact ⟨_, rfl⟩
  next => exact ⟨_, resolve_name named dotted _ vars⟩

theorem resolve_bound (w : Value) (own : IsReadBack n) :
    Engine.resolve ⟨.default, r⟩ (c.set (boundName n) w).vars n = .ok w.display := by
  obtain ⟨whole, notNan, notInfinity⟩ := own
  rw [resolve_name named whole, boundName, if_neg notNan, if_neg notInfinity]
  simp [Context.set]

theorem resolve_unbound (w : Value) (other : ¬ IsReadBack n) :
    Engine.resolve ⟨.default, r⟩ (c.set (boundName n) w).vars n =
      Engine.resolve ⟨.default, r⟩ c.vars n := by
  have apart (whole : '.' ∉ n) (differ : n ≠ boundName n) :
      Engine.resolve ⟨.default, r⟩ (c.set (boundName n) w).vars n =
        Engine.resolve ⟨.default, r⟩ c.vars n := by
    rw [resolve_name named whole, resolve_name named whole, Context.set, Bindings.get?_insert,
      if_neg differ]
  -- A name that is not read back has a dot, and is looked up by its first part, or it is bound as
  -- another word.
  by_cases dotted : '.' ∈ n
  next =>
    have notNan : n ≠ "nan".toList := fun same => absurd (same ▸ dotted) (by decide)
    have notInfinity : n ≠ "infinity".toList := fun same => absurd (same ▸ dotted) (by decide)
    rw [boundName, if_neg notNan, if_neg notInfinity]
    exact resolve_dotted_insert dotted _ c.vars w
  next =>
    by_cases isNan : n = "nan".toList
    next => exact apart dotted (by subst isNan; decide)
    by_cases isInfinity : n = "infinity".toList
    next => exact apart dotted (by subst isInfinity; decide)
    exact absurd ⟨dotted, isNan, isInfinity⟩ other

theorem execute_set_ok {v : Text}
    (succeeds : ((SetCommand.ofLine n v).execute ⟨⟨.default, r⟩, out, fault⟩ c).error = none) :
    ∃ w, (Argument.ofLine (trim v)).parse ⟨.default, r⟩ c = .ok w ∧
      (SetCommand.ofLine n v).execute ⟨⟨.default, r⟩, out, fault⟩ c =
        .done ⟨⟨.default, r⟩, out, fault⟩ (c.set (boundName n) w) := by
  rw [execute_set named r out fault c v] at succeeds ⊢
  by_cases empty : v = []
  next =>
    rw [if_pos empty] at succeeds
    exact absurd succeeds (by simp [Outcome.refused])
  next =>
    rw [if_neg empty] at succeeds ⊢
    cases parsed : (Argument.ofLine (trim v)).parse ⟨.default, r⟩ c with
    | ok w => exact ⟨w, rfl, rfl⟩
    | error err =>
      rw [parsed] at succeeds
      exact absurd succeeds (by simp [Outcome.refused])

theorem set_read_back {v : Text}
    (succeeds : ((SetCommand.ofLine n v).execute ⟨⟨.default, r⟩, out, fault⟩ c).error = none) :
    let after := ((SetCommand.ofLine n v).execute ⟨⟨.default, r⟩, out, fault⟩ c).context
    let shown := (PrintCommand.ofName n).execute ⟨⟨.default, r⟩, out, fault⟩ after
    ∃ w, (Argument.ofLine (trim v)).parse ⟨.default, r⟩ c = .ok w ∧
      after = c.set (boundName n) w ∧ shown.error = none ∧
      (IsReadBack n → shown.output = out ++ [⟨w.display, none⟩]) ∧
      (¬ IsReadBack n → shown.output =
        ((PrintCommand.ofName n).execute ⟨⟨.default, r⟩, out, fault⟩ c).output) := by
  obtain ⟨w, parsed, executed⟩ := execute_set_ok named r out fault c succeeds
  intro after shown
  have bound : after = c.set (boundName n) w := by
    simp only [after, executed]
    rfl
  have print : shown = _ := execute_print named r out fault after
  refine ⟨w, parsed, bound, ?_, fun own => ?_, fun other => ?_⟩
  · obtain ⟨t, resolved⟩ := resolve_ok named r after.vars
    rw [print, resolved]
  · rw [print, bound, resolve_bound named r c w own]
  · rw [print, execute_print named r out fault c, bound, resolve_unbound named r c w other]
    cases Engine.resolve ⟨.default, r⟩ c.vars n <;> rfl

end ReadBack

theorem set_read_back_word :
    let s : Session := ⟨⟨.default, .empty⟩, [⟨"before", none⟩], id⟩
    let c := ((SetCommand.ofLine "key_1" "5").execute s .empty).context
    isVariableName "key_1".toList = true ∧
      ((SetCommand.ofLine "key_1" "5").execute s .empty).error = none ∧
      IsReadBack "key_1".toList ∧
      ((PrintCommand.ofName "key_1").execute s c).output = [⟨"before", none⟩, ⟨"5", none⟩] := by
  intro s c
  have named : isVariableName "key_1".toList = true := by decide
  have own : IsReadBack "key_1".toList := by
    refine ⟨?_, ?_, ?_⟩ <;> decide
  have succeeds : ((SetCommand.ofLine "key_1" "5").execute s .empty).error = none := by
    rw [execute_set named]
    rfl
  obtain ⟨w, parsed, -, -, shown, -⟩ := set_read_back named _ _ _ _ succeeds
  obtain rfl : Value.int 5 = w := Except.ok.inj parsed
  exact ⟨named, succeeds, own, shown own⟩

theorem set_not_read_back :
    let s := Session.new ⟨.default, .empty⟩ id
    let dotted := (SetCommand.ofLine "a.b" "5").execute s .empty
    let word := (SetCommand.ofLine "nan" "5").execute s .empty
    (isVariableName "a.b".toList = true ∧ dotted.error = none ∧
      dotted.context = Context.empty.set "a.b" (.int 5) ∧
      ((PrintCommand.ofName "a.b").execute s dotted.context).output = [⟨[], none⟩]) ∧
    isVariableName "nan".toList = true ∧ word.error = none ∧
      word.context = Context.empty.set "NaN" (.int 5) ∧
      ((PrintCommand.ofName "nan").execute s word.context).output = [⟨[], none⟩] := by
  have named : isVariableName "a.b".toList = true := by decide
  have named' : isVariableName "nan".toList = true := by decide
  intro s dotted word
  have bound : dotted = .done s (Context.empty.set "a.b" (.int 5)) :=
    execute_set named .empty [] id .empty "5"
  have bound' : word = .done s (Context.empty.set "NaN" (.int 5)) :=
    execute_set named' .empty [] id .empty "5"
  have shown (n : Text) (named : isVariableName n = true) (c : Context) :
      (PrintCommand.ofName n).execute s c = _ := execute_print named .empty [] id c
  refine ⟨⟨named, by rw [bound]; rfl, by rw [bound]; rfl, ?_⟩, named', by rw [bound']; rfl,
    by rw [bound']; rfl, ?_⟩
  · rw [bound, shown _ named]
    rfl
  · rw [bound', shown _ named']
    rfl

end Docspec
