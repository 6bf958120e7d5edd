import Docspec.Proofs.Atomicity
import Docspec.Proofs.PrintLine

set_option autoImplicit false

namespace Docspec

open Text Placeholder

namespace Compiler

section Set

variable {n v : Text} (named : isVariableName n = true) {quoted : List Token}
  (said : paragraphs quoted = SetCommand.name ++ ' ' :: (n ++ ' ' :: v))
include named said

theorem command_set (source : Text) (line : Nat) (after : List Token) :
    command .builtin source line quoted after =
      .ok (CommandSpec.set.instantiate ((if trimEnd v = [] then [.ofLine n]
        else [.ofLine n, .ofLine (trim v)]) ++ fences after)) := by
  have visible : n ≠ [] := by
    rintro rfl
    cases named
  have whole := trimEnd_word visible (name_no_blank named) (' ' :: v)
  have known : Catalog.builtin.resolve? SetCommand.name = some .set := rfl
  rw [command_line known (by decide) (forall_of_any rfl) said (by simp [whole, visible]), whole,
    trimEnd_cons]
  by_cases blank : trimEnd v = []
  next =>
    have own : CommandSpec.set.split n = [.ofLine n] := LineGrammar.split_set_name named
    rw [if_pos ⟨blank, rfl⟩, if_pos blank, List.append_nil, own]
  next =>
    have own : CommandSpec.set.split (n ++ ' ' :: trimEnd v) = _ :=
      LineGrammar.split_set named (trimEnd v)
    rw [if_neg fun both => blank both.1, if_neg blank, own, if_neg blank, trim_trimEnd]

end Set

end Compiler

theorem SetCommand.execute_plain {s : Session} {c : Context} {target value : Argument}
    (plain : value.isStructured = false)
    (succeeds : (execute s [target, value] c).error = none) :
    ∃ u w, target.parse s.engine c = .ok u ∧ value.parse s.engine c = .ok w ∧
      execute s [target, value] c = .done s (c.set u.display w) := by
  rcases refuses_or_binds s c [target, value] with ⟨err, refuses⟩ | ⟨c', binds⟩
  · rw [execute_of_refuses refuses] at succeeds
    cases succeeds
  · rw [execute_of_binds binds]
    cases binds with
    | value parsed _ given => exact ⟨_, _, parsed, given, rfl⟩
    | document _ structured => simp [plain] at structured
    | entries _ structured => simp [plain] at structured

section Writes

variable {n v : Text} (named : isVariableName n = true) {quoted after : List Token}
  (said : Compiler.paragraphs quoted = SetCommand.name ++ ' ' :: (n ++ ' ' :: v))
  (plain : Compiler.fences after = [])
include named said plain

theorem set_writes_one (source : Text) (line : Nat) (s : Session) (c : Context) :
    ∃ cmd, Compiler.command .builtin source line quoted after = .ok cmd ∧
      ((cmd.execute s c).error = none ↔ trimEnd v ≠ [] ∧
        (∃ u, (Argument.ofLine n).parse s.engine c = .ok u) ∧
        ∃ w, (Argument.ofLine (trim v)).parse s.engine c = .ok w) ∧
      ((cmd.execute s c).error = none → ∃ u w, (Argument.ofLine n).parse s.engine c = .ok u ∧
        (Argument.ofLine (trim v)).parse s.engine c = .ok w ∧
        (cmd.execute s c).context = c.set u.display w ∧
        (∀ k, (cmd.execute s c).context.get? k = if k = u.display then some w else c.get? k) ∧
        (s.engine.markers = .default ∨ s.engine.markers.nextSpan? n = none →
          u.display = boundName n)) := by
  refine ⟨_, Compiler.command_set named said source line after, ?_⟩
  have executed (args : List Argument) :
      (CommandSpec.set.instantiate args).execute s c = SetCommand.execute s args c := rfl
  rw [plain, List.append_nil]
  simp only [executed]
  by_cases blank : trimEnd v = []
  next =>
    rw [if_pos blank]
    have refused : (SetCommand.execute s [.ofLine n] c).error ≠ none := nofun
    exact ⟨iff_of_false refused fun all => all.1 blank, fun succeeds => absurd succeeds refused⟩
  next =>
    rw [if_neg blank]
    refine ⟨⟨fun succeeds => ?_, ?_⟩, fun succeeds => ?_⟩
    · obtain ⟨u, w, parsed, given, -⟩ := SetCommand.execute_plain rfl succeeds
      exact ⟨blank, ⟨u, parsed⟩, ⟨w, given⟩⟩
    · rintro ⟨-, ⟨u, parsed⟩, ⟨w, given⟩⟩
      rw [SetCommand.execute_of_binds (.value parsed rfl given)]
      rfl
    · obtain ⟨u, w, parsed, given, done⟩ := SetCommand.execute_plain rfl succeeds
      rw [done]
      refine ⟨u, w, parsed, given, rfl, fun k => c.get?_set k u.display w, fun unmarked => ?_⟩
      have bare : s.engine.markers.nextSpan? n = none := by
        rcases unmarked with default | bare
        · rw [default]
          exact nextSpan?_name named
        · exact bare
      obtain ⟨u', parsed', shown⟩ := parse_bare_name named s.engine bare c
      rw [parsed] at parsed'
      cases parsed'
      exact shown

end Writes

theorem set_writes_one_dotted :
    let s := Session.new ⟨.default, .empty⟩ id
    let quoted := [Token.ofText "set a.b  12 " 1]
    isVariableName "a.b".toList = true ∧
      Compiler.paragraphs quoted =
        SetCommand.name ++ ' ' :: ("a.b".toList ++ ' ' :: " 12 ".toList) ∧
      Compiler.fences [] = [] ∧
      ∃ cmd, Compiler.command .builtin [] 1 quoted [] = .ok cmd ∧
        (cmd.execute s .empty).error = none ∧
        (cmd.execute s .empty).context = Context.empty.set "a.b" (.int 12) := by
  intro s quoted
  have named : isVariableName "a.b".toList = true := by decide
  have said : Compiler.paragraphs quoted =
      SetCommand.name ++ ' ' :: ("a.b".toList ++ ' ' :: " 12 ".toList) := rfl
  have plain : Compiler.fences [] = [] := rfl
  obtain ⟨cmd, compiled, succeeds, writes⟩ := set_writes_one named said plain [] 1 s .empty
  obtain ⟨u, parsed, -⟩ := parse_name named .empty .empty
  have done := succeeds.2 ⟨by decide, ⟨u, parsed⟩, .int 12, rfl⟩
  obtain ⟨u', w, -, given, after, -, shown⟩ := writes done
  obtain rfl : Value.int 12 = w := Except.ok.inj given
  exact ⟨named, said, plain, cmd, compiled, done, by rw [after, shown (.inl rfl)]; rfl⟩

theorem set_writes_other_name :
    let s := Session.new ⟨.default, .empty⟩ id
    let after (n : Text) := ((SetCommand.ofLine n "5").execute s .empty).context
    isVariableName "nan".toList = true ∧ isVariableName "infinity".toList = true ∧
      ((SetCommand.ofLine "nan" "5").execute s .empty).error = none ∧
      ((SetCommand.ofLine "infinity" "5").execute s .empty).error = none ∧
      (after "nan").get? "nan" = none ∧ (after "nan").get? "NaN" = some (.int 5) ∧
      (after "infinity").get? "infinity" = none ∧
      (after "infinity").get? "inf" = some (.int 5) := by
  intro s after
  have nan : isVariableName "nan".toList = true := by decide
  have infinity : isVariableName "infinity".toList = true := by decide
  have executed : (SetCommand.ofLine "nan" "5").execute s .empty =
      .done s (Context.empty.set "NaN" (.int 5)) := execute_set nan .empty [] id .empty "5"
  have executed' : (SetCommand.ofLine "infinity" "5").execute s .empty =
      .done s (Context.empty.set "inf" (.int 5)) := execute_set infinity .empty [] id .empty "5"
  simp only [after, executed, executed']
  exact ⟨nan, infinity, rfl, rfl, rfl, rfl, rfl, rfl⟩

end Docspec
