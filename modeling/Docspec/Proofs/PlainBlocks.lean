import Docspec.Proofs.Literals

set_option autoImplicit false

namespace Docspec

open Text

namespace Argument

def IsPlainType (contentType : Text) : Prop :=
  ∀ kind ∈ structuredTypes, sameIgnoringAsciiCase contentType kind = false

instance (contentType : Text) : Decidable (IsPlainType contentType) :=
  inferInstanceAs (Decidable (∀ kind ∈ structuredTypes, _))

theorem isStructured_ofBlock {contentType : Text} (plain : IsPlainType contentType)
    (content extra : Text) : (ofBlock content contentType extra).isStructured = false :=
  List.any_eq_false.2 fun kind member => by simp [plain kind member]

theorem not_spellsLiteral {t : Text} (bare : t = [] ∨ ∃ c ∈ t, isBlank c = true) :
    ¬ SpellsLiteral t := fun spells => by
  obtain ⟨visible, solid⟩ := spells.solid
  rcases bare with empty | ⟨c, member, blank⟩
  · exact visible empty
  · simp [solid c member] at blank

/-- The value of a text as an argument: its literal, or else the text filled in. -/
inductive Coerced (e : Engine) (c : Context) (content : Text) : Value → Prop
  | literal {v : Value} : SpellsLiteral content → literalOf? content = some v → Literal v →
    Coerced e c content v
  | filled {t : Text} : ¬ SpellsLiteral content → e.interpolate content c.vars = .ok t →
    Coerced e c content (.str t)

theorem parse_eq_ok_iff {e : Engine} {c : Context} {a : Argument} {v : Value} :
    a.parse e c = .ok v ↔ Coerced e c a.value v := by
  rw [parse, literal?]
  constructor
  · intro parsed
    split at parsed
    next w read =>
      cases parsed
      obtain ⟨spells, literal⟩ := literal_of_read read
      exact .literal spells read literal
    next unread =>
      have other : ¬ SpellsLiteral a.value := fun spells => by
        obtain ⟨w, read⟩ := exists_literalOf? spells
        rw [unread] at read
        cases read
      cases filled : a.interpolate e c with
      | ok t =>
        rw [filled] at parsed
        cases parsed
        exact .filled other filled
      | error err =>
        rw [filled] at parsed
        cases parsed
  · rintro (⟨-, read, -⟩ | ⟨other, filled⟩)
    · rw [read]
    · have unread : literalOf? a.value = none := Option.eq_none_iff_forall_not_mem.2
        fun w read => other (literal_of_read read).1
      rw [unread, interpolate, filled]
      rfl

end Argument

open Argument

theorem set_plain_block {contentType : Text} (plain : IsPlainType contentType)
    (content extra : Text) (target : Argument) (s : Session) (c : Context) :
    let done := SetCommand.execute s [target, .ofBlock content contentType extra] c
    (done.error = none ↔ (∃ u, target.parse s.engine c = .ok u) ∧
      (SpellsLiteral content ∨ ∃ t, s.engine.interpolate content c.vars = .ok t)) ∧
    (done.error = none → ∃ u v, target.parse s.engine c = .ok u ∧
      done = .done s (c.set u.display v) ∧
      (SpellsLiteral content → literalOf? content = some v ∧ Literal v) ∧
      (¬ SpellsLiteral content → ∃ t, s.engine.interpolate content c.vars = .ok t ∧ v = .str t)) ∧
    (content = [] ∨ (∃ d ∈ content, isBlank d = true) → ¬ SpellsLiteral content) ∧
    done = SetCommand.execute s [target, .ofLine content] c := by
  intro done
  have unstructured := isStructured_ofBlock plain content extra
  refine ⟨⟨fun succeeds => ?_, ?_⟩, fun succeeds => ?_, not_spellsLiteral, ?_⟩
  · obtain ⟨u, v, parsed, given, -⟩ := SetCommand.execute_plain unstructured succeeds
    refine ⟨⟨u, parsed⟩, ?_⟩
    cases parse_eq_ok_iff.1 given with
    | literal spells => exact .inl spells
    | filled _ filled => exact .inr ⟨_, filled⟩
  · rintro ⟨⟨u, parsed⟩, readable⟩
    have coerced : ∃ v, Coerced s.engine c content v := by
      by_cases spells : SpellsLiteral content
      next =>
        obtain ⟨v, read⟩ := exists_literalOf? spells
        exact ⟨v, .literal spells read (literal_of_read read).2⟩
      next =>
        obtain ⟨t, filled⟩ := readable.resolve_left spells
        exact ⟨.str t, .filled spells filled⟩
    obtain ⟨v, coerced⟩ := coerced
    have bound :=
      SetCommand.execute_of_binds (.value parsed unstructured (parse_eq_ok_iff.2 coerced))
    rw [show done = _ from bound]
    rfl
  · obtain ⟨u, v, parsed, given, bound⟩ := SetCommand.execute_plain unstructured succeeds
    refine ⟨u, v, parsed, bound, fun spells => ?_, fun other => ?_⟩
    · cases parse_eq_ok_iff.1 given with
      | literal _ read literal => exact ⟨read, literal⟩
      | filled other => exact absurd spells other
    · cases parse_eq_ok_iff.1 given with
      | literal spells => exact absurd spells other
      | filled _ filled => exact ⟨_, filled, rfl⟩
  · have bound : SetCommand.bound s c target (.ofBlock content contentType extra) =
        SetCommand.bound s c target (.ofLine content) := by
      rw [SetCommand.bound, SetCommand.bound, unstructured]
      rfl
    simp only [done, SetCommand.execute_pair, bound]

theorem set_plain_block_digits :
    let s := Session.new ⟨.default, .empty⟩ id
    let block (content : Text) := Argument.ofBlock content "Text" "extra"
    let after (content : Text) := SetCommand.execute s [.ofLine "x", block content] .empty
    IsPlainType "Text" ∧ after "5" = .done s (Context.empty.set "x" (.int 5)) ∧
      after "5\n" = .done s (Context.empty.set "x" (.str "5\n")) := by
  intro s block after
  let e := s.engine
  have plain : IsPlainType "Text" := by decide
  have named : (Argument.ofLine "x").parse e .empty = .ok (.str "x") :=
    parse_eq_ok_iff.2 (.filled (fun spells => by
      obtain ⟨v, read⟩ := exists_literalOf? spells
      cases read) (e.interpolate_of_no_span [] (by decide) rfl))
  have digit : SpellsLiteral "5" := (literal_of_read (v := .int 5) rfl).1
  have ended : ¬ SpellsLiteral "5\n" := not_spellsLiteral (.inr ⟨'\n', by decide, rfl⟩)
  have filled : e.interpolate "5\n" [] = .ok "5\n" :=
    e.interpolate_of_no_span [] (by decide) rfl
  obtain ⟨done, bound, -⟩ := set_plain_block plain "5" "extra" (.ofLine "x") s .empty
  obtain ⟨done', bound', -⟩ := set_plain_block plain "5\n" "extra" (.ofLine "x") s .empty
  obtain ⟨u, v, parsed, after, read, -⟩ := bound (done.2 ⟨⟨_, named⟩, .inl digit⟩)
  obtain ⟨u', v', parsed', after', -, text⟩ := bound' (done'.2 ⟨⟨_, named⟩, .inr ⟨_, filled⟩⟩)
  obtain rfl := Except.ok.inj (named.symm.trans parsed)
  obtain rfl := Except.ok.inj (named.symm.trans parsed')
  obtain rfl := Option.some.inj (read digit).1
  obtain ⟨t, same, rfl⟩ := text ended
  obtain rfl := Except.ok.inj (filled.symm.trans same)
  exact ⟨plain, after, after'⟩

end Docspec
