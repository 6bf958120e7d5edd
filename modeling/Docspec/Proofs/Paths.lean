import Docspec.Proofs.Assignment
import Docspec.Proofs.Chains
import Docspec.Proofs.Merging

set_option autoImplicit false

namespace Docspec

open Text Placeholder

namespace Text

theorem mem_joinWith {sep : Text} {ws : List Text} {c : Char} (member : c ∈ joinWith sep ws) :
    c ∈ sep ∨ ∃ w ∈ ws, c ∈ w := by
  induction ws with
  | nil => cases member
  | cons w ws ih =>
    cases ws with
    | nil => exact .inr ⟨w, List.mem_cons_self, by simpa [joinWith] using member⟩
    | cons w' ws =>
      rw [joinWith_cons_cons, List.mem_append, List.mem_append] at member
      rcases member with (own | between) | later
      · exact .inr ⟨w, List.mem_cons_self, own⟩
      · exact .inl between
      · rcases ih later with between | ⟨v, among, inside⟩
        · exact .inl between
        · exact .inr ⟨v, List.mem_cons_of_mem _ among, inside⟩

theorem splitAll_joinWith {sep : Char} {w : Text} {ws : List Text}
    (apart : ∀ v ∈ w :: ws, sep ∉ v) :
    splitAll sep (joinWith [sep] (w :: ws)) = w :: ws := by
  induction ws generalizing w with
  | nil =>
    have own := apart w List.mem_cons_self
    simpa [joinWith] using splitAll_of_not_mem own
  | cons v ws ih =>
    obtain ⟨own, others⟩ := List.forall_mem_cons.1 apart
    have joined : joinWith [sep] (w :: v :: ws) = w ++ sep :: joinWith [sep] (v :: ws) := by
      rw [joinWith_cons_cons, List.append_assoc]
      rfl
    rw [joined, splitAll_append own, ih others]

end Text

namespace Placeholder

def IsKey (t : Text) : Prop := t ≠ [] ∧ ∀ c ∈ t, isNameChar c = true

instance (t : Text) : Decidable (IsKey t) :=
  inferInstanceAs (Decidable (t ≠ [] ∧ ∀ c ∈ t, isNameChar c = true))

/-- A path of keys through maps in one another, and the value at its end. -/
inductive Leads : Vars → List Text → Value → Prop
  | last {vars : Vars} {k : Text} {v : Value} : Bindings.get? k vars = some v → Leads vars [k] v
  | into {vars inner : Vars} {k : Text} {path : List Text} {v : Value} :
    Bindings.get? k vars = some (.map inner) → Leads inner path v → Leads vars (k :: path) v

theorem leads_iff {vars : Vars} {k : Text} {path : List Text} {v : Value} :
    Leads vars (k :: path) v ↔ (Bindings.get? k vars).bind (Value.lookup path) = some v := by
  induction path generalizing vars k with
  | nil =>
    constructor
    · intro leads
      cases leads with
      | last found => simp [found]
      | into _ rest => cases rest
    · intro found
      obtain ⟨u, found, same⟩ := Option.bind_eq_some_iff.1 found
      rw [Value.lookup_nil] at same
      cases same
      exact .last found
  | cons k' path ih =>
    constructor
    · intro leads
      cases leads with
      | into found rest =>
        rw [found]
        exact ih.1 rest
    · intro found
      obtain ⟨u, found, rest⟩ := Option.bind_eq_some_iff.1 found
      cases u with
      | map inner => exact .into found (ih.2 rest)
      | null | bool | int | float | str | list => cases rest

section Path

variable {k : Text} {path : List Text} (named : isName k = true) (keys : ∀ key ∈ path, IsKey key)
include named keys

theorem chars_of_path : ∀ key ∈ k :: path, ∀ c ∈ key, isNameChar c = true :=
  List.forall_mem_cons.2 ⟨chars_of_isName named, fun key member => (keys key member).2⟩

theorem named_path : isVariableName (joinWith ['.'] (k :: path)) = true := by
  have chars : ∀ c ∈ joinWith ['.'] (k :: path), isVariableChar c = true := fun c member => by
    rcases mem_joinWith member with dot | ⟨key, among, inside⟩
    · rw [List.mem_singleton.1 dot]
      rfl
    · simp [isVariableChar, chars_of_path named keys key among c inside]
  obtain ⟨c, t, rfl, start⟩ := start_of_isName named
  obtain ⟨more, joined⟩ : ∃ more, joinWith ['.'] ((c :: t) :: path) = c :: more := by
    cases path with
    | nil => exact ⟨t, by simp [joinWith]⟩
    | cons key path => exact ⟨_, by rw [joinWith_cons_cons]; rfl⟩
  rw [joined] at chars ⊢
  rw [isVariableName, start, Bool.true_and, List.all_eq_true]
  exact fun d member => chars d (List.mem_cons_of_mem _ member)

theorem splitAll_path : splitAll '.' (joinWith ['.'] (k :: path)) = k :: path := by
  refine splitAll_joinWith fun key among member => ?_
  have dot := chars_of_path named keys key among '.' member
  exact absurd dot (by decide)

theorem resolve_path (e : Engine) (vars : Vars) :
    e.resolve vars (joinWith ['.'] (k :: path)) =
      .ok (((Bindings.get? k vars).bind (Value.lookup path)).getD .null).display := by
  have parts := splitAll_path named keys
  have written := named_path named keys
  cases path with
  | nil =>
    have single : joinWith ['.'] [k] = k := by simp [joinWith]
    have whole : '.' ∉ k := fun member => absurd (chars_of_isName named _ member) (by decide)
    rw [single] at written ⊢
    rw [resolve_name written whole]
    cases Bindings.get? k vars <;> simp
  | cons key path =>
    have dotted : '.' ∈ joinWith ['.'] (k :: key :: path) := by
      simp [joinWith_cons_cons]
    rw [Engine.resolve, if_pos dotted, parts]

end Path

theorem blank_plain {t : Text} (blank : ∀ c ∈ t, isBlank c = true) : Markers.default.Plain t := by
  intro c member
  have differ (d : Char) (visible : isBlank d = false) : c ≠ d := by
    rintro rfl
    simp [blank c member] at visible
  refine ⟨?_, ?_, differ _ rfl, ?_⟩
  · simp [Markers.default, differ '\x7b' rfl]
  · simp [Markers.default, differ '\x7d' rfl]
  · simp [Markers.isStandIn, differ Markers.openingStandIn rfl, differ Markers.closingStandIn rfl]

section Spaced

variable {n lead trail : Text} (named : isVariableName n = true)
  (lead_blank : ∀ c ∈ lead, isBlank c = true) (trail_blank : ∀ c ∈ trail, isBlank c = true)
include named lead_blank trail_blank

theorem interpolate_marked {e : Engine} (free : e.markers.HasNoStandIn)
    (plain : e.markers.Plain (lead ++ n ++ trail)) (vars : Vars) :
    e.interpolate (e.markers.opening ++ (lead ++ n ++ trail) ++ e.markers.closing) vars =
      e.resolve vars n := by
  have plain : (Segment.placeholder (lead ++ n ++ trail)).Plain e.markers := plain
  obtain ⟨b, parsed, identifier, filters, valid⟩ :=
    Body.parse?_chain [] lead_blank trail_blank (.inl named)
  have body : lead ++ (n ++ (trail ++ [].flatMap Application.text)) = lead ++ n ++ trail := by simp
  rw [body] at parsed
  have written : e.markers.opening ++ (lead ++ n ++ trail) ++ e.markers.closing =
      (Segment.placeholder (lead ++ n ++ trail)).text e.markers := rfl
  rw [written, Segment.interpolate_text free plain, Segment.outcome, parsed]
  simp only [Engine.expand, valid, identifier, filters, ne_eq, not_true_eq_false, if_false]
  cases e.resolve vars n <;> rfl

theorem interpolate_spaced (r : Registry) (vars : Vars) :
    Engine.interpolate ⟨.default, r⟩
        (Markers.default.opening ++ (lead ++ n ++ trail) ++ Markers.default.closing) vars =
      Engine.resolve ⟨.default, r⟩ vars n := by
  refine interpolate_marked named lead_blank trail_blank (e := ⟨.default, r⟩) default_no_standIn
    (fun c member => ?_) vars
  simp only [List.mem_append] at member
  rcases member with (first | inName) | last
  · exact blank_plain lead_blank c first
  · exact name_plain named c inName
  · exact blank_plain trail_blank c last

end Spaced

end Placeholder

section Structured

variable {n : Text} (named : isVariableName n = true) {block : Argument}
include named

theorem Compiler.command_set_block {quoted after : List Token}
    (said : paragraphs quoted = SetCommand.name ++ ' ' :: n) (fenced : fences after = [block])
    (source : Text) (line : Nat) :
    command .builtin source line quoted after =
      .ok (CommandSpec.set.instantiate [.ofLine n, block]) := by
  have visible : n ≠ [] := by
    rintro rfl
    cases named
  have whole : trimEnd n = n := trimEnd_solid (name_no_blank named)
  have known : Catalog.builtin.resolve? SetCommand.name = some .set := rfl
  have own : CommandSpec.set.split n = [.ofLine n] := LineGrammar.split_set_name named
  rw [command_line known (by decide) (forall_of_any rfl) said (by rwa [whole]), whole, own,
    fenced]
  rfl

theorem SetCommand.execute_block (structured : block.isStructured = true) (r : Registry)
    (out : List Printed) (fault : Text → Text) (c : Context) {t : Text} {v : Value}
    (filled : block.interpolate ⟨.default, r⟩ c = .ok t) (decoded : Yaml.decode? t = some v) :
    ∃ c', execute ⟨⟨.default, r⟩, out, fault⟩ [.ofLine n, block] c =
        .done ⟨⟨.default, r⟩, out, fault⟩ c' ∧
      (∀ entries, v = .map entries → ∀ k, c'.get? k = (Bindings.get? k entries).or (c.get? k)) ∧
      (v.isMap = false → ∀ k, c'.get? k = if k = boundName n then some v else c.get? k) := by
  obtain ⟨u, parsed, shown⟩ := parse_name named r c
  by_cases single : v.isMap = false
  next =>
    have binds : Binds ⟨⟨.default, r⟩, out, fault⟩ c [.ofLine n, block] _ :=
      .document parsed structured filled decoded single
    refine ⟨_, execute_of_binds binds, ?_, fun _ k => ?_⟩
    · rintro entries rfl
      cases single
    · rw [← shown]
      exact c.get?_set k _ v
  next =>
    obtain ⟨entries, rfl⟩ : ∃ entries, v = .map entries := by
      cases v with
      | map entries => exact ⟨entries, rfl⟩
      | null | bool | int | float | str | list => exact absurd rfl single
    have binds : Binds ⟨⟨.default, r⟩, out, fault⟩ c [.ofLine n, block] _ :=
      .entries parsed structured filled decoded
    refine ⟨_, execute_of_binds binds, ?_, fun none => absurd none single⟩
    rintro entries ⟨⟩ k
    exact Context.get?_merge (Yaml.decode?_nodup decoded) k c

theorem set_structured_readable (structured : block.isStructured = true)
    {quoted after : List Token} (said : Compiler.paragraphs quoted = SetCommand.name ++ ' ' :: n)
    (fenced : Compiler.fences after = [block]) (source : Text) (line : Nat) (r : Registry)
    (out : List Printed) (fault : Text → Text) (c : Context) {t : Text} {v : Value}
    (filled : block.interpolate ⟨.default, r⟩ c = .ok t) (decoded : Yaml.decode? t = some v) :
    ∃ cmd c', Compiler.command .builtin source line quoted after = .ok cmd ∧
      cmd.execute ⟨⟨.default, r⟩, out, fault⟩ c = .done ⟨⟨.default, r⟩, out, fault⟩ c' ∧
      (∀ entries, v = .map entries → ∀ k, c'.get? k = (Bindings.get? k entries).or (c.get? k)) ∧
      (v.isMap = false → ∀ k, c'.get? k = if k = boundName n then some v else c.get? k) ∧
      ∀ k path, isName k = true → (∀ key ∈ path, IsKey key) →
        ∀ lead trail, (∀ b ∈ lead, isBlank b = true) → (∀ b ∈ trail, isBlank b = true) →
          let written := lead ++ joinWith ['.'] (k :: path) ++ trail
          let shown := Engine.interpolate ⟨.default, r⟩
            (Markers.default.opening ++ written ++ Markers.default.closing) c'.vars
          (∀ w, Leads c'.vars (k :: path) w → shown = .ok w.display) ∧
            ((∀ w, ¬ Leads c'.vars (k :: path) w) → shown = .ok []) := by
  obtain ⟨c', executed, merged, bound⟩ :=
    SetCommand.execute_block named structured r out fault c filled decoded
  refine ⟨_, c', Compiler.command_set_block named said fenced source line, executed, merged, bound,
    fun k path start keys lead trail lead_blank trail_blank => ?_⟩
  intro written shown
  have resolved : shown = _ := (interpolate_spaced (named_path start keys) lead_blank trail_blank r
    c'.vars).trans (resolve_path start keys _ _)
  rw [resolved]
  refine ⟨fun w leads => ?_, fun lost => ?_⟩
  · rw [leads_iff.1 leads]
    rfl
  · have missing : (Bindings.get? k c'.vars).bind (Value.lookup path) = none :=
      Option.eq_none_iff_forall_ne_some.2 fun w found => lost w (leads_iff.2 found)
    rw [missing]
    rfl

end Structured

namespace Value

theorem eq_of_same_int {n : Int} {v : Value} (equal : (int n).same v = true) : v = .int n := by
  cases v with
  | int m =>
    rw [same, beq_iff_eq] at equal
    rw [equal]
  | null | bool | float | str | list | map => cases equal

theorem eq_of_same_bool {b : Bool} {v : Value} (equal : (bool b).same v = true) : v = .bool b := by
  cases v with
  | bool c =>
    rw [same, beq_iff_eq] at equal
    rw [equal]
  | null | int | float | str | list | map => cases equal

theorem same_entry {k : Text} {w v : Value} (equal : (map [(k, w)]).same v = true) :
    ∃ w', v = .map [(k, w')] ∧ w.same w' = true := by
  cases v with
  | map entries =>
    rcases entries with _ | ⟨⟨l, w'⟩, rest⟩
    · cases equal
    rcases rest with _ | ⟨other, rest⟩
    · simp only [same, sameEntries, Bool.and_true, Bool.and_eq_true, beq_iff_eq] at equal
      exact ⟨w', by rw [equal.1], equal.2⟩
    · simp [same, sameEntries] at equal
  | null | bool | int | float | str | list => cases equal

end Value

def nestedMap : Text := "a:\n  b-2: true\n"

theorem decode?_nestedMap :
    Yaml.decode? nestedMap = some (.map [(['a'], .map [(['b', '-', '2'], .bool true)])]) := by
  have found : (Yaml.decode? nestedMap).any
      (Value.same (.map [(['a'], .map [(['b', '-', '2'], .bool true)])])) = true := by
    decide +kernel
  obtain ⟨v, read, outer⟩ := (Option.any_eq_true _ _).1 found
  obtain ⟨w, rfl, inner⟩ := Value.same_entry outer
  obtain ⟨b, rfl, last⟩ := Value.same_entry inner
  rw [read, Value.eq_of_same_bool last]

theorem set_structured_readable_nested :
    let block := Argument.ofBlock nestedMap "YAML" []
    let after := [Token.mk (.fence "YAML") nestedMap [] 3]
    let e : Engine := ⟨.default, .empty⟩
    let s := Session.new e id
    isVariableName "config".toList = true ∧ block.isStructured = true ∧
      Compiler.paragraphs [.ofText "set config" 1] = SetCommand.name ++ ' ' :: "config".toList ∧
      Compiler.fences after = [block] ∧ block.interpolate e .empty = .ok nestedMap ∧
      ∃ cmd c', Compiler.command .builtin [] 1 [.ofText "set config" 1] after = .ok cmd ∧
        cmd.execute s .empty = .done s c' ∧ c'.get? "config" = none ∧
        e.interpolate "\x7b\x7b\n a.b-2 \x7d\x7d" c'.vars = .ok "true".toList ∧
        e.interpolate "\x7b\x7ba.c\x7d\x7d" c'.vars = .ok [] := by
  intro block after e s
  have named : isVariableName "config".toList = true := by decide
  have said : Compiler.paragraphs [.ofText "set config" 1] =
      SetCommand.name ++ ' ' :: "config".toList := rfl
  have fenced : Compiler.fences after = [block] := rfl
  have filled : block.interpolate e .empty = .ok nestedMap :=
    e.interpolate_of_no_span [] (by decide) rfl
  obtain ⟨cmd, c', compiled, executed, merged, -, shown⟩ :=
    set_structured_readable named rfl said fenced [] 1 .empty [] id .empty filled decode?_nestedMap
  have top : Bindings.get? ['a'] c'.vars = some (.map [(['b', '-', '2'], .bool true)]) :=
    merged _ rfl ['a']
  have leads : Leads c'.vars [['a'], ['b', '-', '2']] (.bool true) := .into top (.last rfl)
  have lost (w : Value) : ¬ Leads c'.vars [['a'], ['c']] w := by
    intro leads
    rw [leads_iff, top] at leads
    cases leads
  have start : isName ['a'] = true := by decide
  have key : IsKey ['b', '-', '2'] := ⟨nofun, List.all_eq_true.1 rfl⟩
  have other : IsKey ['c'] := ⟨nofun, List.all_eq_true.1 rfl⟩
  have first := shown ['a'] [['b', '-', '2']] start (List.forall_mem_singleton.2 key)
    ['\n', ' '] [' '] (List.all_eq_true.1 rfl) (List.all_eq_true.1 rfl)
  have second := shown ['a'] [['c']] start (List.forall_mem_singleton.2 other) [] [] nofun nofun
  exact ⟨named, rfl, said, fenced, filled, cmd, c', compiled, executed, merged _ rfl "config",
    first.1 _ leads, second.2 lost⟩

theorem set_structured_other_name :
    let e : Engine := ⟨.default, .empty⟩
    let block := Argument.ofBlock ['5'] "yaml" []
    let after :=
      (CommandSpec.set.instantiate [.ofLine "nan", block]).execute (.new e id) .empty
    isVariableName "nan".toList = true ∧ block.isStructured = true ∧
      block.interpolate e .empty = .ok ['5'] ∧ Yaml.decode? ['5'] = some (.int 5) ∧
      after.error = none ∧ after.context.get? "nan" = none ∧
      after.context.get? "NaN" = some (.int 5) := by
  intro e block after
  have named : isVariableName "nan".toList = true := by decide
  have filled : block.interpolate e .empty = .ok ['5'] :=
    e.interpolate_of_no_span [] (by decide) rfl
  have decoded : Yaml.decode? ['5'] = some (.int 5) := by
    have found : (Yaml.decode? ['5']).any (Value.same (.int 5)) = true := by decide +kernel
    obtain ⟨v, read, same⟩ := (Option.any_eq_true _ _).1 found
    rw [read, Value.eq_of_same_int same]
  have structured : block.isStructured = true := rfl
  obtain ⟨c', executed, -, bound⟩ :=
    SetCommand.execute_block named structured .empty [] id .empty filled decoded
  have done : after = .done (.new e id) c' := executed
  rw [done]
  exact ⟨named, structured, filled, decoded, rfl, bound rfl "nan", bound rfl "NaN"⟩

end Docspec
