import Docspec.Proofs.Filling
import Docspec.Runner

set_option autoImplicit false

namespace Docspec

namespace SetCommand

variable (s : Session) (c : Context)

inductive Refuses : List Argument → CommandError → Prop
  | count {args : List Argument} : args.length ≠ 2 → Refuses args (.arity name 2 args.length)
  | target {target value : Argument} {cause : Placeholder.Error} :
    target.parse s.engine c = .error cause → Refuses [target, value] (.interpolation name cause)
  | value {target value : Argument} {u : Value} {cause : Placeholder.Error} :
    target.parse s.engine c = .ok u → value.isStructured = false →
    value.parse s.engine c = .error cause → Refuses [target, value] (.interpolation name cause)
  | block {target value : Argument} {u : Value} {cause : Placeholder.Error} :
    target.parse s.engine c = .ok u → value.isStructured = true →
    value.interpolate s.engine c = .error cause →
    Refuses [target, value] (.interpolation name cause)
  | content {target value : Argument} {u : Value} {t : Text} :
    target.parse s.engine c = .ok u → value.isStructured = true →
    value.interpolate s.engine c = .ok t → Yaml.decode? t = none →
    Refuses [target, value]
      (.decode ((value.block.map BlockInfo.contentType).getD []) (s.yamlFault t))

/-- What a `set` makes of a context. Only a map says itself what it binds. -/
inductive Binds : List Argument → Context → Prop
  | value {target value : Argument} {u v : Value} :
    target.parse s.engine c = .ok u → value.isStructured = false →
    value.parse s.engine c = .ok v → Binds [target, value] (c.set u.display v)
  | document {target value : Argument} {u v : Value} {t : Text} :
    target.parse s.engine c = .ok u → value.isStructured = true →
    value.interpolate s.engine c = .ok t → Yaml.decode? t = some v → v.isMap = false →
    Binds [target, value] (c.set u.display v)
  | entries {target value : Argument} {u : Value} {entries : Vars} {t : Text} :
    target.parse s.engine c = .ok u → value.isStructured = true →
    value.interpolate s.engine c = .ok t → Yaml.decode? t = some (.map entries) →
    Binds [target, value] (c.merge entries)

variable {s : Session} {c c' : Context} {args : List Argument} {err : CommandError}

theorem execute_of_refuses (refuses : Refuses s c args err) :
    execute s args c = .refused s c err := by
  cases refuses with
  | count other => simp [execute, checkArity_of_ne other, Except.bind]
  | target failed =>
    simp [execute_pair, bound, Argument.parseFor, failed, Except.mapError, Except.bind]
  | value parsed plain failed =>
    simp [execute_pair, bound, Argument.parseFor, parsed, plain, failed, Except.mapError,
      Except.bind, Except.map]
  | block parsed structured failed =>
    simp [execute_pair, bound, decoded, Argument.parseFor, Argument.interpolateFor, parsed,
      structured, failed, Except.mapError, Except.bind, Except.map]
  | content parsed structured filled undecoded =>
    simp [execute_pair, bound, decoded, Argument.parseFor, Argument.interpolateFor, parsed,
      structured, filled, undecoded, Except.mapError, Except.bind, Except.map]

theorem execute_of_binds (binds : Binds s c args c') : execute s args c = .done s c' := by
  cases binds with
  | value parsed plain given =>
    simp [execute_pair, bound, Argument.parseFor, parsed, plain, given, Except.mapError,
      Except.bind, Except.map]
  | @document _ _ u v _ parsed structured filled content single =>
    cases v with
    | map entries => cases single
    | null | bool | int | float | str | list =>
      simp [execute_pair, bound, decoded, Argument.parseFor, Argument.interpolateFor, parsed,
        structured, filled, content, Except.mapError, Except.bind, Except.map]
  | entries parsed structured filled content =>
    simp [execute_pair, bound, decoded, Argument.parseFor, Argument.interpolateFor, parsed,
      structured, filled, content, Except.mapError, Except.bind, Except.map]

theorem refuses_or_binds (s : Session) (c : Context) :
    ∀ args, (∃ err, Refuses s c args err) ∨ ∃ c', Binds s c args c'
  | [] => .inl ⟨_, .count (by simp)⟩
  | [_] => .inl ⟨_, .count (by simp)⟩
  | _ :: _ :: _ :: _ => .inl ⟨_, .count (by simp)⟩
  | [target, value] => by
    cases parsed : target.parse s.engine c with
    | error cause => exact .inl ⟨_, .target parsed⟩
    | ok u =>
      cases structured : value.isStructured with
      | false =>
        cases given : value.parse s.engine c with
        | error cause => exact .inl ⟨_, .value parsed structured given⟩
        | ok v => exact .inr ⟨_, .value parsed structured given⟩
      | true =>
        cases filled : value.interpolate s.engine c with
        | error cause => exact .inl ⟨_, .block parsed structured filled⟩
        | ok t =>
          cases content : Yaml.decode? t with
          | none => exact .inl ⟨_, .content parsed structured filled content⟩
          | some v =>
            cases v with
            | map entries => exact .inr ⟨_, .entries parsed structured filled content⟩
            | null | bool | int | float | str | list =>
              exact .inr ⟨_, .document parsed structured filled content rfl⟩

end SetCommand

namespace PrintCommand

variable (s : Session) (c : Context)

inductive Refuses : List Argument → CommandError → Prop
  | count {args : List Argument} : args.length ≠ 2 → Refuses args (.arity name 2 args.length)
  | text {text destination : Argument} {cause : Placeholder.Error} :
    text.interpolate s.engine c = .error cause →
    Refuses [text, destination] (.interpolation name cause)
  | destination {text destination : Argument} {t : Text} {cause : Placeholder.Error} :
    text.interpolate s.engine c = .ok t → destination.interpolate s.engine c = .error cause →
    Refuses [text, destination] (.interpolation name cause)

inductive Prints : List Argument → Printed → Prop
  | mk {text destination : Argument} {t d : Text} :
    text.interpolate s.engine c = .ok t → destination.interpolate s.engine c = .ok d →
    Prints [text, destination] ⟨t, if d.isEmpty then none else some d⟩

variable {s : Session} {c : Context} {args : List Argument} {err : CommandError} {p : Printed}

theorem execute_of_refuses (refuses : Refuses s c args err) :
    execute s args c = .refused s c err := by
  cases refuses with
  | count other => simp [execute, checkArity_of_ne other, Except.bind]
  | text failed =>
    simp [execute_pair, printed, Argument.interpolateFor, failed, Except.mapError, Except.bind]
  | destination filled failed =>
    simp [execute_pair, printed, Argument.interpolateFor, filled, failed, Except.mapError,
      Except.bind, Except.map]

theorem execute_of_prints (prints : Prints s c args p) :
    execute s args c = ⟨c, s.output ++ [p], none⟩ := by
  obtain ⟨first, second⟩ := prints
  simp [execute_pair, printed, Argument.interpolateFor, first, second, Except.mapError, Except.bind,
    Except.map]

theorem refuses_or_prints (s : Session) (c : Context) :
    ∀ args, (∃ err, Refuses s c args err) ∨ ∃ p, Prints s c args p
  | [] => .inl ⟨_, .count (by simp)⟩
  | [_] => .inl ⟨_, .count (by simp)⟩
  | _ :: _ :: _ :: _ => .inl ⟨_, .count (by simp)⟩
  | [text, destination] => by
    cases first : text.interpolate s.engine c with
    | error cause => exact .inl ⟨_, .text first⟩
    | ok t =>
      cases second : destination.interpolate s.engine c with
      | error cause => exact .inl ⟨_, .destination first second⟩
      | ok d => exact .inr ⟨_, .mk first second⟩

end PrintCommand

section Builtin

variable {s : Session} {c : Context} {id : Text} {args : List Argument}

theorem set_refused {err : CommandError} :
    ((Command.mk id .set args).execute s c).error = some err ↔
      SetCommand.Refuses s c args err := by
  change (SetCommand.execute s args c).error = some err ↔ _
  constructor
  · intro failed
    rcases SetCommand.refuses_or_binds s c args with ⟨err', refuses⟩ | ⟨c, binds⟩
    · rw [SetCommand.execute_of_refuses refuses] at failed
      exact Option.some.inj failed ▸ refuses
    · rw [SetCommand.execute_of_binds binds] at failed
      cases failed
  · intro refuses
    rw [SetCommand.execute_of_refuses refuses]
    rfl

theorem print_refused {err : CommandError} :
    ((Command.mk id .print args).execute s c).error = some err ↔
      PrintCommand.Refuses s c args err := by
  change (PrintCommand.execute s args c).error = some err ↔ _
  constructor
  · intro failed
    rcases PrintCommand.refuses_or_prints s c args with ⟨err', refuses⟩ | ⟨p, prints⟩
    · rw [PrintCommand.execute_of_refuses refuses] at failed
      exact Option.some.inj failed ▸ refuses
    · rw [PrintCommand.execute_of_prints prints] at failed
      cases failed
  · intro refuses
    rw [PrintCommand.execute_of_refuses refuses]
    rfl

theorem execute_refused {cmd : Command} (builtin : cmd.kind = .set ∨ cmd.kind = .print)
    {err : CommandError} (failed : (cmd.execute s c).error = some err) :
    cmd.execute s c = .refused s c err := by
  obtain ⟨id, kind, args⟩ := cmd
  obtain rfl | rfl := builtin
  · exact SetCommand.execute_of_refuses (set_refused.1 failed)
  · exact PrintCommand.execute_of_refuses (print_refused.1 failed)

theorem set_done (done : ((Command.mk id .set args).execute s c).error = none) :
    ∃ c', SetCommand.Binds s c args c' ∧ (Command.mk id .set args).execute s c = .done s c' := by
  rcases SetCommand.refuses_or_binds s c args with ⟨err, refuses⟩ | ⟨c', binds⟩
  · rw [set_refused.2 refuses] at done
    cases done
  · exact ⟨c', binds, SetCommand.execute_of_binds binds⟩

theorem print_done (done : ((Command.mk id .print args).execute s c).error = none) :
    ∃ p, PrintCommand.Prints s c args p ∧
      (Command.mk id .print args).execute s c = ⟨c, s.output ++ [p], none⟩ := by
  rcases PrintCommand.refuses_or_prints s c args with ⟨err, refuses⟩ | ⟨p, prints⟩
  · rw [print_refused.2 refuses] at done
    cases done
  · exact ⟨p, prints, PrintCommand.execute_of_prints prints⟩

variable (s c id args)

theorem builtin_all_or_nothing :
    let set := (Command.mk id .set args).execute s c
    let print := (Command.mk id .print args).execute s c
    (∀ err, (set.error = some err ↔ SetCommand.Refuses s c args err) ∧
      (set.error = some err → set.context = c ∧ set.output = s.output)) ∧
    (set.error = none → set.output = s.output ∧ SetCommand.Binds s c args set.context) ∧
    (∀ err, (print.error = some err ↔ PrintCommand.Refuses s c args err) ∧
      (print.error = some err → print.context = c ∧ print.output = s.output)) ∧
    (print.error = none → print.context = c ∧
      ∃ text destination t d p, args = [text, destination] ∧
        text.interpolate s.engine c = .ok t ∧ destination.interpolate s.engine c = .ok d ∧
        print.output = s.output ++ [p] ∧ p.text = t ∧ (p.destination = none ↔ d = []) ∧
        ∀ file, p.destination = some file → file = d) := by
  intro set print
  refine ⟨fun err => ⟨set_refused, fun failed => ?_⟩, fun done => ?_,
    fun err => ⟨print_refused, fun failed => ?_⟩, fun done => ?_⟩
  · rw [show set = _ from execute_refused (.inl rfl) failed]
    exact ⟨rfl, rfl⟩
  · obtain ⟨c', binds, after⟩ := set_done done
    rw [show set = _ from after]
    exact ⟨rfl, binds⟩
  · rw [show print = _ from execute_refused (.inr rfl) failed]
    exact ⟨rfl, rfl⟩
  · obtain ⟨p, ⟨first, second⟩, after⟩ := print_done done
    rw [show print = _ from after]
    rename_i text destination t d
    refine ⟨rfl, text, destination, t, d, _, rfl, first, second, rfl, rfl, ?_, ?_⟩ <;>
      cases d <;> simp

end Builtin

theorem builtin_all_or_nothing_last :
    let s : Session := ⟨⟨.default, .empty⟩, [⟨"before", none⟩], id⟩
    let reserved : Text := [Markers.openingStandIn]
    let cause := Placeholder.Error.malformed "\\u\x7b1\x7d" ⟨1, 1⟩
    (Command.mk "set" .set [.ofLine "5", .ofBlock reserved "yaml" []]).execute s .empty =
        ⟨.empty, [⟨"before", none⟩], some (.interpolation "set" cause)⟩ ∧
      (Command.mk "print" .print [.ofLine [], .ofLine reserved]).execute s .empty =
        ⟨.empty, [⟨"before", none⟩], some (.interpolation "print" cause)⟩ := by
  intro s reserved cause
  have refused : s.engine.interpolate reserved Context.empty.vars = .error cause := rfl
  have empty : s.engine.interpolate [] Context.empty.vars = .ok [] :=
    s.engine.interpolate_of_no_span _ (by decide) s.engine.markers.nextSpan?_nil
  have whole (o : Outcome) (err : CommandError) (kept : o.context = .empty ∧ o.output = s.output)
      (failed : o.error = some err) : o = ⟨.empty, [⟨"before", none⟩], some err⟩ := by
    obtain ⟨context, output, error⟩ := o
    obtain ⟨rfl, rfl⟩ := kept
    obtain rfl := failed
    rfl
  constructor
  · obtain ⟨set, -⟩ :=
      builtin_all_or_nothing s .empty "set" [.ofLine "5", .ofBlock reserved "yaml" []]
    obtain ⟨fails, unchanged⟩ := set (.interpolation "set" cause)
    have failed := fails.2 (.block rfl rfl refused)
    exact whole _ _ (unchanged failed) failed
  · obtain ⟨-, -, print, -⟩ :=
      builtin_all_or_nothing s .empty "print" [.ofLine [], .ofLine reserved]
    obtain ⟨fails, unchanged⟩ := print (.interpolation "print" cause)
    have failed := fails.2 (.destination empty refused)
    exact whole _ _ (unchanged failed) failed

namespace Runner

def succeeding : List Command → Context → Session → List Command
  | [], _, _ => []
  | cmd :: more, c, s =>
    let o := cmd.execute s c
    let later := succeeding more o.context { s with output := o.output }
    if o.error.isNone then cmd :: later else later

theorem runCommands_succeeding (name : Text) {commands : List Command}
    (builtin : ∀ cmd ∈ commands, cmd.kind = .set ∨ cmd.kind = .print) (c : Context)
    (s : Session) :
    runCommands name (succeeding commands c s) c s =
      ((runCommands name commands c s).1, (runCommands name commands c s).2.1, []) := by
  induction commands generalizing c s with
  | nil => rfl
  | cons cmd more ih =>
    obtain ⟨own, others⟩ := List.forall_mem_cons.1 builtin
    cases failed : (cmd.execute s c).error with
    | some err =>
      have unchanged : cmd.execute s c = .refused s c err := execute_refused own failed
      simp [succeeding, runCommands, unchanged, Outcome.refused, ih others]
    | none => simp [succeeding, runCommands, failed, ih others]

end Runner

end Docspec
