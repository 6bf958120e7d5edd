import Docspec.Proofs.Placement
import Mathlib.Data.List.Forall2

set_option autoImplicit false

namespace Docspec

structure Quote where
  place : Nat
  quoted : List Token
  fences : List Token

def quotesFrom : Nat → List Region → List Quote
  | _, [] => []
  | place, .heading .. :: rest => quotesFrom (place + 1) rest
  | place, .quote _ quoted _ :: rest => ⟨place, quoted, fencesOf rest⟩ :: quotesFrom place rest
  | place, .loose _ :: rest => quotesFrom place rest

def quotes (rs : List Region) : List Quote := quotesFrom 0 rs

def Quote.IsCommand (catalog : Catalog) (q : Quote) (c : Command) : Prop :=
  ∃ spec, catalog.resolve? (Compiler.calledName q.quoted) = some spec ∧ c.id = spec.id ∧
    c.kind = spec.kind ∧
    c.arguments = spec.split (Compiler.calledLine q.quoted) ++ q.fences.map Token.block

/-- The fences outside headings and quotes that follow a quote with no heading between, given
whether one stands before. -/
def attachedFences : Bool → List Region → List Token
  | _, [] => []
  | _, .heading .. :: rest => attachedFences false rest
  | _, .quote .. :: rest => attachedFences true rest
  | attached, .loose t :: rest =>
    (if attached && t.isFence then [t] else []) ++ attachedFences attached rest

theorem attachedFences_eq (attached : Bool) (place : Nat) (rs : List Region) :
    attachedFences attached rs =
      (if attached then fencesOf rs else []) ++ (quotesFrom place rs).flatMap Quote.fences := by
  induction rs generalizing attached place with
  | nil => cases attached <;> rfl
  | cons r rest ih =>
    cases r with
    | heading start title stop =>
      rw [attachedFences, ih false (place + 1)]
      cases attached <;> rfl
    | quote start quoted stop =>
      rw [attachedFences, ih true place]
      cases attached <;> rfl
    | loose t =>
      rw [attachedFences, ih attached place]
      cases attached with
      | false => rfl
      | true =>
        rw [if_pos rfl, if_pos rfl, fencesOf_loose, quotesFrom, Bool.true_and, List.append_assoc]

namespace Compiler

theorem call_isCommand {catalog : Catalog} {source : Text} {start : Token} {quoted : List Token}
    {after : List Region} {c : Command} (called : call catalog source start quoted after = .ok c)
    (place : Nat) : Quote.IsCommand catalog ⟨place, quoted, fencesOf after⟩ c := by
  rw [call] at called
  split at called
  next => cases called
  next spec found =>
    obtain rfl := Except.ok.inj called
    exact ⟨spec, found, rfl, rfl, rfl⟩

theorem compileRegions_commands {catalog : Catalog} {source : Text} {t t' : TestTree}
    {current : Nat} {rs : List Region} (last : current + 1 = t.size)
    (compiled : compileRegions catalog source t current rs = .ok t') (i : Nat) :
    ∃ more, (t'.getD i).commands = (t.getD i).commands ++ more ∧
      List.Forall₂ (Quote.IsCommand catalog)
        ((quotesFrom current rs).filter fun q => q.place = i) more := by
  induction rs generalizing t current with
  | nil =>
    obtain rfl : t = t' := Except.ok.inj compiled
    exact ⟨[], by simp, .nil⟩
  | cons r rest ih =>
    cases r with
    | heading start title stop =>
      obtain ⟨more, commands, called⟩ := ih (TestTree.size_addChild _ _ _ _).symm compiled
      rw [← last] at called
      refine ⟨more, ?_, called⟩
      rw [commands, TestTree.getD_addChild]
      split
      next outside =>
        have absent : t.get? i = none := List.getElem?_eq_none (Nat.le_of_eq outside.symm)
        rw [TestTree.getD, absent]
        rfl
      next => rfl
    | quote start quoted stop =>
      rw [compileRegions] at compiled
      split at compiled
      next => cases compiled
      next c called =>
        have inside : current < t.size := by omega
        have size : (t.addCommand current c).size = t.size := TestTree.size_modify t current _
        obtain ⟨more, commands, later⟩ := ih (last.trans size.symm) compiled
        rw [TestTree.getD_addCommand inside] at commands
        by_cases here : current = i
        next =>
          rw [if_pos here] at commands
          refine ⟨c :: more, by simpa using commands, ?_⟩
          rw [quotesFrom, List.filter_cons_of_pos (by simpa using here)]
          exact .cons (call_isCommand called current) later
        next =>
          rw [if_neg here] at commands
          refine ⟨more, commands, ?_⟩
          rw [quotesFrom, List.filter_cons_of_neg (by simpa using here)]
          exact later
    | loose k => exact ih last compiled

theorem fencesOf_filter (rs : List Region) : fencesOf (rs.filter Region.matters) = fencesOf rs := by
  induction rs with
  | nil => rfl
  | cons r rest ih =>
    cases r with
    | heading | quote => rfl
    | loose t =>
      rw [fencesOf_loose, List.filter_cons, Region.matters]
      cases fence : t.isFence with
      | true => rw [if_pos rfl, fencesOf_loose, fence, ih]
      | false => rw [if_neg Bool.false_ne_true, if_neg Bool.false_ne_true, ih, List.nil_append]

theorem compileRegions_filter (catalog : Catalog) (source : Text) (t : TestTree) (current : Nat)
    (rs : List Region) :
    compileRegions catalog source t current (rs.filter Region.matters) =
      compileRegions catalog source t current rs := by
  induction rs generalizing t current with
  | nil => rfl
  | cons r rest ih =>
    cases r with
    | heading start title stop => exact ih _ _
    | quote start quoted stop =>
      have called : call catalog source start quoted (rest.filter Region.matters) =
          call catalog source start quoted rest := by
        rw [call, call, fencesOf_filter]
      rw [List.filter_cons_of_pos (by rfl), compileRegions, compileRegions, called]
      cases call catalog source start quoted rest with
      | error e => rfl
      | ok c => exact ih _ _
    | loose k =>
      cases fence : k.isFence with
      | true =>
        rw [List.filter_cons_of_pos (by simpa [Region.matters] using fence)]
        exact ih _ _
      | false =>
        rw [List.filter_cons_of_neg (by simpa [Region.matters] using fence)]
        exact ih _ _

theorem compile_congr {catalog : Catalog} {source : Text} {ts ts' : List Token}
    (same : (regions ts').filter Region.matters = (regions ts).filter Region.matters) :
    compile catalog source ts' = compile catalog source ts := by
  rw [compile_eq, compile_eq, ← compileRegions_filter, same, compileRegions_filter]

theorem compile_attaches {catalog : Catalog} {source : Text} {ts : List Token} {t : TestTree}
    (compiled : compile catalog source ts = .ok t) :
    (regions ts).flatMap Region.tokens = ts ∧
      t.cases.map TestCase.heading = TestTree.root.heading :: headings (regions ts) ∧
      (∀ i, List.Forall₂ (Quote.IsCommand catalog)
        ((quotes (regions ts)).filter fun q => q.place = i) (t.getD i).commands) ∧
      (quotes (regions ts)).flatMap Quote.fences = attachedFences false (regions ts) ∧
      (∀ ts', (regions ts').filter Region.matters = (regions ts).filter Region.matters →
        compile catalog source ts' = .ok t) ∧
      ∀ before k after, regions ts = before ++ .loose k :: after → k.isFence = false →
        compile catalog source ((before ++ after).flatMap Region.tokens) = .ok t := by
  have built := compiled
  rw [compile_eq] at built
  have same (ts' : List Token)
      (equal : (regions ts').filter Region.matters = (regions ts).filter Region.matters) :
      compile catalog source ts' = .ok t := (compile_congr equal).trans compiled
  refine ⟨regions_tokens ts, (compileRegions_outlined .new rfl built).2, fun i => ?_,
    (attachedFences_eq false 0 (regions ts)).symm, same, fun before k after split loose => ?_⟩
  · obtain ⟨more, commands, called⟩ := compileRegions_commands rfl built i
    have none : (TestTree.new.getD i).commands = [] := by
      cases i <;> rfl
    rwa [commands, none]
  · apply same
    rw [regions_delete split, split, List.filter_append, List.filter_append,
      List.filter_cons_of_neg (by simpa [Region.matters] using loose)]

theorem compile_attaches_between :
    let ts : List Token :=
      [.bare .quoteOpen 1, .ofText "set a" 1, .bare .quoteClose 1, .bare .other 2,
        .mk (.fence "yaml  main") "x: 1" [] 3, .bare (.headingOpen 1) 5, .ofText "A" 5,
        .bare (.headingClose 1) 5, .mk (.fence "text") "y" [] 6, .bare .quoteOpen 8,
        .ofText "print b" 8]
    ∃ t, compile .builtin unnamed ts = .ok t ∧
      (t.getD 0).commands.map Command.arguments =
        [[.ofLine "a", .ofBlock "x: 1" "yaml" "main"]] ∧
      (t.getD 1).commands.map Command.arguments = [[.ofLine "b", .ofLine []]] := by
  intro ts
  have parts : regions ts =
      [.quote (.bare .quoteOpen 1) [.ofText "set a" 1] (some (.bare .quoteClose 1)),
        .loose (.bare .other 2), .loose (.mk (.fence "yaml  main") "x: 1" [] 3),
        .heading (.bare (.headingOpen 1) 5) [.ofText "A" 5] (some (.bare (.headingClose 1) 5)),
        .loose (.mk (.fence "text") "y" [] 6),
        .quote (.bare .quoteOpen 8) [.ofText "print b" 8] none] := by
    simp [ts, regions, Token.bare, Token.ofText, Token.kind, Token.isHeadingClose,
      Token.isQuoteClose]
  obtain ⟨t, compiled⟩ : ∃ t, compile .builtin unnamed ts = .ok t := by
    rw [compile_eq, parts]
    exact ⟨_, rfl⟩
  obtain ⟨-, -, commands, -⟩ := compile_attaches compiled
  have single {i : Nat} {q : Quote} {spec : CommandSpec} {args : List Argument}
      (own : (quotes (regions ts)).filter (fun q => q.place = i) = [q])
      (known : Catalog.builtin.resolve? (calledName q.quoted) = some spec)
      (given : spec.split (calledLine q.quoted) ++ q.fences.map Token.block = args) :
      (t.getD i).commands.map Command.arguments = [args] := by
    have called := commands i
    rw [own] at called
    obtain ⟨c, more, ⟨spec', found, -, -, arguments⟩, others, shape⟩ :=
      List.forall₂_cons_left_iff.1 called
    obtain rfl := List.forall₂_nil_left_iff.1 others
    obtain rfl : spec = spec' := Option.some.inj (known.symm.trans found)
    rw [shape, List.map_singleton, arguments, given]
  rw [parts] at single
  exact ⟨t, compiled, single rfl rfl rfl, single rfl rfl rfl⟩

end Compiler

end Docspec
