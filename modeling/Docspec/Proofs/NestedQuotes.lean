import Docspec.Proofs.Attachment

set_option autoImplicit false

namespace Docspec

/-- A stream in which every start of a quote has its own end, and every end its start. -/
inductive Nested : List Token → Prop
  | nil : Nested []
  | other {t : Token} {ts : List Token} : t.isQuoteOpen = false → t.isQuoteClose = false →
    Nested ts → Nested (t :: ts)
  | quote {start stop : Token} {inside ts : List Token} : start.isQuoteOpen = true →
    Nested inside → stop.isQuoteClose = true → Nested ts →
    Nested (start :: inside ++ stop :: ts)

section Cut

variable {start stop : Token} {inside : List Token}

theorem Nested.exists_close_iff (nested : Nested inside) :
    (∃ k ∈ inside, k.isQuoteClose = true) ↔ ∃ k ∈ inside, k.isQuoteOpen = true := by
  induction nested with
  | nil => simp
  | other noOpen noClose _ ih => simpa [noOpen, noClose] using ih
  | @quote start stop inside ts opens _ closes _ _ _ =>
    have started : ∃ k ∈ start :: inside ++ stop :: ts, k.isQuoteOpen = true :=
      ⟨start, by simp, opens⟩
    have stopped : ∃ k ∈ start :: inside ++ stop :: ts, k.isQuoteClose = true :=
      ⟨stop, by simp, closes⟩
    exact iff_of_true stopped started

theorem regions_quote_whole (opens : start.isQuoteOpen = true) (nested : Nested inside)
    (closes : stop.isQuoteClose = true) (flat : ∀ k ∈ inside, k.isQuoteOpen = false)
    (after : List Token) :
    regions (start :: inside ++ stop :: after) =
      .quote start inside (some stop) :: regions after := by
  have still : ∀ k ∈ inside, (!k.isQuoteClose) = true := by
    intro k member
    by_contra closed
    obtain ⟨j, found, opens⟩ := nested.exists_close_iff.1 ⟨k, member, by simpa using closed⟩
    simp [flat j found] at opens
  rw [List.cons_append, regions_quote start _ opens, List.takeWhile_append_of_pos still,
    List.dropWhile_append_of_pos still]
  simp [closes]

theorem regions_quote_cut (opens : start.isQuoteOpen = true) (nested : Nested inside)
    (deep : ∃ k ∈ inside, k.isQuoteOpen = true) :
    ∃ read first lost, inside = read ++ first :: lost ∧ first.isQuoteClose = true ∧
      (∀ k ∈ read, k.isQuoteClose = false) ∧
      ∀ more, regions (start :: inside ++ more) =
        .quote start read (some first) :: regions (lost ++ more) := by
  obtain ⟨k, member, closed⟩ := nested.exists_close_iff.2 deep
  obtain ⟨first, found⟩ : ∃ first, inside.find? Token.isQuoteClose = some first :=
    Option.isSome_iff_exists.1 (List.find?_isSome.2 ⟨k, member, closed⟩)
  obtain ⟨closes, read, lost, rfl, before⟩ := List.find?_eq_some_iff_append.1 found
  refine ⟨read, first, lost, rfl, closes, by simpa using before, fun more => ?_⟩
  rw [List.cons_append, regions_quote start _ opens, List.append_assoc,
    List.takeWhile_append_of_pos before, List.dropWhile_append_of_pos before]
  simp [closes]

end Cut

section Places

variable {start : Token} {quoted : List Token} {stop : Option Token} {after : List Region}

theorem fencesOf_append_quote (before : List Region) :
    fencesOf (before ++ .quote start quoted stop :: after) = fencesOf before := by
  induction before with
  | nil => rfl
  | cons r rest ih =>
    cases r with
    | heading | quote => rfl
    | loose t => rw [List.cons_append, fencesOf_loose, fencesOf_loose, ih]

theorem quotesFrom_append_quote (place : Nat) (before : List Region) :
    quotesFrom place (before ++ .quote start quoted stop :: after) =
      quotesFrom place before ++
        ⟨place + (headings before).length, quoted, fencesOf after⟩ ::
          quotesFrom (place + (headings before).length) after := by
  induction before generalizing place with
  | nil => rfl
  | cons r rest ih =>
    cases r with
    | heading start' title stop' =>
      have next : place + 1 + (headings rest).length =
          place + (headings (.heading start' title stop' :: rest)).length := by
        simp [headings, Region.heading?]
        omega
      rw [List.cons_append, quotesFrom, quotesFrom, ih, next]
    | quote start' quoted' stop' =>
      rw [List.cons_append, quotesFrom, quotesFrom, ih, fencesOf_append_quote]
      rfl
    | loose t =>
      rw [List.cons_append, quotesFrom, quotesFrom, ih]
      rfl

end Places

namespace Compiler

theorem command_of_quote {catalog : Catalog} {source : Text} {ts : List Token} {t : TestTree}
    (compiled : compile catalog source ts = .ok t) {before after : List Region} {start : Token}
    {quoted : List Token} {stop : Option Token}
    (split : regions ts = before ++ .quote start quoted stop :: after) :
    let place := (headings before).length
    ∃ c, (t.getD place).commands[((quotes before).filter fun q => q.place = place).length]? =
        some c ∧ Quote.IsCommand catalog ⟨place, quoted, fencesOf after⟩ c := by
  intro place
  rw [compile_eq, split] at compiled
  obtain ⟨more, commands, called⟩ := compileRegions_commands rfl compiled place
  have empty : (TestTree.new.getD place).commands = [] := by
    cases place <;> rfl
  have own : (quotesFrom 0 (before ++ .quote start quoted stop :: after)).filter
        (fun q => q.place = place) =
      (quotes before).filter (fun q => q.place = place) ++ ⟨place, quoted, fencesOf after⟩ ::
        (quotesFrom place after).filter fun q => q.place = place := by
    rw [quotesFrom_append_quote, Nat.zero_add, List.filter_append,
      List.filter_cons_of_pos (by simp [place])]
    rfl
  rw [own] at called
  rw [commands, empty, List.nil_append]
  obtain ⟨length, each⟩ := List.forall₂_iff_get.1 called
  have inside : ((quotes before).filter fun q => q.place = place).length < more.length := by
    rw [← length, List.length_append, List.length_cons]
    omega
  have called := each _ (length ▸ inside) inside
  refine ⟨more[_], List.getElem?_eq_getElem inside, ?_⟩
  simpa using called

theorem compile_reads_to_first_end {catalog : Catalog} {source : Text} {ts : List Token}
    {t : TestTree} (compiled : compile catalog source ts = .ok t) {before after : List Region}
    {start : Token} {read : List Token} {stop : Option Token}
    (split : regions ts = before ++ .quote start read stop :: after) {inside rest : List Token}
    {close : Token} (shape : ts = before.flatMap Region.tokens ++ start :: inside ++ close :: rest)
    (nested : Nested inside) (closes : close.isQuoteClose = true) :
    let place := (headings before).length
    (∃ c, (t.getD place).commands[((quotes before).filter fun q => q.place = place).length]? =
        some c ∧ Quote.IsCommand catalog ⟨place, read, fencesOf after⟩ c) ∧
      t.cases.map TestCase.heading =
        TestTree.root.heading :: headings before ++ headings after ∧
      ((∀ k ∈ inside, k.isQuoteOpen = false) →
        read = inside ∧ stop = some close ∧ after = regions rest) ∧
      ((∃ k ∈ inside, k.isQuoteOpen = true) →
        ∃ first lost, inside = read ++ first :: lost ∧ first.isQuoteClose = true ∧
          (∀ k ∈ read, k.isQuoteClose = false) ∧ stop = some first ∧
          after = regions (lost ++ close :: rest)) := by
  have member : .quote start read stop ∈ regions ts := by
    rw [split]
    exact List.mem_append_right _ List.mem_cons_self
  have opens : start.isQuoteOpen = true := regions_start member
  have behind : regions (start :: inside ++ close :: rest) = .quote start read stop :: after := by
    have tokens := regions_tokens ts
    rw [split, List.flatMap_append, shape, List.append_assoc] at tokens
    rw [← List.append_cancel_left tokens]
    exact (regions_append split (List.cons_ne_nil _ _)).1
  have outline := compiled
  rw [compile_eq] at outline
  obtain ⟨-, cases⟩ := compileRegions_outlined .new rfl outline
  refine ⟨command_of_quote compiled split, ?_, fun flat => ?_, fun deep => ?_⟩
  · rw [cases, split]
    simp [headings, Region.heading?, TestTree.new]
    rfl
  · rw [regions_quote_whole opens nested closes flat] at behind
    cases behind
    exact ⟨rfl, rfl, rfl⟩
  · obtain ⟨read', first, lost, shape', ends, still, cut⟩ := regions_quote_cut opens nested deep
    rw [cut] at behind
    cases behind
    exact ⟨first, lost, shape', ends, still, rfl, rfl⟩

theorem compile_reads_to_first_end_inner :
    let inside : List Token :=
      [.ofText "set a" 1, .bare .quoteOpen 2, .ofText "b" 2, .bare .quoteClose 2, .ofText "c" 4,
        .mk (.fence "yaml") "x: 1" [] 6, .bare (.headingOpen 1) 10, .ofText "In" 10,
        .bare (.headingClose 1) 10]
    let ts := .bare .quoteOpen 1 :: inside ++ [.bare .quoteClose 1]
    ∃ t c, Nested inside ∧ compile .builtin unnamed ts = .ok t ∧
      (t.getD 0).commands[0]? = some c ∧
      c.arguments = [.ofLine "a", .ofLine "b", .ofBlock "x: 1" "yaml" []] ∧
      t.cases.map TestCase.heading = [TestTree.root.heading, ⟨1, "In"⟩] := by
  intro inside ts
  have parts : regions ts =
      [] ++ .quote (.bare .quoteOpen 1) [.ofText "set a" 1, .bare .quoteOpen 2, .ofText "b" 2]
          (some (.bare .quoteClose 2)) ::
        [.loose (.ofText "c" 4), .loose (.mk (.fence "yaml") "x: 1" [] 6),
          .heading (.bare (.headingOpen 1) 10) [.ofText "In" 10]
            (some (.bare (.headingClose 1) 10)),
          .loose (.bare .quoteClose 1)] := by
    simp [ts, inside, regions, Token.bare, Token.ofText, Token.kind, Token.isHeadingClose,
      Token.isQuoteClose]
  obtain ⟨t, compiled⟩ : ∃ t, compile .builtin unnamed ts = .ok t := by
    rw [compile_eq, parts]
    exact ⟨_, rfl⟩
  have tail : Nested [.ofText "c" 4, .mk (.fence "yaml") "x: 1" [] 6, .bare (.headingOpen 1) 10,
      .ofText "In" 10, .bare (.headingClose 1) 10] :=
    .other rfl rfl (.other rfl rfl (.other rfl rfl (.other rfl rfl (.other rfl rfl .nil))))
  have inner : Nested [.ofText "b" 2] := .other rfl rfl .nil
  have quoted : Nested inside.tail := .quote rfl inner rfl tail
  have nested : Nested inside := .other rfl rfl quoted
  have shape : ts = ([] : List Region).flatMap Region.tokens ++
      .bare .quoteOpen 1 :: inside ++ .bare .quoteClose 1 :: [] := rfl
  obtain ⟨⟨c, found, spec, known, -, -, arguments⟩, cases, -, -⟩ :=
    compile_reads_to_first_end compiled parts shape nested rfl
  obtain rfl : CommandSpec.set = spec := Option.some.inj known
  exact ⟨t, c, nested, compiled, found, arguments, cases⟩

end Compiler

end Docspec
