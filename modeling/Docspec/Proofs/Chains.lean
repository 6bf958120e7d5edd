import Docspec.Proofs.Placeholders

set_option autoImplicit false

namespace Docspec

open Text

section Steps

variable {ε α β : Type} {x : Except ε α} {f : α → Except ε β}

theorem bind_eq_ok_iff {b : β} : x.bind f = .ok b ↔ ∃ a, x = .ok a ∧ f a = .ok b := by
  cases x <;> simp [Except.bind]

theorem bind_eq_error_iff {err : ε} :
    x.bind f = .error err ↔ x = .error err ∨ ∃ a, x = .ok a ∧ f a = .error err := by
  cases x <;> simp [Except.bind]

theorem mapError_eq_ok_iff {ε' : Type} {g : ε → ε'} {a : α} : x.mapError g = .ok a ↔ x = .ok a := by
  cases x <;> simp [Except.mapError]

end Steps

namespace Placeholder

structure Application where
  before : Text
  name : Text
  gap : Text
  argument : Text
  after : Text
  before_blank : ∀ c ∈ before, isBlank c = true
  named : isName name = true
  gap_blank : ∀ c ∈ gap, isBlank c = true
  no_bar : '|' ∉ argument
  parted : argument = [] ∨ gap ≠ []
  after_blank : ∀ c ∈ after, isBlank c = true

def Application.text (a : Application) : Text :=
  '|' :: (a.before ++ a.name ++ (a.gap ++ a.argument ++ a.after))

namespace Registry

def runFilter (r : Registry) (name : Text) (argument : Option Text) (value : Text) :
    Except Error Text :=
  match r.filter? name with
  | none => .error (.unknownFilter name)
  | some f => (f value argument).mapError (.filterFailed name)

/-- A text that goes through filters from the left, each with its argument trimmed and with none if
that is empty. -/
inductive Folds (r : Registry) : Text → List Application → Text → Prop
  | nil {value : Text} : Folds r value [] value
  | cons {value next result : Text} {a : Application} {rest : List Application} {f : Filter} :
    r.filter? a.name = some f → f value (trimmed? a.argument) = .ok next →
    Folds r next rest result → Folds r value (a :: rest) result

inductive Refuses (r : Registry) (value : Text) (a : Application) : Error → Prop
  | unknown : r.filter? a.name = none → Refuses r value a (.unknownFilter a.name)
  | failed {f : Filter} {message : Text} : r.filter? a.name = some f →
    f value (trimmed? a.argument) = .error message →
    Refuses r value a (.filterFailed a.name message)

variable {r : Registry} {value : Text}

theorem runFilter_eq_ok_iff {name result : Text} {argument : Option Text} :
    r.runFilter name argument value = .ok result ↔
      ∃ f, r.filter? name = some f ∧ f value argument = .ok result := by
  rw [runFilter]
  split
  next unknown => simp [unknown]
  next f known => simp [known, mapError_eq_ok_iff]

theorem refuses_iff {a : Application} {err : Error} :
    r.runFilter a.name (trimmed? a.argument) value = .error err ↔ r.Refuses value a err := by
  rw [runFilter]
  constructor
  · intro refused
    split at refused
    next unknown =>
      cases refused
      exact .unknown unknown
    next f known =>
      cases applied : f value (trimmed? a.argument) with
      | ok result => simp [applied, Except.mapError] at refused
      | error message =>
        rw [applied] at refused
        cases refused
        exact .failed known applied
  · rintro (unknown | ⟨known, applied⟩)
    · rw [unknown]
    · simp [known, applied, Except.mapError]

end Registry

theorem solid_of_isName {n : Text} (named : isName n = true) : ∀ c ∈ n, isBlank c = false :=
  fun c member => isBlank_of_isVariableChar (variableChars_of_isName named c member)

theorem name_ne_nil {n : Text} (named : isName n = true) : n ≠ [] := by
  rintro rfl
  cases named

theorem not_mem_of_blank {b : Text} (blank : ∀ c ∈ b, isBlank c = true) {d : Char}
    (visible : isBlank d = false) : d ∉ b := fun member => by
  simp [blank d member] at visible

theorem Application.isItem (a : Application) : IsItem a.text := by
  have gap := not_mem_of_blank a.gap_blank (d := '|') rfl
  have after := not_mem_of_blank a.after_blank (d := '|') rfl
  exact .mk a.before_blank a.named (by simp [gap, after, a.no_bar])

theorem Registry.applyFilter_item (r : Registry) {blanks name more : Text}
    (blank : ∀ c ∈ blanks, isBlank c = true) (nonempty : name ≠ [])
    (solid : ∀ c ∈ name, isBlank c = false) (apart : ∀ c ∈ more.head?, isBlank c = true)
    (value : Text) :
    r.applyFilter (trim (blanks ++ name ++ more)) value =
      r.runFilter name (trimmed? more) value := by
  rw [applyFilter, List.append_assoc, trim_blanks_append blank, trim_word nonempty solid]
  by_cases empty : trimEnd more = []
  next =>
    have none : trimmed? more = .none := by
      rw [trimmed?_eq, if_pos]
      exact trim_append_blanks [] (List.all_eq_true.1 (trimEnd_eq_nil_iff.1 empty))
    rw [empty, List.append_nil, splitOnce_eq_none solid, none]
    rfl
  next =>
    cases more with
    | nil => exact absurd rfl empty
    | cons c more =>
      have first : isBlank c = true := apart c rfl
      have kept : trimEnd (c :: more) = c :: trimEnd more := by
        rw [trimEnd_cons] at empty ⊢
        exact if_neg fun both => empty (if_pos both)
      have argument : trimmed? (trimEnd more) = trimmed? (c :: more) := by
        rw [trimmed?_eq, trimmed?_eq, trim_trimEnd, ← trim_blanks_append (a := [c]) (by simpa) more]
        rfl
      rw [kept, splitOnce_append solid first]
      simp only [argument]
      rfl

theorem Registry.applyFilter_text (r : Registry) (a : Application) (value : Text) :
    r.applyFilter (trim a.text.tail) value = r.runFilter a.name (trimmed? a.argument) value := by
  have argument : trimmed? (a.gap ++ a.argument ++ a.after) = trimmed? a.argument := by
    rw [trimmed?_eq, trimmed?_eq, trim_append_blanks _ a.after_blank,
      trim_blanks_append a.gap_blank]
  rw [← argument, Application.text, List.tail_cons]
  refine r.applyFilter_item a.before_blank (name_ne_nil a.named) (solid_of_isName a.named)
    (fun c first => ?_) value
  cases gap : a.gap with
  | nil =>
    rw [gap, a.parted.resolve_right (by simp [gap])] at first
    exact a.after_blank c (List.mem_of_mem_head? first)
  | cons d rest =>
    rw [gap] at first
    obtain rfl : d = c := Option.some.inj first
    exact a.gap_blank d (by simp [gap])

section Chain

variable {r : Registry} {chain : List Application} {value : Text}

theorem Registry.applyFilters_cons (a : Application) :
    r.applyFilters ((a :: chain).map fun a => trim a.text.tail) value =
      (r.runFilter a.name (trimmed? a.argument) value).bind
        (r.applyFilters (chain.map fun a => trim a.text.tail)) := by
  rw [List.map_cons, applyFilters, applyFilter_text]

theorem Registry.applyFilters_eq_ok_iff {result : Text} :
    r.applyFilters (chain.map fun a => trim a.text.tail) value = .ok result ↔
      r.Folds value chain result := by
  induction chain generalizing value with
  | nil =>
    constructor
    · rintro same
      cases same
      exact .nil
    · rintro ⟨⟩
      rfl
  | cons a chain ih =>
    rw [applyFilters_cons, bind_eq_ok_iff]
    constructor
    · rintro ⟨next, ran, rest⟩
      obtain ⟨f, known, applied⟩ := runFilter_eq_ok_iff.1 ran
      exact .cons known applied (ih.1 rest)
    · rintro (_ | ⟨known, applied, rest⟩)
      exact ⟨_, runFilter_eq_ok_iff.2 ⟨_, known, applied⟩, ih.2 rest⟩

theorem Registry.applyFilters_eq_error_iff {err : Error} :
    r.applyFilters (chain.map fun a => trim a.text.tail) value = .error err ↔
      ∃ done a later next, chain = done ++ a :: later ∧ r.Folds value done next ∧
        r.Refuses next a err := by
  induction chain generalizing value with
  | nil => simp [applyFilters]
  | cons a chain ih =>
    rw [applyFilters_cons, bind_eq_error_iff, refuses_iff]
    constructor
    · rintro (refuses | ⟨next, ran, failed⟩)
      · exact ⟨[], a, chain, value, rfl, .nil, refuses⟩
      · obtain ⟨f, known, applied⟩ := runFilter_eq_ok_iff.1 ran
        obtain ⟨done, b, later, last, rfl, folds, refuses⟩ := ih.1 failed
        exact ⟨a :: done, b, later, last, rfl, .cons known applied folds, refuses⟩
    · rintro ⟨done, b, later, last, shape, folds, refuses⟩
      cases folds with
      | nil =>
        obtain ⟨rfl, rfl⟩ := List.cons.inj shape
        exact .inl refuses
      | cons known applied rest =>
        obtain ⟨rfl, rfl⟩ := List.cons.inj shape
        exact .inr ⟨_, runFilter_eq_ok_iff.2 ⟨_, known, applied⟩,
          ih.2 ⟨_, b, later, last, rfl, rest, refuses⟩⟩

end Chain

theorem head_behind_blanks {gap rest : Text} (blank : ∀ c ∈ gap, isBlank c = true)
    (stop : ∀ c ∈ rest.head?, isVariableChar c = false) :
    ∀ c ∈ (gap ++ rest).head?, isVariableChar c = false := by
  intro c first
  cases gap with
  | nil => exact stop c first
  | cons d gap =>
    obtain rfl : d = c := Option.some.inj first
    rw [← Bool.not_eq_true]
    intro taken
    simp [isBlank_of_isVariableChar taken] at blank

theorem identifies_before_bar {identifier gap rest : Text}
    (named : isVariableName identifier = true) (blank : ∀ c ∈ gap, isBlank c = true)
    (bar : ∀ c ∈ rest.head?, c = '|') :
    Identifies (identifier ++ (gap ++ rest)) identifier (gap ++ rest) := by
  have visible : ∀ c ∈ rest.head?, isBlank c = false := fun c first => by
    rw [bar c first]
    rfl
  have stop := head_behind_blanks blank fun c first => bar c first ▸ by decide
  refine .name rfl ?_ named stop
  rintro _ more ⟨named', -, blank', -⟩ shape
  rename_i name gap' argument
  simp only [List.append_assoc, List.cons_append] at shape
  have stop' : ∀ c ∈ (gap' ++ '(' :: (argument ++ ([')'] ++ more))).head?,
      isVariableChar c = false :=
    head_behind_blanks blank' (by simp [show isVariableChar '(' = false from rfl])
  have after : gap ++ rest = gap' ++ '(' :: (argument ++ ([')'] ++ more)) := by
    rw [← (longest (name_chars named) stop).2, shape]
    exact (longest (variableChars_of_isName named') stop').2
  have opens : rest = '(' :: (argument ++ ([')'] ++ more)) := by
    rw [← (longest blank visible).2, after]
    exact (longest blank' (by simp [show isBlank '(' = false from rfl])).2
  have same := bar '(' (by simp [opens])
  cases same

def Body.Parts.beforeBar {lead identifier gap rest : Text}
    (lead_blank : ∀ c ∈ lead, isBlank c = true)
    (identified : isVariableName identifier = true ∨ IsCall identifier)
    (gap_blank : ∀ c ∈ gap, isBlank c = true) (bar : ∀ c ∈ rest.head?, c = '|') :
    Parts (lead ++ (identifier ++ (gap ++ rest))) where
  lead := lead
  identifier := identifier
  gap := gap
  rest := rest
  whole := rfl
  lead_blank := lead_blank
  gap_blank := gap_blank
  identifies := identified.elim (fun named => identifies_before_bar named gap_blank bar) (.call rfl)
  rest_visible c first := by
    rw [bar c first]
    rfl

theorem Body.parse?_chain {lead identifier gap : Text} (chain : List Application)
    (lead_blank : ∀ c ∈ lead, isBlank c = true) (gap_blank : ∀ c ∈ gap, isBlank c = true)
    (identified : isVariableName identifier = true ∨ IsCall identifier) :
    ∃ b, parse? (lead ++ (identifier ++ (gap ++ chain.flatMap Application.text))) = some b ∧
      b.identifier = identifier ∧ b.filters = chain.map (fun a => trim a.text.tail) ∧
      b.invalid = [] := by
  have each : ∀ i ∈ chain.map Application.text, IsItem i := by
    intro i member
    obtain ⟨a, -, rfl⟩ := List.mem_map.1 member
    exact a.isItem
  have shape : chain.flatMap Application.text = (chain.map Application.text).flatten :=
    List.flatMap_def
  have bar : ∀ c ∈ (chain.flatMap Application.text).head?, c = '|' := by
    rw [shape, ← List.append_nil (List.flatten _)]
    exact bar_before each (by simp)
  let p := Parts.beforeBar lead_blank identified gap_blank bar
  obtain ⟨b, parsed, own, filters, valid⟩ := p.parse?_items shape each
  exact ⟨b, parsed, own, by simpa [Function.comp_def] using filters, valid⟩

end Placeholder

namespace Engine

open Placeholder Markers

theorem interpolate_chain (e : Engine) (vars : Vars) {lead identifier gap : Text}
    (chain : List Application) {value : Text} (lead_blank : ∀ c ∈ lead, isBlank c = true)
    (gap_blank : ∀ c ∈ gap, isBlank c = true)
    (identified : isVariableName identifier = true ∨ IsCall identifier)
    (resolved : e.resolve vars identifier = .ok value) :
    let body := lead ++ (identifier ++ (gap ++ chain.flatMap Application.text))
    ∃ b, Body.parse? body = some b ∧
      (∀ template offset,
        (∀ result, e.expand template vars offset b = .ok result ↔
          e.registry.Folds value chain result) ∧
        ∀ err, e.expand template vars offset b = .error err ↔
          ∃ done a later next, chain = done ++ a :: later ∧ e.registry.Folds value done next ∧
            e.registry.Refuses next a err) ∧
      ∀ t done v later, e.markers.HasNoStandIn → (∀ c ∈ t, isStandIn c = false) →
        e.markers.visits (e.markers.escape t) = done ++ v :: later → v.body = body →
        e.interpolate t vars =
          (done.mapM (e.piece t vars)).bind fun front =>
            (e.expand t vars (byteLength (v.done ++ v.before ++ e.markers.opening)) b).bind
              fun result => (later.mapM (e.piece t vars)).map fun back =>
                front.flatten ++ (e.markers.unescape v.before ++ result) ++ back.flatten ++
                  e.markers.unescape (leftOver (e.markers.escape t) (done ++ v :: later)) := by
  intro body
  obtain ⟨b, parsed, own, filters, valid⟩ :=
    Body.parse?_chain chain lead_blank gap_blank identified
  have expanded (template : Text) (offset : Nat) : e.expand template vars offset b =
      e.registry.applyFilters (chain.map fun a => trim a.text.tail) value := by
    rw [expand, valid, own, filters, resolved]
    rfl
  refine ⟨b, parsed, fun template offset => ⟨fun result => ?_, fun err => ?_⟩, ?_⟩
  · rw [expanded]
    exact Registry.applyFilters_eq_ok_iff
  · rw [expanded]
    exact Registry.applyFilters_eq_error_iff
  · intro t done v later free bare visited shape
    have outcome : e.outcome t vars v =
        e.expand t vars (byteLength (v.done ++ v.before ++ e.markers.opening)) b := by
      rw [Engine.outcome, shape, parsed]
    rw [e.interpolate_visited vars free bare visited, outcome]

def brokenChain : List Application :=
  have blank {b : Text} (all : b.all isBlank = true) : ∀ c ∈ b, isBlank c = true :=
    List.all_eq_true.1 all
  [⟨[], "strip", [], [], [], blank rfl, rfl, blank rfl, by decide, by decide, blank rfl⟩,
   ⟨[' '], "replace", "  ", "a > e", [' '], blank rfl, rfl, blank rfl, by decide, by decide,
     blank rfl⟩,
   ⟨[' '], "shout", [' '], "at me", [], blank rfl, rfl, blank rfl, by decide, by decide, blank rfl⟩,
   ⟨[], "upper", [], [], "\n ", blank rfl, rfl, blank rfl, by decide, by decide, blank rfl⟩]

theorem interpolate_chain_shout :
    let e := Engine.builtin ⟨0, 0⟩
    let vars : Vars := [("s", .str " tasty ")]
    let t : Text := "\x7b\x7b s |strip| replace  a > e | shout at me|upper\n \x7d\x7d"
    isVariableName ['s'] = true ∧ e.resolve vars ['s'] = .ok " tasty ".toList ∧
      e.markers.HasNoStandIn ∧ (∀ c ∈ t, isStandIn c = false) ∧
      (∃ a b, brokenChain.take 2 ++ a :: b = brokenChain ∧
        e.registry.Folds " tasty ".toList (brokenChain.take 2) "testy".toList ∧
        e.registry.Refuses "testy".toList a (.unknownFilter "shout")) ∧
      e.interpolate t vars = .error (.unknownFilter "shout") := by
  intro e vars t
  have free : e.markers.HasNoStandIn := default_no_standIn
  have unmarked : Unmarked t := by decide
  have resolved : e.resolve vars ['s'] = .ok " tasty ".toList := rfl
  have blank : ∀ c ∈ [' '], isBlank c = true := List.forall_mem_singleton.2 rfl
  obtain ⟨b, -, expands, whole⟩ :=
    interpolate_chain e vars brokenChain blank blank (.inl (by decide)) resolved
  let v : Visit :=
    { before := [], body := [' '] ++ (['s'] ++ ([' '] ++ brokenChain.flatMap Application.text)),
      after := [], done := [] }
  have visited : e.markers.visits (e.markers.escape t) = [] ++ v :: [] := by
    have found : e.markers.nextSpan? t = some v.toSpan := rfl
    have last : e.markers.nextSpan? [] = none := rfl
    rw [e.escape_of_no_backtick unmarked.no_backtick, visits, visitsFrom_some found,
      visitsFrom_none last]
    rfl
  have folds : e.registry.Folds " tasty ".toList (brokenChain.take 2) "testy".toList :=
    .cons rfl rfl (.cons rfl rfl .nil)
  have refuses : e.registry.Refuses "testy".toList brokenChain[2] (.unknownFilter "shout") :=
    .unknown rfl
  have fails := ((expands t (byteLength (v.done ++ v.before ++ e.markers.opening))).2
    (.unknownFilter "shout")).2 ⟨_, _, _, _, rfl, folds, refuses⟩
  refine ⟨rfl, resolved, free, unmarked.no_standIn,
    ⟨brokenChain[2], brokenChain.drop 3, rfl, folds, refuses⟩, ?_⟩
  rw [whole t [] v [] free unmarked.no_standIn visited rfl, fails]
  rfl

end Engine

end Docspec
