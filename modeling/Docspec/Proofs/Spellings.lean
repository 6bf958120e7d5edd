import Docspec.Proofs.Arguments
import Docspec.Proofs.Respelling

set_option autoImplicit false

namespace Docspec

open Text

namespace Placeholder

/-- Outcomes that are the same but for the name that an error shows as it is written. -/
inductive Rewords (s s' : Text) {α : Type} : Except Error α → Except Error α → Prop
  | same (x : Except Error α) : Rewords s s' x x
  | unknownFilter : Rewords s s' (.error (.unknownFilter s)) (.error (.unknownFilter s'))
  | unknownFunction : Rewords s s' (.error (.unknownFunction s)) (.error (.unknownFunction s'))
  | filterFailed (message : Text) :
    Rewords s s' (.error (.filterFailed s message)) (.error (.filterFailed s' message))
  | functionFailed (message : Text) :
    Rewords s s' (.error (.functionFailed s message)) (.error (.functionFailed s' message))

section Rewords

variable {s s' : Text} {α β γ : Type}

theorem Rewords.bind {x y : Except Error α} (first : Rewords s s' x y) {f g : α → Except Error β}
    (rest : ∀ a, Rewords s s' (f a) (g a)) : Rewords s s' (x.bind f) (y.bind g) := by
  cases first with
  | same x =>
    cases x with
    | error err => exact .same _
    | ok a => exact rest a
  | unknownFilter => exact .unknownFilter
  | unknownFunction => exact .unknownFunction
  | filterFailed message => exact .filterFailed message
  | functionFailed message => exact .functionFailed message

theorem Rewords.eq_ok {a : α} {y : Except Error α} (reworded : Rewords s s' (.ok a) y) :
    y = .ok a := by
  cases reworded with
  | same => rfl

theorem Rewords.map {x y : Except Error α} (reworded : Rewords s s' x y) (f : α → β) :
    Rewords s s' (x.map f) (y.map f) :=
  reworded.bind fun a => .same (.ok (f a))

theorem Rewords.mapM {f : α → Except Error γ} {g : β → Except Error γ} {as : List α} {bs : List β}
    (paired : List.Forall₂ (fun a b => Rewords s s' (f a) (g b)) as bs) :
    Rewords s s' (as.mapM f) (bs.mapM g) := by
  induction paired with
  | nil => exact .same _
  | cons first _ ih =>
    rw [List.mapM_cons, List.mapM_cons]
    exact first.bind fun c => ih.bind fun cs => .same _

end Rewords

def beforeDot (t : Text) : Text := t.takeWhile (· ≠ '.')

/-- What a body has before and behind the name of a filter that it applies, or of the function that
it calls. A variable that is called like the call, or like what the call has before its first dot,
goes before the function: where there is one, it is bound alike under both spellings. -/
inductive Around (vars : Vars) (s s' : Text) : Text → Text → Prop
  | filter {lead identifier gap blanks back : Text} {items : List Text} :
    (∀ c ∈ lead, isBlank c = true) → isVariableName identifier = true ∨ IsCall identifier →
    (∀ c ∈ gap, isBlank c = true) → (∀ i ∈ items, IsItem i) → (∀ c ∈ blanks, isBlank c = true) →
    (∀ c ∈ s.head?, isNameStart c = true) → (∀ c ∈ s'.head?, isNameStart c = true) →
    (∀ c ∈ back.head?, isBlank c = true ∨ c = '|') →
    Around vars s s' (lead ++ (identifier ++ (gap ++ (items.flatten ++ '|' :: blanks)))) back
  | call {lead gap argument rest : Text} :
    (∀ c ∈ lead, isBlank c = true) → isName s = true → isName s' = true → gap.length ≤ 1 →
    (∀ c ∈ gap, isBlank c = true) → ')' ∉ argument →
    Bindings.get? (beforeDot (s ++ gap ++ '(' :: (argument ++ [')']))) vars =
      Bindings.get? (beforeDot (s' ++ gap ++ '(' :: (argument ++ [')']))) vars →
    Around vars s s' lead (gap ++ '(' :: (argument ++ ')' :: rest))

section Registry

variable (r : Registry) {key s s' : Text} (own : Spells key s) (other : Spells key s')
include own other

theorem Registry.runFilter_rewords (argument : Option Text) (value : Text) :
    Rewords s s' (r.runFilter s argument value) (r.runFilter s' argument value) := by
  have same : r.filter? s = r.filter? s' := by
    rw [filter?, filter?, own.canonical, other.canonical]
  rw [runFilter, runFilter, same]
  cases r.filter? s' with
  | none => exact .unknownFilter
  | some f =>
    cases applied : f value argument with
    | ok result => simpa [applied, Except.mapError] using .same _
    | error message => simpa [applied, Except.mapError] using .filterFailed message

theorem Registry.runFunction_rewords (argument : Option Text) :
    Rewords s s' (r.runFunction s argument) (r.runFunction s' argument) := by
  have same : r.function? s = r.function? s' := by
    rw [function?, function?, own.canonical, other.canonical]
  rw [runFunction, runFunction, same]
  cases r.function? s' with
  | none => exact .unknownFunction
  | some f =>
    cases called : f argument with
    | ok result => simpa [called, Except.mapError] using .same _
    | error message => simpa [called, Except.mapError] using .functionFailed message

theorem Registry.applyFilters_rewords {blanks more : Text} (blank : ∀ c ∈ blanks, isBlank c = true)
    (apart : ∀ c ∈ more.head?, isBlank c = true) (before after : List Text) (value : Text) :
    Rewords s s' (r.applyFilters (before ++ trim (blanks ++ s ++ more) :: after) value)
      (r.applyFilters (before ++ trim (blanks ++ s' ++ more) :: after) value) := by
  have applied {key n : Text} (spells : Spells key n) (value : Text) :=
    r.applyFilter_item blank spells.ne_nil
      (fun c member => isBlank_of_isSpelling (spells.chars c member)) apart value
  induction before generalizing value with
  | nil =>
    rw [List.nil_append, List.nil_append, applyFilters, applyFilters, applied own, applied other]
    exact (r.runFilter_rewords own other _ _).bind fun next => .same _
  | cons item before ih => exact (Rewords.same _).bind fun next => ih next

end Registry

section Body

variable {lead identifier gap blanks name more rest : Text} {items : List Text}

theorem Body.parse?_applied (lead_blank : ∀ c ∈ lead, isBlank c = true)
    (identified : isVariableName identifier = true ∨ IsCall identifier)
    (gap_blank : ∀ c ∈ gap, isBlank c = true) (each : ∀ i ∈ items, IsItem i)
    (blank : ∀ c ∈ blanks, isBlank c = true) (nonempty : name ≠ [])
    (start : ∀ c ∈ name.head?, isNameStart c = true) (barless : '|' ∉ name ++ more)
    (next : ∀ c ∈ rest.head?, c = '|') :
    let body := lead ++ (identifier ++ (gap ++ (items.flatten ++
      '|' :: (blanks ++ name ++ more ++ rest))))
    parse? body = some ⟨identifier,
      items.map (fun i => trim i.tail) ++
        trim (blanks ++ name ++ more) :: (filterChain rest).1.map trim,
      trimEnd (filterChain rest).2, byteLength body - byteLength (filterChain rest).2⟩ := by
  intro body
  let item := '|' :: (blanks ++ name ++ more)
  have isItem : IsItem item := by
    obtain ⟨c, letters, rfl⟩ := List.exists_cons_of_ne_nil nonempty
    refine isItem_iff.2 ⟨_, rfl, ?_, isFilter_iff.2 ⟨blanks, c, letters ++ more, by simp, blank,
      start c rfl⟩⟩
    rw [List.append_assoc, List.mem_append, not_or]
    exact ⟨not_mem_of_blank blank rfl, barless⟩
  have chain := filterChain_items each (item ++ rest) (by simp [item])
  rw [filterChain_item isItem next] at chain
  have bar : ∀ c ∈ (items.flatten ++ (item ++ rest)).head?, c = '|' :=
    bar_before each (by simp [item])
  have parsed := parse?_parts (Parts.beforeBar lead_blank identified gap_blank bar)
  rw [Parts.beforeBar, chain, List.map_append, List.map_map] at parsed
  exact parsed

theorem Body.parse?_called {argument : Text} (lead_blank : ∀ c ∈ lead, isBlank c = true)
    (named : isName name = true) (short : gap.length ≤ 1) (blank : ∀ c ∈ gap, isBlank c = true)
    (absent : ')' ∉ argument) :
    let body := lead ++ (name ++ (gap ++ '(' :: (argument ++ ')' :: rest)))
    let chain := filterChain (trimStart rest)
    parse? body = some ⟨name ++ gap ++ '(' :: (argument ++ [')']), chain.1.map trim,
      trimEnd chain.2, byteLength body - byteLength chain.2⟩ := by
  intro body chain
  have parted : rest.takeWhile isBlank ++ trimStart rest = rest := List.takeWhile_append_dropWhile
  have first := List.head?_dropWhile_not isBlank rest
  let p : Parts body := ⟨lead, name ++ gap ++ '(' :: (argument ++ [')']), rest.takeWhile isBlank,
    trimStart rest, by simp [body, parted], lead_blank, fun c => List.mem_takeWhile_imp,
    .call rfl (.mk named short blank absent), fun c visible => by
      rwa [← trimStart, Option.mem_def.1 visible] at first⟩
  exact parse?_parts p

end Body

end Placeholder

namespace Engine

open Placeholder Markers

section Resolve

variable (e : Engine) (vars : Vars)

theorem resolve_dotted {first : Text} (plain : '.' ∉ first) (path : Text) :
    e.resolve vars (first ++ '.' :: path) = .ok (((Bindings.get? first vars).bind
      (Value.lookup (splitAll '.' path))).getD .null).display := by
  rw [resolve, if_pos (by simp), splitAll_append plain]

theorem resolve_rewords {key s s' : Text} (own : Spells key s) (other : Spells key s')
    {gap argument : Text} (named : isName s = true) (named' : isName s' = true)
    (blank : ∀ c ∈ gap, isBlank c = true)
    (bound : Bindings.get? (beforeDot (s ++ gap ++ '(' :: (argument ++ [')']))) vars =
      Bindings.get? (beforeDot (s' ++ gap ++ '(' :: (argument ++ [')']))) vars) :
    Rewords s s' (e.resolve vars (s ++ gap ++ '(' :: (argument ++ [')'])))
      (e.resolve vars (s' ++ gap ++ '(' :: (argument ++ [')']))) := by
  have called {n : Text} (named : isName n = true) :
      e.registry.call (n ++ gap ++ '(' :: (argument ++ [')'])) =
        e.registry.runFunction n (trimmed? argument) := e.registry.call_parts named blank
  have last (n : Text) : (n ++ gap ++ '(' :: (argument ++ [')'])).getLast? = some ')' := by
    rw [← List.cons_append, ← List.append_assoc, List.getLast?_concat]
  obtain ⟨stem, path, shape, inside, stop⟩ :=
    exists_longest (· ≠ '.') (gap ++ '(' :: (argument ++ [')']))
  have dotless : '.' ∉ stem := fun member => by simpa using inside _ member
  have plain {key n : Text} (spells : Spells key n) : '.' ∉ n ++ stem := by
    rw [List.mem_append, not_or]
    exact ⟨spells.not_mem rfl, dotless⟩
  have first {key n : Text} (spells : Spells key n) :
      beforeDot (n ++ (stem ++ path)) = n ++ stem := by
    rw [← List.append_assoc, beforeDot]
    refine (longest (fun c member => ?_) stop).1
    have differ : c ≠ '.' := ne_of_mem_of_not_mem member (plain spells)
    simpa using differ
  rw [List.append_assoc, List.append_assoc, shape, first own, first other] at bound
  cases path with
  | cons c path =>
    obtain rfl : c = '.' := by simpa using stop c rfl
    rw [List.append_assoc, List.append_assoc, shape, ← List.append_assoc, ← List.append_assoc,
      e.resolve_dotted vars (plain own), e.resolve_dotted vars (plain other), bound]
    exact .same _
  | nil =>
    rw [List.append_nil] at shape
    have whole {key n : Text} (spells : Spells key n) :
        '.' ∉ n ++ gap ++ '(' :: (argument ++ [')']) := by
      rw [List.append_assoc, shape]
      exact plain spells
    rw [resolve, resolve, if_neg (whole own), if_neg (whole other), last, last, if_pos rfl,
      if_pos rfl, called named, called named', List.append_assoc, List.append_assoc, shape, bound]
    cases Bindings.get? (s' ++ stem) vars with
    | some v => exact .same _
    | none => exact e.registry.runFunction_rewords own other _

end Resolve

section Expand

variable (e : Engine) {vars : Vars} {key s s' : Text} (own : Spells key s) (other : Spells key s')
  {t t' : Text} (located : ∀ n, locate t n = locate t' n)

include located in
theorem expand_rewords {b b' : Body} (invalid : b.invalid = b'.invalid)
    (offset : b.invalidOffset = b'.invalidOffset)
    (filled : Rewords s s' ((e.resolve vars b.identifier).bind (e.registry.applyFilters b.filters))
      ((e.resolve vars b'.identifier).bind (e.registry.applyFilters b'.filters))) (n : Nat) :
    Rewords s s' (e.expand t vars n b) (e.expand t' vars n b') := by
  rw [expand, expand, invalid, offset, located]
  split
  next => exact .same _
  next => exact filled

include located in
theorem outcome_alike {v v' : Visit}
    (place : byteLength (v.done ++ v.before) = byteLength (v'.done ++ v'.before))
    (body : v'.body = v.body) : e.outcome t vars v = e.outcome t' vars v' := by
  rw [outcome, outcome, byteLength_append, place, ← byteLength_append, body]
  simp only [expand, located]

include own other located in
theorem outcome_rewords {front back : Text} (around : Around vars s s' front back) {v v' : Visit}
    (place : byteLength (v.done ++ v.before) = byteLength (v'.done ++ v'.before))
    (body : v.body = front ++ (s ++ back)) (body' : v'.body = front ++ (s' ++ back)) :
    Rewords s s' (e.outcome t vars v) (e.outcome t' vars v') := by
  have size := own.byteLength_alike other front back
  rw [outcome, outcome, byteLength_append, place, ← byteLength_append, body, body']
  cases around with
  | @filter lead identifier gap blanks _ items lead_blank identified gap_blank each blank start
      start' stop =>
    obtain ⟨more, rest, rfl, barless, next⟩ := exists_before_bar back
    have apart : ∀ c ∈ more.head?, isBlank c = true := by
      intro c first
      have member := List.mem_of_mem_head? first
      refine (stop c ?_).resolve_right (ne_of_mem_of_not_mem member barless)
      rw [List.head?_append_of_ne_nil _ (List.ne_nil_of_mem member)]
      exact first
    have parsed {n : Text} (spells : Spells key n) (start : ∀ c ∈ n.head?, isNameStart c = true) :=
      Body.parse?_applied lead_blank identified gap_blank each blank spells.ne_nil start
        (List.not_mem_append (spells.not_mem rfl) barless) next
    have shape (n : Text) : lead ++ (identifier ++ (gap ++ (items.flatten ++ '|' :: blanks))) ++
        (n ++ (more ++ rest)) = lead ++ (identifier ++ (gap ++ (items.flatten ++
          '|' :: (blanks ++ n ++ more ++ rest)))) := by simp
    rw [shape, shape] at size
    rw [shape, shape, parsed own start, parsed other start']
    dsimp only
    refine e.expand_rewords located ?_ ?_ ?_ _
    · rfl
    · exact congrArg (· - _) size
    · exact (Rewords.same _).bind (e.registry.applyFilters_rewords own other blank apart _ _)
  | @call lead gap argument rest lead_blank named named' short blank absent bound =>
    rw [Body.parse?_called lead_blank named short blank absent,
      Body.parse?_called lead_blank named' short blank absent]
    dsimp only
    refine e.expand_rewords located ?_ ?_ ?_ _
    · rfl
    · exact congrArg (· - _) size
    · exact (e.resolve_rewords vars own other named named' blank bound).bind fun value => .same _

end Expand

theorem assemble_befores (m : Markers) (cuts : List Cut) (last : Text) (values : List Text) :
    m.assemble cuts last values = (List.zipWith (fun before value => m.restored before ++ value)
      (cuts.map Cut.before) values).flatten ++ m.restored last := by
  rw [assemble, List.zipWith_map_left]

theorem interpolate_respelled (e : Engine) (vars : Vars) (foreign : e.markers.Foreign)
    {key s s' : Text} (own : Spells key s) (other : Spells key s') {t last before front back : Text}
    {done later : List Cut}
    (cutting : e.markers.Cutting t (done ++ ⟨before, front ++ (s ++ back)⟩ :: later) last)
    (around : Around vars s s' (e.markers.escape front) (e.markers.escape back)) :
    ∃ a b, t = a ++ (s ++ b) ∧
      let t' := a ++ (s' ++ b)
      e.markers.Cutting t' (done ++ ⟨before, front ++ (s' ++ back)⟩ :: later) last ∧
        List.Forall₂ (fun v v' => Rewords s s' (e.outcome t vars v) (e.outcome t' vars v'))
          (e.markers.visits (e.markers.escape t)) (e.markers.visits (e.markers.escape t')) ∧
        Rewords s s' (e.interpolate t vars) (e.interpolate t' vars) := by
  obtain ⟨a, b, rfl, cutting'⟩ := cutting.respelled foreign own other
  have alike := own.blurred_alike other a b
  have located (n : Nat) : locate (a ++ (s ++ b)) n = locate (a ++ (s' ++ b)) n := by
    rw [← locate_blurred, alike, locate_blurred]
  have outcomes : List.Forall₂ (fun v v' => Rewords s s' (e.outcome (a ++ (s ++ b)) vars v)
      (e.outcome (a ++ (s' ++ b)) vars v')) (e.markers.visits (e.markers.escape (a ++ (s ++ b))))
      (e.markers.visits (e.markers.escape (a ++ (s' ++ b)))) := by
    refine (cutting.visits_respelled foreign own other cutting').imp fun v v' both => ?_
    obtain ⟨place, same | ⟨body, body'⟩⟩ := both
    · rw [e.outcome_alike located place same]
      exact .same _
    · exact e.outcome_rewords own other located around place body body'
  refine ⟨a, b, rfl, cutting', outcomes, ?_⟩
  -- With a stand-in in it a template is refused before it is cut up.
  by_cases bare : ∀ c ∈ a ++ (s ++ b), isStandIn c = false
  next =>
    have bare' : ∀ c ∈ a ++ (s' ++ b), isStandIn c = false := by
      simp only [List.forall_mem_append] at bare ⊢
      exact ⟨bare.1, fun c member => isStandIn_of_isSpelling (other.chars c member), bare.2.2⟩
    have assembled (values : List Text) :
        e.markers.assemble (done ++ ⟨before, front ++ (s ++ back)⟩ :: later) last values =
          e.markers.assemble (done ++ ⟨before, front ++ (s' ++ back)⟩ :: later) last values := by
      simp only [assemble_befores, List.map_append, List.map_cons]
    rw [(interpolate_cutting vars foreign.hasNoStandIn cutting bare).2,
      (interpolate_cutting vars foreign.hasNoStandIn cutting' bare').2, ← funext assembled]
    exact (Rewords.mapM outcomes).map _
  next =>
    rw [e.interpolate_reserved vars alike bare]
    exact .same _

theorem interpolate_respelled_upper :
    let e := Engine.builtin ⟨0, 0⟩
    let vars : Vars := [("x", .str "v")]
    let call : Text := "\x7b\x7biso_date (now)\x7d\x7d"
    let message : Text := "iso-date() takes no arguments, got \x60now\x60"
    Spells "upper-case" "upper_case" ∧ Spells "upper-case" "upPER-case" ∧
      e.interpolate "\x7b\x7b x | upPER-case \x7d\x7d" vars = .ok "V" ∧
      Spells "iso-date" "iso_date" ∧ Spells "iso-date" "iso-date" ∧
      e.interpolate call vars = .error (.functionFailed "iso_date" message) ∧
      Rewords "iso_date" "iso-date" (e.interpolate call vars)
        (e.interpolate "\x7b\x7biso-date (now)\x7d\x7d" vars) := by
  intro e vars call message
  have foreign : e.markers.Foreign := by decide
  have upper : Spells "upper-case" "upper_case" := by decide
  have upper' : Spells "upper-case" "upPER-case" := by decide
  have date : Spells "iso-date" "iso_date" := by decide
  have date' : Spells "iso-date" "iso-date" := by decide
  have blank : ∀ c ∈ [' '], isBlank c = true := List.forall_mem_singleton.2 rfl
  have start {n : Text} (begins : n.head?.all isNameStart = true) :
      ∀ c ∈ n.head?, isNameStart c = true := fun c first => by
    rwa [Option.mem_def.1 first] at begins
  have filter : e.markers.Cutting "\x7b\x7b x | upper_case \x7d\x7d"
      ([] ++ ⟨[], " x | " ++ ("upper_case" ++ [' '])⟩ :: []) [] :=
    .cut (c := ⟨[], " x | upper_case "⟩) rfl (.last rfl)
  have applies : Around vars "upper_case" "upPER-case"
      ([' '] ++ (['x'] ++ ([' '] ++ ([].flatten ++ '|' :: [' '])))) [' '] :=
    .filter blank (.inl rfl) blank (by simp) blank (start rfl) (start rfl)
      fun c first => .inl (blank c (List.mem_of_mem_head? first))
  have calls : Around vars "iso_date" "iso-date" []
      ([' '] ++ '(' :: (['n', 'o', 'w'] ++ ')' :: [])) :=
    .call (by simp) rfl rfl (by decide) blank (by decide) (.trans (b := none) rfl rfl)
  have called : e.markers.Cutting call
      ([] ++ ⟨[], ([] : Text) ++ ("iso_date" ++ [' ', '(', 'n', 'o', 'w', ')'])⟩ :: []) [] :=
    .cut (c := ⟨[], "iso_date (now)"⟩) rfl (.last rfl)
  obtain ⟨a, b, -, cutting, -, reworded⟩ :=
    interpolate_respelled e vars foreign upper upper' filter applies
  obtain ⟨a', b', -, cutting', -, reworded'⟩ :=
    interpolate_respelled e vars foreign date date' called calls
  have known : e.interpolate "\x7b\x7b x | upper_case \x7d\x7d" vars = .ok "V" :=
    @interpolate_span e vars " x | upper_case " (by decide) rfl _ rfl
  have failed : e.interpolate call vars = .error (.functionFailed "iso_date" message) :=
    @interpolate_span e vars "iso_date (now)" (by decide) rfl _ rfl
  rw [known, cutting.whole] at reworded
  rw [cutting'.whole] at reworded'
  exact ⟨upper, upper', reworded.eq_ok, date, date', failed, reworded'⟩

theorem interpolate_spellings_apart :
    let r : Registry := { Registry.builtin ⟨0, 0⟩ with
      functions := [("get-name", fun _ => .ok "f")] }
    let e : Engine := ⟨.default, r⟩
    let vars : Vars := [("get_name()", .str "v"), ("x", .str "v")]
    ("get-name".toList ∈ r.functionNames ∧ Spells "get-name" "get-name" ∧
        Spells "get-name" "get_name" ∧ Spells "get-name" "get-Name" ∧
        e.interpolate "\x7b\x7b get-name() \x7d\x7d" vars = .ok "f" ∧
        e.interpolate "\x7b\x7b get_name() \x7d\x7d" vars = .ok "v" ∧
        e.interpolate "\x7b\x7b get-Name() \x7d\x7d" vars = .error (.malformed "Name()" ⟨1, 8⟩)) ∧
      "upper-case".toList ∈ r.filterNames ∧ Spells "upper-case" "upper-case" ∧
        Spells "upper-case" "Upper-Case" ∧
        e.interpolate "\x7b\x7b x | upper-case \x7d\x7d" vars = .ok "V" ∧
        e.interpolate "\x7b\x7b x | Upper-Case \x7d\x7d" vars =
          .error (.malformed "| Upper-Case" ⟨1, 6⟩) := by
  intro r e vars
  refine ⟨⟨by decide, by decide, by decide, by decide,
    ?_, ?_, ?_⟩, by decide, by decide, by decide, ?_, ?_⟩
  · exact @interpolate_span e vars " get-name() " (by decide) rfl _ rfl
  · exact @interpolate_span e vars " get_name() " (by decide) rfl _ rfl
  · exact @interpolate_span e vars " get-Name() " (by decide) rfl _ rfl
  · exact @interpolate_span e vars " x | upper-case " (by decide) rfl _ rfl
  · exact @interpolate_span e vars " x | Upper-Case " (by decide) rfl _ rfl

end Engine

end Docspec
