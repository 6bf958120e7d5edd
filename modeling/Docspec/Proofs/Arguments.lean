import Docspec.Proofs.Chains
import Docspec.Proofs.Cuttings
import Docspec.Proofs.ErrorPlaces

set_option autoImplicit false

namespace Docspec

open Text

theorem forall₂_of_mapM {α β ε : Type} {f : α → Except ε β} {as : List α} {bs : List β}
    (given : as.mapM f = .ok bs) : List.Forall₂ (fun a b => f a = .ok b) as bs := by
  induction as generalizing bs with
  | nil =>
    cases given
    exact .nil
  | cons a as ih =>
    rw [List.mapM_cons] at given
    obtain ⟨b, head, others⟩ := bind_eq_ok_iff.1 given
    obtain ⟨bs, tail, shape⟩ := bind_eq_ok_iff.1 others
    cases shape
    exact .cons head (ih tail)

namespace Placeholder

def Registry.runFunction (r : Registry) (name : Text) (argument : Option Text) :
    Except Error Text :=
  match r.function? name with
  | none => .error (.unknownFunction name)
  | some f => (f argument).mapError (.functionFailed name)

theorem Registry.exists_call (r : Registry) (identifier : Text) :
    ∃ name argument, r.call identifier = r.runFunction name argument :=
  ⟨_, _, rfl⟩

theorem Registry.exists_filter (r : Registry) (item value : Text) :
    ∃ name argument, r.applyFilter item value = r.runFilter name argument value :=
  ⟨_, _, rfl⟩

theorem Registry.runFunction_eq_ok_iff {r : Registry} {name result : Text}
    {argument : Option Text} :
    r.runFunction name argument = .ok result ↔
      ∃ f, r.function? name = some f ∧ f argument = .ok result := by
  rw [runFunction]
  split
  next unknown => simp [unknown]
  next f known => simp [known, mapError_eq_ok_iff]

theorem Registry.call_parts (r : Registry) {name gap argument : Text} (named : isName name = true)
    (blank : ∀ c ∈ gap, isBlank c = true) :
    r.call (name ++ gap ++ '(' :: (argument ++ [')'])) =
      r.runFunction name (trimmed? argument) := by
  have before : ∀ c ∈ name ++ gap, decide (c = '(') = false := by
    intro c member
    rcases List.mem_append.1 member with inName | inGap
    · have taken := variableChars_of_isName named c inName
      exact decide_eq_false (ne_of_isVariableChar taken (by decide))
    · refine decide_eq_false ?_
      rintro rfl
      cases blank _ inGap
  have bare : trim (name ++ gap) = name := by
    rw [trim_append_blanks name blank, trim_solid (solid_of_isName named)]
  rw [call, splitOnce_append before (by simp)]
  simp only [Option.getD_some, bare, List.dropLast_concat]
  rfl

end Placeholder

namespace Markers

variable {m : Markers}

theorem escape_bare_append {t a b : Text} (shape : m.escape t = a ++ b)
    (bare : ∀ c ∈ a, isStandIn c = false) : ∃ rest, t = a ++ rest ∧ m.escape rest = b := by
  obtain ⟨t₁, t₂, rfl, left, right⟩ :=
    escape_split shape (.inl fun c last => bare c (List.mem_of_mem_getLast? last))
  rw [eq_of_escape left bare]
  exact ⟨t₂, rfl, right⟩

end Markers

namespace Placeholder

open Markers

section Template

variable {m : Markers}

theorem escape_item {t item : Text} (isItem : IsItem item) (shape : m.escape t = item) :
    ∃ blanks name more, t = '|' :: (blanks ++ name ++ more) ∧
      item = '|' :: (blanks ++ name ++ m.escape more) ∧ (∀ c ∈ blanks, isBlank c = true) ∧
      isName name = true := by
  obtain ⟨blank, named, -⟩ := isItem
  rename_i blanks name more
  have bare : ∀ c ∈ '|' :: (blanks ++ name), isStandIn c = false := by
    refine List.forall_mem_cons.2 ⟨rfl, List.forall_mem_append.2 ⟨?_, ?_⟩⟩
    · exact fun c member => isStandIn_of_blank (blank c member)
    · exact fun c member => isStandIn_of_isVariableChar (variableChars_of_isName named c member)
  obtain ⟨rest, rfl, copy⟩ := escape_bare_append (a := '|' :: (blanks ++ name)) shape bare
  exact ⟨blanks, name, rest, rfl, by rw [copy], blank, named⟩

theorem escape_call {t call : Text} (isCall : IsCall call) (shape : m.escape t = call) :
    ∃ name gap argument, t = name ++ gap ++ '(' :: (argument ++ [')']) ∧
      call = name ++ gap ++ '(' :: (m.escape argument ++ [')']) ∧ isName name = true ∧
      (∀ c ∈ gap, isBlank c = true) := by
  obtain ⟨named, -, blank, -⟩ := isCall
  rename_i name gap argument
  have bare : ∀ c ∈ name ++ gap ++ ['('], isStandIn c = false := by
    refine List.forall_mem_append.2
      ⟨List.forall_mem_append.2 ⟨?_, ?_⟩, List.forall_mem_singleton.2 rfl⟩
    · exact fun c member => isStandIn_of_isVariableChar (variableChars_of_isName named c member)
    · exact fun c member => isStandIn_of_blank (blank c member)
  rw [List.append_cons] at shape
  obtain ⟨rest, rfl, copy⟩ := escape_bare_append shape bare
  obtain ⟨written, closing, rfl, inside, behind⟩ :=
    escape_split copy (.inr (by simp [show isStandIn ')' = false from rfl]))
  rw [eq_of_escape behind (by simp [show isStandIn ')' = false from rfl])]
  exact ⟨name, gap, written, by simp, by rw [inside], named, blank⟩

theorem escape_items {items : List Text} (each : ∀ i ∈ items, IsItem i) {t : Text}
    (shape : m.escape t = items.flatten) :
    ∃ written : List Text, t = written.flatten ∧ written.map m.escape = items := by
  induction items generalizing t with
  | nil => exact ⟨[], eq_of_escape shape (by simp), rfl⟩
  | cons item items ih =>
    obtain ⟨-, others⟩ := List.forall_mem_cons.1 each
    have bar : ∀ c ∈ items.flatten.head?, c = '|' := by
      rw [← List.append_nil items.flatten]
      exact bar_before others (by simp)
    obtain ⟨first, rest, rfl, own, later⟩ := escape_split shape (.inr fun c member => by
      rw [bar c member]
      rfl)
    obtain ⟨written, rfl, copies⟩ := ih others later
    exact ⟨first :: written, rfl, by rw [List.map_cons, own, copies]⟩

theorem escape_parts {inside body : Text} (shape : m.escape inside = body) (p : Body.Parts body)
    {items : List Text} (rest : p.rest = items.flatten) (each : ∀ i ∈ items, IsItem i) :
    ∃ (identifier : Text) (written : List Text),
      inside = p.lead ++ (identifier ++ (p.gap ++ written.flatten)) ∧
        m.escape identifier = p.identifier ∧ written.map m.escape = items := by
  rw [p.whole] at shape
  obtain ⟨content, rfl, named⟩ :=
    escape_bare_append shape fun c member => isStandIn_of_blank (p.lead_blank c member)
  obtain ⟨identifier, after, rfl, own, spaced⟩ :=
    escape_split named (.inl (last_identifier p.identifies))
  obtain ⟨filters, rfl, chained⟩ :=
    escape_bare_append spaced fun c member => isStandIn_of_blank (p.gap_blank c member)
  obtain ⟨written, rfl, copies⟩ := escape_items each (chained.trans rest)
  exact ⟨identifier, written, rfl, own, copies⟩

end Template

end Placeholder

namespace Engine

open Placeholder Markers

/-- What values are made of: a variable, or a part of one, and what functions and filters give. -/
inductive Supplies (e : Engine) (vars : Vars) : Text → Prop
  | variable {name : Text} {path : List Text} {root v : Value} :
    Bindings.get? name vars = some root → root.lookup path = some v → Supplies e vars v.display
  | function {name result : Text} {argument : Option Text} {f : Function} :
    e.registry.function? name = some f → f argument = .ok result → Supplies e vars result
  | filter {name value result : Text} {argument : Option Text} {f : Filter} :
    e.registry.filter? name = some f → f value argument = .ok result → Supplies e vars result

section Supply

variable {e : Engine} {vars : Vars}

theorem resolve_supplies {identifier value : Text}
    (resolved : e.resolve vars identifier = .ok value) : value = [] ∨ e.Supplies vars value := by
  rw [resolve] at resolved
  split at resolved
  next =>
    split at resolved
    next first path _ =>
      obtain rfl := Except.ok.inj resolved
      cases found : (Bindings.get? first vars).bind (Value.lookup path) with
      | none => exact .inl rfl
      | some v =>
        obtain ⟨root, bound, inside⟩ := Option.bind_eq_some_iff.1 found
        exact .inr (.variable bound inside)
    next => exact .inl (Except.ok.inj resolved).symm
  next =>
    split at resolved
    next v bound =>
      obtain rfl := Except.ok.inj resolved
      exact .inr (.variable bound (Value.lookup_nil v))
    next =>
      split at resolved
      next =>
        obtain ⟨name, argument, called⟩ := e.registry.exists_call identifier
        obtain ⟨f, known, given⟩ := Registry.runFunction_eq_ok_iff.1 (called.symm.trans resolved)
        exact .inr (.function known given)
      next => exact .inl (Except.ok.inj resolved).symm

theorem applyFilters_supplies {items : List Text} {value result : Text}
    (filtered : e.registry.applyFilters items value = .ok result) :
    result = value ∨ e.Supplies vars result := by
  induction items generalizing value with
  | nil => exact .inl (Except.ok.inj filtered).symm
  | cons item items ih =>
    obtain ⟨next, applied, rest⟩ := bind_eq_ok_iff.1 filtered
    rcases ih rest with rfl | supplied
    · obtain ⟨name, argument, ran⟩ := e.registry.exists_filter item value
      obtain ⟨f, known, given⟩ := Registry.runFilter_eq_ok_iff.1 (ran.symm.trans applied)
      exact .inr (.filter known given)
    · exact .inr supplied

theorem outcome_supplies {template : Text} {v : Visit} (starts : StartsLikeName v.body)
    {value : Text} (given : e.outcome template vars v = .ok value) :
    value = [] ∨ e.Supplies vars value := by
  obtain ⟨p⟩ := starts.parts
  rw [outcome, Body.parse?_parts p] at given
  simp only [expand] at given
  split at given
  next => cases given
  next =>
    obtain ⟨first, resolved, rest⟩ := bind_eq_ok_iff.1 given
    have filtered : value = first ∨ e.Supplies vars value := applyFilters_supplies rest
    rcases filtered with rfl | supplied
    · exact resolve_supplies resolved
    · exact .inr supplied

end Supply

end Engine

namespace Placeholder

open Markers

def Registry.HandsCall (r : Registry) (m : Markers) (identifier : Text) : Prop :=
  ∃ name gap argument, identifier = name ++ gap ++ '(' :: (argument ++ [')']) ∧
    isName name = true ∧
    r.call (m.escape identifier) = r.runFunction name (trimmed? (m.escape argument))

def Registry.HandsFilter (r : Registry) (m : Markers) (item : Text) : Prop :=
  ∃ blanks name more, item = '|' :: (blanks ++ name ++ more) ∧
    (∀ c ∈ blanks, isBlank c = true) ∧ isName name = true ∧
    ((∀ c ∈ more.head?, isBlank c = true) → ∀ value,
      r.applyFilter (trim (m.escape item).tail) value =
        r.runFilter name (trimmed? (m.escape more)) value)

section Handed

variable {m : Markers} (r : Registry)

theorem Registry.handsCall {identifier : Text} (isCall : IsCall (m.escape identifier)) :
    r.HandsCall m identifier := by
  obtain ⟨name, gap, argument, shape, copy, named, blank⟩ := escape_call isCall rfl
  exact ⟨name, gap, argument, shape, named, by rw [copy, r.call_parts named blank]⟩

theorem Registry.handsFilter {item : Text} (isItem : IsItem (m.escape item)) :
    r.HandsFilter m item := by
  obtain ⟨blanks, name, more, shape, copy, blank, named⟩ := escape_item isItem rfl
  refine ⟨blanks, name, more, shape, blank, named, fun apart value => ?_⟩
  rw [copy, List.tail_cons]
  refine r.applyFilter_item blank (name_ne_nil named) (solid_of_isName named)
    (fun c first => ?_) value
  cases more with
  | nil => cases first
  | cons d more =>
    have own : isBlank d = true := apart d rfl
    have kept := m.escape_append (a := [d]) (by
      rw [List.mem_singleton]
      rintro rfl
      cases own) more
    rw [List.singleton_append] at kept
    rw [kept] at first
    obtain rfl : d = c := Option.some.inj first
    exact own

end Handed

end Placeholder

namespace Engine

open Placeholder Markers

/-- What stands in the place of a placeholder of a template is made of copies of its parts. -/
inductive HandsOn (e : Engine) (t : Text) (vars : Vars) (v : Visit) (c : Cut) : Prop
  | copied : ¬ StartsLikeName v.body →
    e.outcome t vars v =
      .ok (e.markers.opening ++ e.markers.restored c.inside ++ e.markers.closing) →
    HandsOn e t vars v c
  | filled {p : Body.Parts v.body} {identifier : Text} {items : List Text} :
    c.inside = p.lead ++ (identifier ++ (p.gap ++ items.flatten)) →
    e.markers.escape identifier = p.identifier → (items.map e.markers.escape).flatten = p.rest →
    (IsCall p.identifier → e.registry.HandsCall e.markers identifier) →
    (∀ i ∈ items, e.registry.HandsFilter e.markers i) →
    e.outcome t vars v = (e.resolve vars (e.markers.escape identifier)).bind
      (e.registry.applyFilters (items.map fun i => trim (e.markers.escape i).tail)) →
    HandsOn e t vars v c
  | refused {front lead bad back : Text} : FaultIn e.markers t v front lead bad back →
    e.outcome t vars v = .error (.malformed (trimEnd (e.markers.escape bad))
      (.behind (front ++ e.markers.opening ++ lead))) →
    HandsOn e t vars v c

theorem handsOn {e : Engine} {t : Text} {vars : Vars} (free : e.markers.HasNoStandIn) {v : Visit}
    {c : Cut} (member : v ∈ e.markers.visits (e.markers.escape t)) (shows : e.Shows t vars v c) :
    e.HandsOn t vars v c := by
  by_cases starts : StartsLikeName v.body
  next =>
    obtain ⟨p⟩ := starts.parts
    by_cases sound : AreItems p.rest
    next =>
      obtain ⟨copies, shape, each⟩ := sound
      obtain ⟨identifier, items, whole, own, rfl⟩ := escape_parts shows.2.1 p shape each
      refine .filled whole own shape.symm (fun isCall => ?_) (fun i inside => ?_) ?_
      · exact e.registry.handsCall (own ▸ isCall)
      · exact e.registry.handsFilter (each _ (List.mem_map_of_mem inside))
      · rw [e.outcome_items t vars p shape each, own, List.map_map]
        rfl
    next =>
      obtain ⟨good, bad, shape, fault⟩ := exists_fault sound
      have fails := e.outcome_fault t vars p shape fault
      obtain ⟨front, lead, bad', back, faulty, invalid, -, place⟩ :=
        fault_in_template free member fails
      rw [invalid, place] at fails
      exact .refused faulty fails
  next => exact .copied starts (shows.2.2 starts)

theorem standIn_supplied {e : Engine} {t : Text} {vars : Vars} (free : e.markers.HasNoStandIn)
    {visits : List Visit} {cuts : List Cut} {values : List Text}
    (paired : List.Forall₂ (e.Shows t vars) visits cuts)
    (given : List.Forall₂ (fun v value => e.outcome t vars v = .ok value) visits values)
    (bare : ∀ k ∈ cuts, ∀ c ∈ k.before ++ k.inside, isStandIn c = false) {c : Char}
    (member : c ∈ (List.zipWith (fun k value => e.markers.restored k.before ++ value)
      cuts values).flatten) (standIn : isStandIn c = true) :
    ∃ v ∈ visits, ∃ value, e.outcome t vars v = .ok value ∧ c ∈ value ∧
      e.Supplies vars value := by
  have foreign {x : Text} (free : ∀ d ∈ x, isStandIn d = false) : c ∉ x := fun inside => by
    simp [free c inside] at standIn
  induction paired generalizing values with
  | nil => cases member
  | @cons v k visits cuts shows _ ih =>
    cases given with
    | @cons _ value _ values own others =>
      obtain ⟨parts, later⟩ := List.forall_mem_cons.1 bare
      obtain ⟨before, inside⟩ := List.forall_mem_append.1 parts
      rw [List.zipWith_cons_cons, List.flatten_cons, List.mem_append, List.mem_append] at member
      rcases member with (literal | inValue) | behind
      · exact absurd literal (foreign (restored_bare free before))
      · refine ⟨v, List.mem_cons_self, value, own, inValue, ?_⟩
        by_cases starts : StartsLikeName v.body
        next =>
          refine (outcome_supplies starts own).resolve_left ?_
          rintro rfl
          cases inValue
        next =>
          rw [shows.2.2 starts] at own
          obtain ⟨opening, closing⟩ := List.forall_mem_append.1 free
          have copied : ∀ d ∈ e.markers.opening ++ e.markers.restored k.inside ++
              e.markers.closing, isStandIn d = false :=
            List.forall_mem_append.2
              ⟨List.forall_mem_append.2 ⟨opening, restored_bare free inside⟩, closing⟩
          exact absurd (Except.ok.inj own ▸ inValue) (foreign copied)
      · obtain ⟨u, among, found⟩ := ih others later behind
        exact ⟨u, List.mem_cons_of_mem v among, found⟩

theorem interpolate_hands_copies (e : Engine) (vars : Vars) (free : e.markers.HasNoStandIn)
    {t : Text} (bare : ∀ c ∈ t, isStandIn c = false) :
    (∀ x : Text, (∀ c ∈ x, isStandIn c = false) →
        ((∃ c ∈ trim (e.markers.escape x), isStandIn c = true) ↔ e.markers.HasEscape x) ∧
        ((∃ c ∈ trimEnd (e.markers.escape x), isStandIn c = true) ↔ e.markers.HasEscape x) ∧
        (¬ e.markers.HasEscape x → e.markers.escape x = x)) ∧
      ∃ cuts last, e.markers.Cutting t cuts last ∧
        t = cuts.flatMap (Cut.text e.markers) ++ last ∧
        List.Forall₂ (e.HandsOn t vars) (e.markers.visits (e.markers.escape t)) cuts ∧
        e.interpolate t vars = ((e.markers.visits (e.markers.escape t)).mapM (e.outcome t vars)).map
          (e.markers.assemble cuts last) ∧
        ∀ out, e.interpolate t vars = .ok out → ∀ c ∈ out, isStandIn c = true →
          ∃ v ∈ e.markers.visits (e.markers.escape t), ∃ value,
            e.outcome t vars v = .ok value ∧ c ∈ value ∧ e.Supplies vars value := by
  constructor
  · intro x bare
    have visible {c : Char} (standIn : isStandIn c = true) : isBlank c = false := by
      rw [← Bool.not_eq_true]
      intro blank
      rw [isStandIn_of_blank blank] at standIn
      cases standIn
    have shown := standIn_mem_escape_iff (m := e.markers) bare
    refine ⟨.trans ?_ shown, .trans ?_ shown, escape_eq_self⟩
    · exact exists_congr fun c => and_congr_left fun standIn => mem_trim_iff (visible standIn) _
    · exact exists_congr fun c => and_congr_left fun standIn => mem_trimEnd_iff (visible standIn) _
  · obtain ⟨cuts, last, cutting⟩ := exists_cutting free t
    obtain ⟨paired, result⟩ := interpolate_cutting vars free cutting bare
    refine ⟨cuts, last, cutting, cutting.whole, ?_, result, fun out done c member standIn => ?_⟩
    · exact ((List.forall₂_and_left _ _).2 ⟨fun v inside => inside, paired⟩).imp
        fun v k both => handsOn free both.1 both.2
    · rw [result] at done
      cases given : (e.markers.visits (e.markers.escape t)).mapM (e.outcome t vars) with
      | error err =>
        rw [given] at done
        cases done
      | ok values =>
        rw [given] at done
        obtain rfl := Except.ok.inj done
        rcases List.mem_append.1 member with filled | behind
        · refine standIn_supplied free paired (forall₂_of_mapM given) (fun k inside d own => ?_)
            filled standIn
          refine bare d (cutting.mem_cut inside ?_)
          rcases List.mem_append.1 own with before | within <;> simp [Cut.text, *]
        · have literal : ∀ d ∈ last, isStandIn d = false := fun d own => bare d (by
            rw [cutting.whole]
            exact List.mem_append_right _ own)
          simp [restored_bare free literal c behind] at standIn

theorem interpolate_hands_copies_replacing :
    let e := Engine.builtin ⟨0, 0⟩
    let vars : Vars := [("s", .str "cat")]
    let t : Text := "\x7b\x7b s | replace a > \x60\x7d\x7d\x60 \x7d\x7d"
    let argument : Text := " a > \x60\x7d\x7d\x60 "
    let out : Text := "c\x02\x02\x02\x02t"
    e.markers.HasNoStandIn ∧ (∀ c ∈ t, isStandIn c = false) ∧
      e.markers.HasEscape argument ∧ (∃ c ∈ trim (e.markers.escape argument), isStandIn c = true) ∧
      e.interpolate t vars = .ok out ∧
      ∃ v ∈ e.markers.visits (e.markers.escape t), ∃ value,
        e.outcome t vars v = .ok value ∧ '\x02' ∈ value ∧ e.Supplies vars value := by
  intro e vars t argument out
  have free : e.markers.HasNoStandIn := default_no_standIn
  have bare : ∀ c ∈ t, isStandIn c = false := forall_of_any (by decide)
  have has : e.markers.HasEscape argument := ⟨_, .inr rfl, rfl⟩
  have done : e.interpolate t vars = .ok out := by
    let v : Visit :=
      { before := [], body := " s | replace a > \x02\x02\x02\x02 ", after := [], done := [] }
    have found : e.markers.nextSpan? (e.markers.escape t) = some v.toSpan := rfl
    have missing : e.markers.nextSpan? v.after = none := rfl
    rw [e.interpolate_visits vars free bare, visits, visitsFrom_some found,
      visitsFrom_none missing]
    rfl
  obtain ⟨copies, _, _, -, -, -, -, supplied⟩ := interpolate_hands_copies e vars free bare
  have shown := ((copies argument (forall_of_any (by decide))).1).2 has
  exact ⟨free, bare, has, shown, done, supplied out done '\x02' (by decide) rfl⟩

end Engine

end Docspec
