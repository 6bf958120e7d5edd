import Docspec.Proofs.Merging
import Docspec.Proofs.ShownNumbers

set_option autoImplicit false

namespace Docspec

namespace Yaml

namespace Node

def keyText (n : Node) : Text := n.toValue.display

def keyTexts (entries : List (Node × Node)) : List Text := entries.map fun e => e.1.keyText

/-- What is kept of a node, at every depth. Whole numbers of more than 64 bits are rounded, and an
entry of a mapping is kept unless its key reads like that of a later one. -/
inductive Keeps : Node → Value → Prop
  | null : Keeps .null .null
  | bool (b : Bool) : Keeps (.bool b) (.bool b)
  | int {n : Int} : Decimal.fitsWord n = true → Keeps (.int n) (.int n)
  | large {n : Int} : Decimal.fitsWord n = false → Keeps (.int n) (.float (Double.ofInt n))
  | float (x : Double) : Keeps (.float x) (.float x)
  | str (s : Text) : Keeps (.str s) (.str s)
  | seq {items : List Node} {vs : List Value} : List.Forall₂ Keeps items vs →
    Keeps (.seq items) (.list vs)
  | map {entries : List (Node × Node)} {b : Vars} : Bindings.Ascending b →
    (∀ k, k ∈ Bindings.names b ↔ k ∈ keyTexts entries) →
    (∀ before key value after v, entries = before ++ (key, value) :: after →
      key.keyText ∉ keyTexts after → Bindings.get? key.keyText b = some v → Keeps value v) →
    Keeps (.map entries) (.map b)
  | tagged (tag : Text) {content : Node} {v : Value} : Keeps content v →
    Keeps (.tagged tag content) v

theorem toValue_int (n : Int) :
    (int n).toValue = if Decimal.fitsWord n then .int n else .float (Double.ofInt n) :=
  rfl

theorem toEntries_eq_map (entries : List (Node × Node)) :
    toEntries entries = entries.map fun e => (e.1.keyText, e.2.toValue) := by
  induction entries with
  | nil => rfl
  | cons e entries ih =>
    obtain ⟨key, value⟩ := e
    rw [toEntries, ih]
    rfl

theorem names_toEntries (entries : List (Node × Node)) :
    Bindings.names (toEntries entries) = keyTexts entries := by
  rw [toEntries_eq_map, Bindings.names, List.map_map]
  rfl

theorem names_ofList (entries : List (Node × Node)) (k : Text) :
    k ∈ Bindings.names (Bindings.ofList (toEntries entries)) ↔ k ∈ keyTexts entries := by
  have all : k ∈ Bindings.names (Bindings.ofList (toEntries entries)) ↔
      k ∈ Bindings.names ([] : Vars) ∨ k ∈ Bindings.names (toEntries entries) :=
    Bindings.names_insertAll [] (toEntries entries)
  rw [all, names_toEntries]
  exact or_iff_right List.not_mem_nil

theorem get?_toEntries {before after : List (Node × Node)} {key value : Node}
    (last : key.keyText ∉ keyTexts after) :
    Bindings.get? key.keyText (Bindings.ofList (toEntries (before ++ (key, value) :: after))) =
      some value.toValue := by
  rw [toEntries_eq_map, List.map_append, List.map_cons]
  refine Bindings.get?_ofList_last ?_ _ _
  rwa [← toEntries_eq_map, names_toEntries]

theorem exists_last {entries : List (Node × Node)} {k : Text} (member : k ∈ keyTexts entries) :
    ∃ before key value after, entries = before ++ (key, value) :: after ∧ key.keyText = k ∧
      k ∉ keyTexts after := by
  induction entries with
  | nil => cases member
  | cons e entries ih =>
    by_cases later : k ∈ keyTexts entries
    next =>
      obtain ⟨before, key, value, after, rfl, own, absent⟩ := ih later
      exact ⟨e :: before, key, value, after, rfl, own, absent⟩
    next =>
      have own : k = e.1.keyText := (List.mem_cons.1 member).resolve_right later
      exact ⟨[], e.1, e.2, entries, rfl, own.symm, later⟩

mutual

theorem keeps_toValue (n : Node) : Keeps n n.toValue := by
  cases n with
  | null => exact .null
  | bool b => exact .bool b
  | int n =>
    rw [toValue_int]
    split
    next fits => exact .int fits
    next long => exact .large (Bool.not_eq_true _ ▸ long)
  | float x => exact .float x
  | str s => exact .str s
  | seq items => exact .seq (keeps_toValues items)
  | map entries =>
    refine .map (Bindings.ascending_ofList _) (names_ofList entries) ?_
    intro before key value after v whole last found
    have kept := keeps_entries entries (key, value) (by simp [whole])
    rw [whole, get?_toEntries last] at found
    rwa [Option.some.inj found] at kept
  | tagged tag content => exact .tagged tag (keeps_toValue content)

theorem keeps_toValues (items : List Node) : List.Forall₂ Keeps items (toValues items) := by
  cases items with
  | nil => exact .nil
  | cons n more => exact .cons (keeps_toValue n) (keeps_toValues more)

theorem keeps_entries (entries : List (Node × Node)) : ∀ e ∈ entries, Keeps e.2 e.2.toValue := by
  match entries with
  | [] => simp
  | (_, value) :: more =>
    exact List.forall_mem_cons.2 ⟨keeps_toValue value, keeps_entries more⟩

end

mutual

theorem toValue_of_keeps (n : Node) {v : Value} (keeps : Keeps n v) : n.toValue = v := by
  cases n with
  | null | bool | float | str =>
    cases keeps
    rfl
  | int n =>
    rw [toValue_int]
    cases keeps with
    | int fits => exact if_pos fits
    | large long => exact if_neg (by simp [long])
  | seq items =>
    cases keeps with
    | seq kept => exact congrArg Value.list (toValues_of_keeps items kept)
  | map entries =>
    cases keeps with
    | @map _ b ascending named kept =>
      have same : Bindings.ofList (toEntries entries) = b := by
        refine Bindings.Ascending.ext (Bindings.ascending_ofList _) ascending fun k => ?_
        by_cases member : k ∈ keyTexts entries
        next =>
          obtain ⟨before, key, value, after, whole, rfl, last⟩ := exists_last member
          obtain ⟨v, found⟩ := Bindings.mem_names_iff.1 ((named _).2 member)
          have one := entries_of_keeps entries (key, value) (by simp [whole])
            (kept before key value after v whole last found)
          rw [found, whole, get?_toEntries last, one]
        next =>
          rw [Bindings.get?_eq_none_iff.2 (mt (names_ofList entries k).1 member),
            Bindings.get?_eq_none_iff.2 (mt (named k).1 member)]
      exact congrArg Value.map same
  | tagged tag content =>
    cases keeps with
    | tagged _ kept => exact toValue_of_keeps content kept

theorem toValues_of_keeps (items : List Node) {vs : List Value}
    (kept : List.Forall₂ Keeps items vs) : toValues items = vs := by
  cases items with
  | nil =>
    cases kept
    rfl
  | cons n more =>
    cases kept with
    | cons first others =>
      rw [toValues, toValue_of_keeps n first, toValues_of_keeps more others]

theorem entries_of_keeps (entries : List (Node × Node)) :
    ∀ e ∈ entries, ∀ {v : Value}, Keeps e.2 v → e.2.toValue = v := by
  match entries with
  | [] => simp
  | (_, value) :: more =>
    exact List.forall_mem_cons.2 ⟨toValue_of_keeps value, entries_of_keeps more⟩

end

theorem length_ofList (entries : List (Node × Node)) :
    (Bindings.ofList (toEntries entries)).length = (keyTexts entries).dedup.length := by
  have nodup := (Bindings.ascending_ofList (toEntries entries)).nodup
  have same : (Bindings.names (Bindings.ofList (toEntries entries))).Perm
      (keyTexts entries).dedup := by
    refine (List.perm_ext_iff_of_nodup nodup (List.nodup_dedup _)).2 fun k => ?_
    rw [List.mem_dedup]
    exact names_ofList entries k
  have lengths := same.length_eq
  rwa [Bindings.names, List.length_map] at lengths

theorem length_dedup_iff {α : Type} [DecidableEq α] (l : List α) :
    l.dedup.length = l.length ↔ l.Nodup := by
  rw [← List.dedup_eq_self]
  exact ⟨(List.dedup_sublist l).eq_of_length, congrArg List.length⟩

inductive SameKind : Node → Node → Prop
  | null : SameKind .null .null
  | bool (a b : Bool) : SameKind (.bool a) (.bool b)
  | int {m n : Int} : Decimal.fitsWord m = true → Decimal.fitsWord n = true →
    SameKind (.int m) (.int n)
  | float {x y : Double} : x.Proper → y.Proper → SameKind (.float x) (.float y)
  | str (s t : Text) : SameKind (.str s) (.str t)

theorem SameKind.eq_of_keyText {k l : Node} (kind : SameKind k l)
    (alike : k.keyText = l.keyText) : k = l := by
  cases kind with
  | null => rfl
  | bool a b => cases a <;> cases b <;> first | rfl | exact absurd alike (by decide)
  | @int m n fits fits' =>
    rw [keyText, keyText, toValue_int, toValue_int, if_pos fits, if_pos fits'] at alike
    exact congrArg Node.int (Text.ofInt_injective alike)
  | float proper proper' =>
    exact congrArg Node.float (Double.display_injective proper proper' alike)
  | str s t => exact congrArg Node.str alike

theorem toValue_keeps :
    (∀ (n : Node) (v : Value), n.toValue = v ↔ n.Keeps v) ∧
      (∀ entries : List (Node × Node), ∃ b : Vars, (map entries).toValue = .map b ∧
        b.length = (keyTexts entries).dedup.length ∧
        (b.length = entries.length ↔ (keyTexts entries).Nodup)) ∧
      ∀ k l : Node, SameKind k l → (k.keyText = l.keyText ↔ k = l) := by
  refine ⟨fun n v => ⟨fun value => ?_, toValue_of_keeps n⟩, fun entries => ?_, fun k l kind => ?_⟩
  · rw [← value]
    exact keeps_toValue n
  · refine ⟨Bindings.ofList (toEntries entries), rfl, length_ofList entries, ?_⟩
    have all : (keyTexts entries).length = entries.length := List.length_map _
    rw [length_ofList, ← all]
    exact length_dedup_iff _
  · exact ⟨kind.eq_of_keyText, congrArg keyText⟩

theorem toValue_keeps_nested :
    let inner := map [(bool true, str ['x'])]
    let entries := [(str ['b'], seq [int 1, tagged ['t'] null]), (int 10, inner)]
    let b : Vars :=
      [("10".toList, .map [("true".toList, .str ['x'])]), (['b'], .list [.int 1, .null])]
    (map entries).Keeps (.map b) ∧ b.length = entries.length ∧ SameKind (int 1) (int 10) ∧
      (int 1).keyText ≠ (int 10).keyText := by
  intro inner entries b
  obtain ⟨keeps, counts, kinds⟩ := toValue_keeps
  have value : (map entries).toValue = .map b := rfl
  obtain ⟨b', made, -, counted⟩ := counts entries
  obtain rfl : b = b' := Value.map.inj (value.symm.trans made)
  have kind : SameKind (int 1) (int 10) := .int rfl rfl
  exact ⟨(keeps _ _).1 value, counted.2 (by decide), kind,
    mt (kinds _ _ kind).1 (by simp)⟩

theorem toValue_drops_entry :
    let entries := [(int 1, str ['a']), (str ['1'], str ['b'])]
    (ofText? "1: a\n\"1\": b\n".toList).any (same (map entries)) = true ∧
      same (int 1) (str ['1']) = false ∧ entries.length = 2 ∧
      (map entries).toValue = .map [(['1'], .str ['b'])] :=
  ⟨by decide +kernel, rfl, rfl, rfl⟩

end Node

end Yaml

end Docspec
