import Docspec.Context
import Docspec.Yaml.Node

set_option autoImplicit false

namespace Docspec

theorem foldl_last {σ β γ : Type} {step : σ → β → σ} (part : σ → γ) {says? : β → Option γ}
    (one : ∀ s x, part (step s x) = (says? x).getD (part s)) (xs : List β) (s : σ) :
    part (xs.foldl step s) = (xs.filterMap says?).getLast?.getD (part s) := by
  induction xs generalizing s with
  | nil => rfl
  | cons x xs ih =>
    rw [List.foldl_cons, ih, one, List.filterMap_cons]
    cases says? x with
    | none => rfl
    | some said =>
      rw [List.getLast?_cons]
      rfl

namespace Bindings

variable {α : Type} {b c more : Bindings α}

def Ascending (b : Bindings α) : Prop := (names b).Pairwise (· < ·)

theorem get?_eq_none_iff {k : Text} : get? k b = none ↔ k ∉ names b := by
  induction b with
  | nil => simp [names]
  | cons e b ih =>
    rw [get?, names, List.map_cons, List.mem_cons, not_or]
    split
    next same => simp [same]
    next differ => simp [differ, ih, names]

theorem mem_names_iff {k : Text} : k ∈ names b ↔ ∃ v, get? k b = some v := by
  rw [← Option.ne_none_iff_exists', ne_eq, get?_eq_none_iff, Decidable.not_not]

theorem mem_names_insert {k n : Text} {v : α} :
    n ∈ names (insert k v b) ↔ n = k ∨ n ∈ names b := by
  rw [mem_names_iff, mem_names_iff, get?_insert]
  split
  next same => simp [same]
  next differ => simp [differ]

theorem Ascending.insert (ascending : Ascending b) (k : Text) (v : α) :
    Ascending (insert k v b) := by
  induction b with
  | nil => simp [Ascending, Bindings.insert, names]
  | cons e b ih =>
    obtain ⟨first, rest⟩ := List.pairwise_cons.1 ascending
    rw [Bindings.insert]
    split
    next same =>
      subst same
      exact ascending
    next differ =>
      split
      next below =>
        refine List.pairwise_cons.2 ⟨fun n member => ?_, ascending⟩
        rcases List.mem_cons.1 member with rfl | later
        · exact below
        · exact List.lt_trans below (first n later)
      next notBelow =>
        have above : e.1 < k := Decidable.not_not.1 fun notAbove =>
          differ (List.le_antisymm (List.not_lt.1 notAbove) (List.not_lt.1 notBelow))
        refine List.pairwise_cons.2 ⟨fun n member => ?_, ih rest⟩
        rcases mem_names_insert.1 member with rfl | later
        · exact above
        · exact first n later

theorem Ascending.insertAll (ascending : Ascending b) (more : List (Text × α)) :
    Ascending (insertAll b more) := by
  induction more generalizing b with
  | nil => exact ascending
  | cons e more ih => exact ih (ascending.insert e.1 e.2)

theorem ascending_ofList (entries : List (Text × α)) : Ascending (ofList entries) :=
  Ascending.insertAll (b := []) .nil entries

theorem Ascending.nodup (ascending : Ascending b) : (names b).Nodup := by
  apply List.Pairwise.imp _ ascending
  rintro n _ below rfl
  exact List.lt_irrefl n below

theorem insert_insert (k : Text) (v w : α) (b : Bindings α) :
    insert k v (insert k w b) = insert k v b := by
  induction b with
  | nil => simp [insert]
  | cons e b ih =>
    rw [insert, insert]
    split
    next => simp [insert]
    next differ =>
      split
      next => simp [insert]
      next notBelow => rw [insert, if_neg differ, if_neg notBelow, ih]

-- A name bound more than once would count from the end here and from the start in a look-up.
theorem get?_insertAll (once : (names more).Nodup) (k : Text) (b : Bindings α) :
    get? k (insertAll b more) = (get? k more).or (get? k b) := by
  induction more generalizing b with
  | nil => rfl
  | cons e more ih =>
    obtain ⟨own, others⟩ := List.nodup_cons.1 once
    rw [insertAll_cons, ih others, get?_insert, get?]
    split
    next same =>
      have absent : get? k more = none := get?_eq_none_iff.2 (same ▸ own)
      simp [absent]
    next => rfl

theorem names_insertAll {k : Text} (b : Bindings α) (more : List (Text × α)) :
    k ∈ names (insertAll b more) ↔ k ∈ names b ∨ k ∈ names more := by
  induction more generalizing b with
  | nil => simp [names]
  | cons e more ih =>
    have all : k ∈ names (e :: more) ↔ k = e.1 ∨ k ∈ names more := List.mem_cons
    rw [insertAll_cons, ih, mem_names_insert, all, or_comm (a := k = e.1), or_assoc]

theorem get?_insertAll_of_absent {k : Text} {more : List (Text × α)} (absent : k ∉ names more)
    (b : Bindings α) : get? k (insertAll b more) = get? k b := by
  induction more generalizing b with
  | nil => rfl
  | cons e more ih =>
    obtain ⟨differ, later⟩ : k ≠ e.1 ∧ k ∉ names more := not_or.1 (mt List.mem_cons.2 absent)
    rw [insertAll_cons, ih later, get?_insert_of_ne differ]

theorem get?_ofList_last {k : Text} {after : List (Text × α)} (absent : k ∉ names after)
    (before : List (Text × α)) (v : α) : get? k (ofList (before ++ (k, v) :: after)) = some v := by
  have cut : ofList (before ++ (k, v) :: after) =
      insertAll (insert k v (insertAll [] before)) after :=
    List.foldl_append
  rw [cut, get?_insertAll_of_absent absent, get?_insert_self]

theorem Ascending.ext (left : Ascending b) (right : Ascending c)
    (same : ∀ k, get? k b = get? k c) : b = c := by
  induction b generalizing c with
  | nil =>
    cases c with
    | nil => rfl
    | cons f c => simpa [get?] using same f.1
  | cons e b ih =>
    cases c with
    | nil => simpa [get?] using same e.1
    | cons f c =>
      obtain ⟨below, rest⟩ := List.pairwise_cons.1 left
      obtain ⟨below', rest'⟩ := List.pairwise_cons.1 right
      have members (k : Text) : k ∈ names (e :: b) ↔ k ∈ names (f :: c) := by
        rw [mem_names_iff, mem_names_iff, same]
      -- Were one name first, the other list would not have it.
      have first : e.1 = f.1 := by
        rcases List.mem_cons.1 ((members e.1).1 List.mem_cons_self) with known | later
        · exact known
        rcases List.mem_cons.1 ((members f.1).2 List.mem_cons_self) with known | later'
        · exact known.symm
        exact absurd (List.lt_trans (below' _ later) (below _ later')) (List.lt_irrefl _)
      have value : e.2 = f.2 := by simpa [get?, first] using same f.1
      have tails (k : Text) : get? k b = get? k c := by
        by_cases known : k = e.1
        next =>
          subst known
          have absent : e.1 ∉ names b := fun member => List.lt_irrefl _ (below e.1 member)
          have absent' : e.1 ∉ names c := fun member =>
            List.lt_irrefl f.1 (first ▸ below' e.1 member)
          rw [get?_eq_none_iff.2 absent, get?_eq_none_iff.2 absent']
        next => simpa [get?, known, ← first] using same k
      rw [ih rest rest' tails, Prod.ext first value]

end Bindings

namespace Yaml

open Bindings

theorem Node.toValue_map : ∀ {n : Node} {entries : Vars}, n.toValue = .map entries →
    ∃ made, entries = ofList made
  | .map es, _, same => ⟨Node.toEntries es, by simpa [Node.toValue] using same.symm⟩
  | .tagged _ content, _, same => toValue_map (n := content) (by simpa [Node.toValue] using same)
  | .int n, _, same => by
    rw [Node.toValue] at same
    split at same <;> cases same
  | .null, _, same | .bool _, _, same | .float _, _, same | .str _, _, same | .seq _, _, same => by
    simp [Node.toValue] at same

theorem decode?_nodup {t : Text} {entries : Vars} (decoded : decode? t = some (.map entries)) :
    (names entries).Nodup := by
  obtain ⟨n, -, value⟩ := Option.map_eq_some_iff.1 decoded
  obtain ⟨made, rfl⟩ := Node.toValue_map value
  exact (ascending_ofList made).nodup

end Yaml

theorem Context.get?_merge {entries : Vars} (once : (Bindings.names entries).Nodup) (k : Text)
    (c : Context) : (c.merge entries).get? k = (Bindings.get? k entries).or (c.get? k) :=
  Bindings.get?_insertAll once k c.vars

end Docspec
