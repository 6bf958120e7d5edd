import Docspec.Placeholder.Engine
import Docspec.Proofs.Bodies
import Docspec.Proofs.Merging

set_option autoImplicit false

namespace Docspec

namespace Bindings

variable {α : Type} {b : Bindings α}

theorem names_insert_of_mem (ascending : Ascending b) {k : Text} (member : k ∈ names b) (v : α) :
    names (insert k v b) = names b := by
  induction b with
  | nil => cases member
  | cons e b ih =>
    obtain ⟨first, rest⟩ := List.pairwise_cons.1 ascending
    rw [insert]
    split
    next same => rw [names, names, List.map_cons, List.map_cons, same]
    next differ =>
      have later : k ∈ names b := (List.mem_cons.1 member).resolve_left differ
      rw [if_neg (List.lt_asymm (first k later))]
      exact congrArg (e.1 :: ·) (ih rest later)

theorem names_erase (k : Text) (b : Bindings α) :
    names (erase k b) = (names b).filter fun n => n ≠ k := by
  rw [names, names, List.filter_map]
  rfl

theorem Ascending.erase (ascending : Ascending b) (k : Text) : Ascending (erase k b) := by
  rw [Ascending, names_erase]
  exact List.Pairwise.filter _ ascending

end Bindings

namespace Placeholder

open Text

theorem canonicalName?_of_chars {t : Text} (chars : ∀ c ∈ t, isNameChar c = true) :
    canonicalName? t = if isName t then some (hyphenate t) else none := by
  have trimmed : trim t = t := trim_solid fun c member =>
    isBlank_of_isVariableChar (by simp [isVariableChar, chars c member])
  have lower : asciiLower t = t := asciiLower_of_no_upper fun c member =>
    isAsciiUpper_of_isVariableChar (by simp [isVariableChar, chars c member])
  rw [canonicalName?, trimmed, lower]

theorem hyphenate_of_not_mem {t : Text} (absent : '_' ∉ t) : hyphenate t = t :=
  (List.map_congr_left fun _ member => if_neg (ne_of_mem_of_not_mem member absent)).trans
    (List.map_id t)

section Canonical

variable {spelling key : Text} (canonical : canonicalName? spelling = some key)
include canonical

theorem exists_hyphenate : ∃ lower, isName lower = true ∧ key = hyphenate lower := by
  rw [canonicalName?] at canonical
  split at canonical
  next named => exact ⟨_, named, (Option.some.inj canonical).symm⟩
  next => cases canonical

theorem canonical_chars : (∀ c ∈ key, isNameChar c = true) ∧ '_' ∉ key := by
  obtain ⟨lower, named, rfl⟩ := exists_hyphenate canonical
  constructor
  next =>
    intro c member
    obtain ⟨d, inside, rfl⟩ := List.mem_map.1 member
    split
    next => decide
    next => exact chars_of_isName named d inside
  next =>
    intro member
    obtain ⟨d, -, same⟩ := List.mem_map.1 member
    split at same
    next => exact absurd same (by decide)
    next differ => exact differ same

theorem isName_canonical : isName key = true ↔ key.head? ≠ some '-' := by
  obtain ⟨chars, -⟩ := canonical_chars canonical
  obtain ⟨lower, named, rfl⟩ := exists_hyphenate canonical
  obtain ⟨c, t, rfl, start⟩ := start_of_isName named
  have others : (hyphenate t).all isNameChar = true := List.all_eq_true.2 fun d member =>
    chars d (List.mem_cons_of_mem _ member)
  change (isNameStart (if c = '_' then '-' else c) && (hyphenate t).all isNameChar) = true ↔
    some (if c = '_' then '-' else c) ≠ some '-'
  rw [others, Bool.and_true]
  have differ : c ≠ '-' := ne_of_isNameStart start (by decide)
  split
  next => decide
  next => simp [start, differ]

theorem canonicalName?_canonical :
    canonicalName? key = if key.head? = some '-' then none else some key := by
  obtain ⟨chars, absent⟩ := canonical_chars canonical
  rw [canonicalName?_of_chars chars, hyphenate_of_not_mem absent]
  simp only [isName_canonical canonical, ite_not]

theorem canonicalName?_underscore (hyphen : key.head? = some '-') :
    canonicalName? ('_' :: key.tail) = some key := by
  obtain ⟨chars, absent⟩ := canonical_chars canonical
  obtain ⟨rest, rfl⟩ := List.head?_eq_some_iff.1 hyphen
  obtain ⟨-, others⟩ := List.forall_mem_cons.1 chars
  have named : isName ('_' :: rest) = true :=
    Bool.and_eq_true_iff.2 ⟨rfl, List.all_eq_true.2 others⟩
  rw [List.tail_cons, canonicalName?_of_chars (chars_of_isName named), if_pos named]
  exact congrArg (fun t => some ('-' :: t))
    (hyphenate_of_not_mem fun member => absent (List.mem_cons_of_mem _ member))

end Canonical

inductive Change (α : Type)
  | add (name : Text) (a : α)
  | remove (name : Text)
  | clear

inductive Registering
  | addFilter (name : Text) (f : Filter)
  | addFunction (name : Text) (f : Function)
  | removeFilter (name : Text)
  | removeFunction (name : Text)
  | clear

def Registry.step (r : Registry) : Registering → Registry
  | .addFilter name f =>
    match r.addFilter name f with
    | .ok s => s
    | .error _ => r
  | .addFunction name f =>
    match r.addFunction name f with
    | .ok s => s
    | .error _ => r
  | .removeFilter name => (r.removeFilter name).1
  | .removeFunction name => (r.removeFunction name).1
  | .clear => r.clear

def Registry.run (steps : List Registering) : Registry := steps.foldl Registry.step .empty

namespace Change

variable {α : Type}

def apply (b : Bindings α) : Change α → Bindings α
  | add name a =>
    match canonicalName? name with
    | some key => b.insert key a
    | none => b
  | remove name =>
    match canonicalName? name with
    | some key => b.erase key
    | none => b
  | clear => []

def says? (key : Text) : Change α → Option (Option α)
  | add name a => if canonicalName? name = some key then some (some a) else none
  | remove name => if canonicalName? name = some key then some none else none
  | clear => some none

theorem get?_apply (key : Text) (c : Change α) (b : Bindings α) :
    (c.apply b).get? key = (c.says? key).getD (b.get? key) := by
  cases c with
  | add name a =>
    rw [apply, says?]
    cases canonicalName? name with
    | none => rfl
    | some own =>
      simp only [Bindings.get?_insert, Option.some.injEq, eq_comm]
      split <;> rfl
  | remove name =>
    rw [apply, says?]
    cases canonicalName? name with
    | none => rfl
    | some own =>
      simp only [Bindings.get?_erase, Option.some.injEq, eq_comm]
      split <;> rfl
  | clear => rfl

theorem ascending_apply (c : Change α) {b : Bindings α} (ascending : b.Ascending) :
    (c.apply b).Ascending := by
  cases c with
  | add name a =>
    rw [apply]
    split
    next => exact ascending.insert _ a
    next => exact ascending
  | remove name =>
    rw [apply]
    split
    next => exact ascending.erase _
    next => exact ascending
  | clear => exact .nil

end Change

structure Shelf (α : Type) where
  table : Registry → Bindings α
  names : Registry → List Text
  find? : Text → Registry → Option α
  add : Text → α → Registry → Except Error Registry
  remove : Text → Registry → Registry × Bool
  change? : Registering → Option (Change α)

namespace Shelf

def filters : Shelf Filter where
  table := Registry.filters
  names := Registry.filterNames
  find? := Registry.filter?
  add := Registry.addFilter
  remove := Registry.removeFilter
  change?
    | .addFilter name f => some (.add name f)
    | .removeFilter name => some (.remove name)
    | .clear => some .clear
    | .addFunction _ _ | .removeFunction _ => none

def functions : Shelf Function where
  table := Registry.functions
  names := Registry.functionNames
  find? := Registry.function?
  add := Registry.addFunction
  remove := Registry.removeFunction
  change?
    | .addFunction name f => some (.add name f)
    | .removeFunction name => some (.remove name)
    | .clear => some .clear
    | .addFilter _ _ | .removeFilter _ => none

section Shelf

variable {α : Type} (s : Shelf α)

/-- What is left under a canonical name: what the last operation says that says anything. -/
def latest? (key : Text) (steps : List Registering) : Option α :=
  (steps.filterMap fun x => (s.change? x).bind (Change.says? key)).getLast?.getD none

/-- The operations of a shelf go by the canonical spelling, on its table alone. -/
structure Lawful : Prop where
  names_eq (r : Registry) : s.names r = (s.table r).names
  find_eq (name : Text) (r : Registry) :
    s.find? name r = (canonicalName? name).bind fun key => (s.table r).get? key
  add_named {name key : Text} (canonical : canonicalName? name = some key) (a : α)
    (r : Registry) : ∃ r', s.add name a r = .ok r' ∧ s.table r' = (s.table r).insert key a
  add_unnamed {name : Text} (bad : canonicalName? name = none) (a : α) (r : Registry) :
    s.add name a r = .error (.badName name)
  remove_named {name key : Text} (canonical : canonicalName? name = some key) (r : Registry) :
    ∃ r', s.remove name r = (r', (s.table r).contains key) ∧ s.table r' = (s.table r).erase key
  remove_unnamed {name : Text} (bad : canonicalName? name = none) (r : Registry) :
    s.remove name r = (r, false)
  table_empty : s.table .empty = []
  table_step (x : Registering) (r : Registry) :
    s.table (r.step x) = ((s.change? x).map (Change.apply (s.table r))).getD (s.table r)

end Shelf

theorem lawful_filters : filters.Lawful where
  names_eq _ := rfl
  find_eq _ _ := rfl
  add_named {_ key} canonical a r :=
    ⟨{ r with filters := r.filters.insert key a },
      by simp only [filters, Registry.addFilter, canonical], rfl⟩
  add_unnamed bad a r := by simp only [filters, Registry.addFilter, bad]
  remove_named {_ key} canonical r :=
    ⟨{ r with filters := r.filters.erase key },
      by simp only [filters, Registry.removeFilter, canonical], rfl⟩
  remove_unnamed bad r := by simp only [filters, Registry.removeFilter, bad]
  table_empty := rfl
  table_step x r := by
    cases x with
    | clear => rfl
    | addFilter name f =>
      simp only [Registry.step, Registry.addFilter, filters, Option.map_some, Change.apply]
      cases canonicalName? name <;> rfl
    | removeFilter name =>
      simp only [Registry.step, Registry.removeFilter, filters, Option.map_some, Change.apply]
      cases canonicalName? name <;> rfl
    | addFunction name f =>
      rw [Registry.step, Registry.addFunction]
      cases canonicalName? name <;> rfl
    | removeFunction name =>
      rw [Registry.step, Registry.removeFunction]
      cases canonicalName? name <;> rfl

theorem lawful_functions : functions.Lawful where
  names_eq _ := rfl
  find_eq _ _ := rfl
  add_named {_ key} canonical a r :=
    ⟨{ r with functions := r.functions.insert key a },
      by simp only [functions, Registry.addFunction, canonical], rfl⟩
  add_unnamed bad a r := by simp only [functions, Registry.addFunction, bad]
  remove_named {_ key} canonical r :=
    ⟨{ r with functions := r.functions.erase key },
      by simp only [functions, Registry.removeFunction, canonical], rfl⟩
  remove_unnamed bad r := by simp only [functions, Registry.removeFunction, bad]
  table_empty := rfl
  table_step x r := by
    cases x with
    | clear => rfl
    | addFunction name f =>
      simp only [Registry.step, Registry.addFunction, functions, Option.map_some, Change.apply]
      cases canonicalName? name <;> rfl
    | removeFunction name =>
      simp only [Registry.step, Registry.removeFunction, functions, Option.map_some, Change.apply]
      cases canonicalName? name <;> rfl
    | addFilter name f =>
      rw [Registry.step, Registry.addFilter]
      cases canonicalName? name <;> rfl
    | removeFilter name =>
      rw [Registry.step, Registry.removeFilter]
      cases canonicalName? name <;> rfl

variable {α : Type} {s : Shelf α} (lawful : s.Lawful)
include lawful

theorem Lawful.get?_run (key : Text) (steps : List Registering) :
    (s.table (.run steps)).get? key = s.latest? key steps := by
  have step (r : Registry) (x : Registering) : (s.table (r.step x)).get? key =
      ((s.change? x).bind (Change.says? key)).getD ((s.table r).get? key) := by
    rw [lawful.table_step]
    cases s.change? x with
    | none => rfl
    | some c => exact c.get?_apply key (s.table r)
  have last := foldl_last (fun r => (s.table r).get? key) step steps .empty
  rw [Registry.run, latest?, last, lawful.table_empty]
  rfl

theorem Lawful.ascending_run (steps : List Registering) :
    (s.table (.run steps)).Ascending := by
  have start : (s.table .empty).Ascending := lawful.table_empty ▸ .nil
  refine List.foldlRecOn (motive := fun r => (s.table r).Ascending) steps Registry.step start
    fun r ascending x _ => ?_
  rw [lawful.table_step]
  cases s.change? x with
  | none => exact ascending
  | some c => exact c.ascending_apply ascending

end Shelf

theorem Change.name_of_says {α : Type} {c : Change α} {key : Text} {a : α}
    (said : c.says? key = some (some a)) : ∃ name, canonicalName? name = some key := by
  cases c with
  | add name b =>
    rw [says?] at said
    split at said
    next canonical => exact ⟨name, canonical⟩
    next => cases said
  | remove name =>
    rw [says?] at said
    split at said <;> cases said
  | clear => cases said

namespace Shelf

variable {α : Type}

theorem name_of_latest {s : Shelf α} {key : Text} {steps : List Registering} {a : α}
    (latest : s.latest? key steps = some a) : ∃ name, canonicalName? name = some key := by
  rw [latest?] at latest
  cases last : (steps.filterMap fun x => (s.change? x).bind (Change.says? key)).getLast? with
  | none =>
    rw [last] at latest
    cases latest
  | some said =>
    obtain rfl : said = some a := by simpa [last] using latest
    obtain ⟨x, -, own⟩ := List.mem_filterMap.1 (List.mem_of_getLast? last)
    obtain ⟨c, -, said⟩ := Option.bind_eq_some_iff.1 own
    exact Change.name_of_says said

structure Works (s : Shelf α) (r : Registry) (name n : Text) (a : α) : Prop where
  found : s.find? name r = some a
  replaced (b : α) : ∃ r', s.add name b r = .ok r' ∧ s.names r' = s.names r ∧
    ∀ other, s.find? other r' =
      if canonicalName? other = some n then some b else s.find? other r
  removed : ∃ r', s.remove name r = (r', true) ∧ s.names r' = (s.names r).filter (· ≠ n) ∧
    ∀ other, s.find? other r' = if canonicalName? other = some n then none else s.find? other r

structure Refuses (s : Shelf α) (r : Registry) (name : Text) : Prop where
  missing : s.find? name r = none
  refused (a : α) : s.add name a r = .error (.badName name)
  kept : s.remove name r = (r, false)

structure Serves (s : Shelf α) (steps : List Registering) (r : Registry) : Prop where
  ascending : (s.names r).Pairwise (· < ·)
  once : (s.names r).Nodup
  listed {n : Text} : n ∈ s.names r ↔ ∃ a, s.latest? n steps = some a
  works {n name : Text} {a : α} : s.latest? n steps = some a → canonicalName? name = some n →
    s.Works r name n a
  own {n : Text} : n ∈ s.names r → n.head? ≠ some '-' → canonicalName? n = some n
  usable {n : Text} {a : α} : s.latest? n steps = some a →
    (s.Works r n n a ↔ n.head? ≠ some '-')
  hyphen {n : Text} : n ∈ s.names r → n.head? = some '-' →
    s.Refuses r n ∧ canonicalName? ('_' :: n.tail) = some n

section Lawful

variable {s : Shelf α} (lawful : s.Lawful)
include lawful

theorem Lawful.works {r : Registry} (ascending : (s.table r).Ascending) {name n : Text} {a : α}
    (bound : (s.table r).get? n = some a) (canonical : canonicalName? name = some n) :
    s.Works r name n a := by
  constructor
  case found => rw [lawful.find_eq, canonical, Option.bind_some, bound]
  case replaced =>
    intro b
    obtain ⟨r', added, table⟩ := lawful.add_named canonical b r
    refine ⟨r', added, ?_, fun other => ?_⟩
    · rw [lawful.names_eq, lawful.names_eq, table]
      exact Bindings.names_insert_of_mem ascending (Bindings.mem_names_iff.2 ⟨a, bound⟩) b
    · rw [lawful.find_eq, lawful.find_eq, table]
      cases canonicalName? other with
      | none => rfl
      | some key => simp [Bindings.get?_insert]
  case removed =>
    obtain ⟨r', removed, table⟩ := lawful.remove_named canonical r
    have there : (s.table r).contains n = true := by rw [Bindings.contains, bound]; rfl
    refine ⟨r', there ▸ removed, ?_, fun other => ?_⟩
    · rw [lawful.names_eq, lawful.names_eq, table, Bindings.names_erase]
    · rw [lawful.find_eq, lawful.find_eq, table]
      cases canonicalName? other with
      | none => rfl
      | some key => simp [Bindings.get?_erase]

theorem Lawful.refuses {name : Text} (bad : canonicalName? name = none) (r : Registry) :
    s.Refuses r name where
  missing := by rw [lawful.find_eq, bad]; rfl
  refused a := lawful.add_unnamed bad a r
  kept := lawful.remove_unnamed bad r

theorem Lawful.serves (steps : List Registering) : s.Serves steps (.run steps) := by
  have ascending := lawful.ascending_run steps
  have listed {n : Text} : n ∈ s.names (.run steps) ↔ ∃ a, s.latest? n steps = some a := by
    rw [lawful.names_eq, Bindings.mem_names_iff, lawful.get?_run]
  have canonical {n : Text} (member : n ∈ s.names (.run steps)) :
      ∃ name, canonicalName? name = some n := by
    obtain ⟨a, latest⟩ := listed.1 member
    exact name_of_latest latest
  have works {n name : Text} {a : α} (latest : s.latest? n steps = some a)
      (spelled : canonicalName? name = some n) : s.Works (.run steps) name n a :=
    lawful.works ascending ((lawful.get?_run n steps).trans latest) spelled
  have own {n : Text} (member : n ∈ s.names (.run steps)) (visible : n.head? ≠ some '-') :
      canonicalName? n = some n := by
    obtain ⟨name, spelled⟩ := canonical member
    rw [canonicalName?_canonical spelled, if_neg visible]
  have hyphen {n : Text} (member : n ∈ s.names (.run steps)) (hyphen : n.head? = some '-') :
      s.Refuses (.run steps) n ∧ canonicalName? ('_' :: n.tail) = some n := by
    obtain ⟨name, spelled⟩ := canonical member
    refine ⟨lawful.refuses ?_ _, canonicalName?_underscore spelled hyphen⟩
    rw [canonicalName?_canonical spelled, if_pos hyphen]
  constructor
  case ascending => exact lawful.names_eq _ ▸ ascending
  case once => exact lawful.names_eq _ ▸ ascending.nodup
  case listed => exact listed
  case works => exact works
  case own => exact own
  case hyphen => exact hyphen
  case usable =>
    intro n a latest
    have member : n ∈ s.names (.run steps) := listed.2 ⟨a, latest⟩
    constructor
    case mp =>
      intro whole first
      have missing := (hyphen member first).1.missing
      rw [whole.found] at missing
      cases missing
    case mpr => exact fun visible => works latest (own member visible)

end Lawful

end Shelf

namespace Registry

theorem foldl_step {α : Type} {entries : List (Text × α)} {table : Bindings α → Registry}
    {operation : Text × α → Registering}
    (one : ∀ e ∈ entries, ∀ b, (table b).step (operation e) = table (b.insert e.1 e.2))
    (b : Bindings α) :
    (entries.map operation).foldl step (table b) = table (b.insertAll entries) := by
  induction entries generalizing b with
  | nil => rfl
  | cons e entries ih =>
    obtain ⟨first, others⟩ := List.forall_mem_cons.1 one
    rw [List.map_cons, List.foldl_cons, first, ih others]
    rfl

theorem exists_run_builtin (m : Moment) : ∃ steps, run steps = builtin m := by
  have filters : ∀ e ∈ builtinFilters, ∀ b,
      (Registry.mk b []).step (.addFilter e.1 e.2) = ⟨b.insert e.1 e.2, []⟩ := by
    have own : ∀ n ∈ builtinFilters.map Prod.fst, canonicalName? n = some n := by decide
    intro e member b
    simp only [step, addFilter, own e.1 (List.mem_map_of_mem member)]
  have functions (old : Bindings Filter) : ∀ e ∈ builtinFunctions m, ∀ b,
      (Registry.mk old b).step (.addFunction e.1 e.2) = ⟨old, b.insert e.1 e.2⟩ := by
    have own : ∀ n ∈ ["iso-time".toList, "iso-date", "iso-datetime", "uuid", "object-id"],
        canonicalName? n = some n := by decide
    intro e member b
    simp only [step, addFunction, own e.1 (List.mem_map_of_mem (f := Prod.fst) member)]
  refine ⟨builtinFilters.map (fun e => Registering.addFilter e.1 e.2) ++
    (builtinFunctions m).map fun e => Registering.addFunction e.1 e.2, ?_⟩
  rw [run, List.foldl_append, empty, foldl_step filters, foldl_step (functions _)]
  rfl

end Registry

theorem registry_serves_names (steps : List Registering) :
    Shelf.filters.Serves steps (.run steps) ∧ Shelf.functions.Serves steps (.run steps) ∧
      (∀ m, ∃ builtin, Registry.run builtin = .builtin m) ∧
      ∀ {spelling n : Text}, canonicalName? spelling = some n →
        canonicalName? n = if n.head? = some '-' then none else some n :=
  ⟨Shelf.lawful_filters.serves steps, Shelf.lawful_functions.serves steps,
    Registry.exists_run_builtin, canonicalName?_canonical⟩

theorem registry_serves_names_underscore :
    let f : Function := fun _ => .ok "first".toList
    let g : Function := fun _ => .ok "second".toList
    let r := Registry.run [.addFunction "_Private" f, .addFunction "b_c" f, .addFunction "B-c" g]
    r.functionNames = ["-private", "b-c"] ∧ r.function? "b-c" = some g ∧
      (r.removeFunction "b-c").2 = true ∧ canonicalName? "_Private" = some "-private".toList ∧
      canonicalName? "-private" = none ∧ r.function? "-private" = none ∧
      r.removeFunction "-private" = (r, false) ∧ r.function? "_PRIVATE" = some f := by
  intro f g r
  obtain ⟨-, functions, -, idempotent⟩ :=
    registry_serves_names
      [.addFunction "_Private" f, .addFunction "b_c" f, .addFunction "B-c" g]
  have names : r.functionNames = ["-private".toList, "b-c".toList] := by decide
  have spelled : canonicalName? "_Private" = some "-private".toList := by decide
  have whole : Shelf.functions.Works r "b-c" "b-c" g := functions.works rfl (by decide)
  have other : Shelf.functions.Works r "_PRIVATE" "-private" f :=
    functions.works rfl (by decide)
  have listed : "-private".toList ∈ r.functionNames := by
    rw [names]
    decide
  obtain ⟨refuses, -⟩ := functions.hyphen listed (by decide)
  obtain ⟨r', removed, -⟩ := whole.removed
  exact ⟨names, whole.found, congrArg Prod.snd removed, spelled, idempotent spelled,
    refuses.missing, refuses.kept, other.found⟩

end Placeholder

end Docspec
