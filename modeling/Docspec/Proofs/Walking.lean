import Docspec.Proofs.Placement
import Docspec.Proofs.Replay
import Docspec.Proofs.Scanning

set_option autoImplicit false

namespace Docspec

open Text

theorem exists_of_flatMap_eq {α β : Type} {f : α → List β} {xs : List α} {before after : List β}
    {b : β} (shape : xs.flatMap f = before ++ b :: after) :
    ∃ front x back own later, xs = front ++ x :: back ∧ f x = own ++ b :: later ∧
      before = front.flatMap f ++ own ∧ after = later ++ back.flatMap f := by
  induction xs generalizing before with
  | nil => simp at shape
  | cons x xs ih =>
    rw [List.flatMap_cons, List.append_eq_append_iff] at shape
    rcases shape with ⟨rest, rfl, inside⟩ | ⟨rest, own, inside⟩
    · obtain ⟨front, y, back, piece, later, rfl, whole, rfl, rfl⟩ := ih inside
      exact ⟨x :: front, y, back, piece, later, rfl, whole, by simp, rfl⟩
    · cases rest with
      | nil =>
        have inner : xs.flatMap f = [] ++ b :: after := inside.symm
        obtain ⟨front, y, back, piece, later, rfl, whole, nothing, rfl⟩ := ih inner
        refine ⟨x :: front, y, back, piece, later, rfl, whole, ?_, rfl⟩
        rw [List.flatMap_cons, List.append_assoc, ← nothing, own, List.append_nil, List.append_nil]
      | cons c rest =>
        obtain ⟨rfl, rfl⟩ := List.cons.inj inside
        exact ⟨[], x, xs, before, rest, rfl, own, rfl, rfl⟩

namespace TestTree

/-- A tree and the lists of children that are kept while it is made: a new case has none, and its
number is put behind the children of its parent. -/
inductive Grown : TestTree → (Nat → List Nat) → Prop
  | new : Grown .new fun _ => []
  | addChild {t : TestTree} {links : Nat → List Nat} {parent : Nat} (name : Text) (level : Nat) :
    Grown t links → parent < t.size →
    Grown (t.addChild parent name level)
      (Function.update links parent (links parent ++ [t.size]))
  | addCommand {t : TestTree} {links : Nat → List Nat} {i : Nat} (c : Command) :
    Grown t links → i < t.size → Grown (t.addCommand i c) links
  | setStatus {t : TestTree} {links : Nat → List Nat} {i : Nat} (s : Status) :
    Grown t links → i < t.size → Grown (t.setStatus i s) links
  | reset {t : TestTree} {links : Nat → List Nat} : Grown t links → Grown t.reset links

/-- Cases one after the other at a depth, each with all that is below it right behind it. -/
inductive Forest (t : TestTree) (depth : Nat) : List Nat → List (Nat × Nat) → Prop
  | nil : Forest t depth [] []
  | cons {i : Nat} {more : List Nat} {under rest : List (Nat × Nat)} :
    (∀ j, j ∈ under.map Prod.snd ↔ t.Below i j ∧ j ≠ i) → Forest t depth more rest →
    Forest t depth (i :: more) ((depth, i) :: (under ++ rest))

section Growth

variable {t : TestTree} {links : Nat → List Nat}

theorem children_addChild (t : TestTree) {parent : Nat} (inside : parent < t.size) (name : Text)
    (level i : Nat) : (t.addChild parent name level).children i =
      if i = parent then t.children i ++ [t.size] else t.children i := by
  rw [children, addChild, List.zipIdx_append, List.filter_append, List.map_append, ← children]
  by_cases same : i = parent
  next =>
    subst same
    have own : i < t.cases.length := inside
    simp [own, size]
  next => simp [same, Ne.symm same]

theorem parents_modify (t : TestTree) (i : Nat) {f : TestCase → TestCase}
    (kept : ∀ n, (f n).parent = n.parent) (j : Nat) :
    ((t.modify i f).get? j).map TestCase.parent = (t.get? j).map TestCase.parent := by
  rw [get?_modify, Option.map_map]
  congr 1
  funext n
  rw [Function.comp_apply]
  split
  next => exact kept n
  next => rfl

theorem parents_addCommand (t : TestTree) (i : Nat) (c : Command) (j : Nat) :
    ((t.addCommand i c).get? j).map TestCase.parent = (t.get? j).map TestCase.parent := by
  apply parents_modify
  exact fun _ => rfl

theorem parents_setStatus (t : TestTree) (i : Nat) (s : Status) (j : Nat) :
    ((t.setStatus i s).get? j).map TestCase.parent = (t.get? j).map TestCase.parent := by
  apply parents_modify
  exact fun _ => rfl

theorem parents_reset (t : TestTree) (j : Nat) :
    (t.reset.get? j).map TestCase.parent = (t.get? j).map TestCase.parent := by
  rw [get?_reset, Option.map_map]
  rfl

theorem Grown.built (grown : t.Grown links) : t.Built := by
  induction grown with
  | new => exact .new
  | addChild name level _ inside ih => exact .addChild name level ih inside
  | addCommand c _ inside ih => exact .addCommand c ih inside
  | setStatus s _ inside ih => exact .setStatus s ih inside
  | reset _ ih => exact .reset ih

theorem Grown.links_eq (grown : t.Grown links) : links = t.children := by
  induction grown with
  | new =>
    funext i
    by_cases first : 0 = i <;> simp [children, TestTree.new, root, first]
  | @addChild t links parent name level _ inside ih =>
    subst ih
    funext i
    rw [children_addChild t inside, Function.update_apply]
    split
    next same => rw [same]
    next => rfl
  | addCommand c _ _ ih => exact ih.trans (funext (children_congr (parents_addCommand _ _ c))).symm
  | setStatus s _ _ ih => exact ih.trans (funext (children_congr (parents_setStatus _ _ s))).symm
  | reset _ ih => exact ih.trans (funext (children_congr (parents_reset _))).symm

theorem Built.root_parent (built : t.Built) : (t.get? 0).map TestCase.parent = some none := by
  induction built with
  | new => rfl
  | addChild name level built _ known =>
    rw [get?, TestTree.addChild, List.getElem?_append_left built.rooted.nonempty]
    exact known
  | addCommand c _ _ known => exact (parents_addCommand _ _ c 0).trans known
  | setStatus s _ _ known => exact (parents_setStatus _ _ s 0).trans known
  | reset _ known => exact (parents_reset _ 0).trans known

theorem Rooted.count_children (rooted : t.Rooted) {i : Nat} (positive : 0 < i)
    (inside : i < t.size) : ∃ p, p < i ∧ (t.getD i).parent = some p ∧
      ∀ q, (t.children q).count i = if q = p then 1 else 0 := by
  have found : t.get? i = some t.cases[i] := List.getElem?_eq_getElem inside
  obtain ⟨p, before, parent⟩ := rooted.parent i _ positive found
  have known : (t.getD i).parent = some p := by rw [getD, found, Option.getD_some, parent]
  have own : i ∈ t.children p := mem_children.2 ⟨before, _, found, parent⟩
  refine ⟨p, before, known, fun q => ?_⟩
  have distinct : (t.children q).Nodup := (children_sorted t q).imp Nat.ne_of_lt
  split
  next same =>
    subst same
    exact List.count_eq_one_of_mem distinct own
  next differ => exact List.count_eq_zero.2 fun member => differ (parent_unique member own)

end Growth

section Walk

variable {t : TestTree}

theorem forest_walkFrom (t : TestTree) (depth : Nat) (cases : List Nat) :
    t.Forest depth cases (cases.flatMap (t.walkFrom depth)) := by
  induction cases with
  | nil => exact .nil
  | cons i more ih =>
    rw [List.flatMap_cons, walkFrom_eq]
    refine .cons (fun j => ?_) ih
    have whole := t.walkFrom_map_snd depth i
    rw [walkFrom_eq, List.map_cons] at whole
    have apart := (List.nodup_cons.1 (whole ▸ t.subtree_nodup i)).1
    rw [← mem_subtree, ← whole, List.mem_cons]
    constructor
    · intro member
      exact ⟨.inr member, fun same => apart (same ▸ member)⟩
    · rintro ⟨member, differ⟩
      exact member.resolve_left differ

-- Down the tree by its leaves: what a walk comes to is its start or is in the piece of a child, and
-- there the child is its own start and has the start of the walk before it.
theorem walkFrom_split (i : Nat) {depth d j : Nat} {before after : List (Nat × Nat)}
    (shape : t.walkFrom depth i = before ++ (d, j) :: after) :
    (∃ own rest, after = own ++ rest ∧ t.Forest (d + 1) (t.children j) own) ∧
      (before = [] ∧ j = i ∧ d = depth ∨
        ∃ p d', j ∈ t.children p ∧ (d', p) ∈ before ∧ d = d' + 1) := by
  induction i using t.children_induction generalizing depth before after with
  | step i ih =>
    rw [walkFrom_eq] at shape
    cases before with
    | nil =>
      obtain ⟨same, rfl⟩ := List.cons.inj shape
      obtain ⟨rfl, rfl⟩ := Prod.mk.inj same
      exact ⟨⟨_, [], (List.append_nil _).symm, t.forest_walkFrom _ _⟩, .inl ⟨rfl, rfl, rfl⟩⟩
    | cons first before =>
      obtain ⟨rfl, behind⟩ := List.cons.inj shape
      obtain ⟨front, k, back, own, later, whole, piece, rfl, rfl⟩ := exists_of_flatMap_eq behind
      have child : k ∈ t.children i := by simp [whole]
      obtain ⟨⟨under, rest, rfl, forest⟩, place⟩ := ih k child piece
      refine ⟨⟨under, rest ++ back.flatMap (t.walkFrom (depth + 1)), by simp, forest⟩, .inr ?_⟩
      rcases place with ⟨rfl, rfl, rfl⟩ | ⟨p, d', member, earlier, rfl⟩
      · exact ⟨i, depth, child, List.mem_cons_self, rfl⟩
      · exact ⟨p, d', member, by simp [earlier], rfl⟩

theorem walk_split {d j : Nat} {before after : List (Nat × Nat)}
    (shape : t.walk = before ++ (d, j) :: after) :
    (∃ own rest, after = own ++ rest ∧ t.Forest (d + 1) (t.children j) own) ∧
      (j ∈ t.children 0 ∧ d = 0 ∨ ∃ p d', j ∈ t.children p ∧ (d', p) ∈ before ∧ d = d' + 1) := by
  obtain ⟨front, k, back, own, later, whole, piece, rfl, rfl⟩ := exists_of_flatMap_eq shape
  have child : k ∈ t.children 0 := by simp [whole]
  obtain ⟨⟨under, rest, rfl, forest⟩, place⟩ := walkFrom_split k piece
  refine ⟨⟨under, rest ++ back.flatMap (t.walkFrom 0), by simp, forest⟩, ?_⟩
  rcases place with ⟨rfl, rfl, rfl⟩ | ⟨p, d', member, earlier, rfl⟩
  · exact .inl ⟨child, rfl⟩
  · exact .inr ⟨p, d', member, by simp [earlier], rfl⟩

theorem Rooted.walk_perm (rooted : t.Rooted) :
    (t.walk.map Prod.snd).Perm (List.range' 1 (t.size - 1)) := by
  have all := subtree_root_perm rooted
  obtain ⟨n, size⟩ := Nat.exists_eq_succ_of_ne_zero (Nat.ne_of_gt rooted.nonempty)
  rw [subtree_root, size, List.range_eq_range', List.range'_succ] at all
  rw [size]
  exact all.cons_inv

end Walk

section Outline

def caption (t : TestTree) (i : Nat) : Text :=
  (t.getD i).name ++ " (".toList ++ ofNat (t.childCounts i).1 ++ "/".toList ++
    ofNat (t.childCounts i).2 ++ ") ".toList ++ (t.getD i).status.display

variable {t : TestTree}

theorem outlineLine_eq (t : TestTree) (depth i : Nat) :
    t.outlineLine depth i = List.replicate (2 * depth) ' ' ++ t.caption i ++ ['\n'] := by
  simp [outlineLine, caption]

theorem newline_not_mem_ofNat (n : Nat) : '\n' ∉ ofNat n := fun member => by
  have digit : '\n'.isDigit = true :=
    Nat.isDigit_of_mem_toDigits (by decide) (by decide) member
  cases digit

theorem newline_not_mem_caption {i : Nat} (name : '\n' ∉ (t.getD i).name) : '\n' ∉ t.caption i := by
  have status : '\n' ∉ (t.getD i).status.display := by
    cases (t.getD i).status <;> decide
  simp [caption, name, status, newline_not_mem_ofNat]

theorem splitAll_outline (names : ∀ i, '\n' ∉ (t.getD i).name) (cases : List (Nat × Nat)) :
    splitAll '\n' (cases.flatMap fun p => t.outlineLine p.1 p.2) =
      cases.map (fun p => List.replicate (2 * p.1) ' ' ++ t.caption p.2) ++ [[]] := by
  induction cases with
  | nil => rfl
  | cons p cases ih =>
    have line : '\n' ∉ List.replicate (2 * p.1) ' ' ++ t.caption p.2 := by
      simp [newline_not_mem_caption (names p.2)]
    rw [List.flatMap_cons, outlineLine_eq, List.append_assoc _ ['\n'], List.singleton_append,
      splitAll_append line, ih]
    rfl

end Outline

theorem grown_walked {t : TestTree} {links : Nat → List Nat} (grown : t.Grown links) :
    links = t.children ∧ (t.get? 0).map TestCase.parent = some none ∧
      (∀ i, 0 < i → i < t.size → ∃ p, p < i ∧ (t.getD i).parent = some p ∧
        ∀ q, (links q).count i = if q = p then 1 else 0) ∧
      (∀ q, (links q).Pairwise (· < ·) ∧ ∀ i ∈ links q, 0 < i ∧ i < t.size) ∧
      (∀ out, t.Walks ((links 0).map fun i => (0, i)) out ↔ out = t.walk) ∧
      (t.walk.map Prod.snd).Perm (List.range' 1 (t.size - 1)) ∧
      t.Forest 0 (links 0) t.walk ∧
      (∀ before d i after, t.walk = before ++ (d, i) :: after →
        (∃ own rest, after = own ++ rest ∧ t.Forest (d + 1) (links i) own) ∧
        (i ∈ links 0 ∧ d = 0 ∨ ∃ p d', i ∈ links p ∧ (d', p) ∈ before ∧ d = d' + 1)) ∧
      ((∀ n ∈ t.cases, '\n' ∉ n.name) → ∃ lines, splitAll '\n' t.outline = lines ++ [[]] ∧
        lines.length = t.size - 1 ∧ ∀ (k d i : Nat), t.walk[k]? = some (d, i) →
          lines[k]? = some (List.replicate (2 * d) ' ' ++ t.caption i)) := by
  obtain rfl := grown.links_eq
  have rooted := grown.built.rooted
  have all := rooted.walk_perm
  refine ⟨rfl, grown.built.root_parent, fun i => rooted.count_children,
    fun q => ⟨children_sorted t q, fun i member => ?_⟩,
    fun out => ⟨fun walked => walked.unique walks_walk, ?_⟩, all, t.forest_walkFrom 0 _,
    fun before d i after => walk_split, fun names => ?_⟩
  · have later := lt_size_of_mem_children member
    exact ⟨Nat.zero_lt_of_lt later.1, later.2⟩
  · rintro rfl
    exact walks_walk
  · have known (i : Nat) : '\n' ∉ (t.getD i).name := by
      rw [getD, get?]
      cases found : t.cases[i]? with
      | none => decide
      | some n => exact names n (List.mem_of_getElem? found)
    refine ⟨_, splitAll_outline known t.walk, ?_, fun k d i found => ?_⟩
    · rw [List.length_map, ← List.length_map Prod.snd, all.length_eq, List.length_range']
    · rw [List.getElem?_map, found]
      rfl

def branching : TestTree :=
  let upper := (TestTree.new.addChild 0 "A".toList 1).addChild 1 "A.1".toList 2
  ((upper.addChild 1 "A.2".toList 2).addChild 0 "B".toList 1).setStatus 3 .passed

theorem branching_grown : ∃ links, branching.Grown links := by
  refine ⟨_, .setStatus _ (.addChild _ _ (.addChild _ _ (.addChild _ _ (.addChild _ _ .new ?_) ?_)
    ?_) ?_) ?_⟩ <;> decide

theorem grown_walked_branching :
    (∃ links, branching.Grown links ∧ links 1 = [2, 3] ∧
      ∀ out, branching.Walks ((links 0).map fun i => (0, i)) out ↔
        out = [(0, 1), (1, 2), (1, 3), (0, 4)]) ∧
      (∀ n ∈ branching.cases, '\n' ∉ n.name) ∧
      ∃ lines, splitAll '\n' branching.outline = lines ++ [[]] ∧ lines.length = 4 ∧
        lines[2]? = some "  A.2 (0/0) passed".toList := by
  obtain ⟨links, grown⟩ := branching_grown
  have walk : branching.walk = [(0, 1), (1, 2), (1, 3), (0, 4)] := by decide +kernel
  have names : ∀ n ∈ branching.cases, '\n' ∉ n.name := by decide +kernel
  obtain ⟨same, -, -, -, walks, -, -, -, outlined⟩ := grown_walked grown
  obtain ⟨lines, shape, length, line⟩ := outlined names
  refine ⟨⟨links, grown, ?_, fun out => walk ▸ walks out⟩, names, lines, shape, length, ?_⟩
  · rw [same]
    decide +kernel
  · rw [line 2 1 3 (by rw [walk]; rfl)]
    decide +kernel

end TestTree

end Docspec
