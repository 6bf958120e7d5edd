import Docspec.CommandLine.FileTree
import Mathlib.Data.List.Infix

set_option autoImplicit false

namespace Docspec.CommandLine

section Machine

variable {σ : Type} {y : Machine σ} {SameFile : σ → Text → Text → Prop}

/-- What a run relies on: a text that goes to one file leaves the others as they were, and brings no
two paths together. -/
structure Machine.Lawful (y : Machine σ) (SameFile : σ → Text → Text → Prop) : Prop where
  read_append : ∀ (disk : σ) (file more path text : Text), ¬ SameFile disk file path →
    (y.read (y.append disk file more).2 path = .ok text ↔ y.read disk path = .ok text)
  sameFile_append : ∀ (disk : σ) (file more a b : Text),
    SameFile (y.append disk file more).2 a b → SameFile disk a b

def Machine.write (y : Machine σ) (disk : σ) (p : Printed) : σ :=
  match p.destination with
  | none => disk
  | some file => (y.append disk file (p.text ++ ['\n'])).2

structure Machine.Keeps (y : Machine σ) (SameFile : σ → Text → Text → Prop) (disk later : σ)
    (path : Text) : Prop where
  read : ∀ text, y.read later path = .ok text ↔ y.read disk path = .ok text
  sameFile : ∀ a b, SameFile later a b → SameFile disk a b

namespace Machine

theorem Keeps.refl (disk : σ) (path : Text) : y.Keeps SameFile disk disk path :=
  ⟨fun _ => Iff.rfl, fun _ _ same => same⟩

theorem Keeps.trans {disk later last : σ} {path : Text}
    (first : y.Keeps SameFile disk later path) (second : y.Keeps SameFile later last path) :
    y.Keeps SameFile disk last path where
  read text := (second.read text).trans (first.read text)
  sameFile a b same := first.sameFile a b (second.sameFile a b same)

variable (lawful : y.Lawful SameFile)

include lawful

theorem keeps_write {disk : σ} {p : Printed} {path : Text}
    (other : ∀ file ∈ p.destination, ¬ SameFile disk file path) :
    y.Keeps SameFile disk (y.write disk p) path := by
  rw [write]
  split
  next => exact .refl disk path
  next file destination =>
    exact ⟨fun text => lawful.read_append disk file _ path text (other file destination),
      lawful.sameFile_append disk file _⟩

-- Paths that are apart at first stay apart, so that one answer holds for all records.
theorem keeps_writes {disk : σ} {ps : List Printed} {path : Text}
    (other : ∀ p ∈ ps, ∀ file ∈ p.destination, ¬ SameFile disk file path) :
    y.Keeps SameFile disk (ps.foldl y.write disk) path := by
  induction ps generalizing disk with
  | nil => exact .refl disk path
  | cons p ps ih =>
    have first := keeps_write lawful (other p List.mem_cons_self)
    refine first.trans (ih fun q member file destination same => ?_)
    exact other q (List.mem_cons_of_mem p member) file destination
      (first.sameFile file path same)

end Machine

end Machine

namespace FileTree

variable {t t' : FileTree}

def SameFile (t : FileTree) (a b : Text) : Prop := ∃ p, t.place a = .ok p ∧ t.place b = .ok p

instance (t : FileTree) (a b : Text) : Decidable (t.SameFile a b) :=
  match place : t.place a with
  | .ok p => decidable_of_iff (t.place b = .ok p) (by simp [SameFile, place])
  | .error _ => isFalse (by simp [SameFile, place])

theorem isDirectory_iff {p : List Text} :
    t.isDirectory p = true ↔ ∃ d ∈ t.directories, p <+: d := by
  simp [isDirectory]

theorem isDirectory_above {p q : List Text} (before : q <+: p) (dir : t.isDirectory p = true) :
    t.isDirectory q = true := by
  obtain ⟨d, member, below⟩ := isDirectory_iff.1 dir
  exact isDirectory_iff.2 ⟨d, member, before.trans below⟩

theorem isDirectory_base (path : Text) : t.isDirectory (t.base path) = true := by
  refine isDirectory_iff.2 ⟨t.directory, List.mem_cons_self, ?_⟩
  rw [base]
  split
  next => exact List.nil_prefix
  next => exact List.prefix_rfl

theorem follow_directory {names p q : List Text} (start : t.isDirectory q = true)
    (found : t.follow q names = .ok p) : t.isDirectory p.dropLast = true := by
  induction names generalizing q with
  | nil =>
    obtain rfl := Except.ok.inj found
    exact isDirectory_above (List.dropLast_prefix q) start
  | cons name more ih =>
    rw [follow] at found
    split at found
    next => exact ih start found
    next =>
      split at found
      next => exact ih (isDirectory_above (List.dropLast_prefix q) start) found
      next =>
        split at found
        next enters =>
          -- The last name may be of anything, any other is that of a directory.
          cases more with
          | nil =>
            obtain rfl := Except.ok.inj found
            rwa [List.dropLast_concat]
          | cons next more => exact ih (by simpa using enters) found
        next => split at found <;> cases found

theorem place_directory {path : Text} {p : List Text} (found : t.place path = .ok p) :
    t.isDirectory p.dropLast = true := by
  rw [place] at found
  split at found
  next => cases found
  next => exact follow_directory (isDirectory_base path) found

theorem follow_congr (same : ∀ q, t'.isDirectory q = t.isDirectory q) (q names p : List Text) :
    t'.follow q names = .ok p ↔ t.follow q names = .ok p := by
  induction names generalizing q with
  | nil => exact Iff.rfl
  | cons name more ih =>
    rw [follow, follow, same]
    split
    next => exact ih q
    next =>
      split
      next => exact ih q.dropLast
      next =>
        split
        next => exact ih (q ++ [name])
        next => constructor <;> intro found <;> split at found <;> cases found

theorem place_congr (same : ∀ q, t'.isDirectory q = t.isDirectory q)
    (base : t'.directory = t.directory) (path : Text) (p : List Text) :
    t'.place path = .ok p ↔ t.place path = .ok p := by
  have start : t'.base path = t.base path := by
    rw [FileTree.base, FileTree.base, base]
  rw [place, place, start]
  split
  next => exact Iff.rfl
  next => exact follow_congr same _ _ p

theorem isDirectory_put {p : List Text} (content : Text) (dir : t.isDirectory p.dropLast = true)
    (q : List Text) : (t.put p content).isDirectory q = t.isDirectory q := by
  rw [Bool.eq_iff_iff]
  constructor
  · intro after
    obtain ⟨d, member, below⟩ := isDirectory_iff.1 after
    simp only [directories, put, List.map_cons, List.mem_cons, List.mem_append,
      List.mem_map, List.mem_filter] at member
    rcases member with here | device | folder | rfl | ⟨f, ⟨old, -⟩, rfl⟩
    · exact isDirectory_iff.2 ⟨d, by simp [directories, here], below⟩
    · exact isDirectory_iff.2 ⟨d, by simp [directories, device], below⟩
    · exact isDirectory_iff.2 ⟨d, by simp [directories, folder], below⟩
    · exact isDirectory_above below dir
    · refine isDirectory_iff.2 ⟨f.1.dropLast, ?_, below⟩
      simp only [directories, List.mem_cons, List.mem_append, List.mem_map]
      exact .inr (.inr (.inr ⟨f, old, rfl⟩))
  · intro before
    obtain ⟨d, member, below⟩ := isDirectory_iff.1 before
    refine isDirectory_iff.2 ⟨d, ?_, below⟩
    simp only [directories, put, List.map_cons, List.mem_cons, List.mem_append,
      List.mem_map, List.mem_filter] at member ⊢
    rcases member with here | device | folder | ⟨f, old, rfl⟩
    · exact .inl here
    · exact .inr (.inl device)
    · exact .inr (.inr (.inl folder))
    · by_cases changed : f.1 = p
      · exact .inr (.inr (.inr (.inl (changed ▸ rfl))))
      · exact .inr (.inr (.inr (.inr ⟨f, ⟨old, by simpa using changed⟩, rfl⟩)))

theorem file?_put {p q : List Text} (content : Text) (differ : p ≠ q) :
    (t.put p content).file? q = t.file? q := by
  have same : (fun f : List Text × Text => decide ((f.1 != p) = true ∧ (f.1 == q) = true)) =
      fun f => f.1 == q := by
    funext f
    by_cases here : f.1 = q <;> simp [here, Ne.symm differ]
  rw [file?, file?, put, List.find?_cons_of_neg (by simpa using differ), List.find?_filter, same]

theorem append_cases (t : FileTree) (path more : Text) :
    (t.append path more).2 = t ∨
      ∃ p content, t.place path = .ok p ∧ (t.append path more).2 = t.put p content := by
  rw [append]
  split
  next p place =>
    split
    next => exact .inl rfl
    next => exact .inr ⟨p, _, place, rfl⟩
  next => exact .inl rfl

theorem read_eq_ok {path content : Text} :
    t.read path = .ok content ↔
      ∃ p, t.place path = .ok p ∧ t.isDirectory p = false ∧ t.file? p = some content := by
  rw [read]
  cases place : t.place path with
  | error e => simp [bind, Except.bind]
  | ok p =>
    cases dir : t.isDirectory p <;> cases found : t.file? p <;>
      simp [bind, Except.bind, dir, found]

theorem place_append (path more other : Text) (p : List Text) :
    (t.append path more).2.place other = .ok p ↔ t.place other = .ok p := by
  obtain unchanged | ⟨q, content, place, changed⟩ := append_cases t path more
  · rw [unchanged]
  · rw [changed]
    exact place_congr (isDirectory_put content (place_directory place)) rfl other p

theorem lawful (around : Surroundings) : (machine around).Lawful SameFile where
  read_append t file more path text other := by
    change (t.append file more).2.read path = .ok text ↔ t.read path = .ok text
    rw [read_eq_ok, read_eq_ok]
    refine exists_congr fun p => ?_
    rw [place_append]
    refine and_congr_right fun found => ?_
    obtain unchanged | ⟨q, content, place, changed⟩ := append_cases t file more
    · rw [unchanged]
    · have differ : q ≠ p := by
        rintro rfl
        exact other ⟨q, place, found⟩
      rw [changed, isDirectory_put content (place_directory place), file?_put content differ]
  sameFile_append t file more a b := by
    rintro ⟨p, first, second⟩
    exact ⟨p, (place_append file more a p).1 first, (place_append file more b p).1 second⟩

end FileTree

end Docspec.CommandLine
