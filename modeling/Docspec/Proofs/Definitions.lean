import Docspec.CommandLine.Program
import Docspec.Proofs.Merging
import Docspec.Proofs.Names
import Docspec.Proofs.QuotedWords

set_option autoImplicit false

namespace Docspec

open Text Placeholder

theorem Text.isAsciiBlank_of_isBlank {c : Char} (visible : isBlank c = false) :
    isAsciiBlank c = false := by
  refine Bool.eq_false_iff.2 fun blank => ?_
  simp only [isAsciiBlank, Bool.or_eq_true, beq_iff_eq] at blank
  rcases blank with (((rfl | rfl) | rfl) | rfl) | rfl <;> cases visible

namespace Config

theorem isPlain_of_isVariableChar {c : Char} (taken : isVariableChar c = true) : IsPlain c :=
  ⟨ne_of_isVariableChar taken (by decide), ne_of_isVariableChar taken (by decide),
    isAsciiBlank_of_isBlank (isBlank_of_isVariableChar taken)⟩

theorem applyLine_set {arguments : Text} (trimmed : trim arguments = arguments) (c : Config) :
    c.applyLine ("/set ".toList ++ arguments) = c.applySet (splitWords arguments) := by
  have called : splitOnce isAsciiBlank ("set".toList ++ ' ' :: arguments) =
      some ("set".toList, arguments) := splitOnce_append (forall_of_any rfl) rfl arguments
  have loud : isSilent ('/' :: ("set".toList ++ ' ' :: arguments)) = false := rfl
  change applyLine ('/' :: ("set".toList ++ ' ' :: arguments)) c = _
  simp only [applyLine, loud, called, Option.getD_some, trimmed, if_true, Bool.false_eq_true,
    if_false]

theorem applyLines_blank {t : Text} (blank : isAllBlank t = true) (k : Nat) (c : Config) :
    applyLines k (splitAll '\n' t) c = (c, []) := by
  have pieces : ∀ line ∈ splitAll '\n' t, trim line = [] := fun line member =>
    trim_eq_nil_iff.2 (List.all_eq_true.2 fun d inside =>
      List.all_eq_true.1 blank d (mem_of_mem_splitAll member inside))
  generalize splitAll '\n' t = lines at pieces
  induction lines generalizing k with
  | nil => rfl
  | cons line lines ih =>
    obtain ⟨own, others⟩ := List.forall_mem_cons.1 pieces
    have silent : applyLine [] c = .ok c := rfl
    rw [applyLines, own, silent]
    exact ih (k + 1) others

def setLine (n v : Text) : Text := "/set ".toList ++ (n ++ '=' :: quoted v)

section Named

variable {n v : Text} (named : isVariableName n = true)
include named

theorem splitOnce_define : splitOnce (· = '=') (n ++ '=' :: v) = some (n, v) :=
  splitOnce_append (fun d member => decide_eq_false
    (ne_of_isVariableChar (name_chars named d member) (by decide))) rfl v

theorem applySet_define (c : Config) : c.applySet [n ++ '=' :: v] = .ok (c.define n v) := by
  have bound : binding [n ++ '=' :: v] = .ok (n, v) := by
    simp [binding, splitOnce_define named, joinWith]
  have start : n ≠ [] := by
    rintro rfl
    cases named
  rw [applySet, bound]
  change (if n.isEmpty then _ else _) = _
  simp [start]

theorem splitWords_set : splitWords (n ++ '=' :: quoted v) = [n ++ '=' :: v] := by
  have plain : ∀ c ∈ n ++ ['='], IsPlain c := List.forall_mem_append.2
    ⟨fun c member => isPlain_of_isVariableChar (name_chars named c member),
      List.forall_mem_singleton.2 ⟨by decide, by decide, rfl⟩⟩
  have whole : n ++ '=' :: quoted v = n ++ ['='] ++ (quoted v ++ []) := by simp
  rw [splitWords, whole, wordsFrom_plain plain, List.nil_append, wordsFrom_quoted, wordsFrom,
    endWord]
  simp

theorem trim_set : trim (n ++ '=' :: quoted v) = n ++ '=' :: quoted v := by
  obtain ⟨c, t, shape, start⟩ := name_start named
  refine trim_of_ends (fun d first => ?_) fun d last => ?_
  · rw [shape] at first
    cases first
    exact isBlank_of_isVariableChar (isVariableChar_of_isNameStart start)
  · have closed : n ++ '=' :: quoted v = n ++ '=' :: '"' :: v.flatMap quotedChar ++ ['"'] := by
      simp [quoted]
    rw [closed, List.getLast?_concat] at last
    cases last
    rfl

theorem applyLine_setLine (c : Config) : c.applyLine (setLine n v) = .ok (c.define n v) := by
  rw [setLine, applyLine_set (trim_set named), splitWords_set named, applySet_define named]

theorem trim_setLine : trim (setLine n v) = setLine n v :=
  trim_append (a := "/set".toList) (b := n ++ '=' :: quoted v) (by decide) (trim_set named)
    (by decide) (by simp) [' ']

theorem newline_not_mem_setLine (oneLine : '\n' ∉ v) : '\n' ∉ setLine n v := by
  intro member
  rw [setLine, List.mem_append, List.mem_append, List.mem_cons] at member
  rcases member with directive | inName | sign | inside
  · exact absurd directive (by decide)
  · exact name_not_mem named rfl inName
  · exact absurd sign (by decide)
  · rcases mem_quoted inside with quote | escape | own
    · exact absurd quote (by decide)
    · exact absurd escape (by decide)
    · exact oneLine own

theorem ofText_setLine (oneLine : '\n' ∉ v) {tail : Text} (blank : isAllBlank tail = true) :
    ofText (setLine n v ++ tail) = (empty.define n v, []) := by
  have first {a : Text} (own : ∀ c ∈ a, isBlank c = true) (more : List Text) :
      applyLines 1 ((setLine n v ++ a) :: more) empty = applyLines 2 more (empty.define n v) := by
    rw [applyLines, trim_append_blanks _ own, trim_setLine named, applyLine_setLine named]
  have line := newline_not_mem_setLine named oneLine
  by_cases ended : '\n' ∈ tail
  next =>
    obtain ⟨a, b, rfl, absent⟩ := List.eq_append_cons_of_mem ended
    obtain ⟨own, others⟩ := List.forall_mem_append.1 (List.all_eq_true.1 blank)
    have rest : isAllBlank b = true := List.all_eq_true.2 (List.forall_mem_cons.1 others).2
    rw [ofText, ← List.append_assoc, splitAll_append (by simp [line, absent]), first own,
      applyLines_blank rest]
  next =>
    rw [ofText, splitAll_of_not_mem (by simp [line, ended]), first (List.all_eq_true.1 blank)]
    rfl

end Named

theorem define_define (c : Config) (n u v : Text) : (c.define n u).define n v = c.define n v :=
  congrArg (fun vars => { c with vars := ⟨vars⟩ })
    (Bindings.insert_insert n (coerce v) (coerce u) c.vars.vars)

theorem get?_define (c : Config) (n v k : Text) :
    (c.define n v).vars.get? k = if k = n then some (coerce v) else c.vars.get? k :=
  Context.get?_set k n (coerce v) c.vars

end Config

namespace CommandLine

namespace Options

theorem addDefine_trimmed {n : Text} (visible : n ≠ []) (trimmed : trim n = n) (bare : '=' ∉ n)
    (v : Text) (o : Options) :
    o.addDefine (n ++ '=' :: v) = .ok { o with defines := o.defines ++ [(n, v)] } := by
  have split : splitOnce (· = '=') (n ++ '=' :: v) = some (n, v) :=
    splitOnce_append (fun d member => decide_eq_false (ne_of_mem_of_not_mem member bare)) rfl v
  have read : readDefine (n ++ '=' :: v) = .ok (n, v) := by
    simp [readDefine, split, trimmed, visible]
  rw [addDefine, read]
  rfl

section Named

variable {n v : Text} (named : isVariableName n = true)
include named

theorem addDefine_named (o : Options) :
    o.addDefine (n ++ '=' :: v) = .ok { o with defines := o.defines ++ [(n, v)] } := by
  have visible : n ≠ [] := by
    rintro rfl
    cases named
  exact addDefine_trimmed visible (trim_name named) (name_not_mem named (by decide)) v o

theorem readFrom_define (o : Options) (more : List Text) :
    o.readFrom false (('-' :: 'D' :: (n ++ '=' :: v)) :: more) =
      ({ o with defines := o.defines ++ [(n, v)] } : Options).readFrom false more := by
  have added := addDefine_named (v := v) named o
  obtain ⟨c, t, shape⟩ := List.exists_cons_of_ne_nil (by simp : n ++ '=' :: v ≠ [])
  rw [shape] at added ⊢
  have switches : o.readSwitches ('D' :: c :: t) =
      .ok ({ o with defines := o.defines ++ [(n, v)] }, false) := by
    rw [readSwitches, added]
    · rfl
    · nofun
  rw [readFrom]
  · simp only [Bool.false_eq_true, if_false, switches]
    rfl
  · exact fun dash => absurd dash (by decide)

end Named

def IsOrdinary (word : Text) : Prop := word.head? = some '-' → word = ['-']

theorem readFrom_document {d : Text} (ordinary : IsOrdinary d) (o : Options)
    (more : List Text) :
    o.readFrom false (d :: more) =
      ({ o with documents := o.documents ++ [d] } : Options).readFrom false more := by
  rw [readFrom, if_neg (by decide)]
  · rintro rfl
    exact absurd (ordinary rfl) (by decide)
  · rintro c t rfl
    exact absurd (ordinary rfl) (by simp)

theorem readFrom_documents {documents : List Text}
    (ordinary : ∀ d ∈ documents, d.head? ≠ some '-') (o : Options)
    (given : o.documents ++ documents ≠ []) :
    o.readFrom false documents = .ok { o with documents := o.documents ++ documents } := by
  induction documents generalizing o with
  | nil =>
    rw [List.append_nil] at given ⊢
    simp [readFrom, given]
  | cons d documents ih =>
    obtain ⟨own, others⟩ := List.forall_mem_cons.1 ordinary
    have rest := ih others { o with documents := o.documents ++ [d] } (by simp)
    rw [List.append_assoc, List.singleton_append] at rest
    rw [readFrom_document fun dash => absurd dash own]
    exact rest

end Options

namespace Program

theorem defined_append (o : Options) (n v : Text) (c : Config) :
    defined { o with defines := o.defines ++ [(n, v)] } c = (defined o c).define n v := by
  simp [defined, List.foldl_append]

theorem defined_single {o : Options} {n v : Text} (given : o.defines = [(n, v)]) (c : Config) :
    defined o c = c.define n v := by
  rw [defined, given]
  rfl

theorem get?_defined_of_not_mem {o : Options} {k : Text}
    (absent : k ∉ Bindings.names o.defines) (c : Config) :
    (defined o c).vars.get? k = c.vars.get? k := by
  rw [defined]
  generalize o.defines = defines at absent
  induction defines generalizing c with
  | nil => rfl
  | cons d defines ih =>
    rw [Bindings.names, List.map_cons, List.mem_cons, not_or] at absent
    rw [List.foldl_cons, ih _ absent.2, Config.get?_define, if_neg absent.1]

theorem get?_defined_of_last {o : Options} {earlier later : List (Text × Text)} {n v : Text}
    (given : o.defines = earlier ++ (n, v) :: later) (last : n ∉ Bindings.names later)
    (c : Config) : (defined o c).vars.get? n = some (Config.coerce v) := by
  have rest : defined o c = defined { o with defines := later }
      ((defined { o with defines := earlier } c).define n v) := by
    simp [defined, given, List.foldl_append]
  rw [rest, get?_defined_of_not_mem last, Config.get?_define, if_pos rfl]

theorem defined_kept (o : Options) (c : Config) :
    (defined o c).markers = c.markers ∧ (defined o c).logLevel = c.logLevel := by
  rw [defined]
  generalize o.defines = defines
  induction defines generalizing c with
  | nil => exact ⟨rfl, rfl⟩
  | cons d defines ih => exact ih (c.define d.1 d.2)

end Program

structure DefinedAlike (n v file : Text) : Prop where
  loads : Config.ofText file = (Config.empty.define n v, [])
  reads {documents : List Text} : documents ≠ [] → (∀ d ∈ documents, d.head? ≠ some '-') →
    Options.read (('-' :: 'D' :: (n ++ '=' :: v)) :: documents) =
      .ok { Options.none with defines := [(n, v)], documents := documents }
  switch (o : Options) (more : List Text) :
    o.readFrom false (('-' :: 'D' :: (n ++ '=' :: v)) :: more) =
      ({ o with defines := o.defines ++ [(n, v)] } : Options).readFrom false more
  alike {o : Options} : o.defines = [(n, v)] →
    Program.defined o .empty = (Config.ofText file).1
  overruled {o : Options} (u : Text) : o.defines = [(n, u)] →
    Program.defined o (Config.ofText file).1 = Program.defined o .empty
  run {m : Type → Type} [Monad m] (h : Host m) {o : Options} : o.defines = [(n, v)] →
    Program.runConfigured h { o with defines := [] } (Config.ofText file).1 [] =
      Program.runConfigured h o .empty []

/-- Where a file and the command line both define, the command line counts, for the names it
has and no others. -/
structure Overrides (o : Options) (c : Config) : Prop where
  wins {earlier later : List (Text × Text)} {n v : Text} :
    o.defines = earlier ++ (n, v) :: later → n ∉ Bindings.names later →
      (Program.defined o c).vars.get? n = some (Config.coerce v)
  others {k : Text} : k ∉ Bindings.names o.defines →
    (Program.defined o c).vars.get? k = c.vars.get? k
  markers : (Program.defined o c).markers = c.markers
  logLevel : (Program.defined o c).logLevel = c.logLevel

theorem definedAlike_setLine {n v : Text} (named : isVariableName n = true) (oneLine : '\n' ∉ v)
    {tail : Text} (blank : isAllBlank tail = true) :
    DefinedAlike n v (Config.setLine n v ++ tail) := by
  have loads := Config.ofText_setLine named oneLine blank
  constructor
  case loads => exact loads
  case reads =>
    intro documents given ordinary
    rw [Options.read, Options.readFrom_define named]
    exact Options.readFrom_documents ordinary _ given
  case switch => exact Options.readFrom_define named
  case alike =>
    intro o given
    rw [loads, Program.defined_single given]
  case overruled =>
    intro o u given
    rw [loads, Program.defined_single given, Program.defined_single given]
    exact Config.define_define .empty n v u
  case run =>
    intro m _ h o given
    rw [loads, Program.runConfigured, Program.runConfigured,
      Program.defined_single given]
    rfl

theorem overrides (o : Options) (c : Config) : Overrides o c where
  wins given last := Program.get?_defined_of_last given last c
  others absent := Program.get?_defined_of_not_mem absent c
  markers := (Program.defined_kept o c).1
  logLevel := (Program.defined_kept o c).2

theorem file_and_switch_define_alike {n v : Text} (named : isVariableName n = true)
    (oneLine : '\n' ∉ v) :
    (∀ tail, isAllBlank tail = true → DefinedAlike n v (Config.setLine n v ++ tail)) ∧
      ∀ o c, Overrides o c :=
  ⟨fun _ blank => definedAlike_setLine named oneLine blank, overrides⟩

theorem file_and_switch_define_alike_quoted :
    let v := " a=\"b\\ ".toList
    isVariableName "x.y".toList = true ∧ '\n' ∉ v ∧
      ∃ c, Config.ofText "/set x.y=\" a=\\\"b\\\\ \"\n".toList = (c, []) ∧
        c.vars = ⟨[("x.y".toList, .str v)]⟩ ∧
        Options.read ["-Dx.y= a=\"b\\ ".toList, "a.md".toList] =
          .ok { Options.none with
            defines := [("x.y".toList, v)], documents := ["a.md".toList] } := by
  intro v
  have named : isVariableName "x.y".toList = true := by decide
  have oneLine : '\n' ∉ v := by decide
  obtain ⟨alike, -⟩ := file_and_switch_define_alike named oneLine
  have own := alike ['\n'] rfl
  have written : "/set x.y=\" a=\\\"b\\\\ \"\n".toList =
      Config.setLine "x.y".toList v ++ ['\n'] := by decide
  have loads := (congrArg Config.ofText written).trans own.loads
  exact ⟨named, oneLine, _, loads, rfl, own.reads (by simp) (by decide)⟩

end CommandLine

end Docspec
