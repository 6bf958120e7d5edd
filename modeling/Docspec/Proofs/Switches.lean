import Docspec.Proofs.Definitions

set_option autoImplicit false

namespace Docspec.CommandLine

open Text

inductive Flag
  | debug
  | quiet
deriving DecidableEq

def Flag.letter : Flag → Char
  | .debug => 'd'
  | .quiet => 'q'

inductive Ending
  | none
  | skip
  | file (path : Text)
  | define (name value : Text)
  /-- The definition is the next word. -/
  | defineNext (name value : Text)
deriving DecidableEq

namespace Ending

def text : Ending → Text
  | none => []
  | skip => ['f']
  | file path => 'f' :: path
  | define n v => 'D' :: (n ++ '=' :: v)
  | defineNext _ _ => ['D']

def next : Ending → List Text
  | defineNext n v => [n ++ '=' :: v]
  | _ => []

def choice? : Ending → Option ConfigChoice
  | skip => some .skip
  | file path => some (.file path)
  | _ => Option.none

def define? : Ending → Option (Text × Text)
  | define n v | defineNext n v => some (n, v)
  | _ => Option.none

end Ending

structure Cluster where
  flags : List Flag
  ending : Ending
  visible : flags ≠ [] ∨ ending ≠ .none

def Cluster.words (c : Cluster) : List Text :=
  ('-' :: (c.flags.map Flag.letter ++ c.ending.text)) :: c.ending.next

/-- Words made of words of switches and of documents, both in their order. -/
inductive Interleaved : List Cluster → List Text → List Text → Prop
  | nil : Interleaved [] [] []
  | switches {c : Cluster} {cs : List Cluster} {ds words : List Text} :
      Interleaved cs ds words → Interleaved (c :: cs) ds (c.words ++ words)
  | document {d : Text} {cs : List Cluster} {ds words : List Text} :
      Interleaved cs ds words → Interleaved cs (d :: ds) (d :: words)

def ConfigChoice.given : ConfigChoice → List ConfigChoice
  | .search => []
  | choice => [choice]

structure Renders (cs : List Cluster) (o : Options) : Prop where
  debug : o.debug = true ↔ ∃ c ∈ cs, .debug ∈ c.flags
  quiet : o.quiet = true ↔ ∃ c ∈ cs, .quiet ∈ c.flags
  config : cs.filterMap (fun c => c.ending.choice?) = o.config.given
  defines : cs.filterMap (fun c => c.ending.define?) = o.defines

def IsDefinable (n : Text) : Prop := n ≠ [] ∧ trim n = n ∧ '=' ∉ n

namespace Options

structure Writable (o : Options) : Prop where
  names : ∀ d ∈ o.defines, IsDefinable d.1
  path : o.config ≠ .file []
  given : o.documents ≠ []

def raise (flags : List Flag) (o : Options) : Options :=
  { o with
    debug := o.debug || decide (.debug ∈ flags)
    quiet := o.quiet || decide (.quiet ∈ flags) }

theorem readSwitches_flags (flags : List Flag) (o : Options) (t : Text) :
    o.readSwitches (flags.map Flag.letter ++ t) = (o.raise flags).readSwitches t := by
  induction flags generalizing o with
  | nil => simp [raise]
  | cons flag flags ih =>
    cases flag with
    | debug =>
      rw [List.map_cons, List.cons_append, Flag.letter, readSwitches, ih]
      simp [raise]
    | quiet =>
      rw [List.map_cons, List.cons_append, Flag.letter, readSwitches, ih]
      simp [raise]

def finish (e : Ending) (o : Options) : Options :=
  { o with
    config := e.choice?.getD o.config
    defines := o.defines ++ e.define?.toList }

theorem readFrom_switches {letters : Text} (visible : letters ≠ [])
    (noDash : letters.head? ≠ some '-') (o : Options) (more : List Text) :
    o.readFrom false (('-' :: letters) :: more) =
      (o.readSwitches letters).bind fun (o, awaiting) => o.readFrom awaiting more := by
  obtain ⟨c, t, rfl⟩ := List.exists_cons_of_ne_nil visible
  rw [readFrom]
  · rfl
  · rintro rfl _
    exact noDash rfl

theorem readFrom_awaited (o : Options) (word : Text) (more : List Text) :
    o.readFrom true (word :: more) = (o.addDefine word).bind fun o => o.readFrom false more :=
  (readFrom.eq_def o true (word :: more)).trans (if_pos rfl)

def Readable (e : Ending) : Prop :=
  (∀ d ∈ e.define?, IsDefinable d.1) ∧ e.choice? ≠ some (.file [])

theorem readFrom_ending {e : Ending} (readable : Readable e) (o : Options) (more : List Text) :
    ((o.readSwitches e.text).bind fun (o, awaiting) => o.readFrom awaiting (e.next ++ more)) =
      (o.finish e).readFrom false more := by
  obtain ⟨definable, named⟩ := readable
  have added {n v : Text} (given : e.define? = some (n, v)) :
      o.addDefine (n ++ '=' :: v) = .ok { o with defines := o.defines ++ [(n, v)] } := by
    obtain ⟨visible, trimmed, bare⟩ := definable _ given
    exact addDefine_trimmed visible trimmed bare v o
  cases e with
  | none =>
    have same : o.finish .none = o := by simp [finish, Ending.choice?, Ending.define?]
    rw [same]
    rfl
  | skip =>
    have same : o.finish .skip = { o with config := .skip } := by
      simp [finish, Ending.choice?, Ending.define?]
    rw [same]
    rfl
  | file path =>
    have read : o.readSwitches ('f' :: path) = .ok ({ o with config := .file path }, false) := by
      rw [readSwitches]
      rintro rfl
      exact named rfl
    have same : o.finish (.file path) = { o with config := .file path } := by
      simp [finish, Ending.choice?, Ending.define?]
    rw [Ending.text, read, same]
    rfl
  | define n v =>
    have read : o.readSwitches ('D' :: (n ++ '=' :: v)) =
        .ok ({ o with defines := o.defines ++ [(n, v)] }, false) := by
      rw [readSwitches, added rfl]
      · rfl
      · simp
    rw [Ending.text, read]
    rfl
  | defineNext n v =>
    have next : o.readFrom true ((n ++ '=' :: v) :: more) =
        ({ o with defines := o.defines ++ [(n, v)] } : Options).readFrom false more := by
      rw [readFrom_awaited, added rfl]
      rfl
    exact next

theorem visible_letters (c : Cluster) :
    c.flags.map Flag.letter ++ c.ending.text ≠ [] ∧
      (c.flags.map Flag.letter ++ c.ending.text).head? ≠ some '-' := by
  obtain ⟨flags, ending, visible⟩ := c
  cases flags with
  | nil => cases ending <;> simp [Ending.text] at visible ⊢
  | cons flag flags => cases flag <;> simp [Flag.letter]

theorem readFrom_cluster {c : Cluster} (readable : Readable c.ending) (o : Options)
    (more : List Text) :
    o.readFrom false (c.words ++ more) =
      ((o.raise c.flags).finish c.ending).readFrom false more := by
  obtain ⟨visible, noDash⟩ := visible_letters c
  rw [Cluster.words, List.cons_append, readFrom_switches visible noDash, readSwitches_flags,
    readFrom_ending readable]

def told (o : Options) (cs : List Cluster) (ds : List Text) : Options where
  debug := o.debug || cs.any fun c => decide (.debug ∈ c.flags)
  quiet := o.quiet || cs.any fun c => decide (.quiet ∈ c.flags)
  config := (cs.filterMap fun c => c.ending.choice?).getLast?.getD o.config
  defines := o.defines ++ cs.filterMap fun c => c.ending.define?
  documents := o.documents ++ ds

theorem told_cons (o : Options) (c : Cluster) (cs : List Cluster) (ds : List Text) :
    ((o.raise c.flags).finish c.ending).told cs ds = o.told (c :: cs) ds := by
  simp only [told, raise, finish, List.any_cons, Bool.or_assoc, List.filterMap_cons,
    List.append_assoc]
  cases c.ending.choice? <;> cases c.ending.define? <;> simp [List.getLast?_cons]

theorem readFrom_interleaved {cs : List Cluster} {ds words : List Text}
    (interleaved : Interleaved cs ds words) (readable : ∀ c ∈ cs, Readable c.ending)
    (ordinary : ∀ d ∈ ds, IsOrdinary d) (o : Options) (tail : List Text) :
    o.readFrom false (words ++ tail) = (o.told cs ds).readFrom false tail := by
  induction interleaved generalizing o with
  | nil => simp [told]
  | switches rest ih =>
    obtain ⟨own, others⟩ := List.forall_mem_cons.1 readable
    rw [List.append_assoc, readFrom_cluster own, ih others ordinary, told_cons]
  | document rest ih =>
    obtain ⟨own, others⟩ := List.forall_mem_cons.1 ordinary
    rw [List.cons_append, readFrom_document own, ih readable others]
    simp [told]

end Options

open Options

inductive Ended : List Text → List Text → Prop
  | here : Ended [] []
  | dashes (late : List Text) : Ended late (['-', '-'] :: late)

theorem readFrom_ended {late tail : List Text} (ended : Ended late tail) (o : Options)
    (given : o.documents ++ late ≠ []) :
    o.readFrom false tail = .ok { o with documents := o.documents ++ late } := by
  cases ended with
  | here =>
    rw [List.append_nil] at given ⊢
    simp [readFrom, given]
  | dashes => simp [readFrom, given]

theorem ConfigChoice.given_getLast (choice : ConfigChoice) :
    choice.given.getLast?.getD .search = choice := by
  cases choice <;> rfl

theorem ConfigChoice.eq_of_mem_given {choice own : ConfigChoice} (member : own ∈ choice.given) :
    choice = own := by
  cases choice with
  | search => cases member
  | skip | file => exact (List.mem_singleton.1 member).symm

section Renders

variable {cs : List Cluster} {o : Options} (renders : Renders cs o)
include renders

theorem Renders.told (ds : List Text) : Options.none.told cs ds = { o with documents := ds } := by
  have debug : (cs.any fun c => decide (.debug ∈ c.flags)) = o.debug := by
    rw [Bool.eq_iff_iff, renders.debug]
    simp
  have quiet : (cs.any fun c => decide (.quiet ∈ c.flags)) = o.quiet := by
    rw [Bool.eq_iff_iff, renders.quiet]
    simp
  have config : (cs.filterMap fun c => c.ending.choice?).getLast?.getD .search = o.config := by
    rw [renders.config, ConfigChoice.given_getLast]
  simp only [Options.told, Options.none, Bool.false_or, List.nil_append, debug, quiet, config,
    renders.defines]

theorem Renders.readable (writable : o.Writable) : ∀ c ∈ cs, Readable c.ending := by
  intro c member
  constructor
  next =>
    intro d own
    exact writable.names d (renders.defines ▸ List.mem_filterMap.2 ⟨c, member, own⟩)
  next =>
    intro own
    have given := renders.config ▸ List.mem_filterMap.2 ⟨c, member, own⟩
    exact writable.path (ConfigChoice.eq_of_mem_given given)

end Renders

def Options.clusters (o : Options) : List Cluster :=
  (if o.debug then [⟨[.debug], .none, by simp⟩] else []) ++
    (if o.quiet then [⟨[.quiet], .none, by simp⟩] else []) ++
    (match o.config with
      | .search => []
      | .skip => [⟨[], .skip, by simp⟩]
      | .file path => [⟨[], .file path, by simp⟩]) ++
    o.defines.map fun (n, v) => ⟨[], .define n v, by simp⟩

theorem renders_clusters (o : Options) : Renders o.clusters o := by
  obtain ⟨debug, quiet, config, defines, documents⟩ := o
  constructor
  case debug => cases debug <;> cases quiet <;> cases config <;> simp [Options.clusters]
  case quiet => cases debug <;> cases quiet <;> cases config <;> simp [Options.clusters]
  case config =>
    cases debug <;> cases quiet <;> cases config <;>
      simp [Options.clusters, Ending.choice?, ConfigChoice.given]
  case defines =>
    cases debug <;> cases quiet <;> cases config <;> simp [Options.clusters, Ending.define?]

theorem read_written {o : Options} (writable : o.Writable) :
    (∃ cs, Renders cs o) ∧
      ∀ {cs : List Cluster} {early late words tail : List Text}, Renders cs o →
        o.documents = early ++ late → (∀ d ∈ early, IsOrdinary d) →
          Interleaved cs early words → Ended late tail → Options.read (words ++ tail) = .ok o := by
  refine ⟨⟨o.clusters, renders_clusters o⟩, ?_⟩
  intro cs early late words tail renders documents ordinary interleaved ended
  have given : early ++ late ≠ [] := documents ▸ writable.given
  rw [Options.read, readFrom_interleaved interleaved (renders.readable writable) ordinary,
    renders.told, readFrom_ended ended _ given, ← documents]

theorem read_written_mixed :
    let o : Options :=
      ⟨true, true, .file "my.rc", [("name", "a=b"), ("-x", " y")], ["a.md", "-", "-b.md"]⟩
    let cs : List Cluster :=
      [⟨[.debug], .defineNext "name" "a=b", by simp⟩, ⟨[.quiet], .define "-x" " y", by simp⟩,
        ⟨[], .file "my.rc", by simp⟩]
    o.Writable ∧ Renders cs o ∧
      Options.read
        ["a.md", "-dD", "name=a=b", "-", "-qD-x= y", "-fmy.rc", "--", "-b.md"] = .ok o := by
  intro o cs
  have writable : o.Writable := ⟨by unfold IsDefinable; decide, by decide, by decide⟩
  have renders : Renders cs o := ⟨by decide, by decide, by decide, by decide⟩
  have ordinary : ∀ d ∈ ["a.md".toList, "-".toList], IsOrdinary d := by
    unfold IsOrdinary
    decide
  obtain ⟨-, read⟩ := read_written writable
  exact ⟨writable, renders, read renders rfl ordinary
    (.document (.switches (.document (.switches (.switches .nil))))) (.dashes ["-b.md".toList])⟩

end Docspec.CommandLine
