import Docspec.CommandLine.Options
import Docspec.Config
import Docspec.Document.Compiler
import Docspec.Document.Tokenizer
import Docspec.Runner

set_option autoImplicit false

namespace Docspec.CommandLine

inductive FileError
  | notFound
  | notDirectory
  | isDirectory
  /-- Anything else, in the words of the system. -/
  | other (reason : Text)
deriving DecidableEq

def FileError.message : FileError → Text
  | .notFound => "No such file or directory (os error 2)"
  | .notDirectory => "Not a directory (os error 20)"
  | .isDirectory => "Is a directory (os error 21)"
  | .other reason => reason

/-- What a run is told once and for all, and the readers that it relies on. -/
structure Surroundings where
  configPlaces : List Text
  moment : Placeholder.Moment
  events : Text → List Event
  yamlFault : Text → Text

structure Host (m : Type → Type) extends Surroundings where
  read : Text → m (Except FileError Text)
  isThere : Text → m Bool
  append : Text → Text → m Bool
  say : Text → m Unit
  complain : Text → m Unit
  warn : Text → m Unit

inductive DocumentError
  | unreadable (path : Text) (cause : FileError)
  | uncompiled (cause : CompileError)

def DocumentError.message : DocumentError → Text
  | .unreadable path cause => path ++ ": ".toList ++ cause.message
  | .uncompiled cause => cause.message

inductive Verdict
  | passed
  | failed
  | broken
deriving DecidableEq

def Verdict.code (code : Nat) : Verdict → Nat
  | .passed => code
  | .failed => max code 1
  | .broken => 2

namespace Program

variable {m : Type → Type} [Monad m]

def complaint (t : Text) : Text := "urobor: ".toList ++ t

def summaryText (source : Text) (status : Status) (t : TestTree) : Text :=
  let s := t.summary
  source ++ ": ".toList ++ status.display ++ " (".toList ++ Text.ofNat s.passed ++
    " passed, ".toList ++ Text.ofNat s.failed ++ " failed, ".toList ++ Text.ofNat s.total ++
    " total)\n".toList ++ t.outline

def emit (h : Host m) (warns : Bool) : List Printed → m Unit
  | [] => pure ()
  | p :: more => do
    match p.destination with
    | none => h.say (p.text ++ ['\n'])
    | some file =>
      let written ← h.append file (p.text ++ ['\n'])
      if !written && warns then h.warn ("cannot write to ".toList ++ file)
    emit h warns more

def warnAll (h : Host m) (warns : Bool) (texts : List Text) : m Unit :=
  if warns then texts.forM h.warn else pure ()

def failureText (f : Failure) : Text :=
  f.caseName ++ ": ".toList ++ f.command.display ++ ": ".toList ++ f.error.message

def runDocument (h : Host m) (vars : Context) (warns : Bool) (s : Session) (path : Text) :
    m (Session × Verdict) := do
  match ← h.read path with
  | .error cause =>
    h.complain (complaint (DocumentError.unreadable path cause).message)
    return (s, .broken)
  | .ok text =>
    match Compiler.compile .builtin path (Token.ofEvents text (h.events text)) with
    | .error cause =>
      h.complain (complaint (DocumentError.uncompiled cause).message)
      return (s, .broken)
    | .ok tree =>
      let (status, r) := s.run tree vars
      warnAll h warns (r.failures.map failureText)
      let (printed, s) := r.session.takeOutput
      emit h warns printed
      h.say (summaryText path status r.tree)
      return (s, if status = .passed then .passed else .failed)

def runDocuments (h : Host m) (vars : Context) (warns : Bool) (s : Session) (code : Nat) :
    List Text → m Nat
  | [] => return code
  | path :: more => do
    let (s, verdict) ← runDocument h vars warns s path
    runDocuments h vars warns s (verdict.code code) more

def firstThere (h : Host m) : List Text → m (Option Text)
  | [] => return none
  | path :: more => do
    if ← h.isThere path then return some path else firstThere h more

def configPath (h : Host m) : ConfigChoice → m (Option Text)
  | .skip => return none
  | .file path => return some path
  | .search => firstThere h h.configPlaces

def loadConfig (h : Host m) (o : Options) : m (Except DocumentError (Config × List Text)) := do
  match ← configPath h o.config with
  | none => return .ok (.empty, [])
  | some path =>
    match ← h.read path with
    | .error cause => return .error (.unreadable path cause)
    | .ok text =>
      let (c, errors) := Config.ofText text
      return .ok (c, errors.map fun e => path ++ ": ".toList ++ e.message)

def defined (o : Options) (c : Config) : Config :=
  o.defines.foldl (fun c (name, raw) => c.define name raw) c

def runConfigured (h : Host m) (o : Options) (c : Config) (errors : List Text) : m Nat := do
  let warns := LogLevel.admitsWarnings (LogLevel.choose o.debug o.quiet c.logLevel)
  warnAll h warns errors
  let c := defined o c
  match c.checkedEngine (.builtin h.moment) with
  | .error cause =>
    h.complain (complaint ("config: ".toList ++ cause.message))
    return 2
  | .ok engine => runDocuments h c.vars warns (.new engine h.yamlFault) 0 o.documents

-- The markers of a configuration have been checked before, so an engine comes of them.
theorem runConfigured_eq (h : Host m) (o : Options) (c : Config) (errors : List Text) :
    runConfigured h o c errors = (do
      let warns := LogLevel.admitsWarnings (LogLevel.choose o.debug o.quiet c.logLevel)
      warnAll h warns errors
      let c := defined o c
      let engine := c.engine (.builtin h.moment)
      runDocuments h c.vars warns (.new engine h.yamlFault) 0 o.documents) := by
  simp only [runConfigured, Config.checkedEngine_eq]

def runOptions (h : Host m) (o : Options) : m Nat := do
  match ← loadConfig h o with
  | .error e =>
    h.complain (complaint e.message)
    return 2
  | .ok (c, errors) => runConfigured h o c errors

def run (h : Host m) (argv : List Text) : m Nat := do
  match Options.read argv with
  | .error e =>
    h.complain (complaint e.message)
    h.complain usage
    return 2
  | .ok o => runOptions h o

end Program

/-- Files to run the program on, told by what reading and appending do in each of their states. -/
structure Machine (σ : Type) extends Surroundings where
  read : σ → Text → Except FileError Text
  isThere : σ → Text → Bool
  append : σ → Text → Text → Bool × σ

structure World (σ : Type) where
  disk : σ
  output : Text
  complaints : List Text
  warnings : Nat

def World.new {σ : Type} (disk : σ) : World σ := ⟨disk, [], [], 0⟩

def Machine.host {σ : Type} (y : Machine σ) : Host (StateM (World σ)) where
  toSurroundings := y.toSurroundings
  read path := fun w => (y.read w.disk path, w)
  isThere path := fun w => (y.isThere w.disk path, w)
  append path more := fun w =>
    let (written, disk) := y.append w.disk path more
    (written, { w with disk := disk })
  say t := fun w => ((), { w with output := w.output ++ t })
  complain t := fun w => ((), { w with complaints := w.complaints ++ [t] })
  warn _ := fun w => ((), { w with warnings := w.warnings + 1 })

end Docspec.CommandLine
