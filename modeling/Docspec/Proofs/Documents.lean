import Docspec.Markdown
import Docspec.Proofs.Aggregation
import Docspec.Proofs.Files
import Mathlib.Data.List.Basic

set_option autoImplicit false

namespace Docspec.CommandLine

structure Setting (σ : Type) where
  engine : Engine
  vars : Context
  disk : σ

/-- What comes of a document. Why its file cannot be read is left out: the reason is another one
where a file printed to stands in the way. -/
inductive DocumentResult
  | unread
  | uncompiled (cause : CompileError)
  | ran (tree : TestTree) (status : Status) (printed : List Printed)

namespace DocumentResult

def verdict : DocumentResult → Verdict
  | .unread | .uncompiled _ => .broken
  | .ran _ status _ => if status = .passed then .passed else .failed

def records : DocumentResult → List Printed
  | .unread | .uncompiled _ => []
  | .ran _ _ printed => printed

def shown (p : Printed) : Text :=
  match p.destination with
  | none => p.text ++ ['\n']
  | some _ => []

def output (path : Text) : DocumentResult → Text
  | .unread | .uncompiled _ => []
  | .ran tree status printed => printed.flatMap shown ++ Program.summaryText path status tree

def Complaints (path : Text) : DocumentResult → List Text → Prop
  | .unread, said =>
    ∃ cause, said = [Program.complaint (DocumentError.unreadable path cause).message]
  | .uncompiled cause, said =>
    said = [Program.complaint (DocumentError.uncompiled cause).message]
  | .ran _ _ _, said => said = []

end DocumentResult

def Verdict.worst (vs : List Verdict) : Nat :=
  if .broken ∈ vs then 2 else if .failed ∈ vs then 1 else 0

namespace Verdict

theorem worst_cons (v : Verdict) (vs : List Verdict) :
    worst (v :: vs) = max (v.code 0) (worst vs) := by
  by_cases broken : .broken ∈ vs <;> by_cases failed : .failed ∈ vs <;> cases v <;>
    simp [worst, code, broken, failed]

theorem foldl_code (vs : List Verdict) {k : Nat} (bound : k ≤ 2) :
    vs.foldl (fun k v => v.code k) k = max k (worst vs) := by
  induction vs generalizing k with
  | nil => simp [worst]
  | cons v vs ih =>
    have step : v.code k = max k (v.code 0) := by cases v <;> simp [code, bound]
    have small : v.code k ≤ 2 := by cases v <;> simp only [code] <;> omega
    rw [List.foldl_cons, ih small, worst_cons, step, Nat.max_assoc]

theorem worst_perm {vs vs' : List Verdict} (order : vs.Perm vs') : worst vs = worst vs' := by
  simp only [worst, order.mem_iff]

end Verdict

namespace Machine

open Program DocumentResult

variable {σ : Type} (y : Machine σ) {w : World σ}

def setting (disk : σ) (o : Options) (c : Config) : Setting σ :=
  let c := defined o c
  ⟨c.engine (.builtin y.moment), c.vars, disk⟩

def result (s : Setting σ) (path : Text) : DocumentResult :=
  match y.read s.disk path with
  | .error _ => .unread
  | .ok text =>
    match Compiler.compile .builtin path (Token.ofEvents text (y.events text)) with
    | .error cause => .uncompiled cause
    | .ok tree =>
      let (status, r) := (Session.new s.engine y.yamlFault).run tree s.vars
      .ran r.tree status r.session.output

/-- No record of the first document goes to the file of the second. -/
def Spares (SameFile : σ → Text → Text → Prop) (s : Setting σ) (a b : Text) : Prop :=
  ∀ p ∈ (y.result s a).records, ∀ file ∈ p.destination, ¬ SameFile s.disk file b

theorem result_congr {s : Setting σ} {disk : σ} {path : Text}
    (same : ∀ text, y.read disk path = .ok text ↔ y.read s.disk path = .ok text) :
    y.result { s with disk := disk } path = y.result s path := by
  rw [result, result]
  cases before : y.read s.disk path with
  | ok text => rw [(same text).2 before]
  | error cause =>
    cases after : y.read disk path with
    | ok text => exact absurd (before.symm.trans ((same text).1 after)) nofun
    | error cause' => rfl

theorem bind_run {α β : Type} {x : StateM (World σ) α} {f : α → StateM (World σ) β} {a : α}
    {w' : World σ} (first : x.run w = (a, w')) : (x >>= f).run w = (f a).run w' := by
  rw [StateT.run_bind, first]
  rfl

theorem warnAll_run (warns : Bool) (texts : List Text) :
    ∃ n, (warnAll y.host warns texts).run w = ((), { w with warnings := n }) := by
  rw [warnAll]
  split
  · induction texts generalizing w with
    | nil => exact ⟨w.warnings, rfl⟩
    | cons t texts ih =>
      obtain ⟨n, rest⟩ := ih (w := { w with warnings := w.warnings + 1 })
      exact ⟨n, rest⟩
  · exact ⟨w.warnings, rfl⟩

theorem emit_cons (warns : Bool) (p : Printed) (ps : List Printed) :
    ∃ n, (emit y.host warns (p :: ps)).run w =
      (emit y.host warns ps).run
        { w with disk := y.write w.disk p, output := w.output ++ shown p, warnings := n } := by
  rw [emit, write, shown]
  cases p.destination with
  | none => exact ⟨w.warnings, rfl⟩
  | some file =>
    simp only [List.append_nil]
    obtain ⟨written, disk, appended⟩ :
      ∃ written disk, y.append w.disk file (p.text ++ ['\n']) = (written, disk) := ⟨_, _, rfl⟩
    have ran : (y.host.append file (p.text ++ ['\n'])).run w =
        (written, { w with disk := disk }) := by
      simp [StateT.run, host, appended]
    rw [bind_run ran, appended]
    cases written <;> cases warns
    case false.true => exact ⟨w.warnings + 1, rfl⟩
    all_goals exact ⟨w.warnings, rfl⟩

theorem emit_run (warns : Bool) (ps : List Printed) :
    ∃ n, (emit y.host warns ps).run w =
      ((), { w with
        disk := ps.foldl y.write w.disk
        output := w.output ++ ps.flatMap shown
        warnings := n }) := by
  induction ps generalizing w with
  | nil => exact ⟨w.warnings, by simp [emit]; rfl⟩
  | cons p ps ih =>
    obtain ⟨m, first⟩ := y.emit_cons warns p ps
    rw [first, List.foldl_cons, List.flatMap_cons, ← List.append_assoc]
    exact ih

theorem runDocument_run (s : Setting σ) (warns : Bool) (path : Text) (disk : s.disk = w.disk) :
    ∃ said n, (y.result s path).Complaints path said ∧
      (runDocument y.host s.vars warns (.new s.engine y.yamlFault) path).run w =
        ((.new s.engine y.yamlFault, (y.result s path).verdict),
          { disk := (y.result s path).records.foldl y.write w.disk
            output := w.output ++ (y.result s path).output path
            complaints := w.complaints ++ said
            warnings := n }) := by
  have read : (y.host.read path).run w = (y.read s.disk path, w) := disk ▸ rfl
  rw [runDocument, bind_run read]
  cases found : y.read s.disk path with
  | error cause =>
    have broken : y.result s path = .unread := by simp only [result, found]
    rw [broken, DocumentResult.output, List.append_nil]
    exact ⟨_, w.warnings, ⟨cause, rfl⟩, rfl⟩
  | ok text =>
    have events : y.host.events = y.events := rfl
    simp only [events]
    cases compiled : Compiler.compile .builtin path (Token.ofEvents text (y.events text)) with
    | error cause =>
      have broken : y.result s path = .uncompiled cause := by simp only [result, found, compiled]
      rw [broken, DocumentResult.output, List.append_nil]
      exact ⟨_, w.warnings, rfl, rfl⟩
    | ok tree =>
      obtain ⟨status, r, executed⟩ :
        ∃ status r, (Session.new s.engine y.yamlFault).run tree s.vars = (status, r) :=
          ⟨_, _, rfl⟩
      have ran : y.result s path = .ran r.tree status r.session.output := by
        simp only [result, found, compiled, executed]
      obtain ⟨m, warned⟩ := y.warnAll_run (w := w) warns (r.failures.map failureText)
      obtain ⟨n, emitted⟩ := y.emit_run (w := { w with warnings := m }) warns r.session.output
      refine ⟨[], n, ran ▸ rfl, ?_⟩
      -- A run has only left records in the session, and those are taken out.
      have emptied : r.session.emptied = .new s.engine y.yamlFault := by
        have left := Runner.run_emptied (s := .new s.engine y.yamlFault) (t := tree) (c := s.vars)
        rwa [executed] at left
      simp only [executed, Session.takeOutput, emptied]
      rw [bind_run warned, bind_run emitted, ran, DocumentResult.output, ← List.append_assoc,
        List.append_nil]
      rfl

-- Every document finds its file as it was at the start, and the session as good as new.
theorem runDocuments_run {SameFile : σ → Text → Text → Prop} (lawful : y.Lawful SameFile)
    (s : Setting σ) (warns : Bool) (code : Nat) {docs : List Text}
    (keeps : ∀ d ∈ docs, y.Keeps SameFile s.disk w.disk d)
    (spared : docs.Pairwise (y.Spares SameFile s)) :
    ∃ told n, List.Forall₂ (fun d => (y.result s d).Complaints d) docs told ∧
      (runDocuments y.host s.vars warns (.new s.engine y.yamlFault) code docs).run w =
        ((docs.map fun d => (y.result s d).verdict).foldl (fun k v => v.code k) code,
          { disk := (docs.flatMap fun d => (y.result s d).records).foldl y.write w.disk
            output := w.output ++ docs.flatMap fun d => (y.result s d).output d
            complaints := w.complaints ++ told.flatten
            warnings := n }) := by
  induction docs generalizing w code with
  | nil => exact ⟨[], w.warnings, .nil, by simp [runDocuments]; rfl⟩
  | cons d docs ih =>
    obtain ⟨sparesOf, more⟩ := List.pairwise_cons.1 spared
    have kept := keeps d List.mem_cons_self
    have same : y.result { s with disk := w.disk } d = y.result s d := y.result_congr kept.read
    obtain ⟨said, m, complaints, first⟩ :=
      y.runDocument_run { s with disk := w.disk } warns d rfl
    rw [same] at complaints first
    have later (d' : Text) (member : d' ∈ docs) :
        y.Keeps SameFile s.disk ((y.result s d).records.foldl y.write w.disk) d' := by
      have before := keeps d' (List.mem_cons_of_mem d member)
      refine before.trans (keeps_writes lawful fun p printed file destination together => ?_)
      exact sparesOf d' member p printed file destination (before.sameFile file d' together)
    rw [runDocuments, bind_run first]
    obtain ⟨told, n, rest, ran⟩ := ih (w := ⟨_, _, w.complaints ++ said, m⟩) _ later more
    refine ⟨said :: told, n, .cons complaints rest, ran.trans ?_⟩
    simp only [List.map_cons, List.foldl_cons, List.flatMap_cons, List.foldl_append,
      List.flatten_cons, List.append_assoc]

theorem firstThere_run (paths : List Text) :
    ∃ found, (firstThere y.host paths).run w = (found, w) := by
  induction paths with
  | nil => exact ⟨none, rfl⟩
  | cons path more ih =>
    have isThere : (y.host.isThere path).run w = (y.isThere w.disk path, w) := rfl
    rw [firstThere, bind_run isThere]
    cases y.isThere w.disk path with
    | true => exact ⟨some path, rfl⟩
    | false => exact ih

theorem loadConfig_run (o : Options) :
    ∃ loaded, (loadConfig y.host o).run w = (loaded, w) := by
  have chosen : ∃ path, (configPath y.host o.config).run w = (path, w) := by
    cases o.config with
    | skip => exact ⟨none, rfl⟩
    | file path => exact ⟨some path, rfl⟩
    | search => exact y.firstThere_run y.configPlaces
  obtain ⟨path, chosen⟩ := chosen
  rw [loadConfig, bind_run chosen]
  cases path with
  | none => exact ⟨_, rfl⟩
  | some path =>
    have read : (y.host.read path).run w = (y.read w.disk path, w) := rfl
    simp only [bind_run read]
    cases y.read w.disk path with
    | error cause => exact ⟨_, rfl⟩
    | ok text => exact ⟨_, rfl⟩

theorem runOptions_run {SameFile : σ → Text → Text → Prop} (lawful : y.Lawful SameFile) {disk : σ}
    {o : Options} {c : Config} {errors : List Text}
    (loaded : ((loadConfig y.host o).run (.new disk)).1 = .ok (c, errors))
    {docs : List Text} (spared : docs.Pairwise (y.Spares SameFile (y.setting disk o c))) :
    let s := y.setting disk o c
    ∃ told n, List.Forall₂ (fun d => (y.result s d).Complaints d) docs told ∧
      (runOptions y.host { o with documents := docs }).run (.new disk) =
        (Verdict.worst (docs.map fun d => (y.result s d).verdict),
          { disk := (docs.flatMap fun d => (y.result s d).records).foldl y.write disk
            output := docs.flatMap fun d => (y.result s d).output d
            complaints := told.flatten
            warnings := n }) := by
  intro s
  obtain ⟨x, ends⟩ := y.loadConfig_run (w := .new disk) o
  obtain rfl : x = .ok (c, errors) := by rw [← loaded, ends]
  let warns := LogLevel.admitsWarnings (LogLevel.choose o.debug o.quiet c.logLevel)
  obtain ⟨m, warned⟩ := y.warnAll_run (w := .new disk) warns errors
  obtain ⟨told, n, complaints, ran⟩ := y.runDocuments_run
    (w := { World.new disk with warnings := m }) lawful s warns 0 (fun d _ => .refl disk d) spared
  rw [Verdict.foldl_code _ (Nat.zero_le 2), Nat.zero_max] at ran
  refine ⟨told, n, complaints, ?_⟩
  have same : loadConfig y.host { o with documents := docs } = loadConfig y.host o := rfl
  rw [runOptions, same, bind_run ends]
  simp only [runConfigured_eq]
  exact (bind_run warned).trans ran

end Machine

namespace Program

theorem run_documents_alone {σ : Type} {y : Machine σ} {SameFile : σ → Text → Text → Prop}
    (lawful : y.Lawful SameFile) {disk : σ} {argv : List Text} {o : Options} {c : Config}
    {errors : List Text} (given : Options.read argv = .ok o)
    (loaded : ((loadConfig y.host o).run (.new disk)).1 = .ok (c, errors))
    (apart : o.documents.Pairwise fun a b =>
      y.Spares SameFile (y.setting disk o c) a b ∧ y.Spares SameFile (y.setting disk o c) b a) :
    let s := y.setting disk o c
    let whole := (run y.host argv).run (.new disk)
    let runOf (docs : List Text) :=
      (runOptions y.host { o with documents := docs }).run (.new disk)
    whole.2.output = o.documents.flatMap (fun d => (runOf [d]).2.output) ∧
      (∀ d, (runOf [d]).2.output = (y.result s d).output d) ∧
      whole.2.disk = (o.documents.flatMap fun d => (y.result s d).records).foldl y.write disk ∧
      (∃ told, List.Forall₂ (fun d => (y.result s d).Complaints d) o.documents told ∧
        whole.2.complaints = told.flatten) ∧
      whole.1 = Verdict.worst (o.documents.map fun d => (y.result s d).verdict) ∧
      ∀ docs, o.documents.Perm docs → (runOf docs).1 = whole.1 := by
  intro s whole runOf
  have outcome {docs : List Text} (spared : docs.Pairwise (y.Spares SameFile s)) :=
    y.runOptions_run lawful loaded spared
  have started : whole = runOf o.documents := by
    simp only [whole, run, given]
    rfl
  have alone (d : Text) : (runOf [d]).2.output = (y.result s d).output d := by
    obtain ⟨told, n, -, ran⟩ := outcome (List.pairwise_singleton (y.Spares SameFile s) d)
    simp only [runOf, ran]
    exact List.flatMap_singleton _ d
  obtain ⟨told, n, complaints, ran⟩ := outcome (apart.imp And.left)
  have whole_eq := started.trans ran
  rw [whole_eq]
  refine ⟨?_, alone, rfl, ⟨told, complaints, rfl⟩, rfl, fun docs order => ?_⟩
  · exact List.flatMap_congr fun d _ => (alone d).symm
  · have apart' : docs.Pairwise fun a b => y.Spares SameFile s a b ∧ y.Spares SameFile s b a :=
      (order.pairwise_iff And.symm).1 apart
    obtain ⟨told', n', -, ran'⟩ := outcome (apart'.imp And.left)
    simp only [runOf, ran']
    exact Verdict.worst_perm (order.map _).symm

def twoFiles : FileTree where
  directory := ["home", "work"]
  folders := []
  files := [(["home", "work", "first.md"],
      "> set x 1\n\n> print \x7b\x7b x \x7d\x7d > log.txt\n"),
    (["tmp", "second.md"], "> print (\x7b\x7b x \x7d\x7d)\n\n> set x\n")]

theorem run_documents_alone_missing :
    let documents : List Text := ["first.md", "/tmp/second.md", "../third.md"]
    let o : Options := ⟨false, false, .skip, [], documents⟩
    let y := FileTree.machine ⟨[], ⟨0, 0⟩, Markdown.events, id⟩
    let s := y.setting twoFiles o .empty
    let w := (run y.host ("-f" :: documents)).run (.new twoFiles)
    y.Lawful FileTree.SameFile ∧ Options.read ("-f" :: documents) = .ok o ∧
      ((loadConfig y.host o).run (.new twoFiles)).1 = .ok (.empty, []) ∧
      (documents.Pairwise fun a b =>
        y.Spares FileTree.SameFile s a b ∧ y.Spares FileTree.SameFile s b a) ∧
      w.1 = 2 ∧ w.2.disk.read "/home/work/log.txt" = .ok "1\n".toList ∧
      w.2.output = ("first.md: passed (0 passed, 0 failed, 0 total)\n()\n" ++
        "/tmp/second.md: failed (0 passed, 0 failed, 0 total)\n").toList := by
  intro documents o y s w
  have lawful : y.Lawful FileTree.SameFile := FileTree.lawful _
  have given : Options.read ("-f" :: documents) = .ok o := by
    simp [documents, o, Options.read, Options.readFrom, Options.readSwitches, Options.none,
      Except.bind]
  have loaded : ((loadConfig y.host o).run (.new twoFiles)).1 = .ok (.empty, []) := rfl
  have results : documents.map (fun d =>
      ((y.result s d).records, (y.result s d).verdict, (y.result s d).output d)) =
      [([⟨"1", some "log.txt"⟩], .passed,
          "first.md: passed (0 passed, 0 failed, 0 total)\n".toList),
        ([⟨"()", none⟩], .failed,
          "()\n/tmp/second.md: failed (0 passed, 0 failed, 0 total)\n".toList),
        ([], .broken, [])] := by
    decide +kernel
  simp only [documents, List.map_cons, List.map_nil, List.cons.injEq, Prod.mk.injEq] at results
  obtain ⟨first, second, third, -⟩ := results
  have apart : documents.Pairwise fun a b =>
      y.Spares FileTree.SameFile s a b ∧ y.Spares FileTree.SameFile s b a := by
    simp only [documents, Machine.Spares, List.pairwise_cons, first, second, third]
    decide +kernel
  obtain ⟨output, alone, disk, -, code, -⟩ := run_documents_alone lawful given loaded apart
  refine ⟨lawful, given, loaded, apart, code.trans ?_, ?_, output.trans ?_⟩
  · simp only [o, documents, List.map_cons, List.map_nil]
    rw [first.2.1, second.2.1, third.2.1]
    decide
  · rw [disk]
    simp only [o, documents, List.flatMap_cons, List.flatMap_nil]
    rw [first.1, second.1, third.1]
    decide +kernel
  · rw [List.flatMap_congr fun d _ => alone d]
    simp only [o, documents, List.flatMap_cons, List.flatMap_nil]
    rw [first.2.2, second.2.2, third.2.2]
    decide +kernel

end Program

end Docspec.CommandLine
