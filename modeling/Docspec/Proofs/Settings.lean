import Docspec.Proofs.ConfigLines
import Docspec.Proofs.Definitions

set_option autoImplicit false

namespace Docspec.Config

open Text

def wordsOf? (name line : Text) : Option (List Text) :=
  match directive? line with
  | some (own, words) => if own = name then some words else none
  | none => none

def obeyedWords (name t : Text) : List (List Text) :=
  ((splitAll '\n' t).zipIdx 1).filterMap fun (line, number) =>
    if number ∈ (ofText t).2.map Located.line then none else wordsOf? name (trim line)

def obeyedOn? (name line : Text) : Option (List Text) :=
  match fault? line with
  | none => wordsOf? name (trim line)
  | some _ => none

theorem obeyedWords_eq (name t : Text) :
    obeyedWords name t = (splitAll '\n' t).filterMap (obeyedOn? name) := by
  have own : ∀ numbered ∈ (splitAll '\n' t).zipIdx 1,
      (if numbered.2 ∈ (ofText t).2.map Located.line then none
        else wordsOf? name (trim numbered.1)) = obeyedOn? name numbered.1 := by
    rintro ⟨line, number⟩ member
    obtain ⟨above, found⟩ := List.mk_mem_zipIdx_iff_le_and_getElem?_sub.1 member
    obtain ⟨before, after, isLine, count⟩ := exists_isLine found
    have reported := reported_iff isLine
    obtain rfl : before.count '\n' + 1 = number := by omega
    rw [obeyedOn?]
    cases fault : fault? line with
    | none => simp [reported, fault]
    | some cause => simp [reported, fault]
  calc obeyedWords name t
    _ = ((splitAll '\n' t).zipIdx 1).filterMap fun numbered => obeyedOn? name numbered.1 :=
      List.filterMap_congr own
    _ = (((splitAll '\n' t).zipIdx 1).map Prod.fst).filterMap (obeyedOn? name) := by
      rw [List.filterMap_map]
      rfl
    _ = (splitAll '\n' t).filterMap (obeyedOn? name) := by rw [List.zipIdx_map_fst]

theorem wordsOf?_of_silent {line : Text} (silent : isSilent line = true) (name : Text) :
    wordsOf? name line = none := by
  have noDirective : directive? line = none := by
    rw [directive?]
    rintro rest rfl
    cases silent
  rw [wordsOf?, noDirective]

theorem wordsOf?_given {line own : Text} {words : List Text}
    (given : directive? line = some (own, words)) (name : Text) :
    wordsOf? name line = if own = name then some words else none := by
  rw [wordsOf?, given]

/-- A part of a configuration that the directives of one name set and no others do. -/
def SetBy (name : Text) (read : List Text → List Text) (part : Config → Option (List Text)) :
    Prop :=
  ∀ line f, Effect line f → ∀ c, part (f c) = ((wordsOf? name line).map read).or (part c)

def markerTexts (c : Config) : Option (List Text) := c.markers.map fun m => [m.opening, m.closing]

def levelText (c : Config) : Option (List Text) := c.logLevel.map fun level => [level]

theorem markerTexts_setBy : SetBy "markers".toList id markerTexts := by
  intro line f effect c
  cases effect with
  | silent none => rw [wordsOf?_of_silent none]; rfl
  | defined given | level given => rw [wordsOf?_given given, if_neg (by decide)]; rfl
  | markers given => rw [wordsOf?_given given, if_pos rfl]; rfl

theorem levelText_setBy : SetBy "loglevel".toList (List.map asciiLower) levelText := by
  intro line f effect c
  cases effect with
  | silent none => rw [wordsOf?_of_silent none]; rfl
  | defined given | markers given => rw [wordsOf?_given given, if_neg (by decide)]; rfl
  | level given => rw [wordsOf?_given given, if_pos rfl]; rfl

theorem SetBy.foldl {name : Text} {read : List Text → List Text}
    {part : Config → Option (List Text)} (set : SetBy name read part) (lines : List Text)
    (c : Config) :
    part (lines.foldl obey c) =
      ((lines.filterMap (obeyedOn? name)).getLast?.map read).or (part c) := by
  have step (c : Config) (line : Text) : part (c.obey line) =
      ((obeyedOn? name line).map fun words => some (read words)).getD (part c) := by
    rw [obeyedOn?]
    cases fault : fault? line with
    | none =>
      obtain ⟨f, effect, done⟩ := exists_effect fault
      rw [(done c).2, set _ f effect c]
      cases wordsOf? name (trim line) <;> rfl
    | some cause =>
      rw [obey_of_fault fault]
      rfl
  rw [foldl_last part step, ← List.map_filterMap, List.getLast?_map]
  cases (lines.filterMap (obeyedOn? name)).getLast? <;> rfl

theorem SetBy.ofText {name : Text} {read : List Text → List Text}
    {part : Config → Option (List Text)} (set : SetBy name read part)
    (unset : part empty = none) (t : Text) :
    part (ofText t).1 = (obeyedWords name t).getLast?.map read := by
  rw [ofText_eq, set.foldl, obeyedWords_eq, unset, Option.or_none]

theorem level_known (t : Text) : ∀ level ∈ (ofText t).1.logLevel, level ∈ LogLevel.names := by
  have start : ∀ level ∈ empty.logLevel, level ∈ LogLevel.names := nofun
  rw [ofText_eq]
  refine List.foldlRecOn (motive := fun c => ∀ level ∈ c.logLevel, level ∈ LogLevel.names)
    (splitAll '\n' t) obey start fun c known line _ => ?_
  cases fault : fault? line with
  | some cause => rwa [obey_of_fault fault]
  | none =>
    obtain ⟨f, effect, done⟩ := exists_effect fault
    rw [(done c).2]
    cases effect with
    | level _ named => exact fun level own => Option.some.inj own ▸ named
    | silent | defined | markers => exact known

open CommandLine in
theorem loaded_gives_engine (t : Text) (o : Options) :
    let c := Program.defined o (ofText t).1
    markerTexts c = (obeyedWords "markers".toList t).getLast? ∧
      levelText c = (obeyedWords "loglevel".toList t).getLast?.map (List.map asciiLower) ∧
      (∀ level ∈ c.logLevel, level ∈ LogLevel.names ∧ asciiLower level = level) ∧
      (∀ r, ∃ e, c.checkedEngine r = .ok e ∧ e.registry = r ∧
        [e.markers.opening, e.markers.closing] =
          (obeyedWords "markers".toList t).getLast?.getD ["\x7b\x7b", "\x7d\x7d"]) ∧
      ∀ {m : Type → Type} [Monad m] (h : Host m) (errors : List Text),
        Program.runConfigured h o (ofText t).1 errors = (do
          let warns := LogLevel.admitsWarnings
            (LogLevel.choose o.debug o.quiet (ofText t).1.logLevel)
          Program.warnAll h warns errors
          Program.runDocuments h c.vars warns
            (.new (c.engine (.builtin h.moment)) h.yamlFault) 0 o.documents) := by
  intro c
  obtain ⟨sameMarkers, sameLevel⟩ := Program.defined_kept o (ofText t).1
  have markers : markerTexts c = (obeyedWords "markers".toList t).getLast? := by
    rw [markerTexts, sameMarkers]
    exact (markerTexts_setBy.ofText rfl t).trans Option.map_id'
  have level : levelText c =
      (obeyedWords "loglevel".toList t).getLast?.map (List.map asciiLower) := by
    rw [levelText, sameLevel]
    exact levelText_setBy.ofText rfl t
  have lower : ∀ level ∈ LogLevel.names, asciiLower level = level := by decide
  refine ⟨markers, level, fun level own => ?_, fun r => ?_, fun h errors => ?_⟩
  · have known := level_known t level (sameLevel ▸ own)
    exact ⟨known, lower level known⟩
  · refine ⟨c.engine r, c.checkedEngine_eq r, rfl, ?_⟩
    rw [← markers, markerTexts, engine]
    cases c.markers <;> rfl
  · exact Program.runConfigured_eq h o (ofText t).1 errors

theorem loaded_gives_engine_last :
    let t := "/markers <% %>\n/markers %% %%\n/loglevel INFO\n/loglevel Debug\n/loglevel x\n".toList
    let c := (ofText t).1
    (ofText t).2.map Located.line = [2, 5] ∧ c.logLevel = some "debug".toList ∧
      asciiLower "debug".toList = "debug".toList ∧
      ∃ e, c.checkedEngine .empty = .ok e ∧
        [e.markers.opening, e.markers.closing] = ["<%".toList, "%>".toList] := by
  intro t c
  obtain ⟨-, -, known, engine, -⟩ := loaded_gives_engine t CommandLine.Options.none
  have level : c.logLevel = some "debug".toList := by decide
  have last : (obeyedWords "markers".toList t).getLast? = some ["<%".toList, "%>".toList] := by
    decide
  obtain ⟨e, made, -, texts⟩ := engine .empty
  rw [last] at texts
  exact ⟨by decide, level, (known _ level).2, e, made, texts⟩

end Docspec.Config
