import Docspec.CommandLine.Program
import Docspec.Proofs.Scanning
import Docspec.Proofs.Trimming

set_option autoImplicit false

namespace Docspec

open Text

namespace Text

theorem splitAll_append_sep (sep : Char) (a b : Text) :
    splitAll sep (a ++ sep :: b) = splitAll sep a ++ splitAll sep b := by
  induction a with
  | nil => simp [splitAll]
  | cons c a ih =>
    by_cases same : c = sep
    next => simp [splitAll, same, ih]
    next =>
      rw [List.cons_append, splitAll, splitAll, if_neg same, if_neg same, ih]
      cases pieces : splitAll sep a with
      | nil => exact absurd pieces (splitAll_ne_nil sep a)
      | cons piece more => rfl

theorem length_splitAll (sep : Char) (t : Text) :
    (splitAll sep t).length = t.count sep + 1 := by
  induction t with
  | nil => rfl
  | cons c t ih =>
    rw [splitAll, List.count_cons]
    by_cases same : c = sep
    next => simp [same, ih]
    next =>
      rw [if_neg same]
      cases pieces : splitAll sep t with
      | nil => exact absurd pieces (splitAll_ne_nil sep t)
      | cons piece more => simpa [pieces, same] using ih

/-- A line of a text without its end, what stands before it and what stands behind it. -/
structure IsLine (t before line after : Text) : Prop where
  whole : t = before ++ (line ++ after)
  start : before = [] ∨ ∃ b, before = b ++ ['\n']
  single : '\n' ∉ line
  stop : after = [] ∨ (∃ a, after = '\n' :: a) ∨ ∃ a, after = '\r' :: '\n' :: a

theorem IsLine.split {t before line after : Text} (isLine : IsLine t before line after) :
    ∃ earlier ending later, (∀ c ∈ ending, isBlank c = true) ∧
      splitAll '\n' t = earlier ++ (line ++ ending) :: later ∧
      splitAll '\n' (before ++ after) = earlier ++ ending :: later ∧
      earlier.length = before.count '\n' := by
  obtain ⟨rfl, start, single, stop⟩ := isLine
  have behind : ∃ ending later, (∀ c ∈ ending, isBlank c = true) ∧
      splitAll '\n' (line ++ after) = (line ++ ending) :: later ∧
      splitAll '\n' after = ending :: later := by
    rcases stop with rfl | ⟨a, rfl⟩ | ⟨a, rfl⟩
    · exact ⟨[], [], by simp, by simpa using splitAll_of_not_mem single, rfl⟩
    · exact ⟨[], splitAll '\n' a, by simp, by simpa using splitAll_append single a, rfl⟩
    · have absent : '\n' ∉ line ++ ['\r'] := by simp [single]
      have whole := splitAll_append absent a
      rw [List.append_assoc, List.singleton_append] at whole
      have ending : '\n' ∉ ['\r'] := by decide
      exact ⟨['\r'], splitAll '\n' a, List.forall_mem_singleton.2 rfl, whole,
        splitAll_append ending a⟩
  obtain ⟨ending, later, blank, own, emptied⟩ := behind
  rcases start with rfl | ⟨b, rfl⟩
  · exact ⟨[], ending, later, blank, own, emptied, rfl⟩
  · have earlier (more : Text) :
        splitAll '\n' (b ++ ['\n'] ++ more) = splitAll '\n' b ++ splitAll '\n' more := by
      rw [List.append_assoc, List.singleton_append, splitAll_append_sep]
    refine ⟨splitAll '\n' b, ending, later, blank, ?_, ?_, ?_⟩
    · rw [earlier, own]
    · rw [earlier, emptied]
    · simp [length_splitAll]

theorem exists_isLine {t line : Text} {i : Nat} (found : (splitAll '\n' t)[i]? = some line) :
    ∃ before after, IsLine t before line after ∧ before.count '\n' = i := by
  induction i generalizing t with
  | zero =>
    by_cases ended : '\n' ∈ t
    next =>
      obtain ⟨a, b, rfl, absent⟩ := List.eq_append_cons_of_mem ended
      rw [splitAll_append absent] at found
      obtain rfl : a = line := by simpa using found
      exact ⟨[], '\n' :: b, ⟨rfl, .inl rfl, absent, .inr (.inl ⟨b, rfl⟩)⟩, rfl⟩
    next =>
      rw [splitAll_of_not_mem ended] at found
      obtain rfl : t = line := by simpa using found
      exact ⟨[], [], ⟨by simp, .inl rfl, ended, .inl rfl⟩, rfl⟩
  | succ i ih =>
    by_cases ended : '\n' ∈ t
    next =>
      obtain ⟨a, b, rfl, absent⟩ := List.eq_append_cons_of_mem ended
      rw [splitAll_append absent, List.getElem?_cons_succ] at found
      obtain ⟨before, after, isLine, count⟩ := ih found
      refine ⟨a ++ '\n' :: before, after, ⟨?_, .inr ?_, isLine.single, isLine.stop⟩, ?_⟩
      · simp [isLine.whole]
      · rcases isLine.start with rfl | ⟨c, rfl⟩
        · exact ⟨a, rfl⟩
        · exact ⟨a ++ '\n' :: c, by simp⟩
      · simp [List.count_eq_zero.2 absent, count]
    next =>
      rw [splitAll_of_not_mem ended] at found
      simp at found

end Text

namespace Config

def directive? : Text → Option (Text × List Text)
  | '/' :: rest =>
    let (name, arguments) := (splitOnce isAsciiBlank rest).getD (rest, [])
    some (name, splitWords (trim arguments))
  | _ => none

inductive Effect (line : Text) : (Config → Config) → Prop
  | silent (none : isSilent line = true) : Effect line id
  | defined {words : List Text} {n v : Text}
      (given : directive? line = some ("set".toList, words)) (bound : binding words = .ok (n, v))
      (visible : n ≠ []) : Effect line (define n v)
  | markers {m : Markers}
      (given : directive? line = some ("markers".toList, [m.opening, m.closing])) :
      Effect line fun c => { c with markers := some m }
  | level {word : Text} (given : directive? line = some ("loglevel".toList, [word]))
      (known : asciiLower word ∈ LogLevel.names) :
      Effect line fun c => { c with logLevel := some (asciiLower word) }

theorem applySet_cases (words : List Text) :
    (∃ n v, binding words = .ok (n, v) ∧ n ≠ [] ∧ ∀ c, applySet words c = .ok (c.define n v)) ∨
      ∃ cause, ∀ c, applySet words c = .error cause := by
  cases bound : binding words with
  | error cause =>
    refine .inr ⟨cause, fun c => ?_⟩
    rw [applySet, bound]
    rfl
  | ok pair =>
    obtain ⟨n, v⟩ := pair
    have result (c : Config) : applySet words c =
        if n.isEmpty then .error .setWithoutName else .ok (c.define n v) := by
      rw [applySet, bound]
      rfl
    by_cases visible : n = []
    next => exact .inr ⟨.setWithoutName, fun c => by simp [result, visible]⟩
    next => exact .inl ⟨n, v, rfl, visible, fun c => by simp [result, visible]⟩

theorem applyMarkers_cases (words : List Text) :
    (∃ m : Markers, words = [m.opening, m.closing] ∧
      ∀ c, applyMarkers words c = .ok { c with markers := some m }) ∨
      ∃ cause, ∀ c, applyMarkers words c = .error cause := by
  match words with
  | [opening, closing] =>
    cases checked : Markers.ofPair opening closing with
    | ok m =>
      obtain ⟨rfl, rfl⟩ := Markers.ofPair_eq_ok checked
      exact .inl ⟨m, rfl, fun c => by simp only [applyMarkers, checked]⟩
    | error cause =>
      exact .inr ⟨.markersRejected cause, fun c => by simp only [applyMarkers, checked]⟩
  | [] | [_] | _ :: _ :: _ :: _ => exact .inr ⟨_, fun _ => rfl⟩

theorem applyLevel_cases (words : List Text) :
    (∃ word, words = [word] ∧ asciiLower word ∈ LogLevel.names ∧
      ∀ c, applyLevel words c = .ok { c with logLevel := some (asciiLower word) }) ∨
      ∃ cause, ∀ c, applyLevel words c = .error cause := by
  match words with
  | [word] =>
    by_cases known : asciiLower word ∈ LogLevel.names
    next => exact .inl ⟨word, rfl, known, fun c => by simp [applyLevel, known]⟩
    next => exact .inr ⟨.unknownLevel (asciiLower word), fun c => by simp [applyLevel, known]⟩
  | [] | _ :: _ :: _ => exact .inr ⟨_, fun _ => rfl⟩

theorem applyLine_eq (line : Text) (c : Config) :
    applyLine line c =
      if isSilent line then .ok c
      else
        match directive? line with
        | some (name, words) =>
          if name = "set".toList then c.applySet words
          else if name = "markers".toList then c.applyMarkers words
          else if name = "loglevel".toList then c.applyLevel words
          else .error (.unknownDirective name)
        | none => .error (.noDirective line) := by
  unfold applyLine
  split
  next => rfl
  next =>
    split
    next => rfl
    next other =>
      rw [directive?]
      exact other

theorem applyLine_cases (line : Text) :
    (∃ f, Effect line f ∧ ∀ c, applyLine line c = .ok (f c)) ∨
      ∃ cause, ∀ c, applyLine line c = .error cause := by
  simp only [applyLine_eq]
  by_cases silent : isSilent line = true
  next => exact .inl ⟨id, .silent silent, fun c => if_pos silent⟩
  simp only [if_neg silent]
  cases read : directive? line with
  | none => exact .inr ⟨.noDirective line, fun c => rfl⟩
  | some directive =>
    obtain ⟨name, words⟩ := directive
    by_cases set : name = "set".toList
    next =>
      subst set
      rcases applySet_cases words with ⟨n, v, bound, visible, done⟩ | ⟨cause, wrong⟩
      · exact .inl ⟨define n v, .defined read bound visible, fun c => (if_pos rfl).trans (done c)⟩
      · exact .inr ⟨cause, fun c => (if_pos rfl).trans (wrong c)⟩
    simp only [if_neg set]
    by_cases markers : name = "markers".toList
    next =>
      subst markers
      rcases applyMarkers_cases words with ⟨m, rfl, done⟩ | ⟨cause, wrong⟩
      · exact .inl ⟨_, .markers read, fun c => (if_pos rfl).trans (done c)⟩
      · exact .inr ⟨cause, fun c => (if_pos rfl).trans (wrong c)⟩
    simp only [if_neg markers]
    by_cases level : name = "loglevel".toList
    next =>
      subst level
      rcases applyLevel_cases words with ⟨word, rfl, known, done⟩ | ⟨cause, wrong⟩
      · exact .inl ⟨_, .level read known, fun c => (if_pos rfl).trans (done c)⟩
      · exact .inr ⟨cause, fun c => (if_pos rfl).trans (wrong c)⟩
    exact .inr ⟨.unknownDirective name, fun c => if_neg level⟩

def fault? (line : Text) : Option ConfigError :=
  match empty.applyLine (trim line) with
  | .ok _ => none
  | .error cause => some cause

def obey (c : Config) (line : Text) : Config :=
  match c.applyLine (trim line) with
  | .ok c' => c'
  | .error _ => c

theorem fault?_eq_some_iff {line : Text} {cause : ConfigError} :
    fault? line = some cause ↔ ∀ c, applyLine (trim line) c = .error cause := by
  constructor
  next =>
    intro fault c
    rcases applyLine_cases (trim line) with ⟨f, -, done⟩ | ⟨other, wrong⟩
    · rw [fault?, done] at fault
      cases fault
    · rw [fault?, wrong] at fault
      cases fault
      exact wrong c
  next =>
    intro wrong
    rw [fault?, wrong]

theorem obey_of_fault {line : Text} {cause : ConfigError} (fault : fault? line = some cause)
    (c : Config) : c.obey line = c := by
  rw [obey, fault?_eq_some_iff.1 fault]

theorem exists_effect {line : Text} (sound : fault? line = none) :
    ∃ f, Effect (trim line) f ∧ ∀ c, applyLine (trim line) c = .ok (f c) ∧ c.obey line = f c := by
  rcases applyLine_cases (trim line) with ⟨f, effect, done⟩ | ⟨cause, wrong⟩
  · exact ⟨f, effect, fun c => ⟨done c, by rw [obey, done]⟩⟩
  · rw [fault?_eq_some_iff.2 wrong] at sound
    cases sound

section Silent

variable {line : Text} (silent : isSilent (trim line) = true)
include silent

theorem fault?_of_silent : fault? line = none := by
  rw [fault?, applyLine_eq, if_pos silent]

theorem obey_of_silent (c : Config) : c.obey line = c := by
  rw [obey, applyLine_eq, if_pos silent]

end Silent

def report? (numbered : Text × Nat) : Option Located :=
  (fault? numbered.1).map (Located.mk numbered.2)

theorem applyLines_eq (k : Nat) (lines : List Text) (c : Config) :
    applyLines k lines c = (lines.foldl obey c, (lines.zipIdx k).filterMap report?) := by
  induction lines generalizing k c with
  | nil => rfl
  | cons line lines ih =>
    rw [applyLines, List.zipIdx_cons, List.filterMap_cons, List.foldl_cons, report?]
    cases fault : fault? line with
    | none =>
      obtain ⟨f, -, done⟩ := exists_effect fault
      rw [(done c).1, (done c).2]
      exact ih (k + 1) (f c)
    | some cause =>
      rw [fault?_eq_some_iff.1 fault, obey_of_fault fault]
      simp only [ih]
      rfl

theorem ofText_eq (t : Text) :
    ofText t = ((splitAll '\n' t).foldl obey empty,
      ((splitAll '\n' t).zipIdx 1).filterMap report?) :=
  applyLines_eq 1 (splitAll '\n' t) empty

section Report

variable {k : Nat} {lines : List Text} {e : Located}

theorem mem_reports_iff : e ∈ (lines.zipIdx k).filterMap report? ↔
    ∃ line, k ≤ e.line ∧ lines[e.line - k]? = some line ∧ fault? line = some e.cause := by
  rw [List.mem_filterMap]
  constructor
  next =>
    rintro ⟨⟨line, n⟩, member, report⟩
    obtain ⟨cause, fault, rfl⟩ := Option.map_eq_some_iff.1 report
    obtain ⟨above, found⟩ := List.mk_mem_zipIdx_iff_le_and_getElem?_sub.1 member
    exact ⟨line, above, found, fault⟩
  next =>
    rintro ⟨line, above, found, fault⟩
    exact ⟨(line, e.line), List.mk_mem_zipIdx_iff_le_and_getElem?_sub.2 ⟨above, found⟩,
      Option.map_eq_some_iff.2 ⟨e.cause, fault, rfl⟩⟩

theorem lt_of_mem_reports (member : e ∈ (lines.zipIdx k).filterMap report?) :
    e.line < k + lines.length := by
  obtain ⟨line, above, found, -⟩ := mem_reports_iff.1 member
  have inside := (List.getElem?_eq_some_iff.1 found).1
  omega

variable (k lines) in
theorem reports_ascending :
    (((lines.zipIdx k).filterMap report?).map Located.line).Pairwise (· < ·) := by
  rw [List.pairwise_map, List.pairwise_filterMap]
  have numbers : ((lines.zipIdx k).map Prod.snd).Pairwise (· < ·) := by
    rw [List.zipIdx_map_snd]
    exact List.pairwise_lt_range'
  refine (List.pairwise_map.1 numbers).imp fun below e report e' report' => ?_
  obtain ⟨-, -, rfl⟩ := Option.map_eq_some_iff.1 report
  obtain ⟨-, -, rfl⟩ := Option.map_eq_some_iff.1 report'
  exact below

end Report

section Ending

variable {ending : Text} (blank : ∀ c ∈ ending, isBlank c = true)
include blank

theorem isSilent_ending : isSilent (trim ending) = true := by
  rw [trim_eq_nil_iff.2 (List.all_eq_true.2 blank)]
  rfl

theorem fault?_append_ending (line : Text) : fault? (line ++ ending) = fault? line := by
  rw [fault?, fault?, trim_append_blanks line blank]

theorem obey_append_ending (line : Text) (c : Config) : c.obey (line ++ ending) = c.obey line := by
  rw [obey, obey, trim_append_blanks line blank]

end Ending

theorem reports_replaced (earlier later : List Text) {line other : Text}
    (sound : fault? other = none) :
    ((earlier ++ other :: later).zipIdx 1).filterMap report? =
      (((earlier ++ line :: later).zipIdx 1).filterMap report?).filter
        fun e => e.line ≠ earlier.length + 1 := by
  have before {e : Located} (member : e ∈ (earlier.zipIdx 1).filterMap report?) :
      e.line ≠ earlier.length + 1 := by
    have bound := lt_of_mem_reports member
    omega
  have behind {e : Located}
      (member : e ∈ (later.zipIdx (1 + earlier.length + 1)).filterMap report?) :
      e.line ≠ earlier.length + 1 := by
    obtain ⟨-, bound, -⟩ := mem_reports_iff.1 member
    omega
  have own : ([(line, 1 + earlier.length)].filterMap report?).filter
      (fun e => e.line ≠ earlier.length + 1) = [] := by
    rw [List.filter_eq_nil_iff]
    intro e member
    obtain ⟨cause, -, rfl⟩ : ∃ cause, fault? line = some cause ∧ _ = e := by
      simpa [report?] using member
    simp [Nat.add_comm]
  have none : [(other, 1 + earlier.length)].filterMap report? = [] := by
    simp [report?, sound]
  have split (x : Text) : ((earlier ++ x :: later).zipIdx 1).filterMap report? =
      (earlier.zipIdx 1).filterMap report? ++ ([(x, 1 + earlier.length)].filterMap report? ++
        (later.zipIdx (1 + earlier.length + 1)).filterMap report?) := by
    rw [List.zipIdx_append, List.zipIdx_cons, List.append_cons, List.filterMap_append,
      List.filterMap_append, List.append_assoc]
  rw [split, split, none, List.filter_append, List.filter_append, own,
    List.filter_eq_self.2 fun e member => decide_eq_true (before member),
    List.filter_eq_self.2 fun e member => decide_eq_true (behind member)]

section Line

variable {t before line after : Text} (isLine : IsLine t before line after)
include isLine

theorem reported_iff : before.count '\n' + 1 ∈ (ofText t).2.map Located.line ↔
    ∃ cause, fault? line = some cause := by
  obtain ⟨earlier, ending, later, blank, own, -, count⟩ := isLine.split
  rw [ofText_eq, own, ← count, List.mem_map]
  constructor
  next =>
    rintro ⟨e, member, number⟩
    obtain ⟨found, -, here, fault⟩ := mem_reports_iff.1 member
    obtain rfl : line ++ ending = found := by simpa [number] using here
    exact ⟨e.cause, fault?_append_ending blank line ▸ fault⟩
  next =>
    rintro ⟨cause, fault⟩
    refine ⟨⟨earlier.length + 1, cause⟩, mem_reports_iff.2 ⟨line ++ ending, ?_, ?_, ?_⟩, rfl⟩
    · exact Nat.le_add_left 1 _
    · simp
    · rw [fault?_append_ending blank, fault]

theorem ofText_emptied :
    (ofText (before ++ after)).2 =
      (ofText t).2.filter fun e => e.line ≠ before.count '\n' + 1 := by
  obtain ⟨earlier, ending, later, blank, own, emptied, count⟩ := isLine.split
  rw [ofText_eq, ofText_eq, own, emptied, ← count]
  exact reports_replaced earlier later (fault?_of_silent (isSilent_ending blank))

theorem ofText_idle (idle : ∀ c : Config, c.obey line = c) :
    (ofText (before ++ after)).1 = (ofText t).1 := by
  obtain ⟨earlier, ending, later, blank, own, emptied, -⟩ := isLine.split
  rw [ofText_eq, ofText_eq, own, emptied, List.foldl_append, List.foldl_append, List.foldl_cons,
    List.foldl_cons, obey_append_ending blank, idle, obey_of_silent (isSilent_ending blank)]

end Line

theorem mem_ofText_iff {t : Text} {e : Located} : e ∈ (ofText t).2 ↔
    ∃ before line after, IsLine t before line after ∧ e.line = before.count '\n' + 1 ∧
      ∀ c, applyLine (trim line) c = .error e.cause := by
  constructor
  next =>
    intro member
    rw [ofText_eq] at member
    obtain ⟨line, above, found, fault⟩ := mem_reports_iff.1 member
    obtain ⟨before, after, isLine, count⟩ := exists_isLine found
    exact ⟨before, line, after, isLine, by omega, fault?_eq_some_iff.1 fault⟩
  next =>
    rintro ⟨before, line, after, isLine, number, wrong⟩
    obtain ⟨earlier, ending, later, blank, own, -, count⟩ := isLine.split
    rw [ofText_eq, own]
    refine mem_reports_iff.2 ⟨line ++ ending, by omega, ?_, ?_⟩
    · simp [number, ← count]
    · rw [fault?_append_ending blank, fault?_eq_some_iff.2 wrong]

theorem ofText_isolates_lines (t : Text) :
    ((ofText t).2.map Located.line).Pairwise (· < ·) ∧
      (∀ e, e ∈ (ofText t).2 ↔
        ∃ before line after, IsLine t before line after ∧ e.line = before.count '\n' + 1 ∧
          ∀ c, applyLine (trim line) c = .error e.cause) ∧
      ∀ before line after, IsLine t before line after →
        (before.count '\n' + 1 ∈ (ofText t).2.map Located.line ∨
          isSilent (trim line) = true) →
          (ofText (before ++ after)).1 = (ofText t).1 ∧
            (ofText (before ++ after)).2 =
              (ofText t).2.filter (fun e => e.line ≠ before.count '\n' + 1) ∧
            (ofText (before ++ line)).1 = (ofText before).1 := by
  refine ⟨ofText_eq t ▸ reports_ascending 1 _, fun e => mem_ofText_iff, ?_⟩
  intro before line after isLine void
  have idle : ∀ c : Config, c.obey line = c := by
    rcases void with reported | silent
    · obtain ⟨cause, fault⟩ := (reported_iff isLine).1 reported
      exact obey_of_fault fault
    · exact obey_of_silent silent
  have last : IsLine (before ++ line) before line [] :=
    ⟨by simp, isLine.start, isLine.single, .inl rfl⟩
  have sofar := ofText_idle last idle
  rw [List.append_nil] at sofar
  exact ⟨ofText_idle isLine idle, ofText_emptied isLine, sofar.symm⟩

theorem ofText_isolates_lines_unknown :
    let t := "/def x\n/set a=1\r\nplain".toList
    let after := "\n/set a=1\r\nplain".toList
    IsLine t [] "/def x".toList after ∧ 1 ∈ (ofText t).2.map Located.line ∧
      ofText after = ((ofText t).1, [⟨3, .noDirective "plain".toList⟩]) := by
  intro t after
  have isLine : IsLine t [] "/def x".toList after :=
    ⟨rfl, .inl rfl, by decide, .inr (.inl ⟨_, rfl⟩)⟩
  have errors : (ofText t).2 =
      [⟨1, .unknownDirective "def".toList⟩, ⟨3, .noDirective "plain".toList⟩] := by decide
  have reported : 1 ∈ (ofText t).2.map Located.line := by rw [errors]; decide
  obtain ⟨-, -, isolated⟩ := ofText_isolates_lines t
  obtain ⟨same, others, -⟩ := isolated [] _ after isLine (.inl reported)
  rw [errors] at others
  exact ⟨isLine, reported, Prod.ext same others⟩

end Config

end Docspec
