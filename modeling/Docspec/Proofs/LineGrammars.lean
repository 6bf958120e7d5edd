import Docspec.Proofs.Bodies

set_option autoImplicit false

namespace Docspec.LineGrammar

open Text Placeholder

variable {g : LineGrammar} {line a : Text} {b : Option Text}

theorem split_unpadded (unpadded : g.isPadded = false)
    (groups : g.groups? line = some [some a, b]) :
    g.split line = .ofLine (trim a) :: (b.map fun v => .ofLine (trim v)).toList := by
  cases b <;> simp [split, groups, unpadded]

theorem split_padded (padded : g.isPadded = true) (groups : g.groups? line = some [some a, b]) :
    g.split line = [.ofLine (trim a), .ofLine (trim (b.getD []))] := by
  simp [split, groups, padded]

theorem split_eq_nil (unfit : g.groups? line = none) : g.split line = [] := by
  rw [split, unfit]

section SetLine

/-- A line that starts with a name, behind which there is a blank or nothing. -/
structure StartsWithName (line n after : Text) : Prop where
  lead : ∃ lead, line = lead ++ (n ++ after) ∧ ∀ c ∈ lead, isBlank c = true
  named : isVariableName n = true
  apart : ∀ c ∈ after.head?, isBlank c = true

theorem blank_of_short {after : Text} (apart : ∀ c ∈ after.head?, isBlank c = true)
    (short : after.length < 2) : isAllBlank after = true := by
  match after, short with
  | [], _ => rfl
  | [c], _ => simpa [isAllBlank] using apart

namespace StartsWithName

variable {n after : Text} (starts : StartsWithName line n after)
include starts

theorem stop : ∀ c ∈ after.head?, isVariableChar c = false := fun c first => by
  have blank := starts.apart c first
  refine Bool.eq_false_iff.2 fun taken => ?_
  rw [isBlank_of_isVariableChar taken] at blank
  cases blank

theorem trimStart_eq : trimStart line = n ++ after := by
  obtain ⟨lead, rfl, blank⟩ := starts.lead
  obtain ⟨c, t, rfl, -⟩ := name_start starts.named
  have visible := name_no_blank starts.named c List.mem_cons_self
  exact (longest blank (by simpa using visible)).2

theorem takeWhile_eq : (trimStart line).takeWhile isVariableChar = n := by
  rw [starts.trimStart_eq]
  exact (longest (name_chars starts.named) starts.stop).1

theorem dropWhile_eq : (trimStart line).dropWhile isVariableChar = after := by
  rw [starts.trimStart_eq]
  exact (longest (name_chars starts.named) starts.stop).2

theorem setGroups?_eq : setGroups? line =
    some [some n, if after.length < 2 then none else some (trim after)] := by
  obtain ⟨c, t, shape, start⟩ := name_start starts.named
  have name := starts.takeWhile_eq
  have rest := starts.dropWhile_eq
  rw [setGroups?, name, rest, starts.trimStart_eq, shape, List.cons_append, ← shape]
  simp only [start, if_true, trimmed?_eq]
  by_cases blank : trim after = []
  next => rw [if_pos blank, blank]
  next =>
    have long : ¬ after.length < 2 := fun short =>
      blank (trim_eq_nil_iff.2 (blank_of_short starts.apart short))
    have apart : after.head?.all isBlank = true := by
      cases after with
      | nil => rfl
      | cons d r => exact starts.apart d rfl
    simp only [if_neg blank, if_neg long, apart, if_true]

theorem word_eq : (trim line).takeWhile isVariableChar = n := by
  rw [trim, takeWhile_trimEnd fun c => isBlank_of_isVariableChar, starts.takeWhile_eq]

theorem rest_eq : (trim line).dropWhile isVariableChar = trimEnd after := by
  rw [trim, dropWhile_trimEnd, starts.dropWhile_eq]

end StartsWithName

theorem startsWithName_of_start
    (start : ((trimStart line).takeWhile isVariableChar).head?.any isNameStart = true)
    (apart : ∀ c ∈ ((trimStart line).dropWhile isVariableChar).head?, isBlank c = true) :
    StartsWithName line ((trimStart line).takeWhile isVariableChar)
      ((trimStart line).dropWhile isVariableChar) := by
  refine ⟨⟨line.takeWhile isBlank, ?_, fun c => List.mem_takeWhile_imp⟩, ?_, apart⟩
  · rw [List.takeWhile_append_dropWhile, trimStart, List.takeWhile_append_dropWhile]
  · cases name : (trimStart line).takeWhile isVariableChar with
    | nil => simp [name] at start
    | cons c t =>
      rw [name] at start
      have each : ∀ d ∈ c :: t, isVariableChar d = true := fun d member =>
        List.mem_takeWhile_imp (name ▸ member)
      simpa [isVariableName] using ⟨start, (List.forall_mem_cons.1 each).2⟩

theorem startsWithName_of_setGroups? {groups : List (Option Text)}
    (found : setGroups? line = some groups) : ∃ n after, StartsWithName line n after := by
  rw [setGroups?] at found
  cases content : trimStart line with
  | nil => simp [content] at found
  | cons c t =>
    rw [content] at found
    dsimp only at found
    split at found
    next start =>
      have word : ((trimStart line).takeWhile isVariableChar).head?.any isNameStart = true := by
        rw [content, List.takeWhile_cons_of_pos (isVariableChar_of_isNameStart start)]
        exact start
      refine ⟨_, _, startsWithName_of_start word fun d first => ?_⟩
      rw [content] at first
      rw [trimmed?_eq] at found
      by_cases blank : trim ((c :: t).dropWhile isVariableChar) = []
      next =>
        exact List.all_eq_true.1 (trim_eq_nil_iff.1 blank) d (List.mem_of_mem_head? first)
      next =>
        rw [if_neg blank] at found
        dsimp only at found
        split at found
        next apart => simpa [Option.mem_def.1 first] using apart
        next => cases found
    next => cases found

theorem split_named {n after : Text} (starts : StartsWithName line n after) :
    ofSet.split line =
      if after.length < 2 then [.ofLine n] else [.ofLine n, .ofLine (trim after)] := by
  rw [split_unpadded rfl starts.setGroups?_eq, trim_name starts.named]
  split
  next => rfl
  next => rw [Option.map_some, trim_trim]; rfl

theorem split_unnamed (other : ¬ ∃ n after, StartsWithName line n after) :
    ofSet.split line = [] := by
  refine split_eq_nil (Option.eq_none_iff_forall_ne_some.2 fun groups found => other ?_)
  exact startsWithName_of_setGroups? found

section Word

variable {w rest : Text} (word : (trim line).takeWhile isVariableChar = w)
  (whole : trim line = w ++ rest)
include word whole

theorem dropWhile_word : (trim line).dropWhile isVariableChar = rest := by
  have parts := List.takeWhile_append_dropWhile (p := isVariableChar) (l := trim line)
  rw [word] at parts
  exact List.append_cancel_left (parts.trans whole)

theorem split_joined {c : Char} {r : Text} (visible : isBlank c = false) (shape : rest = c :: r) :
    ofSet.split line = [] := by
  refine split_unnamed fun ⟨n, after, starts⟩ => ?_
  have kept := starts.rest_eq.symm.trans ((dropWhile_word word whole).trans shape)
  rw [starts.apart c (head?_of_trimEnd kept)] at visible
  cases visible

variable (start : w.head?.any isNameStart = true)
include start

theorem exists_startsWithName (apart : ∀ c ∈ rest.head?, isBlank c = true) :
    ∃ after, StartsWithName line w after ∧ trimEnd after = rest := by
  have behind : trimEnd ((trimStart line).dropWhile isVariableChar) = rest := by
    rw [← dropWhile_trimEnd, ← trim, dropWhile_word word whole]
  rw [trim, takeWhile_trimEnd fun c => isBlank_of_isVariableChar] at word
  obtain ⟨b, shape, blank⟩ := exists_trimEnd ((trimStart line).dropWhile isVariableChar)
  have starts : StartsWithName line _ _ := startsWithName_of_start (by rwa [word]) fun c first => by
    rw [shape, behind, List.head?_append] at first
    cases kept : rest.head? with
    | none =>
      rw [kept] at first
      exact blank c (List.mem_of_mem_head? first)
    | some d =>
      rw [kept] at first
      obtain rfl : d = c := Option.some.inj first
      exact apart d kept
  exact ⟨_, word ▸ starts, behind⟩

theorem split_alone (nothing : rest = []) : ofSet.split line =
    if (trimStart line).length < w.length + 2 then [.ofLine w] else [.ofLine w, .ofLine []] := by
  obtain ⟨after, starts, blank⟩ := exists_startsWithName word whole start (by simp [nothing])
  have size : (trimStart line).length = w.length + after.length := by
    rw [starts.trimStart_eq, List.length_append]
  rw [split_named starts, trim_eq_nil_iff.2 (trimEnd_eq_nil_iff.1 (blank.trans nothing)), size]
  simp only [Nat.add_lt_add_iff_left]

theorem split_valued (apart : rest.head?.any isBlank = true) :
    ofSet.split line = [.ofLine w, .ofLine (trimStart rest)] := by
  have blank : ∀ c ∈ rest.head?, isBlank c = true := fun c first => by
    simpa [Option.mem_def.1 first] using apart
  obtain ⟨after, starts, kept⟩ := exists_startsWithName word whole start blank
  have long : ¬ after.length < 2 := fun short => by
    rw [← kept, trimEnd_eq_nil_iff.2 (blank_of_short starts.apart short)] at apart
    cases apart
  rw [split_named starts, if_neg long, trim, trimStart, ← dropWhile_trimEnd, kept]
  rfl

end Word

theorem split_spaced {n gap v : Text} (named : isVariableName n = true) (apart : gap ≠ [])
    (blank : ∀ c ∈ gap, isBlank c = true) (visible : v ≠ []) (trimmed : trim v = v) :
    ofSet.split (n ++ (gap ++ v)) = [.ofLine n, .ofLine v] := by
  have front : ∀ c ∈ (gap ++ v).head?, isBlank c = true := fun c first => by
    rw [List.head?_append_of_ne_nil _ apart] at first
    exact blank c (List.mem_of_mem_head? first)
  have long : ¬ (gap ++ v).length < 2 := by
    have one := List.length_pos_iff.2 apart
    have other := List.length_pos_iff.2 visible
    rw [List.length_append]
    omega
  have starts : StartsWithName (n ++ (gap ++ v)) n (gap ++ v) :=
    ⟨⟨[], rfl, by simp⟩, named, front⟩
  rw [split_named starts, if_neg long, trim_blanks_append blank, trimmed]

theorem split_set {n : Text} (named : isVariableName n = true) (v : Text) :
    ofSet.split (n ++ ' ' :: v) =
      if v = [] then [.ofLine n] else [.ofLine n, .ofLine (trim v)] := by
  have apart : ∀ c ∈ (' ' :: v).head?, isBlank c = true := fun c first => by
    obtain rfl : ' ' = c := Option.some.inj first
    rfl
  have starts : StartsWithName (n ++ ' ' :: v) n (' ' :: v) := ⟨⟨[], rfl, by simp⟩, named, apart⟩
  have value : trim (' ' :: v) = trim v := rfl
  rw [split_named starts, value]
  cases v <;> simp

theorem split_set_name {n : Text} (named : isVariableName n = true) :
    ofSet.split n = [.ofLine n] := by
  have starts : StartsWithName n n [] := ⟨⟨[], by simp, by simp⟩, named, by simp⟩
  rw [split_named starts]
  rfl

end SetLine

section PrintLine

def arrowed : Option Text → Text
  | none => []
  | some after => '>' :: after

theorem exists_arrowed (line : Text) :
    ∃ before after, '>' ∉ before ∧ line = before ++ arrowed after := by
  obtain ⟨before, rest, rfl, inside, stop⟩ := exists_longest (· ≠ '>') line
  have absent : '>' ∉ before := fun member => by simpa using inside _ member
  cases rest with
  | nil => exact ⟨before, none, absent, rfl⟩
  | cons c after =>
    obtain rfl : c = '>' := by simpa using stop c rfl
    exact ⟨before, some after, absent, rfl⟩

theorem printGroups?_arrowed {before : Text} (unarrowed : '>' ∉ before) (after : Option Text) :
    printGroups? (before ++ arrowed after) =
      if trim before = [] then none else some [some (trim before), after.map trim] := by
  have apart : ∀ c ∈ before, decide (c = '>') = false := fun c member =>
    decide_eq_false fun same => unarrowed (same ▸ member)
  have cut : printGroups? (before ++ arrowed after) =
      (trimmed? before).map fun value => [some value, after.map trim] := by
    cases after with
    | none =>
      rw [printGroups?, arrowed, List.append_nil, splitOnce_eq_none apart]
    | some after =>
      rw [printGroups?, arrowed, splitOnce_append apart (by simp)]
  rw [cut, trimmed?_eq]
  split <;> rfl

theorem split_arrowed {before : Text} (unarrowed : '>' ∉ before) (after : Option Text) :
    ofPrint.split (before ++ arrowed after) =
      if trim before = [] then []
      else [.ofLine (trim before), .ofLine (trim (after.getD []))] := by
  have groups := printGroups?_arrowed unarrowed after
  split
  next unseen =>
    rw [if_pos unseen] at groups
    exact split_eq_nil groups
  next visible =>
    rw [if_neg visible] at groups
    rw [split_padded rfl groups, trim_trim]
    cases after with
    | none => rfl
    | some after => rw [Option.map_some, Option.getD_some, Option.getD_some, trim_trim]

theorem split_print {t : Text} (absent : '>' ∉ t) (visible : trim t ≠ []) :
    ofPrint.split t = [.ofLine (trim t), .ofLine []] := by
  have whole := split_arrowed absent none
  rwa [arrowed, List.append_nil, if_neg visible] at whole

theorem split_print_arrow {before : Text} (absent : '>' ∉ before) (visible : trim before ≠ [])
    (after : Text) :
    ofPrint.split (before ++ '>' :: after) = [.ofLine (trim before), .ofLine (trim after)] :=
  (split_arrowed absent (some after)).trans (if_neg visible)

theorem split_print_placeholderOf {n : Text} (named : isVariableName n = true) :
    ofPrint.split (placeholderOf n) = [.ofLine (placeholderOf n), .ofLine []] := by
  have noArrow : '>' ∉ placeholderOf n := by
    have other : '>' ∉ n := name_not_mem named (by decide)
    simp [placeholderOf, other]
  have ends : trim (placeholderOf n) = placeholderOf n := by
    apply trim_of_ends
    · intro c first
      obtain rfl : '\x7b' = c := by simpa [placeholderOf] using first
      rfl
    · intro c last
      rw [placeholderOf, List.getLast?_append_of_ne_nil _ (by decide)] at last
      obtain rfl : '\x7d' = c := by simpa using last
      rfl
  rw [split_print noArrow (by rw [ends]; simp [placeholderOf]), ends]

end PrintLine

end Docspec.LineGrammar
