set_option autoImplicit false

namespace Docspec

/-- A text is the list of its characters, so every function on it is a list function. -/
abbrev Text := List Char

instance : Coe String Text := ⟨String.toList⟩

namespace Text

def isBlank (c : Char) : Bool :=
  let n := c.toNat
  (9 ≤ n && n ≤ 13) || n == 0x20 || n == 0x85 || n == 0xA0 || n == 0x1680 ||
    (0x2000 ≤ n && n ≤ 0x200A) || n == 0x2028 || n == 0x2029 || n == 0x202F ||
    n == 0x205F || n == 0x3000

def isAsciiBlank (c : Char) : Bool :=
  c == ' ' || c == '\t' || c == '\n' || c == '\r' || c == Char.ofNat 12

def isAsciiLower (c : Char) : Bool := 'a' ≤ c && c ≤ 'z'

def isAsciiUpper (c : Char) : Bool := 'A' ≤ c && c ≤ 'Z'

def isAsciiLetter (c : Char) : Bool := isAsciiLower c || isAsciiUpper c

def isDigit (c : Char) : Bool := '0' ≤ c && c ≤ '9'

def trimStart (t : Text) : Text := t.dropWhile isBlank

def trimEnd : Text → Text
  | [] => []
  | c :: t =>
    match trimEnd t with
    | [] => if isBlank c then [] else [c]
    | r => c :: r

def trim (t : Text) : Text := trimEnd (trimStart t)

def isAllBlank (t : Text) : Bool := t.all isBlank

def trimmed? (t : Text) : Option Text :=
  match trim t with
  | [] => none
  | r => some r

def byteLength (t : Text) : Nat := t.foldr (fun c n => c.utf8Size + n) 0

@[simp] theorem byteLength_nil : byteLength [] = 0 := rfl

@[simp] theorem byteLength_cons (c : Char) (t : Text) :
    byteLength (c :: t) = c.utf8Size + byteLength t := rfl

@[simp] theorem byteLength_append (s t : Text) :
    byteLength (s ++ t) = byteLength s + byteLength t := by
  induction s with
  | nil => simp
  | cons c s ih => simp [ih, Nat.add_assoc]

def splitOnce (p : Char → Bool) : Text → Option (Text × Text)
  | [] => none
  | c :: t => if p c then some ([], t) else (splitOnce p t).map fun (a, b) => (c :: a, b)

def splitAll (sep : Char) : Text → List Text
  | [] => [[]]
  | c :: t =>
    if c = sep then [] :: splitAll sep t
    else
      match splitAll sep t with
      | [] => [[c]]
      | piece :: rest => (c :: piece) :: rest

theorem splitAll_ne_nil (sep : Char) (t : Text) : splitAll sep t ≠ [] := by
  cases t with
  | nil => simp [splitAll]
  | cons c t => simp only [splitAll]; split <;> (try split) <;> simp

def stripFront? : Text → Text → Option Text
  | [], t => some t
  | _ :: _, [] => none
  | p :: ps, c :: t => if p = c then stripFront? ps t else none

theorem stripFront?_eq_some_iff {p t r : Text} : stripFront? p t = some r ↔ t = p ++ r := by
  induction p generalizing t with
  | nil => simp [stripFront?]
  | cons a p ih =>
    cases t with
    | nil => simp [stripFront?]
    | cons c t =>
      by_cases h : a = c
      · simp [stripFront?, h, ih]
      · simp only [stripFront?, h, if_false, List.cons_append, List.cons.injEq, reduceCtorEq,
          false_iff, not_and]
        exact fun e => absurd e.symm h

@[simp] theorem stripFront?_append (p t : Text) : stripFront? p (p ++ t) = some t :=
  stripFront?_eq_some_iff.2 rfl

def startsWith (p t : Text) : Bool := (stripFront? p t).isSome

def cut? (pat : Text) : Text → Option (Text × Text)
  | [] => if pat = [] then some ([], []) else none
  | c :: t =>
    match stripFront? pat (c :: t) with
    | some rest => some ([], rest)
    | none => (cut? pat t).map fun (a, b) => (c :: a, b)

theorem cut?_eq_append {pat t a b : Text} (h : cut? pat t = some (a, b)) : t = a ++ pat ++ b := by
  induction t generalizing a with
  | nil =>
    by_cases hp : pat = [] <;> simp [cut?, hp] at h
    simp [h, hp]
  | cons c t ih =>
    simp only [cut?] at h
    split at h
    · next rest hr =>
      obtain ⟨rfl, rfl⟩ : [] = a ∧ rest = b := by simpa using h
      simpa using stripFront?_eq_some_iff.1 hr
    · obtain ⟨⟨a', b'⟩, hc, he⟩ := Option.map_eq_some_iff.1 h
      obtain ⟨rfl, rfl⟩ : c :: a' = a ∧ b' = b := by simpa using he
      simp [ih hc]

def cutLast? (pat : Text) : Text → Option (Text × Text)
  | [] => if pat = [] then some ([], []) else none
  | c :: t =>
    match cutLast? pat t with
    | some (a, b) => some (c :: a, b)
    | none => (stripFront? pat (c :: t)).map fun rest => ([], rest)

theorem cutLast?_eq_append {pat t a b : Text} (h : cutLast? pat t = some (a, b)) :
    t = a ++ pat ++ b := by
  induction t generalizing a b with
  | nil =>
    by_cases hp : pat = [] <;> simp [cutLast?, hp] at h
    simp [h, hp]
  | cons c t ih =>
    simp only [cutLast?] at h
    split at h
    · next a' b' hc =>
      obtain ⟨rfl, rfl⟩ : c :: a' = a ∧ b' = b := by simpa using h
      simp [ih hc]
    · obtain ⟨rest, hr, he⟩ := Option.map_eq_some_iff.1 h
      obtain ⟨rfl, rfl⟩ : [] = a ∧ rest = b := by simpa using he
      simpa using stripFront?_eq_some_iff.1 hr

def containsText (pat t : Text) : Bool := (cut? pat t).isSome

def firstRule? (rules : List (Text × Text)) (t : Text) : Option (Text × Text) :=
  rules.find? fun rule => startsWith rule.1 t

/-- Replaces patterns from the left without overlap, after skipping `skip` characters that an
earlier match has used up. -/
def substituteFrom (rules : List (Text × Text)) : Nat → Text → Text
  | _, [] => []
  | skip + 1, _ :: t => substituteFrom rules skip t
  | 0, c :: t =>
    match firstRule? rules (c :: t) with
    | some (pat, image) => image ++ substituteFrom rules (pat.length - 1) t
    | none => c :: substituteFrom rules 0 t

def substitute (rules : List (Text × Text)) (t : Text) : Text := substituteFrom rules 0 t

/-- Replaces every occurrence of one pattern. The empty pattern stands before each character and
at the end. -/
def replaceAll (pat image t : Text) : Text :=
  match pat with
  | [] => t.foldr (fun c r => image ++ c :: r) image
  | _ => substitute [(pat, image)] t

def asciiLower (t : Text) : Text := t.map fun c => if isAsciiUpper c then c.toLower else c

def sameIgnoringAsciiCase (s t : Text) : Bool := asciiLower s == asciiLower t

def joinWith (sep : Text) (pieces : List Text) : Text := sep.intercalate pieces

def ofNat (n : Nat) : Text := Nat.toDigits 10 n

def ofInt (n : Int) : Text :=
  match n with
  | .ofNat n => ofNat n
  | .negSucc n => '-' :: ofNat (n + 1)

def digits? (t : Text) : Option Nat :=
  if t.isEmpty || !t.all isDigit then none
  else some (t.foldl (fun n c => 10 * n + (c.toNat - 48)) 0)

end Text

end Docspec
