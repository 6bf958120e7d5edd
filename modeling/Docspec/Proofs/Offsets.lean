import Docspec.Proofs.Scanning

set_option autoImplicit false

namespace Docspec.Text

def bytes (t : Text) : List UInt8 := t.flatMap String.utf8EncodeChar

def isBoundary (t : Text) (n : Nat) : Bool :=
  n == byteLength t || (bytes t)[n]?.any fun b => decide b.IsUTF8FirstByte

def takeBytes : Nat → Text → Text
  | 0, _ => []
  | _ + 1, [] => []
  | n + 1, c :: t => c :: takeBytes (n + 1 - c.utf8Size) t

def dropBytes : Nat → Text → Text
  | 0, t => t
  | _ + 1, [] => []
  | n + 1, c :: t => dropBytes (n + 1 - c.utf8Size) t

/-- The text between two byte offsets. There is none if they are out of order, past the end, or
inside a character. -/
def slice? (t : Text) (i j : Nat) : Option Text :=
  if i ≤ j ∧ isBoundary t i ∧ isBoundary t j then some (takeBytes (j - i) (dropBytes i t)) else none

def standsAt (pat t : Text) (n : Nat) : Bool := (bytes pat).isPrefixOf ((bytes t).drop n)

def find? (pat t : Text) : Option Nat := (List.range (byteLength t + 1)).find? (standsAt pat t)

def rfind? (pat t : Text) : Option Nat :=
  (List.range (byteLength t + 1)).reverse.find? (standsAt pat t)

section Bytes

theorem bytes_append (s t : Text) : bytes (s ++ t) = bytes s ++ bytes t := List.flatMap_append

theorem bytes_cons (c : Char) (t : Text) : bytes (c :: t) = String.utf8EncodeChar c ++ bytes t :=
  List.flatMap_cons

theorem length_bytes (t : Text) : (bytes t).length = byteLength t := by
  induction t with
  | nil => rfl
  | cons c t ih =>
    rw [bytes_cons, List.length_append, String.length_utf8EncodeChar, ih, byteLength_cons]

theorem drop_bytes (a b : Text) : (bytes (a ++ b)).drop (byteLength a) = bytes b := by
  rw [bytes_append, ← length_bytes, List.drop_left]

theorem encode_append_inj {c d : Char} {xs ys : List UInt8}
    (same : String.utf8EncodeChar c ++ xs = String.utf8EncodeChar d ++ ys) : c = d ∧ xs = ys := by
  have decoded (c : Char) (xs : List UInt8) :
      (String.utf8EncodeChar c ++ xs).toByteArray.utf8DecodeChar? 0 = some c := by
    rw [List.toByteArray_append]
    exact ByteArray.utf8DecodeChar?_utf8EncodeChar_append
  have char := decoded c xs
  rw [same, decoded] at char
  obtain rfl : d = c := Option.some.inj char
  exact ⟨rfl, List.append_cancel_left same⟩

theorem prefix_of_bytes {pat t : Text} (begins : bytes pat <+: bytes t) : pat <+: t := by
  induction pat generalizing t with
  | nil => exact List.nil_prefix
  | cons p pat ih =>
    obtain ⟨more, whole⟩ := begins
    cases t with
    | nil =>
      have none := (List.append_eq_nil_iff.1 whole).1
      rw [bytes_cons, List.append_eq_nil_iff] at none
      exact absurd none.1 String.utf8EncodeChar_ne_nil
    | cons c t =>
      rw [bytes_cons, bytes_cons, List.append_assoc] at whole
      obtain ⟨rfl, rest⟩ := encode_append_inj whole
      exact (List.prefix_cons_inj p).2 (ih ⟨more, rest⟩)

theorem getElem?_encode (c : Char) (xs : List UInt8) {n : Nat} (inside : n < c.utf8Size) :
    ∃ b, (String.utf8EncodeChar c ++ xs)[n]? = some b ∧ (b.IsUTF8FirstByte ↔ n = 0) := by
  have length := String.length_utf8EncodeChar c
  have within : n < (String.utf8EncodeChar c).length := by omega
  exact ⟨_, by rw [List.getElem?_append_left within, List.getElem?_eq_getElem within],
    UInt8.isUTF8FirstByte_getElem_utf8EncodeChar⟩

end Bytes

section Boundaries

variable {t : Text} {n : Nat}

theorem isBoundary_append (a b : Text) : isBoundary (a ++ b) (byteLength a) = true := by
  cases b with
  | nil => simp [isBoundary]
  | cons c b =>
    obtain ⟨first, found, starts⟩ := getElem?_encode c (bytes b) c.utf8Size_pos
    have here : (bytes (a ++ c :: b))[byteLength a]? = some first := by
      rw [← bytes_cons, ← drop_bytes a (c :: b), List.getElem?_drop] at found
      exact found
    simp [isBoundary, here, starts]

theorem isBoundary_iff : isBoundary t n = true ↔ ∃ a b, t = a ++ b ∧ byteLength a = n := by
  constructor
  · intro boundary
    induction t generalizing n with
    | nil =>
      obtain rfl : n = 0 := by simpa [isBoundary, bytes] using boundary
      exact ⟨[], [], rfl, rfl⟩
    | cons c t ih =>
      by_cases start : n = 0
      next => exact ⟨[], c :: t, rfl, start.symm⟩
      by_cases inside : n < c.utf8Size
      next =>
        obtain ⟨b, found, starts⟩ := getElem?_encode c (bytes t) inside
        have short : n ≠ c.utf8Size + byteLength t := by omega
        simp [isBoundary, bytes_cons, found, starts, start, short] at boundary
      next =>
        have behind : isBoundary t (n - c.utf8Size) = true := by
          have length := String.length_utf8EncodeChar c
          have later : n = c.utf8Size + byteLength t ↔ n - c.utf8Size = byteLength t := by omega
          simpa [isBoundary, bytes_cons, List.getElem?_append, length, inside, later]
            using boundary
        obtain ⟨a, b, rfl, size⟩ := ih behind
        exact ⟨c :: a, b, rfl, by rw [byteLength_cons, size]; omega⟩
  · rintro ⟨a, b, rfl, rfl⟩
    exact isBoundary_append a b

theorem byteLength_cons_succ (c : Char) (t : Text) :
    ∃ n, byteLength (c :: t) = n + 1 ∧ n + 1 - c.utf8Size = byteLength t := by
  have positive := c.utf8Size_pos
  exact ⟨byteLength (c :: t) - 1, by rw [byteLength_cons]; omega, by rw [byteLength_cons]; omega⟩

theorem byteLength_pos {t : Text} (visible : t ≠ []) : 0 < byteLength t := by
  obtain ⟨c, t, rfl⟩ := List.exists_cons_of_ne_nil visible
  obtain ⟨n, size, -⟩ := byteLength_cons_succ c t
  rw [size]
  exact Nat.succ_pos n

theorem takeBytes_append (a b : Text) : takeBytes (byteLength a) (a ++ b) = a := by
  induction a with
  | nil => cases b <;> rfl
  | cons c a ih =>
    obtain ⟨n, size, rest⟩ := byteLength_cons_succ c a
    rw [size, List.cons_append, takeBytes, rest, ih]

theorem dropBytes_append (a b : Text) : dropBytes (byteLength a) (a ++ b) = b := by
  induction a with
  | nil => cases b <;> rfl
  | cons c a ih =>
    obtain ⟨n, size, rest⟩ := byteLength_cons_succ c a
    rw [size, List.cons_append, dropBytes, rest, ih]

theorem bounds_of_slice? {i j : Nat} {piece : Text} (cut : slice? t i j = some piece) :
    i ≤ j ∧ isBoundary t i = true ∧ isBoundary t j = true := by
  rw [slice?] at cut
  split at cut
  next bounds => exact bounds
  next => cases cut

theorem slice?_append (a b c : Text) :
    slice? (a ++ b ++ c) (byteLength a) (byteLength (a ++ b)) = some b := by
  have start : isBoundary (a ++ b ++ c) (byteLength a) = true := by
    rw [List.append_assoc]
    exact isBoundary_append a (b ++ c)
  have stop := isBoundary_append (a ++ b) c
  have size : byteLength (a ++ b) - byteLength a = byteLength b := by
    rw [byteLength_append]
    omega
  rw [slice?, if_pos ⟨by rw [byteLength_append]; omega, start, stop⟩, size, List.append_assoc,
    dropBytes_append, takeBytes_append]

theorem slice?_end (a b : Text) :
    slice? (a ++ b) (byteLength a) (byteLength (a ++ b)) = some b := by
  have whole := slice?_append a b []
  rwa [List.append_nil] at whole

example : slice? ['a', 'é', 'b'] 1 3 = some ['é'] ∧ slice? ['a', 'é', 'b'] 1 2 = none := by decide

end Boundaries

section Searches

variable {pat t : Text}

theorem standsAt_iff (visible : pat ≠ []) {n : Nat} :
    standsAt pat t n = true ↔ ∃ a b, t = a ++ pat ++ b ∧ byteLength a = n := by
  rw [standsAt, List.isPrefixOf_iff_prefix]
  constructor
  · intro begins
    obtain ⟨p, rest, rfl⟩ := List.exists_cons_of_ne_nil visible
    -- The first byte of the pattern starts a character, in the pattern as in the text.
    have boundary : isBoundary t n = true := by
      obtain ⟨more, whole⟩ := begins
      rw [bytes_cons, List.append_assoc] at whole
      obtain ⟨first, found, starts⟩ := getElem?_encode p (bytes rest ++ more) p.utf8Size_pos
      have here : (bytes t)[n]? = some first := by
        rw [whole, List.getElem?_drop] at found
        exact found
      simp [isBoundary, here, starts]
    obtain ⟨a, b, rfl, rfl⟩ := isBoundary_iff.1 boundary
    rw [drop_bytes] at begins
    obtain ⟨b, rfl⟩ := prefix_of_bytes begins
    exact ⟨a, b, by simp, rfl⟩
  · rintro ⟨a, b, rfl, rfl⟩
    rw [List.append_assoc, drop_bytes, bytes_append]
    exact List.prefix_append _ _

theorem lt_of_standsAt (visible : pat ≠ []) {n : Nat} (stands : standsAt pat t n = true) :
    n ∈ List.range (byteLength t + 1) := by
  obtain ⟨a, b, rfl, rfl⟩ := (standsAt_iff visible).1 stands
  simp only [List.mem_range, byteLength_append]
  omega

theorem find?_sorted {r : Nat → Nat → Prop} {ns : List Nat} (sorted : ns.Pairwise r)
    {p : Nat → Bool} {n : Nat} (member : n ∈ ns) (found : p n = true)
    (first : ∀ m, p m = true → ¬ r m n) : ns.find? p = some n := by
  induction ns with
  | nil => cases member
  | cons m ns ih =>
    obtain ⟨before, rest⟩ := List.pairwise_cons.1 sorted
    rcases List.mem_cons.1 member with rfl | later
    · rw [List.find?_cons_of_pos found]
    · have unmatched : ¬ p m = true := fun matched => first m matched (before n later)
      rw [List.find?_cons_of_neg unmatched, ih rest later]

theorem find?_none (visible : pat ≠ []) {ns : List Nat}
    (missing : ∀ a b, t ≠ a ++ pat ++ b) : ns.find? (standsAt pat t) = none := by
  refine List.find?_eq_none.2 fun n _ stands => ?_
  obtain ⟨a, b, whole, -⟩ := (standsAt_iff visible).1 stands
  exact missing a b whole

theorem cut?_first (pat a b : Text) :
    ∃ before after, cut? pat (a ++ pat ++ b) = some (before, after) ∧ before <+: a := by
  induction a with
  | nil => exact ⟨[], b, by rw [List.nil_append, cut?_self], List.nil_prefix⟩
  | cons c a ih =>
    obtain ⟨before, after, found, first⟩ := ih
    rw [List.cons_append, List.cons_append, cut?]
    split
    next rest _ => exact ⟨[], rest, rfl, List.nil_prefix⟩
    next => exact ⟨c :: before, after, by rw [found]; rfl, (List.prefix_cons_inj c).2 first⟩

theorem cut?_behind (pat a b : Text) :
    ∃ before more, cut? pat (a ++ pat ++ b) = some (before, more ++ b) := by
  obtain ⟨before, after, found, c, rfl⟩ := cut?_first pat a b
  have whole := cut?_eq_append found
  simp only [List.append_assoc, List.append_cancel_left_eq] at whole
  have size := congrArg List.length whole
  simp only [List.length_append] at size
  obtain ⟨more, rfl⟩ : b <:+ after :=
    List.suffix_of_suffix_length_le ⟨c ++ pat, by rw [List.append_assoc, whole]⟩
      (List.suffix_append pat after) (by omega)
  exact ⟨before, more, found⟩

theorem cutLast?_last (pat a b : Text) :
    ∃ before after, cutLast? pat (a ++ pat ++ b) = some (before, after) ∧ a <+: before := by
  induction a with
  | nil =>
    rw [List.nil_append]
    cases shape : pat ++ b with
    | nil => exact ⟨[], [], by simp [cutLast?, (List.append_eq_nil_iff.1 shape).1], List.nil_prefix⟩
    | cons c t =>
      rw [cutLast?]
      split
      next before after _ => exact ⟨_, after, rfl, List.nil_prefix⟩
      next => exact ⟨[], b, by rw [← shape, stripFront?_append]; rfl, List.nil_prefix⟩
  | cons c a ih =>
    obtain ⟨before, after, found, last⟩ := ih
    rw [List.cons_append, List.cons_append, cutLast?, found]
    exact ⟨c :: before, after, rfl, (List.prefix_cons_inj c).2 last⟩

theorem byteLength_mono {a b : Text} (begins : a <+: b) : byteLength a ≤ byteLength b := by
  obtain ⟨rest, rfl⟩ := begins
  rw [byteLength_append]
  omega

theorem find?_eq (visible : pat ≠ []) (t : Text) :
    find? pat t = (cut? pat t).map fun parts => byteLength parts.1 := by
  cases found : cut? pat t with
  | none =>
    refine find?_none visible fun a b whole => ?_
    obtain ⟨before, after, other, -⟩ := cut?_first pat a b
    rw [← whole, found] at other
    cases other
  | some parts =>
    have stands : standsAt pat t (byteLength parts.1) = true :=
      (standsAt_iff visible).2 ⟨_, _, cut?_eq_append found, rfl⟩
    refine find?_sorted List.pairwise_lt_range (lt_of_standsAt visible stands) stands ?_
    intro m matched
    obtain ⟨a, b, rfl, rfl⟩ := (standsAt_iff visible).1 matched
    obtain ⟨before, after, other, first⟩ := cut?_first pat a b
    obtain rfl : parts = (before, after) := Option.some.inj (found.symm.trans other)
    exact Nat.not_lt.2 (byteLength_mono first)

theorem rfind?_eq (visible : pat ≠ []) (t : Text) :
    rfind? pat t = (cutLast? pat t).map fun parts => byteLength parts.1 := by
  cases found : cutLast? pat t with
  | none =>
    refine find?_none visible fun a b whole => ?_
    obtain ⟨before, after, other, -⟩ := cutLast?_last pat a b
    rw [← whole, found] at other
    cases other
  | some parts =>
    have stands : standsAt pat t (byteLength parts.1) = true :=
      (standsAt_iff visible).2 ⟨_, _, cutLast?_eq_append found, rfl⟩
    have member := List.mem_reverse.2 (lt_of_standsAt visible stands)
    refine find?_sorted (List.pairwise_reverse.2 List.pairwise_lt_range) member stands ?_
    intro m matched
    obtain ⟨a, b, rfl, rfl⟩ := (standsAt_iff visible).1 matched
    obtain ⟨before, after, other, last⟩ := cutLast?_last pat a b
    obtain rfl : parts = (before, after) := Option.some.inj (found.symm.trans other)
    exact Nat.not_lt.2 (byteLength_mono last)

end Searches

end Docspec.Text
