import Docspec.Placeholder.Error

set_option autoImplicit false

namespace Docspec

def backtick : Char := Char.ofNat 96

structure Markers where
  opening : Text
  closing : Text
  opening_ne_nil : opening ≠ []
  closing_ne_nil : closing ≠ []
  opening_ne_closing : opening ≠ closing
  no_backtick : backtick ∉ opening ∧ backtick ∉ closing

namespace Markers

def ofPair (opening closing : Text) : Except MarkerError Markers :=
  if he : opening = [] ∨ closing = [] then .error .empty
  else if hs : opening = closing then .error (.equal opening)
  else if hb : backtick ∈ opening ∨ backtick ∈ closing then .error .backtick
  else .ok ⟨opening, closing, fun h => he (.inl h), fun h => he (.inr h), hs,
    fun h => hb (.inl h), fun h => hb (.inr h)⟩

theorem ofPair_eq_ok {opening closing : Text} {m : Markers}
    (h : ofPair opening closing = .ok m) : m.opening = opening ∧ m.closing = closing := by
  simp only [ofPair] at h
  split at h
  · cases h
  · split at h
    · cases h
    · split at h
      · cases h
      · cases h; exact ⟨rfl, rfl⟩

theorem ofPair_self (m : Markers) : ofPair m.opening m.closing = .ok m := by
  have bare : ¬ (backtick ∈ m.opening ∨ backtick ∈ m.closing) :=
    not_or.2 m.no_backtick
  rw [ofPair, dif_neg (not_or.2 ⟨m.opening_ne_nil, m.closing_ne_nil⟩),
    dif_neg m.opening_ne_closing, dif_neg bare]

def default : Markers where
  opening := ['\x7b', '\x7b']
  closing := ['\x7d', '\x7d']
  opening_ne_nil := by decide
  closing_ne_nil := by decide
  opening_ne_closing := by decide
  no_backtick := by decide

/-- Stands for a byte of an escaped opening marker. -/
def openingStandIn : Char := Char.ofNat 1

/-- Stands for a byte of an escaped closing marker. -/
def closingStandIn : Char := Char.ofNat 2

def isStandIn (c : Char) : Bool := c == openingStandIn || c == closingStandIn

def escaped (marker : Text) : Text := backtick :: marker ++ [backtick]

def openingRun (m : Markers) : Text :=
  List.replicate (Text.byteLength (escaped m.opening)) openingStandIn

def closingRun (m : Markers) : Text :=
  List.replicate (Text.byteLength (escaped m.closing)) closingStandIn

def escape (m : Markers) (t : Text) : Text :=
  Text.substitute [(escaped m.opening, m.openingRun), (escaped m.closing, m.closingRun)] t

def unescape (m : Markers) (t : Text) : Text :=
  Text.substitute [(m.openingRun, m.opening), (m.closingRun, m.closing)] t

structure Span where
  before : Text
  body : Text
  after : Text

/-- The first closing marker that has an opening one before it, and the last opening marker before
that: the innermost opening marker owns the closing one. -/
def nextSpan? (m : Markers) (t : Text) : Option Span :=
  match Text.cut? m.opening t with
  | none => none
  | some (before, rest) =>
    match Text.cut? m.closing rest with
    | none => none
    | some (body, after) =>
      match Text.cutLast? m.opening body with
      | none => some ⟨before, body, after⟩
      | some (outer, inner) => some ⟨before ++ m.opening ++ outer, inner, after⟩

theorem eq_append_of_nextSpan? {m : Markers} {t : Text} {s : Span} (h : m.nextSpan? t = some s) :
    t = s.before ++ m.opening ++ s.body ++ m.closing ++ s.after := by
  simp only [nextSpan?] at h
  split at h
  · cases h
  · next before rest h₁ =>
    split at h
    · cases h
    · next body after h₂ =>
      have e₁ := Text.cut?_eq_append h₁
      have e₂ := Text.cut?_eq_append h₂
      split at h
      · cases h; simp [e₁, e₂]
      · next outer inner h₃ => cases h; simp [e₁, e₂, Text.cutLast?_eq_append h₃]

theorem length_after_lt {m : Markers} {t : Text} {s : Span} (h : m.nextSpan? t = some s) :
    s.after.length < t.length := by
  have hpos := List.length_pos_iff.2 m.opening_ne_nil
  rw [eq_append_of_nextSpan? h]
  simp only [List.length_append]
  omega

end Markers

end Docspec
