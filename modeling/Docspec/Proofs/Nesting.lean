import Docspec.Document.Event
import Mathlib.Data.List.Basic

set_option autoImplicit false

namespace Docspec

def Construct.isCode : Construct → Bool
  | .fence _ | .indentedCode => true
  | _ => false

def Construct.isLevelled : Construct → Bool
  | .heading level => 1 ≤ level && level ≤ 6
  | _ => true

namespace Event

def inCode (enclosing : List Construct) : Bool := enclosing.head?.any Construct.isCode

/-- Whether events nest properly inside constructs that have started, the innermost first, and stop
all of them. -/
def nestIn : List Construct → List Event → Bool
  | enclosing, [] => enclosing.isEmpty
  | enclosing, e :: es =>
    match e.kind with
    | .start c => !inCode enclosing && c.isLevelled && nestIn (c :: enclosing) es
    | .stop =>
      match enclosing with
      | [] => false
      | _ :: outer => nestIn outer es
    | .text _ => nestIn enclosing es
    | _ => !inCode enclosing && nestIn enclosing es

def nest (es : List Event) : Bool := nestIn [] es

def isLeaf (e : Event) : Bool :=
  match e.kind with
  | .start _ | .stop => false
  | _ => true

def said? (e : Event) : Option Text :=
  match e.kind with
  | .text t | .code t => some t
  | .softBreak | .hardBreak => some [' ']
  | _ => none

end Event

/-- A part of a document: an event without parts, code with the places and contents of its texts, or
any other construct with its parts. What starts and stops has a place for either. -/
inductive Part
  | leaf (e : Event) (single : e.isLeaf = true)
  | code (c : Construct) (isCode : c.isCode = true) (start : Nat) (texts : List (Nat × Text))
    (stop : Nat)
  | within (c : Construct) (noCode : c.isCode = false) (levelled : c.isLevelled = true)
    (start : Nat) (inside : List Part) (stop : Nat)

namespace Part

def textEvents (texts : List (Nat × Text)) : List Event :=
  texts.map fun (offset, t) => ⟨.text t, offset⟩

mutual

def events : Part → List Event
  | leaf e _ => [e]
  | code c _ start texts stop => ⟨.start c, start⟩ :: (textEvents texts ++ [⟨.stop, stop⟩])
  | within c _ _ start inside stop =>
    ⟨.start c, start⟩ :: (eventsOfAll inside ++ [⟨.stop, stop⟩])

def eventsOfAll : List Part → List Event
  | [] => []
  | p :: ps => p.events ++ eventsOfAll ps

end

end Part

namespace Event

open Docspec.Part

def Stops : List Construct → List Event → Prop
  | [], rest => rest = []
  | _ :: outer, rest => ∃ stop more, rest = ⟨.stop, stop⟩ :: more ∧ nestIn outer more = true

variable {enclosing : List Construct} {es : List Event}

theorem exists_texts (coded : inCode enclosing = true) (nested : nestIn enclosing es = true) :
    ∃ texts rest, es = textEvents texts ++ rest ∧ Stops enclosing rest := by
  induction es with
  | nil =>
    have bare : enclosing = [] := List.isEmpty_iff.1 nested
    rw [bare] at coded
    cases coded
  | cons e es ih =>
    obtain ⟨kind, offset⟩ := e
    cases kind with
    | start c => simp [nestIn, coded] at nested
    | stop =>
      cases enclosing with
      | nil => cases coded
      | cons c outer => exact ⟨[], _, rfl, offset, es, rfl, nested⟩
    | text t =>
      obtain ⟨texts, rest, rfl, stops⟩ := ih nested
      exact ⟨(offset, t) :: texts, rest, rfl, stops⟩
    | code | softBreak | hardBreak | silent => simp [nestIn, coded] at nested

theorem exists_parts_in (uncoded : inCode enclosing = false)
    (nested : nestIn enclosing es = true) :
    ∃ parts rest, es = eventsOfAll parts ++ rest ∧ Stops enclosing rest := by
  obtain ⟨n, bound⟩ : ∃ n, es.length ≤ n := ⟨_, Nat.le_refl _⟩
  -- A construct takes up its own events, and the parts behind it are found in what is left.
  induction n generalizing enclosing es with
  | zero =>
    obtain rfl := List.eq_nil_of_length_eq_zero (Nat.le_zero.1 bound)
    obtain rfl : enclosing = [] := List.isEmpty_iff.1 nested
    exact ⟨[], [], rfl, rfl⟩
  | succ n shorter =>
    cases es with
    | nil =>
      obtain rfl : enclosing = [] := List.isEmpty_iff.1 nested
      exact ⟨[], [], rfl, rfl⟩
    | cons e es =>
      obtain ⟨kind, offset⟩ := e
      have fits : es.length ≤ n := Nat.le_of_succ_le_succ bound
      have plain (single : Event.isLeaf ⟨kind, offset⟩ = true)
          (behind : nestIn enclosing es = true) :
          ∃ parts rest, ⟨kind, offset⟩ :: es = eventsOfAll parts ++ rest ∧
            Stops enclosing rest := by
        obtain ⟨parts, rest, rfl, stops⟩ := shorter uncoded behind fits
        exact ⟨.leaf _ single :: parts, rest, rfl, stops⟩
      cases kind with
      | start c =>
        simp only [nestIn, uncoded, Bool.not_false, Bool.true_and, Bool.and_eq_true] at nested
        obtain ⟨levelled, inner⟩ := nested
        cases isCode : c.isCode with
        | true =>
          have coded : inCode (c :: enclosing) = true := isCode
          obtain ⟨texts, _, rfl, stop, more, rfl, outside⟩ := exists_texts coded inner
          have less : more.length ≤ n := by
            rw [List.length_append, List.length_cons] at fits
            omega
          obtain ⟨parts, rest, rfl, stops⟩ := shorter uncoded outside less
          refine ⟨.code c isCode offset texts stop :: parts, rest, ?_, stops⟩
          simp [eventsOfAll, events]
        | false =>
          have open_ : inCode (c :: enclosing) = false := isCode
          obtain ⟨inside, _, rfl, stop, more, rfl, outside⟩ := shorter open_ inner fits
          have less : more.length ≤ n := by
            rw [List.length_append, List.length_cons] at fits
            omega
          obtain ⟨parts, rest, rfl, stops⟩ := shorter uncoded outside less
          refine ⟨.within c isCode levelled offset inside stop :: parts, rest, ?_, stops⟩
          simp [eventsOfAll, events]
      | stop =>
        cases enclosing with
        | nil => cases nested
        | cons c outer => exact ⟨[], _, rfl, offset, es, rfl, nested⟩
      | text t => exact plain rfl nested
      | code | softBreak | hardBreak | silent =>
        simp only [nestIn, uncoded, Bool.not_false, Bool.true_and] at nested
        exact plain rfl nested

theorem nestIn_texts (enclosing : List Construct) (texts : List (Nat × Text)) (rest : List Event) :
    nestIn enclosing (textEvents texts ++ rest) = nestIn enclosing rest := by
  induction texts with
  | nil => rfl
  | cons t texts ih => exact ih

mutual

theorem nestIn_part (enclosing : List Construct) (uncoded : inCode enclosing = false)
    (rest : List Event) (p : Part) :
    nestIn enclosing (p.events ++ rest) = nestIn enclosing rest := by
  cases p with
  | leaf e single =>
    obtain ⟨kind, offset⟩ := e
    cases kind with
    | start | stop => cases single
    | text | code | softBreak | hardBreak | silent => simp [events, nestIn, uncoded]
  | code c isCode start texts stop =>
    have levelled : c.isLevelled = true := by
      cases c with
      | fence | indentedCode => rfl
      | heading | quote | span | other => cases isCode
    simp [events, nestIn, uncoded, levelled, nestIn_texts]
  | within c noCode levelled start inside stop =>
    have inner := nestIn_parts (c :: enclosing) noCode (⟨.stop, stop⟩ :: rest) inside
    simpa [events, nestIn, uncoded, levelled] using inner

theorem nestIn_parts (enclosing : List Construct) (uncoded : inCode enclosing = false)
    (rest : List Event) (ps : List Part) :
    nestIn enclosing (eventsOfAll ps ++ rest) = nestIn enclosing rest := by
  cases ps with
  | nil => rfl
  | cons p ps =>
    rw [eventsOfAll, List.append_assoc, nestIn_part _ uncoded _ p, nestIn_parts _ uncoded rest ps]

end

theorem nest_iff : nest es = true ↔ ∃ parts, eventsOfAll parts = es := by
  constructor
  · intro nested
    obtain ⟨parts, rest, rfl, stops⟩ := exists_parts_in rfl nested
    obtain rfl : rest = [] := stops
    exact ⟨parts, (List.append_nil _).symm⟩
  · rintro ⟨parts, rfl⟩
    have nested := nestIn_parts [] rfl [] parts
    rwa [List.append_nil] at nested

end Event

end Docspec
