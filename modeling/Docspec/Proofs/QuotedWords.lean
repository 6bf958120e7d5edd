import Docspec.Config.Words
import Docspec.Proofs.Scanning

set_option autoImplicit false

namespace Docspec.Config

open Text

def quotedChar (c : Char) : Text := if c = '"' ∨ c = '\\' then ['\\', c] else [c]

def quoted (w : Text) : Text := '"' :: (w.flatMap quotedChar ++ ['"'])

def IsPlain (c : Char) : Prop := c ≠ '"' ∧ c ≠ '\\' ∧ isAsciiBlank c = false

theorem mem_quoted {c : Char} {w : Text} (member : c ∈ quoted w) :
    c = '"' ∨ c = '\\' ∨ c ∈ w := by
  rw [quoted, List.mem_cons, List.mem_append, List.mem_flatMap, List.mem_singleton] at member
  rcases member with quote | ⟨d, among, written⟩ | quote
  · exact .inl quote
  · rw [quotedChar] at written
    split at written
    next =>
      rcases List.mem_cons.1 written with escape | own
      · exact .inr (.inl escape)
      · exact .inr (.inr (List.mem_singleton.1 own ▸ among))
    next => exact .inr (.inr (List.mem_singleton.1 written ▸ among))
  · exact .inl quote

theorem endWord_append (word : Text) (more : List Text) :
    endWord word more = [word].filter (fun w => !w.isEmpty) ++ more := by
  rw [endWord]
  cases word <;> rfl

theorem wordsFrom_quote (inQuotes : Bool) (word t : Text) :
    wordsFrom inQuotes word ('"' :: t) = wordsFrom (!inQuotes) word t := by
  rw [wordsFrom]

theorem wordsFrom_space (word t : Text) :
    wordsFrom false word (' ' :: t) = endWord word (wordsFrom false [] t) := by
  rw [wordsFrom]
  · rfl
  · decide
  · nofun

theorem wordsFrom_plain {p : Text} (plain : ∀ c ∈ p, IsPlain c) (word t : Text) :
    wordsFrom false word (p ++ t) = wordsFrom false (word ++ p) t := by
  induction p generalizing word with
  | nil => rw [List.nil_append, List.append_nil]
  | cons c p ih =>
    obtain ⟨⟨quote, escape, visible⟩, others⟩ := List.forall_mem_cons.1 plain
    have rest := ih others (word ++ [c])
    rw [List.append_assoc, List.singleton_append] at rest
    rw [List.cons_append, wordsFrom, ← rest]
    · simp [visible]
    · exact quote
    · exact fun _ _ same => absurd same escape

theorem wordsFrom_quotedChar (c : Char) (word t : Text) :
    wordsFrom true word (quotedChar c ++ t) = wordsFrom true (word ++ [c]) t := by
  by_cases special : c = '"' ∨ c = '\\'
  next =>
    rw [quotedChar, if_pos special, List.cons_append, List.cons_append, List.nil_append, wordsFrom,
      if_pos rfl]
  next =>
    obtain ⟨quote, escape⟩ := not_or.1 special
    rw [quotedChar, if_neg special, List.cons_append, List.nil_append, wordsFrom]
    · simp [escape]
    · exact quote
    · exact fun _ _ same => absurd same escape

theorem wordsFrom_quoted (w word t : Text) :
    wordsFrom false word (quoted w ++ t) = wordsFrom false (word ++ w) t := by
  have inside (word : Text) :
      wordsFrom true word (w.flatMap quotedChar ++ '"' :: t) = wordsFrom false (word ++ w) t := by
    induction w generalizing word with
    | nil => rw [List.flatMap_nil, List.nil_append, List.append_nil, wordsFrom_quote, Bool.not_true]
    | cons c w ih =>
      rw [List.flatMap_cons, List.append_assoc, wordsFrom_quotedChar, ih, List.append_assoc,
        List.singleton_append]
  rw [quoted, List.cons_append, wordsFrom_quote, List.append_assoc, List.singleton_append]
  exact inside word

theorem splitWords_solid {t : Text} (visible : t ≠ []) (plain : ∀ c ∈ t, IsPlain c) :
    splitWords t = [t] := by
  have whole := wordsFrom_plain plain [] []
  rw [List.append_nil, List.nil_append] at whole
  rw [splitWords, whole, wordsFrom, endWord]
  simp [visible]

theorem wordsFrom_join_quoted (w : Text) (ws : List Text) :
    wordsFrom false [] (joinWith [' '] ((w :: ws).map quoted)) =
      (w :: ws).filter fun v => !v.isEmpty := by
  induction ws generalizing w with
  | nil =>
    have alone : joinWith [' '] ([w].map quoted) = quoted w ++ [] := by simp [joinWith]
    rw [alone, wordsFrom_quoted, List.nil_append, wordsFrom, endWord_append, List.append_nil]
  | cons v ws ih =>
    rw [List.map_cons, List.map_cons, joinWith_cons_cons, List.append_assoc, wordsFrom_quoted,
      List.nil_append, List.singleton_append, wordsFrom_space, ← List.map_cons, ih v,
      endWord_append, ← List.filter_append, List.singleton_append]

-- The word gathered so far being empty is also how no word is told, so empty ones are lost.
theorem splitWords_join_quoted (ws : List Text) :
    splitWords (joinWith [' '] (ws.map quoted)) = ws.filter (fun w => !w.isEmpty) ∧
      (splitWords (joinWith [' '] (ws.map quoted)) = ws ↔ [] ∉ ws) := by
  have words : splitWords (joinWith [' '] (ws.map quoted)) = ws.filter fun w => !w.isEmpty := by
    cases ws with
    | nil => rfl
    | cons w ws => exact wordsFrom_join_quoted w ws
  refine ⟨words, ?_⟩
  rw [words, List.filter_eq_self]
  constructor
  · exact fun filled lost => absurd (filled [] lost) (by decide)
  · intro filled w member
    cases w with
    | nil => exact absurd member filled
    | cons c t => rfl

example : splitWords "\"a \\\" b\" \"\" \"c\\\\\"".toList = ["a \" b".toList, "c\\".toList] := by
  decide

end Docspec.Config
