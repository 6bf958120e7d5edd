import Docspec.Text.Basic

set_option autoImplicit false

namespace Docspec

abbrev Bindings (α : Type) := List (Text × α)

namespace Bindings

variable {α : Type}

def get? (k : Text) : Bindings α → Option α
  | [] => none
  | (k', v) :: b => if k = k' then some v else get? k b

def contains (k : Text) (b : Bindings α) : Bool := (get? k b).isSome

def insert (k : Text) (v : α) : Bindings α → Bindings α
  | [] => [(k, v)]
  | (k', v') :: b =>
    if k = k' then (k, v) :: b
    else if k < k' then (k, v) :: (k', v') :: b
    else (k', v') :: insert k v b

def erase (k : Text) (b : Bindings α) : Bindings α := b.filter fun e => e.1 ≠ k

/-- Binds every name of a list in turn, so that of two equal names the later one counts. -/
def insertAll (b : Bindings α) (more : List (Text × α)) : Bindings α :=
  more.foldl (fun b e => insert e.1 e.2 b) b

def ofList (entries : List (Text × α)) : Bindings α := insertAll [] entries

def names (b : Bindings α) : List Text := b.map Prod.fst

@[simp] theorem get?_nil (k : Text) : get? k ([] : Bindings α) = none := rfl

theorem get?_insert (k k' : Text) (v : α) (b : Bindings α) :
    get? k (insert k' v b) = if k = k' then some v else get? k b := by
  induction b with
  | nil => rfl
  | cons e b ih =>
    obtain ⟨n, w⟩ := e
    by_cases h : k' = n
    · subst h; by_cases hk : k = k' <;> simp [insert, get?, hk]
    · by_cases hlt : k' < n
      · simp [insert, get?, h, hlt]
      · by_cases hk : k = n
        · subst hk
          simp only [insert, h, hlt, if_false, get?, if_true]
          exact (if_neg fun e => h e.symm).symm
        · simp [insert, get?, h, hlt, hk, ih]

@[simp] theorem get?_insert_self (k : Text) (v : α) (b : Bindings α) :
    get? k (insert k v b) = some v := by
  simp [get?_insert]

theorem get?_insert_of_ne {k k' : Text} (h : k ≠ k') (v : α) (b : Bindings α) :
    get? k (insert k' v b) = get? k b := by
  simp [get?_insert, h]

theorem get?_erase (k k' : Text) (b : Bindings α) :
    get? k (erase k' b) = if k = k' then none else get? k b := by
  induction b with
  | nil => simp [erase]
  | cons e b ih =>
    obtain ⟨n, w⟩ := e
    simp only [erase] at ih
    by_cases hn : n = k'
    · by_cases hk : k = k'
      · simp_all [erase]
      · have : ¬ k = n := fun e => hk (e.trans hn)
        simp_all [erase, get?]
    · by_cases hk : k = n
      · simp_all [erase, get?]
      · simp_all [erase, get?]

@[simp] theorem insertAll_nil (b : Bindings α) : insertAll b [] = b := rfl

@[simp] theorem insertAll_cons (b : Bindings α) (k : Text) (v : α) (more : List (Text × α)) :
    insertAll b ((k, v) :: more) = insertAll (insert k v b) more := rfl

end Bindings

end Docspec
