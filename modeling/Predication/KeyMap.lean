namespace Predication

abbrev KeyMap (κ α : Type) := List (κ × α)

namespace KeyMap

variable {κ α : Type} [DecidableEq κ]

def get? (k : κ) : KeyMap κ α → Option α
  | [] => none
  | (j, a) :: rest => if k = j then some a else get? k rest

def contains (k : κ) (m : KeyMap κ α) : Bool :=
  (m.get? k).isSome

def insert [LT κ] [DecidableLT κ] (k : κ) (a : α) : KeyMap κ α → KeyMap κ α
  | [] => [(k, a)]
  | (j, b) :: rest =>
      if k = j then (k, a) :: rest
      else if k < j then (k, a) :: (j, b) :: rest
      else (j, b) :: insert k a rest

def erase (k : κ) : KeyMap κ α → KeyMap κ α
  | [] => []
  | (j, b) :: rest => if k = j then erase k rest else (j, b) :: erase k rest

def modify (k : κ) (f : α → α) : KeyMap κ α → KeyMap κ α
  | [] => []
  | (j, b) :: rest => if k = j then (j, f b) :: rest else (j, b) :: modify k f rest

def keys (m : KeyMap κ α) : List κ :=
  m.map Prod.fst

def values (m : KeyMap κ α) : List α :=
  m.map Prod.snd

def Ascending [LT κ] (m : KeyMap κ α) : Prop :=
  m.Pairwise (fun p q => p.1 < q.1)

@[simp] theorem get?_nil (k : κ) : get? k ([] : KeyMap κ α) = none := rfl

theorem get?_insert [LT κ] [DecidableLT κ] (k l : κ) (a : α) (m : KeyMap κ α) :
    get? l (insert k a m) = if l = k then some a else get? l m := by
  induction m with
  | nil => simp [insert, get?]
  | cons p rest ih =>
      obtain ⟨j, b⟩ := p
      simp only [insert]
      by_cases hkj : k = j
      · subst hkj
        by_cases hl : l = k <;> simp [get?, hl]
      · by_cases hlt : k < j
        · simp [hkj, hlt, get?]
        · simp only [hkj, hlt, if_false, get?, ih]
          by_cases hlj : l = j
          · subst hlj
            simp [Ne.symm hkj]
          · simp [hlj]

theorem get?_erase (k l : κ) (m : KeyMap κ α) :
    get? l (erase k m) = if l = k then none else get? l m := by
  induction m with
  | nil => simp [erase, get?]
  | cons p rest ih =>
      obtain ⟨j, b⟩ := p
      simp only [erase]
      by_cases hkj : k = j
      · subst hkj
        simp only [if_true, ih, get?]
        by_cases hl : l = k <;> simp [hl]
      · by_cases hlj : l = j
        · subst hlj
          simp [hkj, get?, Ne.symm hkj]
        · simp [hkj, get?, hlj, ih]

theorem get?_modify (k l : κ) (f : α → α) (m : KeyMap κ α) :
    get? l (modify k f m) = if l = k then (get? l m).map f else get? l m := by
  induction m with
  | nil => simp [modify, get?]
  | cons p rest ih =>
      obtain ⟨j, b⟩ := p
      simp only [modify]
      by_cases hkj : k = j
      · subst hkj
        by_cases hl : l = k <;> simp [get?, hl]
      · by_cases hlj : l = j
        · subst hlj
          simp [hkj, get?, Ne.symm hkj]
        · simp [hkj, get?, hlj, ih]

end KeyMap

end Predication
