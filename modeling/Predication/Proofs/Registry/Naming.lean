import Predication.Entity.Registry

namespace Predication

inductive NamingStep where
  | create
  | createNamed (name thing : String)
  | assignName (id : EntityId) (name : String)
  deriving DecidableEq

def Entity.unnamed (e : Entity) : Entity :=
  { e with publicName := "" }

namespace Registry

def step (r : Registry) : NamingStep → Registry
  | .create => r.create.1
  | .createNamed name thing => (r.createNamed name thing).1
  | .assignName id name => (r.assignName id name).1

def run (steps : List NamingStep) : Registry :=
  steps.foldl step empty

theorem run_concat (steps : List NamingStep) (s : NamingStep) :
    run (steps ++ [s]) = (run steps).step s := by
  simp [run]

theorem get?_create (r : Registry) (id : EntityId) :
    r.create.1.get? id = if id = ⟨r.nextId⟩ then some { id := ⟨r.nextId⟩ } else r.get? id := by
  simp [create, get?, KeyMap.get?_insert]

theorem index_create (r : Registry) : r.create.1.index = r.index := rfl

theorem get?_dropName (r : Registry) (e : Entity) (name : String) (id : EntityId) :
    (r.dropName e name).get? id = r.get? id := by
  unfold dropName
  split <;> rfl

theorem index_dropName (r : Registry) (e : Entity) (name n : String) (hn : n ≠ name) :
    (r.dropName e name).index.get? n =
      if n = e.publicName ∧ n ≠ "" then none else r.index.get? n := by
  unfold dropName
  split
  · next h =>
    rw [if_neg]
    rintro ⟨rfl, hne⟩
    simp [hne, hn] at h
  · next h =>
    simp only [Bool.or_eq_true, not_or, String.isEmpty_iff] at h
    rw [KeyMap.get?_erase]
    by_cases hp : n = e.publicName
    · have hne : n ≠ "" := fun h0 => h.1 (hp ▸ h0)
      rw [if_pos hp, if_pos ⟨hp, hne⟩]
    · rw [if_neg hp, if_neg fun h' => hp h'.1]

theorem index_dropName_self (r : Registry) (e : Entity) (name : String) :
    (r.dropName e name).index.get? name = r.index.get? name := by
  unfold dropName
  split
  · rfl
  · next h =>
    simp only [Bool.or_eq_true, not_or, beq_iff_eq] at h
    rw [KeyMap.get?_erase, if_neg (Ne.symm h.2)]

theorem index_claimName (r : Registry) (id : EntityId) (name n : String) :
    (r.claimName id name).index.get? n = if n = name then some id else r.index.get? n := by
  rw [← KeyMap.get?_insert]
  unfold claimName
  split
  · rfl
  · split <;> rfl

theorem get?_claimName (r : Registry) (id other : EntityId) (name : String) (ho : other ≠ id) :
    (r.claimName id name).get? other =
      if r.index.get? name = some other then (r.get? other).map Entity.unnamed
      else r.get? other := by
  unfold claimName
  split
  · next h => simp [h, get?]
  · next holder h =>
    rw [h]
    split
    · next hh =>
      rw [if_neg fun h' => ho ((Option.some.inj h').symm.trans hh)]
      rfl
    · rw [get?_update]
      by_cases hh : other = holder
      · rw [if_pos hh, if_pos (hh ▸ rfl)]
        rfl
      · rw [if_neg hh, if_neg fun h' => hh (Option.some.inj h').symm]
        rfl

theorem get?_claimName_self (r : Registry) (id : EntityId) (name : String) :
    (r.claimName id name).get? id = r.get? id := by
  unfold claimName
  split
  · rfl
  · next holder _ =>
    split
    · rfl
    · next hh =>
      rw [get?_update, if_neg (Ne.symm hh)]
      rfl

section Known

variable {r : Registry} {id : EntityId} {e : Entity} {name : String} (h : r.get? id = some e)
include h

theorem assignName_of_known :
    r.assignName id name = (((r.dropName e name).update id
      (fun e => { e with publicName := name })).claimName id name, true) := by
  simp [assignName, h]

theorem get?_assignName_self :
    (r.assignName id name).1.get? id = some { e with publicName := name } := by
  rw [assignName_of_known h, get?_claimName_self, get?_update, if_pos rfl, get?_dropName, h]
  rfl

theorem get?_assignName {other : EntityId} (ho : other ≠ id) :
    (r.assignName id name).1.get? other =
      if r.index.get? name = some other then (r.get? other).map Entity.unnamed
      else r.get? other := by
  rw [assignName_of_known h, get?_claimName _ _ _ _ ho, get?_update, if_neg ho, get?_dropName,
    ← index_dropName_self r e name]
  rfl

theorem index_assignName (n : String) :
    (r.assignName id name).1.index.get? n =
      if n = name then some id
      else if n = e.publicName ∧ n ≠ "" then none else r.index.get? n := by
  rw [assignName_of_known h, index_claimName]
  by_cases hn : n = name
  · rw [if_pos hn, if_pos hn]
  · rw [if_neg hn, if_neg hn]
    exact index_dropName r e name n hn

end Known

theorem createNamed_eq (r : Registry) (name thing : String) :
    (r.createNamed name thing).1 = (r.create.1.assignName ⟨r.nextId⟩ name).1.update ⟨r.nextId⟩
      (fun e => { e with thing := thing }) := rfl

theorem get?_create_self (r : Registry) :
    r.create.1.get? ⟨r.nextId⟩ = some { id := ⟨r.nextId⟩ } := by
  rw [get?_create, if_pos rfl]

theorem get?_createNamed_self (r : Registry) (name thing : String) :
    (r.createNamed name thing).1.get? ⟨r.nextId⟩ =
      some { id := ⟨r.nextId⟩, publicName := name, thing := thing } := by
  rw [createNamed_eq, get?_update, if_pos rfl, get?_assignName_self (get?_create_self r)]
  rfl

theorem get?_createNamed (r : Registry) (name thing : String) {other : EntityId}
    (ho : other ≠ ⟨r.nextId⟩) :
    (r.createNamed name thing).1.get? other =
      if r.index.get? name = some other then (r.get? other).map Entity.unnamed
      else r.get? other := by
  rw [createNamed_eq, get?_update, if_neg ho, get?_assignName (get?_create_self r) ho,
    index_create, get?_create, if_neg ho]

theorem index_createNamed (r : Registry) (name thing n : String) :
    (r.createNamed name thing).1.index.get? n =
      if n = name then some ⟨r.nextId⟩ else r.index.get? n := by
  have hi : (r.createNamed name thing).1.index = (r.create.1.assignName ⟨r.nextId⟩ name).1.index :=
    rfl
  rw [hi, index_assignName (get?_create_self r), index_create]
  by_cases hn : n = ""
  · simp [hn]
  · have hne : ¬(n = ({ id := ⟨r.nextId⟩ } : Entity).publicName ∧ n ≠ "") := fun h => hn h.1
    rw [if_neg hne]

end Registry

end Predication
