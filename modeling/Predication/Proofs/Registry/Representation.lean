import Predication.Proofs.KeyMap
import Predication.Proofs.Registry.Roll

namespace Predication

namespace KeyMap

variable {κ α : Type} [DecidableEq κ]

theorem keys_modify (k : κ) (f : α → α) (m : KeyMap κ α) : (m.modify k f).keys = m.keys := by
  induction m with
  | nil => rfl
  | cons p rest ih =>
    obtain ⟨j, b⟩ := p
    rw [modify]
    split
    · rfl
    · exact congrArg (j :: ·) ih

theorem keys_insert_last [LT κ] [DecidableLT κ] {k : κ} {m : KeyMap κ α}
    (h : ∀ j ∈ m.keys, k ≠ j ∧ ¬ k < j) (a : α) : (m.insert k a).keys = m.keys ++ [k] := by
  induction m with
  | nil => rfl
  | cons p rest ih =>
    obtain ⟨j, b⟩ := p
    obtain ⟨hne, hlt⟩ := h j List.mem_cons_self
    rw [insert, if_neg hne, if_neg hlt]
    exact congrArg (j :: ·) (ih fun i hi => h i (List.mem_cons_of_mem j hi))

end KeyMap

inductive FieldWrite where
  | publicName (s : String)
  | thing (s : String)
  | state (s : EntityState)
  | value (v : Object)
  | properties (ps : KeyMap String Object)

def FieldWrite.apply : FieldWrite → Entity → Entity
  | .publicName s, e => { e with publicName := s }
  | .thing s, e => { e with thing := s }
  | .state s, e => { e with state := s }
  | .value v, e => { e with value := v }
  | .properties ps, e => { e with properties := ps }

theorem FieldWrite.id_apply (w : FieldWrite) (e : Entity) : (w.apply e).id = e.id := by
  cases w <;> rfl

inductive RegistryStep where
  | naming (s : NamingStep)
  | write (id : EntityId) (w : FieldWrite)

namespace Registry

def perform (r : Registry) : RegistryStep → Registry
  | .naming s => r.step s
  | .write id w => r.update id w.apply

def issued? (r : Registry) : RegistryStep → Option EntityId
  | .naming .create => some r.create.2
  | .naming (.createNamed name thing) => some (r.createNamed name thing).2
  | .naming (.assignName _ _) => none
  | .write _ _ => none

def performAll (steps : List RegistryStep) : Registry × List EntityId :=
  steps.foldl (fun (r, ids) s => (r.perform s, ids ++ (r.issued? s).toList)) (empty, [])

theorem performAll_concat (steps : List RegistryStep) (s : RegistryStep) :
    performAll (steps ++ [s]) = ((performAll steps).1.perform s,
      (performAll steps).2 ++ ((performAll steps).1.issued? s).toList) := by
  simp [performAll]

theorem length_issued_le (before after : List RegistryStep) :
    (performAll before).2.length ≤ (performAll (before ++ after)).2.length := by
  induction after using List.reverseRecOn with
  | nil => simp
  | append_singleton after s ih =>
    rw [← List.append_assoc, performAll_concat, List.length_append]
    exact Nat.le_add_right_of_le ih

/-- The entities are stored under the ids that were handed out, which are those from 100 on. -/
structure Represents (r : Registry) (ids : List EntityId) : Prop where
  keys : r.entities.keys = ids
  numbered : ∀ k id, ids[k]? = some id → id.number.toNat = 100 + k
  counter : r.nextId.toNat = 100 + ids.length
  keyed : ∀ id e, r.get? id = some e → e.id = id
  indexed : ∀ n id, r.index.get? n = some id → id ∈ ids

namespace Represents

variable {r : Registry} {ids : List EntityId} (h : Represents r ids)
include h

theorem get?_eq_none_iff (id : EntityId) : r.get? id = none ↔ id ∉ ids := by
  rw [get?, KeyMap.get?_eq_none_iff, h.keys]

theorem get?_of_mem {id : EntityId} (hid : id ∈ ids) : ∃ e, r.get? id = some e := by
  rw [← Option.ne_none_iff_exists']
  exact fun hn => (h.get?_eq_none_iff id).mp hn hid

theorem number_lt {id : EntityId} (hid : id ∈ ids) : id.number.toNat < r.nextId.toNat := by
  obtain ⟨k, hk, rfl⟩ := List.getElem_of_mem hid
  rw [h.numbered k ids[k] (List.getElem?_eq_getElem hk), h.counter]
  exact Nat.add_lt_add_left hk 100

theorem next_not_mem : ⟨r.nextId⟩ ∉ ids :=
  fun hm => Nat.lt_irrefl _ (h.number_lt hm)

theorem get?_next : r.get? ⟨r.nextId⟩ = none :=
  (h.get?_eq_none_iff _).mpr h.next_not_mem

theorem keys_create : r.create.1.entities.keys = ids ++ [⟨r.nextId⟩] := by
  rw [← h.keys]
  refine KeyMap.keys_insert_last (fun j hj => ?_) _
  have hlt : j.number.toNat < r.nextId.toNat := h.number_lt (h.keys ▸ hj)
  constructor
  · rintro rfl
    exact Nat.lt_irrefl _ hlt
  · intro hgt
    exact Nat.lt_asymm hlt (UInt32.lt_iff_toNat_lt.mp hgt)

theorem create (hroom : ids.length + 1 + 101 ≤ EntityId.count) :
    Represents r.create.1 (ids ++ [⟨r.nextId⟩]) where
  keys := h.keys_create
  numbered k id hk := by
    rw [List.getElem?_append] at hk
    split at hk
    · exact h.numbered k id hk
    · next hlt =>
      obtain ⟨hk', rfl⟩ := List.getElem?_eq_some_iff.mp hk
      simp only [List.length_singleton] at hk'
      have hlen : k = ids.length := by omega
      simpa [hlen] using h.counter
  counter := by
    have hc := h.counter
    change (r.nextId + 1).toNat = _
    rw [UInt32.toNat_add, List.length_append, List.length_singleton]
    simp only [EntityId.count, UInt32.size] at hroom
    simp only [UInt32.reduceToNat]
    omega
  keyed id e he := by
    rw [get?_create] at he
    split at he
    · next hid =>
      cases he
      exact hid.symm
    · exact h.keyed id e he
  indexed n id hn := List.mem_append_left _ (h.indexed n id hn)

theorem update (id : EntityId) {f : Entity → Entity} (hf : ∀ e, (f e).id = e.id) :
    Represents (r.update id f) ids where
  keys := (KeyMap.keys_modify id f r.entities).trans h.keys
  numbered := h.numbered
  counter := h.counter
  keyed other e he := by
    rw [get?_update] at he
    split at he
    · obtain ⟨b, hb, rfl⟩ := Option.map_eq_some_iff.mp he
      rw [hf]
      exact h.keyed other b hb
    · exact h.keyed other e he
  indexed := h.indexed

theorem dropName (e : Entity) (name : String) : Represents (r.dropName e name) ids := by
  unfold Registry.dropName
  split
  · exact h
  · refine ⟨h.keys, h.numbered, h.counter, h.keyed, ?_⟩
    intro n id hn
    rw [KeyMap.get?_erase] at hn
    split at hn
    · cases hn
    · exact h.indexed n id hn

theorem claimName {id : EntityId} (hid : id ∈ ids) (name : String) :
    Represents (r.claimName id name) ids := by
  have hi : Represents { r with index := r.index.insert name id } ids := by
    refine ⟨h.keys, h.numbered, h.counter, h.keyed, ?_⟩
    intro n other hn
    rw [KeyMap.get?_insert] at hn
    split at hn
    · exact Option.some.inj hn ▸ hid
    · exact h.indexed n other hn
  unfold Registry.claimName
  split
  · exact hi
  · next holder _ =>
    split
    · exact hi
    · exact hi.update holder (f := fun e => { e with publicName := "" }) fun _ => rfl

theorem assignName (id : EntityId) (name : String) :
    Represents (r.assignName id name).1 ids := by
  cases he : r.get? id with
  | none => rwa [assignName_of_unknown he]
  | some e =>
    have hid : id ∈ ids := by
      by_contra hid
      rw [(h.get?_eq_none_iff id).mpr hid] at he
      cases he
    rw [assignName_of_known he]
    exact ((h.dropName e name).update id (f := fun e => { e with publicName := name })
      fun _ => rfl).claimName hid name

theorem createNamed (hroom : ids.length + 1 + 101 ≤ EntityId.count) (name thing : String) :
    Represents (r.createNamed name thing).1 (ids ++ [⟨r.nextId⟩]) := by
  rw [createNamed_eq]
  exact ((h.create hroom).assignName ⟨r.nextId⟩ name).update ⟨r.nextId⟩
    (f := fun e => { e with thing := thing }) fun _ => rfl

omit h in
theorem issued?_eq {s : RegistryStep} {id : EntityId} (hs : r.issued? s = some id) :
    id = ⟨r.nextId⟩ := by
  match s with
  | .naming .create => exact (Option.some.inj hs).symm
  | .naming (.createNamed name thing) => exact (Option.some.inj hs).symm

theorem perform (s : RegistryStep)
    (hroom : (ids ++ (r.issued? s).toList).length + 101 ≤ EntityId.count) :
    Represents (r.perform s) (ids ++ (r.issued? s).toList) := by
  match s with
  | .naming .create => exact h.create (by simpa [issued?] using hroom)
  | .naming (.createNamed name thing) =>
    exact h.createNamed (by simpa [issued?] using hroom) name thing
  | .naming (.assignName id name) =>
    rw [issued?, Option.toList_none, List.append_nil]
    exact h.assignName id name
  | .write id w =>
    rw [issued?, Option.toList_none, List.append_nil]
    exact h.update id w.id_apply

end Represents

theorem represents_empty : Represents empty [] where
  keys := rfl
  numbered k id hk := by simp at hk
  counter := rfl
  keyed id e he := by simp [empty, get?] at he
  indexed n id hn := by simp [empty] at hn

theorem represents_performAll {steps : List RegistryStep}
    (h : (performAll steps).2.length + 101 ≤ EntityId.count) :
    Represents (performAll steps).1 (performAll steps).2 := by
  induction steps using List.reverseRecOn with
  | nil => exact represents_empty
  | append_singleton steps s ih =>
    have hle := length_issued_le steps [s]
    have hr := ih (by omega)
    rw [performAll_concat] at h ⊢
    exact hr.perform s h

structure Renamed (r r' : Registry) (id : EntityId) (e : Entity) (name : String) : Prop where
  found : r'.lookup? name = some { e with publicName := name }
  named : r'.get? id = some { e with publicName := name }
  holder : ∀ other, other ≠ id → r.index.get? name = some other →
    r'.get? other = (r.get? other).map Entity.unnamed
  others : ∀ other, other ≠ id → r.index.get? name ≠ some other → r'.get? other = r.get? other
  entry : r'.index.get? name = some id
  entries : ∀ n, n ≠ name → n ≠ e.publicName → r'.index.get? n = r.index.get? n
  nextId : r'.nextId = r.nextId

theorem renamed_assignName {r : Registry} {id : EntityId} {e : Entity} (h : r.get? id = some e)
    (name : String) : Renamed r (r.assignName id name).1 id e name where
  found := by
    rw [lookup?, index_assignName h, if_pos rfl]
    exact get?_assignName_self h
  named := get?_assignName_self h
  holder other ho hi := by rw [get?_assignName h ho, if_pos hi]
  others other ho hi := by rw [get?_assignName h ho, if_neg hi]
  entry := by rw [index_assignName h, if_pos rfl]
  entries n hn he := by rw [index_assignName h, if_neg hn, if_neg fun hc => he hc.1]
  nextId := nextId_assignName r id name

structure Orderly (r : Registry) (ids : List EntityId) : Prop where
  represents : Represents r ids
  unknown : ∀ id name, id ∉ ids → r.assignName id name = (r, false)
  known : ∀ id name, id ∈ ids → (r.assignName id name).2 = true ∧
    ∃ e, r.get? id = some e ∧ e.id = id ∧ Renamed r (r.assignName id name).1 id e name

theorem Represents.orderly {r : Registry} {ids : List EntityId} (h : Represents r ids) :
    Orderly r ids where
  represents := h
  unknown id name hid := assignName_of_unknown ((h.get?_eq_none_iff id).mpr hid)
  known id name hid := by
    obtain ⟨e, he⟩ := h.get?_of_mem hid
    refine ⟨?_, e, he, h.keyed id e he, renamed_assignName he name⟩
    rw [assignName_of_known he]

theorem orderly_performAll (steps : List RegistryStep)
    (h : (performAll steps).2.length + 101 ≤ EntityId.count) :
    Orderly (performAll steps).1 (performAll steps).2 ∧
    ∀ before s after id, steps = before ++ s :: after →
      (performAll before).1.issued? s = some id →
        id.number.toNat = 100 + (performAll before).2.length ∧
        (performAll before).1.get? id = none ∧
        (performAll (before ++ [s])).2 = (performAll before).2 ++ [id] ∧
        (performAll (before ++ [s])).1.nextId.toNat = id.number.toNat + 1 := by
  refine ⟨(represents_performAll h).orderly, ?_⟩
  rintro before s after id rfl hs
  have hafter := length_issued_le (before ++ [s]) after
  have hbefore := length_issued_le before [s]
  rw [List.append_assoc, List.singleton_append] at hafter
  have hr : Represents (performAll before).1 (performAll before).2 :=
    represents_performAll (by omega)
  have hr' : Represents (performAll (before ++ [s])).1 (performAll (before ++ [s])).2 :=
    represents_performAll (by omega)
  have hids : (performAll (before ++ [s])).2 = (performAll before).2 ++ [id] := by
    rw [performAll_concat, hs]
    rfl
  have hnumber : id.number.toNat = 100 + (performAll before).2.length := by
    rw [Represents.issued?_eq hs]
    exact hr.counter
  refine ⟨hnumber, ?_, hids, ?_⟩
  · rw [Represents.issued?_eq hs]
    exact hr.get?_next
  · rw [hr'.counter, hids, hnumber, List.length_append, List.length_singleton, Nat.add_assoc]

theorem orderly_performAll_overwritten :
    let steps : List RegistryStep := [
      .naming (.createNamed "car" "Vehicle"), .write ⟨100⟩ (.publicName "boat"),
      .naming (.createNamed "car" "Person"), .naming (.assignName ⟨100⟩ "car")]
    (performAll steps).2.length + 101 ≤ EntityId.count ∧
      Orderly (performAll steps).1 (performAll steps).2 ∧
      (performAll (steps.take 2)).1.get? ⟨101⟩ = none := by
  intro steps
  have hroom : (performAll steps).2.length + 101 ≤ EntityId.count := by decide
  obtain ⟨horderly, hissued⟩ := orderly_performAll steps hroom
  obtain ⟨-, hfree, -⟩ :=
    hissued (steps.take 2) (.naming (.createNamed "car" "Person")) (steps.drop 3) ⟨101⟩ rfl rfl
  exact ⟨hroom, horderly, hfree⟩

end Registry

end Predication
