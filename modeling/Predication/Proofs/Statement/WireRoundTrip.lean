import Predication.Proofs.Json.Value
import Predication.Statement.WireText

namespace Predication

open Json (Spells SpellsMember)

namespace Json

theorem member?_of_mem {key : String} {v : Json} {ms : List (Option String × Json)}
    (hn : (ms.map Prod.fst).Nodup) (hm : (some key, v) ∈ ms) :
    member? key ms = some (some v) := by
  have hf : ms.filter (fun m => m.1 == some key) = [(some key, v)] := by
    induction ms with
    | nil => cases hm
    | cons m ms ih =>
      rw [List.map_cons, List.nodup_cons] at hn
      rcases List.mem_cons.mp hm with rfl | hm
      · have hrest : ms.filter (fun m => m.1 == some key) = [] := by
          rw [List.filter_eq_nil_iff]
          intro m hmem he
          exact hn.1 (List.mem_map.mpr ⟨m, hmem, beq_iff_eq.mp he⟩)
        rw [List.filter_cons_of_pos (by exact beq_self_eq_true _), hrest]
      · have hne : m.1 ≠ some key := fun he => hn.1 (List.mem_map.mpr ⟨_, hm, he.symm⟩)
        rw [List.filter_cons_of_neg (by simpa using hne), ih hn.2 hm]
  rw [member?, hf]

theorem member?_of_notMem {key : String} {ms : List (Option String × Json)}
    (h : some key ∉ ms.map Prod.fst) : member? key ms = some none := by
  have hf : ms.filter (fun m => m.1 == some key) = [] := by
    rw [List.filter_eq_nil_iff]
    intro m hm he
    exact h (List.mem_map.mpr ⟨m, hm, beq_iff_eq.mp he⟩)
  rw [member?, hf]

end Json

def WireVerb.toJson : WireVerb → Json
  | .branch v => .object [(some "branch", .text (some v))]
  | .custom n => .object [(some "custom", .text (some n))]

def Payload.toJson : Payload → Json
  | .scalar s => .text (some s)
  | .list items => .array (items.map fun s => .text (some s))

theorem WireVerb.spells_text (v : WireVerb) : Spells v.text v.toJson := by
  cases v with
  | branch v => exact Json.spells_objectOf (.cons (Json.spellsMember _ (Json.spells_quoted v)) .nil)
  | custom n => exact Json.spells_objectOf (.cons (Json.spellsMember _ (Json.spells_quoted n)) .nil)

theorem Payload.spells_text (p : Payload) : Spells p.text p.toJson := by
  cases p with
  | scalar s => exact Json.spells_quoted s
  | list items =>
    refine Json.spells_arrayOf ?_
    induction items with
    | nil => exact .nil
    | cons s items ih => exact .cons (Json.spells_quoted s) ih

namespace WireStatement

theorem verb?_toJson (v : WireVerb) : verb? v.toJson = some (some v) := by
  cases v with
  | branch v => rfl
  | custom n => rfl

theorem payload?_toJson (p : Payload) : payload? p.toJson = some p := by
  cases p with
  | scalar s => rfl
  | list items =>
    have hi : (items.map fun s => Json.text (some s)).mapM Json.text? = some items := by
      induction items with
      | nil => rfl
      | cons s items ih =>
        rw [List.map_cons, List.mapM_cons, ih]
        rfl
    rw [Payload.toJson, payload?, hi]
    rfl

def subjectJson (w : WireStatement) : Json :=
  .number (some w.subject.number.toNat)

theorem subject?_subjectJson (w : WireStatement) : subject? w.subjectJson = some w.subject := by
  have hlt : w.subject.number.toNat < 0x100000000 := w.subject.number.toNat_lt
  simp only [subjectJson, subject?, Json.number?, Option.bind_some, if_pos hlt, UInt32.ofNat_toNat]

def jsonMembers (w : WireStatement) : List (Option String × Json) :=
  [(some "scope", .text (some w.scope)),
    (some "subject", w.subjectJson),
    (some "modalVerb", .text (some w.modalVerb))] ++
  (match w.mainVerb with
    | none => []
    | some v => [(some "mainVerb", v.toJson)]) ++
  [(some "condition", .text (some w.condition)), (some "statement", w.payload.toJson)]

theorem spells_members (w : WireStatement) :
    List.Forall₂ SpellsMember w.members w.jsonMembers := by
  have hs : Spells (Text.natText w.subject.number.toNat).toList w.subjectJson := by
    rw [Text.toList_natText]
    exact Json.spells_toDigits _
  refine List.rel_append (List.rel_append ?_ ?_) ?_
  · exact .cons (Json.spellsMember _ (Json.spells_quoted _)) (.cons (Json.spellsMember _ hs)
      (.cons (Json.spellsMember _ (Json.spells_quoted _)) .nil))
  · cases w.mainVerb with
    | none => exact .nil
    | some v => exact .cons (Json.spellsMember _ v.spells_text) .nil
  · exact .cons (Json.spellsMember _ (Json.spells_quoted _))
      (.cons (Json.spellsMember _ (Payload.spells_text _)) .nil)

theorem nodup_keys (w : WireStatement) : (w.jsonMembers.map Prod.fst).Nodup := by
  cases h : w.mainVerb with
  | none => simp [jsonMembers, h]
  | some v => simp [jsonMembers, h]

theorem isSome_keys (w : WireStatement) : w.jsonMembers.all (fun m => m.1.isSome) = true := by
  cases h : w.mainVerb with
  | none => simp [jsonMembers, h]
  | some v => simp [jsonMembers, h]

theorem required_of_mem {w : WireStatement} {key : String} {v : Json}
    (h : (some key, v) ∈ w.jsonMembers) : required key w.jsonMembers = some v := by
  rw [required, Json.member?_of_mem w.nodup_keys h]
  rfl

theorem optional_of_mem {w : WireStatement} {key : String} {v : Json} (default : Json)
    (h : (some key, v) ∈ w.jsonMembers) : optional key default w.jsonMembers = some v := by
  rw [optional, Json.member?_of_mem w.nodup_keys h]
  rfl

theorem optional_mainVerb (w : WireStatement) :
    ∃ v, optional "mainVerb" .null w.jsonMembers = some v ∧ verb? v = some w.mainVerb := by
  cases h : w.mainVerb with
  | none =>
    have hm : some "mainVerb" ∉ w.jsonMembers.map Prod.fst := by
      simp [jsonMembers, h]
    refine ⟨.null, ?_, rfl⟩
    rw [optional, Json.member?_of_notMem hm]
    rfl
  | some v =>
    have hm : (some "mainVerb", v.toJson) ∈ w.jsonMembers := by
      simp [jsonMembers, h]
    exact ⟨v.toJson, optional_of_mem .null hm, verb?_toJson v⟩

theorem ofMembers?_jsonMembers (w : WireStatement) : ofMembers? w.jsonMembers = some w := by
  have hscope : required "scope" w.jsonMembers = some (.text (some w.scope)) :=
    required_of_mem (by simp [jsonMembers])
  have hsubject : required "subject" w.jsonMembers = some w.subjectJson :=
    required_of_mem (by simp [jsonMembers])
  have hmodal : optional "modalVerb" (.text (some "")) w.jsonMembers =
      some (.text (some w.modalVerb)) :=
    optional_of_mem _ (by simp [jsonMembers])
  have hcond : optional "condition" (.text (some "")) w.jsonMembers =
      some (.text (some w.condition)) :=
    optional_of_mem _ (by simp [jsonMembers])
  have hpayload : required "statement" w.jsonMembers = some w.payload.toJson :=
    required_of_mem (by simp [jsonMembers])
  obtain ⟨v, hverb, hv⟩ := w.optional_mainVerb
  rw [ofMembers?, if_pos w.isSome_keys]
  simp only [hscope, hsubject, hmodal, hverb, hcond, hpayload, bind, Option.bind]
  simp only [ofValues?, Json.text?, subject?_subjectJson, hv, payload?_toJson, bind, Option.bind]

theorem read?_text (w : WireStatement) : read? w.text = some w := by
  have hs : Spells (Json.objectOf w.members) (.object w.jsonMembers) :=
    Json.spells_objectOf w.spells_members
  rw [read?, text, Json.read?_of_spells hs]
  exact ofMembers?_jsonMembers w

end WireStatement

end Predication
