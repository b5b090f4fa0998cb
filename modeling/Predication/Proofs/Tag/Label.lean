import Predication.Tag.Category
import Predication.Tag.Context
import Predication.Tag.Verb
import Mathlib.Logic.Function.Iterate

namespace Predication

/-- The table by which names are read agrees with the one by which they are shown. -/
class LawfulLexicon (α : Type) [Lexicon α] : Prop where
  read?_name : ∀ v : α, Lexicon.read? (Lexicon.name v) = some v
  eq_name_of_read? : ∀ (s : String) (v : α), Lexicon.read? s = some v → s = Lexicon.name v

/-- No name has a parenthesis that opens, as every diagnostic has. -/
class LawfulVocabulary (α : Type) [Vocabulary α] : Prop extends LawfulLexicon α where
  unbracketed : ∀ v : α, '(' ∉ (Lexicon.name v).toList

instance : LawfulVocabulary CoreVerb where
  read?_name v := by cases v <;> rfl
  eq_name_of_read? s v h := by
    simp only [Lexicon.read?] at h
    split at h <;> cases h <;> rfl
  unbracketed v := by cases v <;> decide

instance : LawfulVocabulary Condition where
  read?_name v := by cases v <;> rfl
  eq_name_of_read? s v h := by
    simp only [Lexicon.read?] at h
    split at h <;> cases h <;> rfl
  unbracketed v := by cases v <;> decide

instance : LawfulVocabulary Scope where
  read?_name v := by cases v <;> rfl
  eq_name_of_read? s v h := by
    simp only [Lexicon.read?] at h
    split at h <;> cases h <;> rfl
  unbracketed v := by cases v <;> decide

instance : LawfulLexicon KnownCategory where
  read?_name v := by cases v <;> rfl
  eq_name_of_read? s v h := by
    simp only [Lexicon.read?] at h
    split at h <;> cases h <;> rfl

instance : LawfulVocabulary ModalVerb where
  read?_name v := by cases v <;> rfl
  eq_name_of_read? s v h := by
    have hname : (v.name == s) = true := by simpa using List.find?_some h
    exact (beq_iff_eq.mp hname).symm
  unbracketed v := by cases v <;> decide

namespace Tag

section

variable {α : Type} [Lexicon α] [LawfulLexicon α]

theorem ofRaw_name (v : α) : ofRaw (Lexicon.name v) = .declared v := by
  rw [ofRaw, LawfulLexicon.read?_name]

theorem ofRaw_of_unnamed {s : String} (h : ∀ v : α, s ≠ Lexicon.name v) :
    (ofRaw s : Tag α) = .stranger s := by
  have hnone : Lexicon.read? (α := α) s = none := by
    rw [Option.eq_none_iff_forall_ne_some]
    exact fun v hv => h v (LawfulLexicon.eq_name_of_read? s v hv)
  rw [ofRaw, hnone]

theorem ofRaw_eq_declared_iff {s : String} {v : α} :
    ofRaw s = .declared v ↔ s = Lexicon.name v := by
  refine ⟨fun h => ?_, fun h => h ▸ ofRaw_name v⟩
  by_contra hs
  have hread : Lexicon.read? s = some v := by
    rw [ofRaw] at h
    split at h
    · next w hw => rw [hw, Tag.declared.inj h]
    · cases h
  exact hs (LawfulLexicon.eq_name_of_read? s v hread)

theorem raw_ofRaw (s : String) : (ofRaw s : Tag α).raw = s := by
  by_cases h : ∃ v : α, s = Lexicon.name v
  · obtain ⟨v, rfl⟩ := h
    rw [ofRaw_name, raw]
  · rw [ofRaw_of_unnamed (not_exists.mp h), raw]

end

section

variable (α : Type) [Vocabulary α]

def shown (s : String) : String :=
  (ofRaw s : Tag α).label

def diagnostic (s : String) : String :=
  Vocabulary.strangerNote α ++ ": (" ++ s ++ ")"

def Names (declared : List String) : Prop :=
  ∀ s, s ∈ declared ↔ ∃ v : α, s = Lexicon.name v

end

theorem names_map {α : Type} [Vocabulary α] (all : List α) (h : ∀ v, v ∈ all) :
    Names α (all.map Lexicon.name) := by
  intro s
  rw [List.mem_map]
  constructor
  · rintro ⟨v, -, rfl⟩
    exact ⟨v, rfl⟩
  · rintro ⟨v, rfl⟩
    exact ⟨v, h v, rfl⟩

section

variable {α : Type} [Vocabulary α]

theorem length_diagnostic (s : String) : s.length < (diagnostic α s).length := by
  have hclose : ")".length = 1 := rfl
  rw [diagnostic, String.length_append, String.length_append, hclose]
  omega

theorem diagnostic_inj {s t : String} : diagnostic α s = diagnostic α t ↔ s = t := by
  rw [diagnostic, diagnostic, String.append_left_inj, String.append_right_inj]

variable [LawfulVocabulary α] {declared : List String} (hd : Names α declared)
include hd

theorem shown_of_mem {s : String} (h : s ∈ declared) : shown α s = s := by
  obtain ⟨v, rfl⟩ := (hd s).mp h
  rw [shown, ofRaw_name, label]

theorem shown_of_notMem {s : String} (h : s ∉ declared) : shown α s = diagnostic α s := by
  rw [shown, ofRaw_of_unnamed fun v hv => h ((hd s).mpr ⟨v, hv⟩)]
  rfl

theorem diagnostic_notMem (s : String) : diagnostic α s ∉ declared := by
  intro h
  obtain ⟨v, hv⟩ := (hd _).mp h
  refine LawfulVocabulary.unbracketed v ?_
  rw [← hv]
  simp [diagnostic]

theorem shown_eq_self_iff {s : String} : shown α s = s ↔ s ∈ declared := by
  refine ⟨fun h => ?_, shown_of_mem hd⟩
  by_contra hs
  have hlt := length_diagnostic (α := α) s
  rw [← shown_of_notMem hd hs, h] at hlt
  exact Nat.lt_irrefl _ hlt

theorem shown_injective {s t : String} (h : shown α s = shown α t) : s = t := by
  by_cases hs : s ∈ declared <;> by_cases ht : t ∈ declared
  · rw [shown_of_mem hd hs, shown_of_mem hd ht] at h
    exact h
  · rw [shown_of_mem hd hs, shown_of_notMem hd ht] at h
    exact absurd (h ▸ hs) (diagnostic_notMem hd t)
  · rw [shown_of_notMem hd hs, shown_of_mem hd ht] at h
    exact absurd (h.symm ▸ ht) (diagnostic_notMem hd s)
  · rw [shown_of_notMem hd hs, shown_of_notMem hd ht] at h
    exact diagnostic_inj.mp h

theorem iterate_shown {s : String} (h : s ∉ declared) (n : Nat) :
    (shown α)^[n] s = (diagnostic α)^[n] s := by
  induction n generalizing s with
  | zero => rfl
  | succ n ih =>
    rw [Function.iterate_succ_apply, Function.iterate_succ_apply, shown_of_notMem hd h,
      ih (diagnostic_notMem hd s)]

theorem isSome_value?_iff {s : String} :
    (ofRaw s : Tag α).value?.isSome = true ↔ s ∈ declared := by
  constructor
  · intro h
    by_contra hs
    rw [ofRaw_of_unnamed fun v hv => hs ((hd s).mpr ⟨v, hv⟩)] at h
    cases h
  · intro h
    obtain ⟨v, rfl⟩ := (hd s).mp h
    rw [ofRaw_name]
    rfl

end

structure Lossless (α : Type) [Vocabulary α] (declared : List String) (opening : String) :
    Prop where
  reads : ∀ (s : String) (v : α), ofRaw s = .declared v ↔ s = Lexicon.name v
  injective : ∀ s t, shown α s = shown α t → s = t
  own : ∀ s, shown α s = s ↔ s ∈ declared
  stranger : ∀ s, s ∉ declared → shown α s = opening ++ s ++ ")"
  unnamed : ∀ s, opening ++ s ++ ")" ∉ declared
  again : ∀ s, s ∉ declared → ∀ n, (shown α)^[n] s = (fun t => opening ++ t ++ ")")^[n] s

theorem lossless {α : Type} [Vocabulary α] [LawfulVocabulary α] {declared : List String}
    {opening : String} (hd : Names α declared)
    (ho : Vocabulary.strangerNote α ++ ": (" = opening) : Lossless α declared opening := by
  subst ho
  constructor
  case reads => exact fun s v => ofRaw_eq_declared_iff
  case injective => exact fun s t => shown_injective hd
  case own => exact fun s => shown_eq_self_iff hd
  case stranger => exact fun s => shown_of_notMem hd
  case unnamed => exact diagnostic_notMem hd
  case again => exact fun s h n => iterate_shown hd h n

def declaredModalVerbs : List String :=
  ["COULD", "CAN", "BE_ABLE_TO", "COULD_HAVE", "PERMISSION", "ALLOWED_TO", "MIGHT", "MAY", "HAD_TO",
    "MUST", "WILL_HAVE_TO", "SHOULD_HAVE", "SHOULD", "NEED_TO", "NEED", "WILL_NEED"]

theorem labels_lossless :
    Lossless CoreVerb ["HAS", "DO", "IS"] "Unknown Core Verb: (" ∧
    Lossless ModalVerb declaredModalVerbs "Unknown Modal Verb: (" ∧
    Lossless Condition ["HOW", "WHEN", "WHERE"] "Unknown Attribute Condition: (" ∧
    Lossless Scope ["def", "fact", "assert", "func", "expr"] "Unknown Scope: (" ∧
    (∀ s : String,
      (((ofRaw s : Tag ModalVerb).value?.map ModalVerb.modality).isSome = true ↔
        s ∈ declaredModalVerbs) ∧
      (((ofRaw s : Tag ModalVerb).value?.map ModalVerb.tense).isSome = true ↔
        s ∈ declaredModalVerbs)) ∧
    ∀ s : String, (ofRaw s : Category).raw = s := by
  have hcore : Names CoreVerb ["HAS", "DO", "IS"] :=
    names_map CoreVerb.all fun v => by cases v <;> decide
  have hmodal : Names ModalVerb declaredModalVerbs :=
    names_map ModalVerb.all fun v => by cases v <;> decide
  have hcondition : Names Condition ["HOW", "WHEN", "WHERE"] :=
    names_map [Condition.manner, .time, .place] fun v => by cases v <;> decide
  have hscope : Names Scope ["def", "fact", "assert", "func", "expr"] :=
    names_map [Scope.definition, .fact, .assertion, .function, .expression]
      fun v => by cases v <;> decide
  refine ⟨lossless hcore ?_, lossless hmodal ?_, lossless hcondition ?_, lossless hscope ?_, ?_,
    raw_ofRaw⟩
  · decide
  · decide
  · decide
  · decide
  · intro s
    rw [Option.isSome_map, Option.isSome_map, isSome_value?_iff hmodal]
    exact ⟨Iff.rfl, Iff.rfl⟩

end Tag

end Predication
