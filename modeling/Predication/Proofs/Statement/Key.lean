import Predication.Proofs.Fact.Retraction
import Predication.Proofs.Registry.Coherence
import Predication.Proofs.Text.Decimal
import Predication.Statement.Lowering

namespace Predication

open Text (natText)

namespace Registry

def standIn? (r : Registry) (id : EntityId) : Option String :=
  match r.get? id with
  | none => some ("#" ++ natText id.number.toNat)
  | some e => if e.publicName = "" then some ("anon:" ++ natText id.number.toNat) else none

/-- The public name of `id` is the one that stands for `other`. -/
def Poses (r : Registry) (id other : EntityId) : Prop :=
  ∃ n, r.standIn? other = some n ∧ r.Bears id n

variable {r : Registry}

theorem standIn?_cases (r : Registry) (id : EntityId) :
    (∃ n, r.standIn? id = some n) ∨ ∃ n, n ≠ "" ∧ r.Bears id n := by
  cases h : r.get? id with
  | none => exact .inl ⟨"#" ++ natText id.number.toNat, by rw [standIn?, h]⟩
  | some e =>
    by_cases hn : e.publicName = ""
    · exact .inl ⟨"anon:" ++ natText id.number.toNat, by simp only [standIn?, h, if_pos hn]⟩
    · exact .inr ⟨e.publicName, hn, e, h, rfl⟩

theorem standIn?_eq_some {id : EntityId} {n : String} (h : r.standIn? id = some n) :
    r.get? id = none ∧ n = "#" ++ natText id.number.toNat ∨
    r.Bears id "" ∧ n = "anon:" ++ natText id.number.toNat := by
  rw [standIn?] at h
  cases hg : r.get? id with
  | none =>
    rw [hg] at h
    exact .inl ⟨rfl, (Option.some.inj h).symm⟩
  | some e =>
    simp only [hg, Option.ite_none_right_eq_some, Option.some.injEq] at h
    exact .inr ⟨⟨e, hg, h.1⟩, h.2.symm⟩

theorem standIn?_ne_empty {id : EntityId} {n : String} (h : r.standIn? id = some n) : n ≠ "" := by
  rcases standIn?_eq_some h with ⟨-, rfl⟩ | ⟨-, rfl⟩ <;> simp [← String.toList_inj]

theorem standIn?_inj {i j : EntityId} {n : String} (hi : r.standIn? i = some n)
    (hj : r.standIn? j = some n) : i = j := by
  have number_inj (h : natText i.number.toNat = natText j.number.toNat) : i = j := by
    obtain ⟨i⟩ := i
    obtain ⟨j⟩ := j
    exact congrArg EntityId.mk (UInt32.toNat_inj.mp (Text.natText_inj.mp h))
  rcases standIn?_eq_some hi with ⟨-, rfl⟩ | ⟨-, rfl⟩ <;>
    rcases standIn?_eq_some hj with ⟨-, h⟩ | ⟨-, h⟩
  · exact number_inj (String.append_right_inj _ |>.mp h)
  · simp [← String.toList_inj] at h
  · simp [← String.toList_inj] at h
  · exact number_inj (String.append_right_inj _ |>.mp h)

end Registry

namespace Statement

/-- A part of the second text, and the colon after it, are read as belonging to the first one. -/
def Shifts (m v m' w : String) : Prop :=
  ∃ x, m' = m ++ ":" ++ x ∧ v = x ++ ":" ++ w

theorem shifts_of_append {m v m' w : String} {cs : List Char}
    (hm : m'.toList = m.toList ++ cs) (hv : ':' :: v.toList = cs ++ ':' :: w.toList) :
    m = m' ∧ v = w ∨ Shifts m v m' w := by
  cases cs with
  | nil =>
    refine .inl ⟨String.toList_inj.mp ?_, String.toList_inj.mp ?_⟩
    · exact (hm.trans (List.append_nil _)).symm
    · exact List.tail_eq_of_cons_eq hv
  | cons c cs =>
    obtain ⟨rfl, hcs⟩ := List.cons_eq_cons.mp hv
    refine .inr ⟨String.ofList cs, String.toList_inj.mp ?_, String.toList_inj.mp ?_⟩
    · simp [hm]
    · simpa using hcs

theorem colon_eq_iff (m v m' w : String) :
    m ++ ":" ++ v = m' ++ ":" ++ w ↔ m = m' ∧ v = w ∨ Shifts m v m' w ∨ Shifts m' w m v := by
  constructor
  · intro h
    have hl : m.toList ++ ':' :: v.toList = m'.toList ++ ':' :: w.toList := by
      simpa using congrArg String.toList h
    rcases List.append_eq_append_iff.mp hl with ⟨cs, hm, hv⟩ | ⟨cs, hm, hv⟩
    · exact (shifts_of_append hm hv).imp_right .inl
    · exact (shifts_of_append hm hv).imp (fun h => ⟨h.1.symm, h.2.symm⟩) .inr
  · rintro (⟨rfl, rfl⟩ | ⟨x, rfl, rfl⟩ | ⟨x, rfl, rfl⟩)
    · rfl
    · simp only [String.append_assoc]
    · simp only [String.append_assoc]

theorem not_shifts {m v m' w : String} (h : ':' ∉ m'.toList) : ¬ Shifts m v m' w := by
  rintro ⟨x, rfl, -⟩
  simp at h

structure SharesKey (r : Registry) (s t : Statement) (v w : String) : Prop where
  subject : s.subject = t.subject ∨ r.Poses s.subject t.subject ∨ r.Poses t.subject s.subject
  predicate : s.modalVerb = t.modalVerb ∧ v = w ∨
    Shifts s.modalVerb v t.modalVerb w ∨ Shifts t.modalVerb w s.modalVerb v

section Subject

variable {r : Registry} {s t : Statement}

theorem subjectName_of_bears {n : String} (h : r.Bears s.subject n) (h0 : n ≠ "") :
    s.subjectName r = n := by
  obtain ⟨e, he, rfl⟩ := h
  simp only [subjectName, he, Entity.displayName, String.isEmpty_iff, if_neg h0]

theorem subjectName_of_standIn? (hr : r.Sound) {n : String}
    (h : r.standIn? s.subject = some n) : s.subjectName r = n := by
  rcases Registry.standIn?_eq_some h with ⟨hg, rfl⟩ | ⟨⟨e, hg, he⟩, rfl⟩
  · simp only [subjectName, hg, EntityId.render]
  · simp only [subjectName, hg, Entity.displayName, String.isEmpty_iff, if_pos he,
      hr.keyed _ e hg]

theorem subjectName_eq_of_poses (hr : r.Sound) (h : r.Poses s.subject t.subject) :
    s.subjectName r = t.subjectName r := by
  obtain ⟨n, ht, hs⟩ := h
  rw [subjectName_of_bears hs (Registry.standIn?_ne_empty ht), subjectName_of_standIn? hr ht]

theorem subjectName_eq_iff (hr : r.Sound) :
    s.subjectName r = t.subjectName r ↔
      s.subject = t.subject ∨ r.Poses s.subject t.subject ∨ r.Poses t.subject s.subject := by
  constructor
  · intro h
    rcases r.standIn?_cases s.subject with ⟨m, hm⟩ | ⟨m, hm0, hm⟩ <;>
      rcases r.standIn?_cases t.subject with ⟨n, hn⟩ | ⟨n, hn0, hn⟩
    · rw [subjectName_of_standIn? hr hm, subjectName_of_standIn? hr hn] at h
      exact .inl (Registry.standIn?_inj hm (h ▸ hn))
    · rw [subjectName_of_standIn? hr hm, subjectName_of_bears hn hn0] at h
      exact .inr (.inr ⟨m, hm, h ▸ hn⟩)
    · rw [subjectName_of_bears hm hm0, subjectName_of_standIn? hr hn] at h
      exact .inr (.inl ⟨n, hn, h ▸ hm⟩)
    · rw [subjectName_of_bears hm hm0, subjectName_of_bears hn hn0] at h
      exact .inl (hr.bearer_unique hm0 hm (h ▸ hn))
  · rintro (h | h | h)
    · rw [subjectName, subjectName, h]
    · exact subjectName_eq_of_poses hr h
    · exact (subjectName_eq_of_poses hr h).symm

end Subject

section Key

variable {r : Registry} {s t : Statement} {v w : String}

theorem predicate_eq_iff (hs : s.payload = .scalar v) (ht : t.payload = .scalar w) :
    (s.lower r).predicate = (t.lower r).predicate ↔
      s.modalVerb = t.modalVerb ∧ v = w ∨
        Shifts s.modalVerb v t.modalVerb w ∨ Shifts t.modalVerb w s.modalVerb v := by
  simp only [lower, hs, ht, Payload.render, Term.action.injEq, colon_eq_iff]

theorem sharesKey_iff (hr : r.Sound) (hs : s.payload = .scalar v) (ht : t.payload = .scalar w) :
    SharesKey r s t v w ↔
      (s.lower r).subject = (t.lower r).subject ∧
        (s.lower r).predicate = (t.lower r).predicate := by
  have hsubject : (s.lower r).subject = (t.lower r).subject ↔
      s.subjectName r = t.subjectName r := Term.symbol.injEq _ _ ▸ Iff.rfl
  rw [predicate_eq_iff hs ht, hsubject, subjectName_eq_iff hr]
  exact ⟨fun h => ⟨h.subject, h.predicate⟩, fun h => ⟨h.1, h.2⟩⟩

theorem sharesKey_iff_same (hst : ¬ r.Poses s.subject t.subject)
    (hts : ¬ r.Poses t.subject s.subject)
    (hs : ':' ∉ s.modalVerb.toList) (ht : ':' ∉ t.modalVerb.toList) :
    SharesKey r s t v w ↔ s.subject = t.subject ∧ s.modalVerb = t.modalVerb ∧ v = w := by
  constructor
  · rintro ⟨hsubject, hpredicate⟩
    refine ⟨?_, ?_⟩
    · rcases hsubject with h | h | h
      · exact h
      · exact absurd h hst
      · exact absurd h hts
    · rcases hpredicate with h | h | h
      · exact h
      · exact absurd h (not_shifts ht)
      · exact absurd h (not_shifts hs)
  · rintro ⟨hsubject, hpredicate⟩
    exact ⟨.inl hsubject, .inl hpredicate⟩

end Key

theorem retracted_iff_sharesKey (steps : List NamingStep) (s t : Statement) (v w : String)
    (hs : s.payload = .scalar v) (ht : t.payload = .scalar w) :
    let r := Registry.run steps
    ((s.lower r).subject = (t.lower r).subject ∧ (s.lower r).predicate = (t.lower r).predicate ↔
      SharesKey r s t v w) ∧
    (∀ kb : FactBase, t.lower r ∈ kb.facts →
      (t.lower r ∉ (kb.retract (s.lower r).subject (s.lower r).predicate).1.facts ↔
        SharesKey r s t v w)) ∧
    (¬ r.Poses s.subject t.subject → ¬ r.Poses t.subject s.subject →
      ':' ∉ s.modalVerb.toList → ':' ∉ t.modalVerb.toList →
      (SharesKey r s t v w ↔ s.subject = t.subject ∧ s.modalVerb = t.modalVerb ∧ v = w)) := by
  intro r
  have hkey : SharesKey r s t v w ↔ (s.lower r).subject = (t.lower r).subject ∧
      (s.lower r).predicate = (t.lower r).predicate :=
    sharesKey_iff (Registry.sound_run steps) hs ht
  refine ⟨hkey.symm, ?_, sharesKey_iff_same⟩
  intro kb hmem
  rw [hkey, FactBase.mem_retract, and_iff_right hmem, not_not]
  exact and_congr eq_comm eq_comm

theorem retracted_iff_sharesKey_colon :
    let s : Statement := ⟨"def", ⟨100⟩, "can", .unbound, "", .scalar "run:fast"⟩
    let t : Statement := ⟨"def", ⟨100⟩, "can:run", .unbound, "", .scalar "fast"⟩
    let u : Statement := ⟨"def", ⟨101⟩, "can", .unbound, "", .scalar "run:fast"⟩
    let r := Registry.run [.createNamed "david" "Person", .createNamed "mary" "Person"]
    t.lower r ∉ ((FactBase.empty.add (t.lower r)).retract
      (s.lower r).subject (s.lower r).predicate).1.facts ∧
    ¬ SharesKey r s u "run:fast" "run:fast" := by
  intro s t u r
  constructor
  · refine ((retracted_iff_sharesKey
      [.createNamed "david" "Person", .createNamed "mary" "Person"] s t "run:fast" "fast"
      rfl rfl).2.1 _ (List.mem_singleton_self _)).mpr ?_
    exact ⟨.inl rfl, .inr (.inl ⟨"run", rfl, rfl⟩)⟩
  · have named (id other : EntityId) (h : r.standIn? other = none) : ¬ r.Poses id other := by
      rintro ⟨n, hn, -⟩
      cases h.symm.trans hn
    rw [(retracted_iff_sharesKey
      [.createNamed "david" "Person", .createNamed "mary" "Person"] s u "run:fast" "run:fast"
      rfl rfl).2.2 (named _ _ (by decide)) (named _ _ (by decide)) (by decide) (by decide)]
    rintro ⟨h, -⟩
    exact absurd h (by decide)

theorem different_definitions_retracted :
    let definition (id : EntityId) (modal text condition : String) : Statement :=
      ⟨"def", id, modal, .unbound, condition, .scalar text⟩
    let cases : List (List NamingStep × Statement × Statement) :=
      [([.createNamed "david" "Person"], definition ⟨100⟩ "can" "run:fast" "first",
          definition ⟨100⟩ "can:run" "fast" "second"),
        ([.create, .createNamed "anon:100" "Thing"], definition ⟨100⟩ "can" "run" "first",
          definition ⟨101⟩ "can" "run" "second"),
        ([.createNamed "#7" "Thing"], definition ⟨7⟩ "can" "run" "first",
          definition ⟨100⟩ "can" "run" "second")]
    ∀ c ∈ cases,
      let f := c.2.1.lower (Registry.run c.1)
      let g := c.2.2.lower (Registry.run c.1)
      f.subject = g.subject ∧ f.predicate = g.predicate ∧
        ((FactBase.empty.extend [f, g]).retract f.subject f.predicate).1.facts = [] := by
  decide

end Statement

end Predication
